/-
The listing of chains, a page at a time: the cursor is the place of the last chain of a page, and the next page is taken on one side of it.
Following it downwards comes by every chain once; upwards it goes back over the first page.
-/
import Purdex.Lists.Keyset
import Purdex.Text.Joined
import Purdex.Text.Numeral
import Purdex.Trace.Lossless
import Mathlib.Data.Prod.Lex

namespace Purdex.Trace

open Keyset

/-! ## The cursor -/

/-- `strconv.FormatInt` to the base 10. -/
def formatInt (n : Int) : List Char := if n < 0 then '-' :: Numeral.format 10 n.natAbs else Numeral.format 10 n.natAbs

def inInt64 (n : Int) : Option Int := if -2 ^ 63 ≤ n ∧ n < 2 ^ 63 then some n else none

/-- `strconv.ParseInt` to the base 10 with 64 bits. -/
def parseInt : List Char → Option Int
  | '-' :: digits => (Numeral.parse 10 digits).bind fun n => inInt64 (-n)
  | '+' :: digits => (Numeral.parse 10 digits).bind fun n => inInt64 n
  | digits => (Numeral.parse 10 digits).bind fun n => inInt64 n

def encodeTraceCursor (startedAt : Int) (chainID : String) : String := String.ofList (Joined.join '|' (formatInt startedAt) chainID.toList)

def decodeTraceCursor (cursor : String) : Option (Int × String) :=
  match Joined.cut '|' cursor.toList with
  | none => none
  | some (startedAtText, chainID) =>
    match parseInt startedAtText with
    | none => none
    | some startedAt => if chainID = [] then none else some (startedAt, String.ofList chainID)

theorem digitChar_ne {d : Nat} (h : d < 10) : Numeral.digitChar d ≠ '|' ∧ Numeral.digitChar d ≠ '-' ∧ Numeral.digitChar d ≠ '+' := by
  have hall : ∀ d < 10, Numeral.digitChar d ≠ '|' ∧ Numeral.digitChar d ≠ '-' ∧ Numeral.digitChar d ≠ '+' := by decide
  exact hall d h

/-- A number begins with a digit, and is digits. -/
theorem format_cons (n : Nat) : ∃ d digits, d < 10 ∧ (∀ e ∈ digits, e < 10) ∧ Numeral.format 10 n = (d :: digits).map Numeral.digitChar := by
  obtain ⟨digits, hne, hall, heq, -⟩ := Numeral.format_eq (b := 10) (by decide) n
  obtain ⟨d, digits, rfl⟩ := List.exists_cons_of_ne_nil hne
  exact ⟨d, digits, hall d List.mem_cons_self, fun e he => hall e (List.mem_cons_of_mem d he), heq⟩

theorem bar_not_mem_format (n : Nat) : '|' ∉ Numeral.format 10 n := by
  obtain ⟨d, digits, hd, hdigits, heq⟩ := format_cons n
  rw [heq]
  intro hmem
  obtain ⟨e, he, hbar⟩ := List.mem_map.1 hmem
  refine (digitChar_ne ?_).1 hbar
  rcases List.mem_cons.1 he with rfl | he
  · exact hd
  · exact hdigits e he

theorem bar_not_mem_formatInt (n : Int) : '|' ∉ formatInt n := by
  unfold formatInt
  split
  · exact fun h => (List.mem_cons.1 h).elim (by decide) (bar_not_mem_format _)
  · exact bar_not_mem_format _

theorem parseInt_format (n : Nat) : parseInt (Numeral.format 10 n) = inInt64 n := by
  have hparse := Numeral.parse_format (b := 10) (by decide) (by decide) n
  obtain ⟨d, digits, hd, -, heq⟩ := format_cons n
  obtain ⟨-, hminus, hplus⟩ := digitChar_ne hd
  rw [heq, List.map_cons] at hparse ⊢
  unfold parseInt
  split
  · rename_i h
    exact absurd (List.cons.inj h).1 hminus
  · rename_i h
    exact absurd (List.cons.inj h).1 hplus
  · rw [hparse, Option.bind_some]

theorem parseInt_formatInt {n : Int} (h : -2 ^ 63 ≤ n ∧ n < 2 ^ 63) : parseInt (formatInt n) = some n := by
  have hin : inInt64 n = some n := if_pos h
  unfold formatInt
  split
  · have hneg : -(n.natAbs : Int) = n := by omega
    rw [parseInt, Numeral.parse_format (by decide) (by decide), Option.bind_some, hneg, hin]
  · have hpos : (n.natAbs : Int) = n := by omega
    rw [parseInt_format, hpos, hin]

/-- A cursor is read as it was written. -/
theorem decode_encode {startedAt : Int} {chainID : String} (h : -2 ^ 63 ≤ startedAt ∧ startedAt < 2 ^ 63) (hid : chainID ≠ "") :
    decodeTraceCursor (encodeTraceCursor startedAt chainID) = some (startedAt, chainID) := by
  have hlist : chainID.toList ≠ [] := fun hnil => hid (String.toList_eq_nil_iff.1 hnil)
  rw [decodeTraceCursor, encodeTraceCursor, String.toList_ofList, Joined.cut_join (bar_not_mem_formatInt startedAt)]
  simp only [parseInt_formatInt h, if_neg hlist, String.ofList_toList]

theorem encode_ne (startedAt : Int) (chainID : String) : encodeTraceCursor startedAt chainID ≠ "" := by
  intro h
  have hnil := String.toList_eq_nil_iff.2 h
  rw [encodeTraceCursor, String.toList_ofList] at hnil
  exact List.append_ne_nil_of_right_ne_nil _ (List.cons_ne_nil _ _) hnil

/-! ## Listing -/

structure TraceListFilter where
  tmuxSession : String
  paneID : String
  agentType : String
  eventName : String
  limit : Int
  cursor : String
  before : Bool
  deriving DecidableEq, Repr

structure TraceChainPage where
  chains : List TraceChain
  nextCursor : String
  deriving DecidableEq, Repr

/-- The clauses but that of the cursor; an empty field asks for nothing. -/
def TraceListFilter.admits (filter : TraceListFilter) (c : ChainRow) : Bool :=
  (filter.tmuxSession = "" ∨ c.tmuxSession = filter.tmuxSession) ∧ (filter.paneID = "" ∨ c.paneID = filter.paneID) ∧
    (filter.agentType = "" ∨ c.rootAgentType = filter.agentType) ∧ (filter.eventName = "" ∨ c.rootEventName = filter.eventName)

/-- On the side of the cursor that is asked for. -/
def beyond (before : Bool) (startedAt : Int) (chainID : String) (c : ChainRow) : Bool :=
  if before = true then c.startedAt < startedAt ∨ c.startedAt = startedAt ∧ c.chainID < chainID
  else startedAt < c.startedAt ∨ c.startedAt = startedAt ∧ chainID < c.chainID

/-- The place of a chain in the listing. -/
def ChainRow.position (c : ChainRow) : ℤ ×ₗ String := toLex (c.startedAt, c.chainID)

/-- What the query asks for of a chain, if the cursor can be read. -/
def buildTraceChainListQuery (filter : TraceListFilter) : Option (ChainRow → Bool) :=
  if filter.cursor = "" then some filter.admits
  else match decodeTraceCursor filter.cursor with
    | none => none
    | some (startedAt, chainID) => some fun c => filter.admits c && beyond filter.before startedAt chainID c

def pageLimit (filter : TraceListFilter) : Int := if filter.limit ≤ 0 then 100 else filter.limit

/-- ORDER BY started_at DESC, chain_id DESC, with one row more than the page takes. -/
def listChains (db : DB) (filter : TraceListFilter) : Option TraceChainPage :=
  match buildTraceChainListQuery filter with
  | none => none
  | some clauses =>
    let limit := (pageLimit filter).toNat + 1
    let rows := (sort ChainRow.position (db.chains.filter clauses)).take limit
    if limit - 1 < rows.length then
      some ⟨(rows.take (limit - 1)).map (·.toTraceChain), match rows[limit - 2]? with
        | some last => encodeTraceCursor last.startedAt last.chainID
        | none => ""⟩
    else some ⟨rows.map (·.toTraceChain), ""⟩

/-- The pages from a cursor on, as long as there is a next one. -/
def followPages (db : DB) (filter : TraceListFilter) : Nat → String → Option (List (List TraceChain))
  | 0, _ => none
  | fuel + 1, cursor =>
    match listChains db { filter with cursor := cursor } with
    | none => none
    | some page =>
      if page.nextCursor = "" then some [page.chains]
      else (followPages db filter fuel page.nextCursor).map (page.chains :: ·)

/-! ## Pages -/

theorem beyond_eq (before : Bool) (startedAt : Int) (chainID : String) (c : ChainRow) : beyond before startedAt chainID c =
    if before = true then decide (c.position < toLex (startedAt, chainID)) else decide (toLex (startedAt, chainID) < c.position) := by
  unfold beyond ChainRow.position
  simp only [Prod.Lex.toLex_lt_toLex]
  cases before with
  | true => rfl
  | false =>
    simp only [Bool.false_eq_true, if_false, eq_comm]

/-- The chains that a filter lists, in order. -/
def matching (db : DB) (filter : TraceListFilter) : List ChainRow := sort ChainRow.position (db.chains.filter filter.admits)

theorem positions_nodup (db : DB) : (db.chains.map ChainRow.position).Nodup := by
  refine List.Nodup.of_map (fun p : ℤ ×ₗ String => (ofLex p).2) ?_
  rw [List.map_map]
  exact db.chainIDs

theorem matching_down (db : DB) (filter : TraceListFilter) : Down ChainRow.position (matching db filter) :=
  down_sort ((positions_nodup db).sublist (List.filter_sublist.map _))

/-- One page of these rows. -/
def pageOf (limit : Nat) (rows : List ChainRow) : TraceChainPage :=
  ⟨(rows.take limit).map (·.toTraceChain),
    if limit < rows.length then (rows[limit - 1]?.map fun last => encodeTraceCursor last.startedAt last.chainID).getD "" else ""⟩

theorem pageLimit_pos (filter : TraceListFilter) : 0 < (pageLimit filter).toNat := by
  unfold pageLimit
  split <;> omega

theorem page_of_rows {limit : Nat} (hpos : 0 < limit) (rows : List ChainRow) :
    (if limit + 1 - 1 < (rows.take (limit + 1)).length then
      some (⟨((rows.take (limit + 1)).take (limit + 1 - 1)).map (·.toTraceChain), match (rows.take (limit + 1))[limit + 1 - 2]? with
        | some last => encodeTraceCursor last.startedAt last.chainID
        | none => ""⟩ : TraceChainPage)
    else some ⟨(rows.take (limit + 1)).map (·.toTraceChain), ""⟩) = some (pageOf limit rows) := by
  rw [List.length_take, Nat.add_sub_cancel, List.take_take, Nat.min_eq_left (Nat.le_succ limit), List.getElem?_take_of_lt (by omega)]
  unfold pageOf
  split
  · rename_i hlong
    rw [if_pos (by omega), show limit + 1 - 2 = limit - 1 by omega]
    cases rows[limit - 1]? <;> rfl
  · rename_i hshort
    rw [if_neg (by omega), List.take_of_length_le (by omega), List.take_of_length_le (by omega)]

theorem listChains_first (db : DB) (filter : TraceListFilter) :
    listChains db { filter with cursor := "" } = some (pageOf (pageLimit filter).toNat (matching db filter)) :=
  page_of_rows (pageLimit_pos filter) _

/-- A chain has an id, and the time it started at is a word. -/
def Stored (c : ChainRow) : Prop := c.chainID ≠ "" ∧ -2 ^ 63 ≤ c.startedAt ∧ c.startedAt < 2 ^ 63

section Follow

variable {db : DB} {filter : TraceListFilter} {front back rows : List ChainRow} {a : ChainRow}

theorem mem_of_matching (h : a ∈ matching db filter) : a ∈ db.chains :=
  (List.mem_filter.1 ((sort_perm _).mem_iff.1 h)).1

/-- The page behind a cursor is of the chains below its own, or of those above it. -/
theorem listChains_next (hstored : ∀ c ∈ db.chains, Stored c) (hsplit : matching db filter = front ++ a :: back) :
    listChains db { filter with cursor := encodeTraceCursor a.startedAt a.chainID } =
      some (pageOf (pageLimit filter).toNat (if filter.before = true then back else front)) := by
  have hdown := matching_down db filter
  have ha : a ∈ db.chains := mem_of_matching (hsplit ▸ List.mem_append_right front List.mem_cons_self)
  have hquery : buildTraceChainListQuery { filter with cursor := encodeTraceCursor a.startedAt a.chainID } =
      some fun c => filter.admits c && beyond filter.before a.startedAt a.chainID c := by
    rw [buildTraceChainListQuery, if_neg (encode_ne _ _), decode_encode (hstored a ha).2 (hstored a ha).1]
    rfl
  have hrows : sort ChainRow.position (db.chains.filter fun c => filter.admits c && beyond filter.before a.startedAt a.chainID c) =
      if filter.before = true then back else front := by
    have hfilter : (db.chains.filter fun c => filter.admits c && beyond filter.before a.startedAt a.chainID c) =
        (db.chains.filter filter.admits).filter (beyond filter.before a.startedAt a.chainID) := by
      rw [List.filter_filter]
      exact List.filter_congr fun c _ => Bool.and_comm _ _
    rw [hfilter, sort_filter ((positions_nodup db).sublist (List.filter_sublist.map _))]
    change (matching db filter).filter _ = _
    rw [hsplit] at hdown ⊢
    split
    · rename_i hbefore
      refine Eq.trans (List.filter_congr fun c _ => ?_) hdown.below
      rw [beyond_eq, if_pos hbefore]
      rfl
    · rename_i hbefore
      refine Eq.trans (List.filter_congr fun c _ => ?_) hdown.above
      rw [beyond_eq, if_neg hbefore]
      rfl
  rw [listChains, hquery]
  dsimp only
  rw [hrows]
  exact page_of_rows (pageLimit_pos filter) _

/-- A page that holds all its rows is the last; behind another the rest is followed from its last row. -/
theorem followPages_page {cursor : String} (fuel : Nat)
    (h : listChains db { filter with cursor := cursor } = some (pageOf (pageLimit filter).toNat rows)) :
    (rows.length ≤ (pageLimit filter).toNat ∧ followPages db filter (fuel + 1) cursor = some [rows.map (·.toTraceChain)]) ∨
      (pageLimit filter).toNat < rows.length ∧ ∃ front a, rows.take (pageLimit filter).toNat = front ++ [a] ∧
        rows = front ++ a :: rows.drop (pageLimit filter).toNat ∧ followPages db filter (fuel + 1) cursor = (followPages db filter fuel (encodeTraceCursor a.startedAt a.chainID)).map
          ((rows.take (pageLimit filter).toNat).map (·.toTraceChain) :: ·) := by
  rcases Nat.lt_or_ge (pageLimit filter).toNat rows.length with hlong | hshort
  · obtain ⟨front, a, htake, hsplit, hlast⟩ := exists_last (pageLimit_pos filter) hlong.le
    refine .inr ⟨hlong, front, a, htake, hsplit, ?_⟩
    have hcursor : (pageOf (pageLimit filter).toNat rows).nextCursor = encodeTraceCursor a.startedAt a.chainID := by
      rw [pageOf, if_pos hlong, hlast]
      rfl
    rw [followPages, h]
    simp only [hcursor, if_neg (encode_ne _ _)]
    rfl
  · refine .inl ⟨hshort, ?_⟩
    rw [followPages, h]
    simp only [pageOf, if_neg (not_lt.2 hshort), if_true, List.take_of_length_le hshort]

/-- Downwards from any chain of the listing come the chains behind it. -/
theorem followPages_down (hstored : ∀ c ∈ db.chains, Stored c) (hbefore : filter.before = true) : ∀ (n : Nat) (front back : List ChainRow)
    (a : ChainRow), back.length ≤ n → matching db filter = front ++ a :: back →
    ∃ pages, followPages db filter (n + 1) (encodeTraceCursor a.startedAt a.chainID) = some pages ∧
      pages.flatten = back.map (·.toTraceChain) := by
  intro n
  induction n with
  | zero =>
    intro front back a hn hsplit
    have hpage := listChains_next hstored hsplit
    rw [if_pos hbefore] at hpage
    rcases followPages_page 0 hpage with ⟨-, hlast⟩ | ⟨hlong, -⟩
    · exact ⟨_, hlast, by simp⟩
    · omega
  | succ n ih =>
    intro front back a hn hsplit
    have hpage := listChains_next hstored hsplit
    rw [if_pos hbefore] at hpage
    rcases followPages_page (n + 1) hpage with ⟨-, hlast⟩ | ⟨-, front', a', htake, hrest, hfollow⟩
    · exact ⟨_, hlast, by simp⟩
    · have hsplit' : matching db filter = (front ++ a :: front') ++ a' :: back.drop (pageLimit filter).toNat := by
        rw [hsplit, List.append_assoc, List.cons_append, ← hrest]
      have hfewer : (back.drop (pageLimit filter).toNat).length ≤ n := by
        have := pageLimit_pos filter
        rw [List.length_drop]
        omega
      obtain ⟨pages, hpages, hflat⟩ := ih _ _ _ hfewer hsplit'
      refine ⟨_, by rw [hfollow, hpages, Option.map_some], ?_⟩
      rw [List.flatten_cons, hflat, ← List.map_append, List.take_append_drop]

end Follow

/-! ## What the pages come to -/

/-- Following the cursors from the first page comes to an end, and by every chain that is listed, once and in order. -/
def Enumerates (db : DB) (filter : TraceListFilter) : Prop :=
  ∃ fuel pages, followPages db filter fuel "" = some pages ∧ pages.flatten = (matching db filter).map (·.toTraceChain)

theorem enumerates_of_before {db : DB} {filter : TraceListFilter} (hstored : ∀ c ∈ db.chains, Stored c) (hbefore : filter.before = true) :
    Enumerates db filter := by
  rcases followPages_page ((matching db filter).length + 1) (listChains_first db filter) with ⟨-, hlast⟩ | ⟨-, front, a, htake, hrest, hfollow⟩
  · exact ⟨_, _, hlast, by simp⟩
  · have hfewer : ((matching db filter).drop (pageLimit filter).toNat).length ≤ (matching db filter).length := by
      rw [List.length_drop]
      omega
    obtain ⟨pages, hpages, hflat⟩ := followPages_down hstored hbefore _ _ _ _ hfewer hrest
    refine ⟨_, _, by rw [hfollow, hpages, Option.map_some], ?_⟩
    rw [List.flatten_cons, hflat, ← List.map_append, List.take_append_drop]

/-- Upwards the second page is the first one again, but for its last chain, and there is no third. -/
theorem followPages_up {db : DB} {filter : TraceListFilter} (hstored : ∀ c ∈ db.chains, Stored c) (hbefore : filter.before = false)
    {fuel : Nat} {pages : List (List TraceChain)} (h : followPages db filter fuel "" = some pages)
    (hmore : (pageLimit filter).toNat < (matching db filter).length) :
    ∃ front a, (matching db filter).take (pageLimit filter).toNat = front ++ [a] ∧
      pages.flatten = (front ++ a :: front).map (·.toTraceChain) := by
  cases fuel with
  | zero => cases h
  | succ fuel =>
    rcases followPages_page fuel (listChains_first db filter) with ⟨hshort, -⟩ | ⟨-, front, a, htake, hrest, hfollow⟩
    · omega
    · refine ⟨front, a, htake, ?_⟩
      obtain ⟨rest, hpages, rfl⟩ := Option.map_eq_some_iff.1 (hfollow ▸ h)
      cases fuel with
      | zero => cases hpages
      | succ fuel =>
        have hpage := listChains_next hstored hrest
        rw [if_neg (by simp [hbefore])] at hpage
        have hlength : front.length < (pageLimit filter).toNat := by
          have := congrArg List.length htake
          rw [List.length_take, List.length_append, List.length_singleton] at this
          omega
        rcases followPages_page fuel hpage with ⟨-, hlast⟩ | ⟨hlong, -⟩
        · rw [hlast] at hpages
          cases hpages
          simp [htake]
        · omega

/-- The pages enumerate exactly where they are followed downwards, or where there is no second page. -/
theorem enumerates_iff (db : DB) (hstored : ∀ c ∈ db.chains, Stored c) (filter : TraceListFilter) :
    Enumerates db filter ↔ filter.before = true ∨ (matching db filter).length ≤ (pageLimit filter).toNat := by
  constructor
  · rintro ⟨fuel, pages, hpages, hflat⟩
    by_contra hnot
    obtain ⟨hbefore, hmore⟩ := not_or.1 hnot
    obtain ⟨front, a, htake, hback⟩ := followPages_up hstored (Bool.eq_false_iff.2 hbefore) hpages (not_le.1 hmore)
    have hdown := matching_down db filter
    have hsplit : matching db filter = (front ++ [a]) ++ (matching db filter).drop (pageLimit filter).toNat := by
      rw [← htake, List.take_append_drop]
    generalize hrest : (matching db filter).drop (pageLimit filter).toNat = rest at hsplit
    -- what is left out would have to be the first page again
    have hagain : rest.map (·.toTraceChain) = front.map (·.toTraceChain) := by
      rw [hback, hsplit] at hflat
      simp only [List.map_append, List.map_cons, List.append_assoc, List.singleton_append] at hflat
      exact (List.cons.inj (List.append_cancel_left hflat)).2.symm
    have hlength := congrArg List.length hrest
    rw [List.length_drop] at hlength
    obtain ⟨b, more, rfl⟩ := List.exists_cons_of_length_pos (l := rest) (by omega)
    obtain ⟨c, hc, heq⟩ := List.mem_map.1 (hagain ▸ List.mem_map_of_mem List.mem_cons_self : b.toTraceChain ∈ front.map (·.toTraceChain))
    rw [hsplit] at hdown
    have hbelow := (List.pairwise_append.1 hdown).2.2 c (List.mem_append_left _ hc) b List.mem_cons_self
    have hsame : c.position = b.position := by
      unfold ChainRow.position
      rw [heq]
    exact absurd hbelow (by rw [hsame]; exact lt_irrefl _)
  · rintro (hbefore | hshort)
    · exact enumerates_of_before hstored hbefore
    · rcases followPages_page 0 (listChains_first db filter) with ⟨-, hlast⟩ | ⟨hlong, -⟩
      · exact ⟨_, _, hlast, by simp⟩
      · omega

/-- Three chains of one time. -/
def threeChains : DB where
  chains := [⟨⟨"a", 7, 7, "", "", "", "", "", "", "", "", "", "", 0⟩, 0, []⟩, ⟨⟨"b", 7, 7, "", "", "", "", "", "", "", "", "", "", 0⟩, 0, []⟩,
    ⟨⟨"c", 7, 7, "", "", "", "", "", "", "", "", "", "", 0⟩, 0, []⟩]
  steps := []
  chainIDs := by decide
  stepIDs := List.nodup_nil
  owned := by simp

theorem threeChains_stored : ∀ c ∈ threeChains.chains, Stored c := by
  unfold Stored
  decide

/-- One at a time, without a word on the direction. -/
def upwards : TraceListFilter := ⟨"", "", "", "", 1, "", false⟩

theorem enumerates_three : ¬Enumerates threeChains upwards ∧ Enumerates threeChains { upwards with before := true } := by
  constructor
  · exact fun h => ((enumerates_iff threeChains threeChains_stored upwards).1 h).elim (by decide) (by decide)
  · exact (enumerates_iff threeChains threeChains_stored { upwards with before := true }).2 (.inl rfl)

/-- The first page holds the last of the three, the second is empty, and there is no third. -/
theorem upwards_stops : ¬Enumerates threeChains upwards := by
  rintro ⟨fuel, pages, hpages, hflat⟩
  obtain ⟨front, a, htake, hback⟩ := followPages_up threeChains_stored rfl hpages (by decide)
  have hthree : (matching threeChains upwards).length = 3 := by decide
  have hlimit : (pageLimit upwards).toNat = 1 := rfl
  have hfront := congrArg List.length htake
  have hlength := congrArg List.length (hback.symm.trans hflat)
  rw [List.length_take, hthree, hlimit, List.length_append, List.length_singleton] at hfront
  rw [List.length_map, List.length_map, List.length_append, List.length_cons, hthree] at hlength
  omega

end Purdex.Trace
