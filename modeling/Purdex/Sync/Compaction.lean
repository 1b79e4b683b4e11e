/-
Which snapshots a compaction keeps: of those taken before an operation the pristine ones and the five newest, of the others the newest of
each hour, day, week or month, the coarser the older they are.
-/
import Purdex.Lists.ByKey
import Purdex.Lists.Keyset
import Purdex.Text.Numeral
import Purdex.Time.Calendar

namespace Purdex.Sync

open Calendar

inductive SnapshotTrigger where
  | auto
  | manual
  | preImport
  | preRestore
  deriving DecidableEq, Repr

/-- The time is in milliseconds since the epoch. -/
structure SnapshotMetadata where
  id : String
  timestamp : Nat
  trigger : SnapshotTrigger
  isSessionPristine : Bool
  deriving DecidableEq, Repr

structure CompactionResult where
  kept : List String
  evicted : List String
  deriving DecidableEq, Repr

def isPreOp (m : SnapshotMetadata) : Bool := m.trigger = .preImport ∨ m.trigger = .preRestore

def preOpMax : Nat := 5

def monthlyMax : Nat := 12

/-! ## Keys -/

def hourMs : Nat := 60 * 60 * 1000

def dayMs : Nat := 24 * hourMs

/-- The day of a time, which `Date` reads its fields off. -/
def utcDay (ts : Nat) : Int := (ts / dayMs : Nat)

def utcHours (ts : Nat) : Nat := ts / hourMs % 24

/-- Two digits at least. -/
def pad (n : Int) : List Char := Numeral.padded 10 2 n.toNat

def yearText (d : Int) : List Char := Numeral.format 10 (yearFromDay d).toNat

def monthText (d : Int) : List Char := '-' :: pad (monthFromDay d + 1)

def dateText (d : Int) : List Char := '-' :: pad (dateFromDay d)

def hourKeyUTC (ts : Nat) : List Char :=
  yearText (utcDay ts) ++ (monthText (utcDay ts) ++ (dateText (utcDay ts) ++ ('T' :: pad (utcHours ts) ++ ['Z'])))

def dayKeyUTC (ts : Nat) : List Char := yearText (utcDay ts) ++ (monthText (utcDay ts) ++ (dateText (utcDay ts) ++ ['Z']))

/-- `target` is moved to the Thursday of its week, and the weeks are counted from the fourth of January, to the nearest. -/
def isoWeekKey (ts : Nat) : List Char :=
  let d := utcDay ts
  let target := makeDay (yearFromDay d) (monthFromDay d) (dateFromDay d)
  let dayNum := ((target + 4) % 7 + 6) % 7
  let target := makeDay (yearFromDay target) (monthFromDay target) (dateFromDay target - dayNum + 3)
  let firstThursday := makeDay (yearFromDay target) 0 4
  let diff := (target - firstThursday) * dayMs
  let week := 1 + (2 * diff + 7 * dayMs) / (2 * (7 * dayMs))
  yearText target ++ ('-' :: 'W' :: pad week)

def monthKey (ts : Nat) : List Char := yearText (utcDay ts) ++ monthText (utcDay ts)

inductive Tier where
  | hourly
  | daily
  | weekly
  | monthly
  deriving DecidableEq, Repr

def Tier.text : Tier → List Char
  | .hourly => "hourly".toList
  | .daily => "daily".toList
  | .weekly => "weekly".toList
  | .monthly => "monthly".toList

def Tier.key : Tier → Nat → List Char
  | .hourly => hourKeyUTC
  | .daily => dayKeyUTC
  | .weekly => isoWeekKey
  | .monthly => monthKey

/-- A snapshot from the future is younger than any. -/
def classifyTier (ageMs : Int) : Tier :=
  if ageMs < 24 * hourMs then .hourly else if ageMs < 30 * dayMs then .daily else if ageMs < 90 * dayMs then .weekly else .monthly

def tierOf (now : Nat) (m : SnapshotMetadata) : Tier := classifyTier (now - m.timestamp)

def bucketKey (now : Nat) (m : SnapshotMetadata) : List Char := (tierOf now m).text ++ ':' :: (tierOf now m).key m.timestamp

/-! ## Compaction -/

/-- `sort((a, b) => b.timestamp - a.timestamp)`, which is stable. -/
def newestFirst (l : List SnapshotMetadata) : List SnapshotMetadata := Keyset.sort SnapshotMetadata.timestamp l

/-- The values of the map, in the order in which their keys came. -/
abbrev Bucket := ByKey.Group (List Char) Tier SnapshotMetadata

def bucketsOf (now : Nat) (timeTier : List SnapshotMetadata) : List Bucket := ByKey.group (bucketKey now) (tierOf now) timeTier

def pristinePreOp (all : List SnapshotMetadata) : List SnapshotMetadata := (all.filter fun m => isPreOp m).filter fun m => m.isSessionPristine

def regularPreOp (all : List SnapshotMetadata) : List SnapshotMetadata := (all.filter fun m => isPreOp m).filter fun m => !m.isSessionPristine

def timeTier (all : List SnapshotMetadata) : List SnapshotMetadata := all.filter fun m => !isPreOp m

def newestOf (b : Bucket) : List SnapshotMetadata := (newestFirst b.items).take 1

def olderOf (b : Bucket) : List SnapshotMetadata := (newestFirst b.items).drop 1

/-- The newest of the buckets of these tiers. -/
def heads (tiers : Tier → Bool) (buckets : List Bucket) : List SnapshotMetadata := (buckets.filter fun b => tiers b.tag).flatMap newestOf

def monthlyRepresentatives (now : Nat) (all : List SnapshotMetadata) : List SnapshotMetadata :=
  newestFirst (heads (· = .monthly) (bucketsOf now (timeTier all)))

def keptOf (now : Nat) (all : List SnapshotMetadata) : List SnapshotMetadata :=
  pristinePreOp all ++ (newestFirst (regularPreOp all)).take preOpMax ++ heads (· ≠ .monthly) (bucketsOf now (timeTier all)) ++
    (monthlyRepresentatives now all).take monthlyMax

def evictedOf (now : Nat) (all : List SnapshotMetadata) : List SnapshotMetadata :=
  (newestFirst (regularPreOp all)).drop preOpMax ++ (bucketsOf now (timeTier all)).flatMap olderOf ++
    (monthlyRepresentatives now all).drop monthlyMax

def computeCompaction (all : List SnapshotMetadata) (now : Nat) : CompactionResult :=
  ⟨(keptOf now all).map (·.id), (evictedOf now all).map (·.id)⟩

/-! ## Buckets are those of the calendar -/

/-- The times are of the same hour, day, week from a Monday on, or month. -/
def Tier.Same : Tier → Nat → Nat → Prop
  | .hourly, ts, ts' => ts / hourMs = ts' / hourMs
  | .daily, ts, ts' => ts / dayMs = ts' / dayMs
  | .weekly, ts, ts' => weekOf (utcDay ts) = weekOf (utcDay ts')
  | .monthly, ts, ts' => yearFromDay (utcDay ts) = yearFromDay (utcDay ts') ∧ monthFromDay (utcDay ts) = monthFromDay (utcDay ts')

/-- The same bucket of the tier that their age puts them in. -/
def SameBucket (now : Nat) (m m' : SnapshotMetadata) : Prop :=
  tierOf now m = tierOf now m' ∧ (tierOf now m).Same m.timestamp m'.timestamp

section Keys

variable {d d' n n' : Int} {ts ts' : Nat}

theorem toNat_lt (hn : 0 ≤ n ∧ n < 100) : n.toNat < 10 ^ 2 := by
  omega

theorem length_pad (hn : 0 ≤ n ∧ n < 100) : (pad n).length = 2 := by
  obtain ⟨digits, hlen, -, hpadded, -⟩ := Numeral.padded_eq (b := 10) (by decide) (by decide : 0 < 2) (toNat_lt hn)
  rw [pad, hpadded, List.length_map, hlen]

theorem pad_inj (hn : 0 ≤ n ∧ n < 100) (hn' : 0 ≤ n' ∧ n' < 100) (h : pad n = pad n') : n = n' := by
  have hparse := Numeral.parse_padded (b := 10) (by decide) (by decide) (by decide : 0 < 2) (toNat_lt hn)
  have hparse' := Numeral.parse_padded (b := 10) (by decide) (by decide) (by decide : 0 < 2) (toNat_lt hn')
  have heq := Option.some.inj (hparse.symm.trans ((congrArg (Numeral.parse 10) h).trans hparse'))
  omega

theorem month_range (d : Int) : 0 ≤ (monthFromDay d + 1 : Int) ∧ (monthFromDay d + 1 : Int) < 100 := by
  have hle : monthFromDay d ≤ 11 := monthInYear_le _ _
  omega

theorem date_range (d : Int) : 0 ≤ dateFromDay d ∧ dateFromDay d < 100 := by
  have hbounds := dateFromDay_bounds d
  omega

theorem yearText_inj (hd : 0 ≤ d) (hd' : 0 ≤ d') (h : yearText d = yearText d') : yearFromDay d = yearFromDay d' := by
  have hparse := congrArg (Numeral.parse 10) h
  unfold yearText at hparse
  rw [Numeral.parse_format (by decide) (by decide), Numeral.parse_format (by decide) (by decide)] at hparse
  have heq := Option.some.inj hparse
  have hpos := yearFromDay_nonneg hd
  have hpos' := yearFromDay_nonneg hd'
  omega

theorem length_monthText (d : Int) : (monthText d).length = 3 := by
  rw [monthText, List.length_cons, length_pad (month_range d)]

theorem length_dateText (d : Int) : (dateText d).length = 3 := by
  rw [dateText, List.length_cons, length_pad (date_range d)]

theorem monthText_inj (h : monthText d = monthText d') : monthFromDay d = monthFromDay d' := by
  have heq := pad_inj (month_range d) (month_range d') (List.cons.inj h).2
  omega

theorem dateText_inj (h : dateText d = dateText d') : dateFromDay d = dateFromDay d' :=
  pad_inj (date_range d) (date_range d') (List.cons.inj h).2

theorem utcDay_nonneg (ts : Nat) : 0 ≤ utcDay ts := Int.natCast_nonneg _

/-- The year stands in front of texts of as many letters: it takes what they leave. -/
theorem day_of_texts {s s' : List Char} (hlen : s.length = s'.length)
    (h : yearText (utcDay ts) ++ (monthText (utcDay ts) ++ (dateText (utcDay ts) ++ s)) =
      yearText (utcDay ts') ++ (monthText (utcDay ts') ++ (dateText (utcDay ts') ++ s'))) : utcDay ts = utcDay ts' ∧ s = s' := by
  obtain ⟨hyear, h⟩ := List.append_inj' h (by simp only [List.length_append, length_monthText, length_dateText, hlen])
  obtain ⟨hmonth, h⟩ := List.append_inj h (by simp only [length_monthText])
  obtain ⟨hdate, hs⟩ := List.append_inj h (by simp only [length_dateText])
  refine ⟨?_, hs⟩
  rw [← makeDay_date (utcDay ts), ← makeDay_date (utcDay ts'), yearText_inj (utcDay_nonneg ts) (utcDay_nonneg ts') hyear, monthText_inj hmonth,
    dateText_inj hdate]

theorem dayKeyUTC_iff : dayKeyUTC ts = dayKeyUTC ts' ↔ ts / dayMs = ts' / dayMs := by
  constructor
  · intro h
    exact Int.ofNat_inj.1 (day_of_texts rfl h).1
  · intro h
    simp only [dayKeyUTC, utcDay, h]

theorem hours_range (ts : Nat) : 0 ≤ (utcHours ts : Int) ∧ (utcHours ts : Int) < 100 := by
  unfold utcHours
  omega

theorem hourKeyUTC_iff : hourKeyUTC ts = hourKeyUTC ts' ↔ ts / hourMs = ts' / hourMs := by
  have hday : ∀ ts, ts / dayMs = ts / hourMs / 24 := fun ts => by rw [dayMs, Nat.mul_comm, Nat.div_div_eq_div_mul]
  constructor
  · intro h
    obtain ⟨hsame, h⟩ := day_of_texts (by simp only [List.length_append, List.length_cons, length_pad (hours_range _)]) h
    have hhours := pad_inj (hours_range ts) (hours_range ts') (List.append_cancel_right (List.cons.inj h).2)
    have hdays : ts / hourMs / 24 = ts' / hourMs / 24 := by
      rw [← hday, ← hday]
      exact Int.ofNat_inj.1 hsame
    unfold utcHours at hhours
    omega
  · intro h
    simp only [hourKeyUTC, utcDay, utcHours, hday, h]

theorem monthKey_iff : monthKey ts = monthKey ts' ↔
    yearFromDay (utcDay ts) = yearFromDay (utcDay ts') ∧ monthFromDay (utcDay ts) = monthFromDay (utcDay ts') := by
  constructor
  · intro h
    obtain ⟨hyear, hmonth⟩ := List.append_inj' h (by simp only [length_monthText])
    exact ⟨yearText_inj (utcDay_nonneg ts) (utcDay_nonneg ts') hyear, monthText_inj hmonth⟩
  · rintro ⟨hyear, hmonth⟩
    simp only [monthKey, yearText, monthText, hyear, hmonth]

/-- The year and the number of a week are those of its Thursday. -/
theorem isoWeekKey_eq (ts : Nat) : isoWeekKey ts = yearText (thursdayOf (utcDay ts)) ++
    ('-' :: 'W' :: pad (weekInYear (yearFromDay (thursdayOf (utcDay ts))) (thursdayOf (utcDay ts)))) := by
  have hmove : ∀ d n : Int, makeDay (yearFromDay d) (monthFromDay d) (dateFromDay d - n + 3) = d - n + 3 := fun d n => by
    have hsame := makeDay_date d
    unfold makeDay at hsame ⊢
    omega
  have hthursday : utcDay ts - ((utcDay ts + 4) % 7 + 6) % 7 + 3 = thursdayOf (utcDay ts) := by
    unfold thursdayOf weekOf
    omega
  have hround : ∀ n : Int, (2 * (n * dayMs) + 7 * dayMs) / (2 * (7 * dayMs)) = (2 * n + 7) / 14 := fun n => by
    unfold dayMs hourMs
    omega
  simp only [isoWeekKey, makeDay_date, hmove, hthursday, hround]
  rw [weekInYear, makeDay, monthStart]
  ring_nf

theorem isoWeekKey_iff : isoWeekKey ts = isoWeekKey ts' ↔ weekOf (utcDay ts) = weekOf (utcDay ts') := by
  have hweeks : ∀ ts, 0 ≤ weekInYear (yearFromDay (thursdayOf (utcDay ts))) (thursdayOf (utcDay ts)) ∧
      weekInYear (yearFromDay (thursdayOf (utcDay ts))) (thursdayOf (utcDay ts)) < 100 := fun ts => by
    have hbounds := weekInYear_bounds (utcDay ts)
    omega
  have hthursday : ∀ ts, 0 ≤ thursdayOf (utcDay ts) := fun ts => by
    have hpos := utcDay_nonneg ts
    unfold thursdayOf weekOf
    omega
  rw [isoWeekKey_eq, isoWeekKey_eq]
  constructor
  · intro h
    obtain ⟨hyear, h⟩ := List.append_inj' h (by simp only [List.length_cons, length_pad (hweeks _)])
    have hweek := pad_inj (hweeks ts) (hweeks ts') (List.cons.inj (List.cons.inj h).2).2
    rw [yearText_inj (hthursday ts) (hthursday ts') hyear] at hweek
    exact weekInYear_inj hweek
  · intro h
    simp only [thursdayOf, h]

theorem Tier.key_iff (tier : Tier) : tier.key ts = tier.key ts' ↔ tier.Same ts ts' := by
  cases tier with
  | hourly => exact hourKeyUTC_iff
  | daily => exact dayKeyUTC_iff
  | weekly => exact isoWeekKey_iff
  | monthly => exact monthKey_iff

theorem Tier.text_inj {tier tier' : Tier} {s s' : List Char} (h : tier.text ++ ':' :: s = tier'.text ++ ':' :: s') : tier = tier' := by
  have hhead : tier.text.head? = tier'.text.head? := by
    have hne : ∀ tier : Tier, tier.text ≠ [] := fun tier => by cases tier <;> decide
    have hboth := congrArg List.head? h
    rwa [List.head?_append_of_ne_nil _ (hne tier), List.head?_append_of_ne_nil _ (hne tier')] at hboth
  revert hhead
  cases tier <;> cases tier' <;> decide

theorem bucketKey_iff {now : Nat} {m m' : SnapshotMetadata} : bucketKey now m = bucketKey now m' ↔ SameBucket now m m' := by
  constructor
  · intro h
    have htier := Tier.text_inj h
    refine ⟨htier, ?_⟩
    unfold bucketKey at h
    rw [← htier] at h
    exact (Tier.key_iff _).1 (List.cons.inj (List.append_cancel_left h)).2
  · rintro ⟨htier, hsame⟩
    rw [bucketKey, bucketKey, ← htier, (Tier.key_iff _).2 hsame]

end Keys

/-! ## What is kept -/

section Kept

variable {now : Nat} {all l l' : List SnapshotMetadata} {m m' : SnapshotMetadata} {tiers : Tier → Bool}

theorem newestFirst_perm (l : List SnapshotMetadata) : (newestFirst l).Perm l := Keyset.sort_perm l

theorem mem_newestFirst : m ∈ newestFirst l ↔ m ∈ l := (newestFirst_perm l).mem_iff

theorem newest_of_head (h : (newestFirst l).head? = some m) : m ∈ l ∧ ∀ m' ∈ l, m'.timestamp ≤ m.timestamp := ByKey.head_insertionSort h

theorem take_newestFirst {n : Nat} {m m' : SnapshotMetadata} (hm : m ∈ (newestFirst l).take n) (hm' : m' ∈ (newestFirst l).drop n) :
    m'.timestamp ≤ m.timestamp := by
  have hsorted : (newestFirst l).Pairwise fun a b => b.timestamp ≤ a.timestamp := List.pairwise_insertionSort _ l
  rw [← List.take_append_drop n (newestFirst l), List.pairwise_append] at hsorted
  exact hsorted.2.2 m hm m' hm'

/-- Of snapshots with distinct times the order they come in does not show. -/
theorem newestFirst_of_perm (hperm : l.Perm l') (hdistinct : (l.map (·.timestamp)).Nodup) : newestFirst l = newestFirst l' :=
  ByKey.insertionSort_of_perm hperm fun _ ha _ hb hab hba => List.inj_on_of_nodup_map hdistinct ha hb (Nat.le_antisymm hba hab)

/-- The bucket of a snapshot. -/
def bucketIn (now : Nat) (l : List SnapshotMetadata) (m : SnapshotMetadata) : List SnapshotMetadata :=
  l.filter fun a => bucketKey now a = bucketKey now m

theorem mem_bucketIn : m' ∈ bucketIn now l m ↔ m' ∈ l ∧ SameBucket now m' m := by
  rw [bucketIn, List.mem_filter, decide_eq_true_eq, bucketKey_iff]

theorem grouped_buckets (now : Nat) (l : List SnapshotMetadata) : ByKey.Grouped (bucketKey now) (tierOf now) l (bucketsOf now l) :=
  ByKey.grouped_group _ _ l

theorem bucket_spec {b : Bucket} (hb : b ∈ bucketsOf now l) (hm : m ∈ b.items) :
    m ∈ l ∧ b.key = bucketKey now m ∧ b.tag = tierOf now m ∧ b.items = bucketIn now l m := by
  have hitems := (grouped_buckets now l).items b hb
  obtain ⟨a, ha, htag⟩ := (grouped_buckets now l).tag b hb
  have hkeys : ∀ {a}, a ∈ b.items → a ∈ l ∧ bucketKey now a = b.key := fun ha => by
    rw [hitems, List.mem_filter, decide_eq_true_eq] at ha
    exact ha
  obtain ⟨hml, hkey⟩ := hkeys hm
  refine ⟨hml, hkey.symm, htag.trans (bucketKey_iff.1 ((hkeys ha).2.trans hkey.symm)).1, ?_⟩
  rw [hitems, bucketIn, hkey]

/-- The newest of the buckets are those that come first in their own. -/
theorem mem_heads : m ∈ heads tiers (bucketsOf now l) ↔ tiers (tierOf now m) = true ∧ (newestFirst (bucketIn now l m)).head? = some m := by
  simp only [heads, newestOf, List.mem_flatMap, List.mem_filter, List.take_one, Option.mem_toList]
  constructor
  · rintro ⟨b, ⟨hb, htier⟩, hhead⟩
    obtain ⟨-, -, htag, hitems⟩ := bucket_spec hb (newest_of_head hhead).1
    rw [htag] at htier
    rw [hitems] at hhead
    exact ⟨htier, hhead⟩
  · rintro ⟨htier, hhead⟩
    obtain ⟨hm, -⟩ := mem_bucketIn.1 (newest_of_head hhead).1
    obtain ⟨b, hb, hkey⟩ := (grouped_buckets now l).covers m hm
    have hmem : m ∈ b.items := by
      rw [(grouped_buckets now l).items b hb, List.mem_filter, decide_eq_true_eq]
      exact ⟨hm, hkey.symm⟩
    obtain ⟨-, -, htag, hitems⟩ := bucket_spec hb hmem
    exact ⟨b, ⟨hb, htag ▸ htier⟩, hitems ▸ hhead⟩

theorem newest_of_heads (h : m ∈ heads tiers (bucketsOf now l)) : m ∈ l ∧ ∀ m' ∈ l, SameBucket now m' m → m'.timestamp ≤ m.timestamp := by
  obtain ⟨hmem, hnewest⟩ := newest_of_head (mem_heads.1 h).2
  exact ⟨(mem_bucketIn.1 hmem).1, fun m' hm' hsame => hnewest m' (mem_bucketIn.2 ⟨hm', hsame⟩)⟩

/-- Each bucket has one. -/
theorem heads_unique {tiers' : Tier → Bool} (h : m ∈ heads tiers (bucketsOf now l)) (h' : m' ∈ heads tiers' (bucketsOf now l))
    (hsame : SameBucket now m m') : m = m' := by
  have heq : bucketIn now l m = bucketIn now l m' := by
    rw [bucketIn, bucketIn, bucketKey_iff.2 hsame]
  have hhead := (mem_heads.1 h).2
  rw [heq] at hhead
  exact Option.some.inj (hhead.symm.trans (mem_heads.1 h').2)

theorem exists_head (now : Nat) (hm : m ∈ l) : ∃ r, (newestFirst (bucketIn now l m)).head? = some r ∧ SameBucket now r m ∧ m.timestamp ≤ r.timestamp ∧
    (newestFirst (bucketIn now l r)).head? = some r := by
  have hself : m ∈ bucketIn now l m := mem_bucketIn.2 ⟨hm, bucketKey_iff.1 rfl⟩
  have hne : newestFirst (bucketIn now l m) ≠ [] := List.ne_nil_of_mem (mem_newestFirst.2 hself)
  obtain ⟨r, hr⟩ := Option.isSome_iff_exists.1 (List.isSome_head?.2 hne)
  obtain ⟨hmem, hnewest⟩ := newest_of_head hr
  obtain ⟨-, hsame⟩ := mem_bucketIn.1 hmem
  refine ⟨r, hr, hsame, hnewest m hself, ?_⟩
  rw [show bucketIn now l r = bucketIn now l m by rw [bucketIn, bucketIn, bucketKey_iff.2 hsame]]
  exact hr

/-! ## Parts of the whole -/

theorem mem_timeTier : m ∈ timeTier all ↔ m ∈ all ∧ isPreOp m = false := by
  rw [timeTier, List.mem_filter, Bool.not_eq_true']

theorem mem_regularPreOp : m ∈ regularPreOp all ↔ m ∈ all ∧ isPreOp m = true ∧ m.isSessionPristine = false := by
  rw [regularPreOp, List.mem_filter, List.mem_filter, Bool.not_eq_true', and_assoc]

theorem mem_pristinePreOp : m ∈ pristinePreOp all ↔ m ∈ all ∧ isPreOp m = true ∧ m.isSessionPristine = true := by
  rw [pristinePreOp, List.mem_filter, List.mem_filter, and_assoc]

theorem mem_representatives : m ∈ monthlyRepresentatives now all ↔ m ∈ heads (· = .monthly) (bucketsOf now (timeTier all)) := mem_newestFirst

theorem mem_keptOf : m ∈ keptOf now all ↔ m ∈ pristinePreOp all ∨ m ∈ (newestFirst (regularPreOp all)).take preOpMax ∨
    m ∈ heads (· ≠ .monthly) (bucketsOf now (timeTier all)) ∨ m ∈ (monthlyRepresentatives now all).take monthlyMax := by
  simp only [keptOf, List.mem_append, or_assoc]

theorem mem_of_mem_keptOf (h : m ∈ keptOf now all) : m ∈ all := by
  rcases mem_keptOf.1 h with h | h | h | h
  · exact (mem_pristinePreOp.1 h).1
  · exact (mem_regularPreOp.1 (mem_newestFirst.1 (List.mem_of_mem_take h))).1
  · exact (mem_timeTier.1 (newest_of_heads h).1).1
  · exact (mem_timeTier.1 (newest_of_heads (mem_representatives.1 (List.mem_of_mem_take h))).1).1

theorem mem_kept_regular (hm : m ∈ regularPreOp all) : m ∈ keptOf now all ↔ m ∈ (newestFirst (regularPreOp all)).take preOpMax := by
  obtain ⟨-, hpre, hflag⟩ := mem_regularPreOp.1 hm
  rw [mem_keptOf]
  constructor
  · rintro (h | h | h | h)
    · exact absurd (hflag.symm.trans (mem_pristinePreOp.1 h).2.2) Bool.false_ne_true
    · exact h
    · exact absurd ((mem_timeTier.1 (newest_of_heads h).1).2.symm.trans hpre) Bool.false_ne_true
    · exact absurd ((mem_timeTier.1 (newest_of_heads (mem_representatives.1 (List.mem_of_mem_take h))).1).2.symm.trans hpre) Bool.false_ne_true
  · exact fun h => .inr (.inl h)

theorem mem_kept_time (hm : m ∈ timeTier all) : m ∈ keptOf now all ↔ m ∈ heads (· ≠ .monthly) (bucketsOf now (timeTier all)) ∨
    m ∈ (monthlyRepresentatives now all).take monthlyMax := by
  obtain ⟨-, htime⟩ := mem_timeTier.1 hm
  rw [mem_keptOf]
  constructor
  · rintro (h | h | h)
    · exact absurd (htime.symm.trans (mem_pristinePreOp.1 h).2.1) Bool.false_ne_true
    · exact absurd (htime.symm.trans (mem_regularPreOp.1 (mem_newestFirst.1 (List.mem_of_mem_take h))).2.1) Bool.false_ne_true
    · exact h
  · exact fun h => .inr (.inr h)

/-- What is kept is the newest of its bucket. -/
theorem head_of_kept (hm : m ∈ timeTier all) (h : m ∈ keptOf now all) : (newestFirst (bucketIn now (timeTier all) m)).head? = some m := by
  rcases (mem_kept_time hm).1 h with h | h
  · exact (mem_heads.1 h).2
  · exact (mem_heads.1 (mem_representatives.1 (List.mem_of_mem_take h))).2

theorem mem_heads_all (h : (newestFirst (bucketIn now l m)).head? = some m) : m ∈ heads (fun _ => true) (bucketsOf now l) := mem_heads.2 ⟨rfl, h⟩

theorem monthly_kept (hm : m ∈ timeTier all) (h : m ∈ keptOf now all) (hmonthly : tierOf now m = .monthly) :
    m ∈ (monthlyRepresentatives now all).take monthlyMax := by
  rcases (mem_kept_time hm).1 h with h | h
  · exact absurd hmonthly (of_decide_eq_true (mem_heads.1 h).1)
  · exact h

end Kept

/-! ## The policy -/

/-- What a compaction of the snapshots does at a time. -/
structure SoundRetention (all : List SnapshotMetadata) (now : Nat) : Prop where
  partition : ((computeCompaction all now).kept ++ (computeCompaction all now).evicted).Perm (all.map (·.id))
  pristine : ∀ m ∈ all, isPreOp m = true → m.isSessionPristine = true → m.id ∈ (computeCompaction all now).kept
  preOp : ∃ newest older : List SnapshotMetadata, (newest ++ older).Perm (regularPreOp all) ∧ newest.length = min preOpMax (regularPreOp all).length ∧
    (∀ m ∈ newest, m.id ∈ (computeCompaction all now).kept) ∧ (∀ m ∈ older, m.id ∉ (computeCompaction all now).kept) ∧
    ∀ m ∈ newest, ∀ m' ∈ older, m'.timestamp ≤ m.timestamp
  one : ∀ m ∈ timeTier all, ∀ m' ∈ timeTier all, m.id ∈ (computeCompaction all now).kept → m'.id ∈ (computeCompaction all now).kept →
    SameBucket now m m' → m = m'
  newest : ∀ m ∈ timeTier all, m.id ∈ (computeCompaction all now).kept → ∀ m' ∈ timeTier all, SameBucket now m' m → m'.timestamp ≤ m.timestamp
  some : ∀ m ∈ timeTier all, tierOf now m ≠ .monthly → ∃ m' ∈ timeTier all, m'.id ∈ (computeCompaction all now).kept ∧ SameBucket now m' m
  monthly : ((timeTier all).filter fun m => tierOf now m = .monthly ∧ m.id ∈ (computeCompaction all now).kept).length ≤ monthlyMax
  monthlyNewest : ∀ m ∈ timeTier all, tierOf now m = .monthly →
    (∀ m' ∈ timeTier all, m'.id ∈ (computeCompaction all now).kept → ¬ SameBucket now m' m) →
    ∀ m' ∈ timeTier all, m'.id ∈ (computeCompaction all now).kept → tierOf now m' = .monthly → m.timestamp ≤ m'.timestamp
  latest : timeTier all ≠ [] → ∃ m ∈ timeTier all, m.id ∈ (computeCompaction all now).kept ∧ ∀ m' ∈ timeTier all, m'.timestamp ≤ m.timestamp
  again : ∀ left : List SnapshotMetadata, left.Perm (all.filter fun m => m.id ∈ (computeCompaction all now).kept) →
    (computeCompaction left now).evicted = []
  order : (all.map (·.timestamp)).Nodup → ∀ all' : List SnapshotMetadata, all'.Perm all →
    ∀ id, id ∈ (computeCompaction all' now).kept ↔ id ∈ (computeCompaction all now).kept

section Policy

variable {now : Nat} {all all' left : List SnapshotMetadata} {m m' : SnapshotMetadata}

theorem heads_cons (tiers : Tier → Bool) (b : Bucket) (buckets : List Bucket) :
    heads tiers (b :: buckets) = if tiers b.tag then newestOf b ++ heads tiers buckets else heads tiers buckets := by
  unfold heads
  rw [List.filter_cons]
  split
  · rw [List.flatMap_cons]
  · rfl

theorem count_buckets (m : SnapshotMetadata) : ∀ buckets : List Bucket, (buckets.flatMap (·.items)).count m =
    (heads (· ≠ .monthly) buckets).count m + (heads (· = .monthly) buckets).count m + (buckets.flatMap olderOf).count m
  | [] => rfl
  | b :: buckets => by
    have hitems : b.items.count m = (newestOf b).count m + (olderOf b).count m := by
      rw [newestOf, olderOf, ← List.count_append, List.take_append_drop, (newestFirst_perm b.items).count_eq]
    have hrest := count_buckets m buckets
    rw [heads_cons, heads_cons, List.flatMap_cons, List.flatMap_cons, List.count_append, List.count_append]
    by_cases hmonthly : b.tag = .monthly
    · rw [if_neg (by simp [hmonthly]), if_pos (by simp [hmonthly]), List.count_append]
      omega
    · rw [if_pos (by simp [hmonthly]), if_neg (by simp [hmonthly]), List.count_append]
      omega

theorem parts_perm (now : Nat) (all : List SnapshotMetadata) : (keptOf now all ++ evictedOf now all).Perm all := by
  rw [List.perm_iff_count]
  intro m
  have hsplit : (all.filter fun m => isPreOp m).count m + (timeTier all).count m = all.count m := by
    rw [← List.count_append]
    exact (List.filter_append_perm _ all).count_eq m
  have hpre : (pristinePreOp all).count m + (regularPreOp all).count m = (all.filter fun m => isPreOp m).count m := by
    rw [← List.count_append]
    exact (List.filter_append_perm _ _).count_eq m
  have hcut : ∀ (n : Nat) (l : List SnapshotMetadata), ((newestFirst l).take n).count m + ((newestFirst l).drop n).count m = l.count m := fun n l => by
    rw [← List.count_append, List.take_append_drop]
    exact (newestFirst_perm l).count_eq m
  have hregular := hcut preOpMax (regularPreOp all)
  have hmonthly := hcut monthlyMax (heads (· = .monthly) (bucketsOf now (timeTier all)))
  have hbuckets : ((bucketsOf now (timeTier all)).flatMap (·.items)).count m = (timeTier all).count m := (ByKey.flatMap_group_perm _ _ _).count_eq m
  rw [count_buckets] at hbuckets
  simp only [keptOf, evictedOf, List.count_append, monthlyRepresentatives]
  omega

/-- With distinct ids the ids tell what is kept. -/
theorem mem_kept_iff (hids : (all.map (·.id)).Nodup) (hm : m ∈ all) : m.id ∈ (computeCompaction all now).kept ↔ m ∈ keptOf now all := by
  constructor
  · intro h
    obtain ⟨m', hm', heq⟩ := List.mem_map.1 h
    exact List.inj_on_of_nodup_map hids (mem_of_mem_keptOf hm') hm heq ▸ hm'
  · exact fun h => List.mem_map_of_mem h

theorem length_le_of_subset {l : List SnapshotMetadata} (left : List SnapshotMetadata) (h : l.Nodup) (hsub : l ⊆ left) : l.length ≤ left.length := (h.subperm hsub).length_le

theorem mem_left (hids : (all.map (·.id)).Nodup) (h : left.Perm (all.filter fun m => m.id ∈ (computeCompaction all now).kept)) :
    m ∈ left ↔ m ∈ all ∧ m ∈ keptOf now all := by
  rw [h.mem_iff, List.mem_filter, decide_eq_true_eq]
  exact and_congr_right fun hm => mem_kept_iff hids hm

theorem nodup_heads (tiers : Tier → Bool) : (heads tiers (bucketsOf now all)).Nodup := by
  refine List.Nodup.of_map (bucketKey now) ?_
  have hkeys : ∀ buckets : List Bucket, (∀ b ∈ buckets, b ∈ bucketsOf now all) → (buckets.flatMap newestOf).map (bucketKey now) = buckets.map (·.key) := by
    intro buckets
    induction buckets with
    | nil => exact fun _ => rfl
    | cons b buckets ih =>
      intro hall
      have hb := hall b List.mem_cons_self
      obtain ⟨a, ha, -⟩ := (grouped_buckets now all).tag b hb
      have hne : newestFirst b.items ≠ [] := List.ne_nil_of_mem (mem_newestFirst.2 ha)
      obtain ⟨r, hr⟩ := Option.isSome_iff_exists.1 (List.isSome_head?.2 hne)
      rw [List.flatMap_cons, List.map_append, ih fun b' hb' => hall b' (List.mem_cons_of_mem _ hb'), newestOf, List.take_one, hr, List.map_cons,
        (bucket_spec hb (newest_of_head hr).1).2.1]
      rfl
  rw [heads, hkeys _ fun b hb => (List.mem_filter.1 hb).1]
  exact (grouped_buckets now all).keys.sublist (List.filter_sublist.map _)

/-- Nothing is left to evict: five at most, one in a bucket, and twelve months. -/
theorem evicted_of_left (hids : (all.map (·.id)).Nodup) (h : left.Perm (all.filter fun m => m.id ∈ (computeCompaction all now).kept)) :
    evictedOf now left = [] := by
  have hnodup : left.Nodup := h.nodup_iff.2 ((List.Nodup.of_map _ hids).filter _)
  have hregular : (regularPreOp left).length ≤ preOpMax := by
    refine le_trans (length_le_of_subset ((newestFirst (regularPreOp all)).take preOpMax) ((hnodup.filter _).filter _) ?_) (List.length_take_le _ _)
    intro m hm
    obtain ⟨hml, hpre⟩ := mem_regularPreOp.1 hm
    obtain ⟨hall, hkept⟩ := (mem_left hids h).1 hml
    exact (mem_kept_regular (mem_regularPreOp.2 ⟨hall, hpre⟩)).1 hkept
  have htime : ∀ m ∈ timeTier left, m ∈ timeTier all ∧ m ∈ keptOf now all := fun m hm => by
    obtain ⟨hml, hpre⟩ := mem_timeTier.1 hm
    obtain ⟨hall, hkept⟩ := (mem_left hids h).1 hml
    exact ⟨mem_timeTier.2 ⟨hall, hpre⟩, hkept⟩
  have holder : (bucketsOf now (timeTier left)).flatMap olderOf = [] := by
    rw [List.flatMap_eq_nil_iff]
    intro b hb
    have hone : ∀ m ∈ b.items, ∀ m' ∈ b.items, m = m' := fun m hm m' hm' => by
      obtain ⟨hml, hkey, -⟩ := bucket_spec hb hm
      obtain ⟨hml', hkey', -⟩ := bucket_spec hb hm'
      obtain ⟨htm, hkept⟩ := htime m hml
      obtain ⟨htm', hkept'⟩ := htime m' hml'
      exact heads_unique (mem_heads_all (head_of_kept htm hkept)) (mem_heads_all (head_of_kept htm' hkept')) (bucketKey_iff.1 (hkey.symm.trans hkey'))
    have hitems : b.items.Nodup := by
      rw [(grouped_buckets now _).items b hb]
      exact (hnodup.filter _).filter _
    have hlength : b.items.length ≤ 1 := by
      rcases hcases : b.items with _ | ⟨m, _ | ⟨m', rest⟩⟩
      · exact Nat.zero_le _
      · exact le_refl 1
      · rw [hcases] at hitems hone
        exact absurd (hone m (by simp) m' (by simp)) fun heq => (List.nodup_cons.1 hitems).1 (by simp [heq])
    rw [olderOf, List.drop_eq_nil_iff, (newestFirst_perm _).length_eq]
    exact hlength
  have hmonthly : (monthlyRepresentatives now left).length ≤ monthlyMax := by
    rw [monthlyRepresentatives, (newestFirst_perm _).length_eq]
    refine le_trans (length_le_of_subset ((monthlyRepresentatives now all).take monthlyMax) (nodup_heads _) ?_)
      (List.length_take_le _ _)
    intro m hm
    obtain ⟨htm, hkept⟩ := htime m (newest_of_heads hm).1
    exact monthly_kept htm hkept (of_decide_eq_true (mem_heads.1 hm).1)
  rw [evictedOf, holder, List.drop_eq_nil_of_le ((newestFirst_perm _).length_eq.trans_le hregular), List.drop_eq_nil_of_le hmonthly]
  rfl

/-- The newest of all comes first in the tier of its age, and the tiers of the others are as old at least. -/
theorem latest_kept (now : Nat) (hne : timeTier all ≠ []) : ∃ m ∈ timeTier all, m ∈ keptOf now all ∧ ∀ m' ∈ timeTier all, m'.timestamp ≤ m.timestamp := by
  have hsorted : newestFirst (timeTier all) ≠ [] := fun hnil => hne (List.length_eq_zero_iff.1 (by rw [← (newestFirst_perm _).length_eq, hnil]; rfl))
  obtain ⟨top, htop⟩ := Option.isSome_iff_exists.1 (List.isSome_head?.2 hsorted)
  obtain ⟨hmem, hnewest⟩ := newest_of_head htop
  obtain ⟨r, -, hsame, hle, hr⟩ := exists_head now hmem
  have hrl : r ∈ timeTier all := (mem_bucketIn.1 (newest_of_head hr).1).1
  by_cases hmonthly : tierOf now r = .monthly
  · -- the first of the months is as new as any of them
    have hrep : r ∈ monthlyRepresentatives now all := mem_representatives.2 (mem_heads.2 ⟨decide_eq_true hmonthly, hr⟩)
    obtain ⟨first, hfirst⟩ := Option.isSome_iff_exists.1 (List.isSome_head?.2 (List.ne_nil_of_mem hrep))
    obtain ⟨hfm, hfnewest⟩ := newest_of_head hfirst
    have hfl : first ∈ timeTier all := (newest_of_heads hfm).1
    have hkept : first ∈ (monthlyRepresentatives now all).take monthlyMax := by
      obtain ⟨rest, hrest⟩ := List.head?_eq_some_iff.1 hfirst
      rw [hrest]
      exact List.mem_cons_self
    refine ⟨first, hfl, (mem_kept_time hfl).2 (.inr hkept), fun m' hm' => ?_⟩
    exact (hnewest m' hm').trans (hle.trans (hfnewest r (mem_representatives.1 hrep)))
  · refine ⟨r, hrl, (mem_kept_time hrl).2 (.inl (mem_heads.2 ⟨decide_eq_true hmonthly, hr⟩)), fun m' hm' => ?_⟩
    exact (hnewest m' hm').trans hle

theorem kept_of_perm (hdistinct : (all.map (·.timestamp)).Nodup) (hperm : all'.Perm all) :
    m ∈ keptOf now all' ↔ m ∈ keptOf now all := by
  have hpart : ∀ p : SnapshotMetadata → Bool, ((all'.filter p).map (·.timestamp)).Nodup := fun p =>
    ((hperm.map _).nodup_iff.2 hdistinct).sublist (List.filter_sublist.map _)
  have hregular : newestFirst (regularPreOp all') = newestFirst (regularPreOp all) := by
    refine newestFirst_of_perm ((hperm.filter _).filter _) ?_
    exact (hpart _).sublist (List.filter_sublist.map _)
  have hbucket : ∀ m, newestFirst (bucketIn now (timeTier all') m) = newestFirst (bucketIn now (timeTier all) m) := fun m => by
    refine newestFirst_of_perm ((hperm.filter _).filter _) ?_
    exact (hpart _).sublist (List.filter_sublist.map _)
  have hheads : ∀ (tiers : Tier → Bool) m, m ∈ heads tiers (bucketsOf now (timeTier all')) ↔ m ∈ heads tiers (bucketsOf now (timeTier all)) := fun tiers m => by
    rw [mem_heads, mem_heads, hbucket]
  have hmonthly : monthlyRepresentatives now all' = monthlyRepresentatives now all := by
    have hheadsPerm : (heads (· = .monthly) (bucketsOf now (timeTier all'))).Perm (heads (· = .monthly) (bucketsOf now (timeTier all))) :=
      (List.perm_ext_iff_of_nodup (nodup_heads _) (nodup_heads _)).2 fun m => hheads _ m
    refine newestFirst_of_perm hheadsPerm ?_
    refine List.Nodup.map_on (fun a ha b hb heq => ?_) (nodup_heads _)
    have hin : ∀ {c}, c ∈ heads (· = .monthly) (bucketsOf now (timeTier all')) → c ∈ all := fun hc => hperm.mem_iff.1 (mem_timeTier.1 (newest_of_heads hc).1).1
    exact List.inj_on_of_nodup_map hdistinct (hin ha) (hin hb) heq
  rw [mem_keptOf, mem_keptOf, hregular, hheads, hmonthly, mem_pristinePreOp, mem_pristinePreOp, hperm.mem_iff]

/-- Compaction is sound at any time, of any snapshots with distinct ids. -/
theorem soundRetention (all : List SnapshotMetadata) (now : Nat) (hids : (all.map (·.id)).Nodup) : SoundRetention all now where
  partition := by
    have hperm := (parts_perm now all).map (·.id)
    rw [List.map_append] at hperm
    exact hperm
  pristine m hm hpre hflag := (mem_kept_iff hids hm).2 (mem_keptOf.2 (.inl (mem_pristinePreOp.2 ⟨hm, hpre, hflag⟩)))
  preOp := by
    refine ⟨(newestFirst (regularPreOp all)).take preOpMax, (newestFirst (regularPreOp all)).drop preOpMax, ?_, ?_, ?_, ?_, ?_⟩
    · rw [List.take_append_drop]
      exact newestFirst_perm _
    · rw [List.length_take, (newestFirst_perm _).length_eq]
    · intro m hm
      have hreg := mem_newestFirst.1 (List.mem_of_mem_take hm)
      exact (mem_kept_iff hids (mem_regularPreOp.1 hreg).1).2 ((mem_kept_regular hreg).2 hm)
    · intro m hm hkept
      have hreg := mem_newestFirst.1 (List.mem_of_mem_drop hm)
      have htake := (mem_kept_regular hreg).1 ((mem_kept_iff hids (mem_regularPreOp.1 hreg).1).1 hkept)
      have hnodup : (newestFirst (regularPreOp all)).Nodup := (newestFirst_perm _).nodup_iff.2 (((List.Nodup.of_map _ hids).filter _).filter _)
      rw [← List.take_append_drop preOpMax (newestFirst (regularPreOp all)), List.nodup_append] at hnodup
      exact hnodup.2.2 m htake m hm rfl
    · exact fun m hm m' hm' => take_newestFirst hm hm'
  one m hm m' hm' hkept hkept' hsame :=
    heads_unique (mem_heads_all (head_of_kept hm ((mem_kept_iff hids (mem_timeTier.1 hm).1).1 hkept)))
      (mem_heads_all (head_of_kept hm' ((mem_kept_iff hids (mem_timeTier.1 hm').1).1 hkept'))) hsame
  newest m hm hkept m' hm' hsame :=
    (newest_of_heads (mem_heads_all (head_of_kept hm ((mem_kept_iff hids (mem_timeTier.1 hm).1).1 hkept)))).2 m' hm' hsame
  some m hm htier := by
    obtain ⟨r, -, hsame, -, hr⟩ := exists_head now hm
    have hrl : r ∈ timeTier all := (mem_bucketIn.1 (newest_of_head hr).1).1
    refine ⟨r, hrl, (mem_kept_iff hids (mem_timeTier.1 hrl).1).2 ((mem_kept_time hrl).2 (.inl (mem_heads.2 ⟨?_, hr⟩))), hsame⟩
    rw [hsame.1]
    exact decide_eq_true htier
  monthly := by
    refine le_trans (length_le_of_subset ((monthlyRepresentatives now all).take monthlyMax) (((List.Nodup.of_map _ hids).filter _).filter _) ?_)
      (List.length_take_le _ _)
    intro m hm
    obtain ⟨hm, hboth⟩ := List.mem_filter.1 hm
    obtain ⟨hmonthly, hkept⟩ := of_decide_eq_true hboth
    exact monthly_kept hm ((mem_kept_iff hids (mem_timeTier.1 hm).1).1 hkept) hmonthly
  monthlyNewest m hm hmonthly hnone m' hm' hkept' hmonthly' := by
    obtain ⟨r, -, hsame, hle, hr⟩ := exists_head now hm
    have hrl : r ∈ timeTier all := (mem_bucketIn.1 (newest_of_head hr).1).1
    have hrep : r ∈ monthlyRepresentatives now all := mem_representatives.2 (mem_heads.2 ⟨decide_eq_true (hsame.1.trans hmonthly), hr⟩)
    rw [← List.take_append_drop monthlyMax (monthlyRepresentatives now all), List.mem_append] at hrep
    rcases hrep with hrep | hrep
    · exact absurd hsame (hnone r hrl ((mem_kept_iff hids (mem_timeTier.1 hrl).1).2 ((mem_kept_time hrl).2 (.inr hrep))))
    · exact hle.trans (take_newestFirst (monthly_kept hm' ((mem_kept_iff hids (mem_timeTier.1 hm').1).1 hkept') hmonthly') hrep)
  latest hne := by
    obtain ⟨m, hm, hkept, hnewest⟩ := latest_kept now hne
    exact ⟨m, hm, (mem_kept_iff hids (mem_timeTier.1 hm).1).2 hkept, hnewest⟩
  again left hleft := by
    rw [computeCompaction, evicted_of_left hids hleft]
    rfl
  order hdistinct all' hperm id := by
    simp only [computeCompaction, List.mem_map, kept_of_perm hdistinct hperm]

/-- Two of one hour, one of the day before, and one before an import. -/
theorem soundRetention_sample : SoundRetention [⟨"snap_0c", 1767225600000, .auto, false⟩, ⟨"snap_1f", 1767225660000, .manual, false⟩,
    ⟨"snap_7a", 1767139200000, .auto, false⟩, ⟨"snap_92", 1767225601000, .preImport, true⟩] 1767225700000 :=
  soundRetention _ _ (by decide)

end Policy

end Purdex.Sync
