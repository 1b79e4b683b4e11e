/-
The stores that take part in sync: which fields each of them exchanges, and how it takes what comes
in, as a whole or field by field.
-/
import Mathlib.Data.Fintype.Basic
import Mathlib.Data.String.Basic
import Std.Data.String.ToNat
import Purdex.Json.Record

namespace Purdex.Sync

open Json

/-! ## Cleaning what comes in -/

def isArray : Val → Bool
  | some ⟨.arr _, _⟩ => true
  | _ => false

/-- An object that is neither `null` nor an array. -/
def isRecord : Val → Bool
  | some ⟨.obj _, _⟩ => true
  | _ => false

def emptyArray : Value := ⟨.arr [], rfl⟩

def emptyObject : Value := ⟨.obj [], rfl⟩

/-- `v ?? {}`. -/
def orEmptyObject : Val → Val
  | none | some ⟨.null, _⟩ => some emptyObject
  | v => v

theorem nodup_filterMap_keys {α β : Type} {g : String × α → Option (String × β)} (hg : ∀ p q, g p = some q → q.1 = p.1)
    {l : List (String × α)} (h : (l.map Prod.fst).Nodup) : ((l.filterMap g).map Prod.fst).Nodup := by
  refine h.sublist ?_
  clear h
  induction l with
  | nil => exact List.Sublist.refl _
  | cons p l ih =>
    cases hp : g p with
    | none =>
      rw [List.filterMap_cons_none hp, List.map_cons]
      exact ih.cons _
    | some q =>
      rw [List.filterMap_cons_some hp, List.map_cons, List.map_cons, hg p q hp]
      exact ih.cons_cons _

def unsafeKeys : List String := ["__proto__", "constructor", "prototype"]

/-- A non-empty string. -/
def isSlot : Raw → Bool
  | .str s => s ≠ ""
  | _ => false

/-- The entry of a command as it is kept, if it is. -/
def cleanBinding (entry : String × Raw) : Option (String × Raw) :=
  if entry.1 = "" ∨ entry.1 ∈ unsafeKeys then none
  else match entry.2 with
    | .arr targets => if targets.filter isSlot = [] then none else some (entry.1, .arr (targets.filter isSlot))
    | _ => none

theorem cleanBinding_fst (p q : String × Raw) (h : cleanBinding p = some q) : q.1 = p.1 ∧ q.2.wf := by
  unfold cleanBinding at h
  split at h
  · cases h
  · split at h
    · rename_i targets _
      split at h
      · cases h
      · cases h
        refine ⟨rfl, Raw.wf_arr.2 fun a ha => ?_⟩
        cases a with
        | str s => rfl
        | _ => exact absurd (List.mem_filter.1 ha).2 nofun
    · cases h

def sanitizeBindings : Val → Value
  | some ⟨.obj fields, h⟩ =>
    ⟨.obj (fields.filterMap cleanBinding), Raw.wf_obj.2
      ⟨nodup_filterMap_keys (fun p q hpq => (cleanBinding_fst p q hpq).1) (Raw.wf_obj.1 h).1, fun q hq => by
        obtain ⟨p, _, hp⟩ := List.mem_filterMap.1 hq
        exact (cleanBinding_fst p q hp).2⟩⟩
  | _ => emptyObject

/-- The own entries of a value, as spreading it lists them. -/
def entries : Raw → List (String × Raw)
  | .obj fields => fields
  | .arr items => items.zipIdx.map fun p => (p.2.repr, p.1)
  | .str s => s.toList.zipIdx.map fun p => (p.2.repr, .str p.1.toString)
  | _ => []

theorem nodup_zipIdx_keys {α : Type} (l : List α) (f : α → Raw) :
    ((l.zipIdx.map fun p => (p.2.repr, f p.1)).map Prod.fst).Nodup := by
  have hindex : l.zipIdx.map Prod.snd = List.range' 0 l.length := List.zipIdx_map_snd 0 l
  rw [List.map_map]
  change (l.zipIdx.map (Nat.repr ∘ Prod.snd)).Nodup
  rw [← List.map_map, hindex]
  exact (List.nodup_range' ..).map fun _ _ => Nat.repr_injective

theorem entries_wf {a : Raw} (h : a.wf) : ((entries a).map Prod.fst).Nodup ∧ ∀ p ∈ entries a, p.2.wf := by
  cases a with
  | obj fields => exact Raw.wf_obj.1 h
  | arr items =>
    refine ⟨nodup_zipIdx_keys items id, fun p hp => ?_⟩
    obtain ⟨q, hq, rfl⟩ := List.mem_map.1 hp
    exact Raw.wf_arr.1 h _ (List.fst_mem_of_mem_zipIdx hq)
  | str s =>
    refine ⟨nodup_zipIdx_keys s.toList fun c => .str c.toString, fun p hp => ?_⟩
    obtain ⟨q, _, rfl⟩ := List.mem_map.1 hp
    rfl
  | null | bool | num => exact ⟨List.nodup_nil, nofun⟩

/-- A host without its token. -/
def dropToken (host : Raw) : Raw := .obj ((entries host).filter fun p => p.1 ≠ "token")

theorem dropToken_wf {host : Raw} (h : host.wf) : (dropToken host).wf := by
  obtain ⟨hnodup, hwf⟩ := entries_wf h
  exact Raw.wf_obj.2 ⟨hnodup.sublist (List.filter_sublist.map _), fun p hp => hwf p (List.mem_filter.1 hp).1⟩

/-- The hosts of a map, each without its token. -/
def dropTokens (hosts : Value) : Value :=
  ⟨.obj ((entries hosts.1).map fun p => (p.1, dropToken p.2)), by
    obtain ⟨hnodup, hwf⟩ := entries_wf hosts.2
    refine Raw.wf_obj.2 ⟨by simpa [List.map_map, Function.comp_def] using hnodup, fun p hp => ?_⟩
    obtain ⟨q, hq, rfl⟩ := List.mem_map.1 hp
    exact dropToken_wf (hwf q hq)⟩

/-- The keys of a store's own map. -/
def hostIDs : Val → List String
  | some v => (entries v.1).map Prod.fst
  | none => []

/-- Whose token a host keeps is not exchanged, so that of a merged map only its hosts without their
tokens are seen. There is none if what comes in is `null`, or `null` stands for a host that is known:
reading its address throws. -/
def mergeHostsPreservingTokens (current incoming : Val) : Option Value :=
  match incoming with
  | none | some ⟨.null, _⟩ => none
  | some v => if ∃ p ∈ entries v.1, p.2 = .null ∧ p.1 ∈ hostIDs current then none else some (dropTokens v)

/-! ## Fields -/

/-- How a store takes a field. -/
inductive Rule where
  /-- As it is; a field that does not come in is left. -/
  | kept
  /-- As it is; a field that does not come in becomes undefined. -/
  | assigned
  | hostMap
  | list
  | record
  | bindings
  deriving Repr, DecidableEq

/-- What a full replacement makes of a field; it may throw. -/
def Rule.replace (rule : Rule) (incoming : Option Val) (localVal : Val) : Option Val :=
  let v := incoming.getD none
  match rule with
  | .kept => some (incoming.getD localVal)
  | .assigned => some v
  | .hostMap => (mergeHostsPreservingTokens localVal (orEmptyObject v)).map some
  | .list => some (if isArray v then v else some emptyArray)
  | .record => some (if isRecord v then v else some emptyObject)
  | .bindings => some (some (sanitizeBindings v))

/-- What becomes of a field whose remote side was chosen; it may throw. -/
def Rule.patch (rule : Rule) (incoming localVal : Val) : Option Val :=
  match rule with
  | .kept | .assigned => some incoming
  | .hostMap => (mergeHostsPreservingTokens localVal incoming).map some
  | .list => some (if isArray incoming then incoming else localVal)
  | .record => some (if isRecord incoming then incoming else localVal)
  | .bindings => some (some (sanitizeBindings incoming))

/-! ## Which values are taken as they are -/

/-- A map of hosts as it is exchanged: none of them has a token. -/
def HostMap (v : Val) : Prop := ∃ hosts, v = some hosts ∧ some (dropTokens hosts) ≈ v

def Rule.Accepts : Rule → Val → Prop
  | .kept, _ => True
  | .assigned, _ => True
  | .hostMap, v => HostMap v
  | .list, v => isArray v = true
  | .record, v => isRecord v = true
  | .bindings, v => some (sanitizeBindings v) ≈ v

/-- A full replacement leaves in the store what comes in, be it a value or none. -/
def Rule.Stores (rule : Rule) (localVal : Val) : Option Val → Prop
  | some v => rule.Accepts v
  | none => rule = .assigned ∨ rule = .kept ∧ localVal = none

/-- Writing the value leaves the field equal to what it was. -/
def Rule.Spares (localVal : Val) : Rule → Val → Prop
  | .kept, v => v ≈ localVal
  | .assigned, v => v ≈ localVal
  | .hostMap, v => ∃ hosts, mergeHostsPreservingTokens localVal v = some hosts ∧ some hosts ≈ localVal
  | .list, v => isArray v = true → v ≈ localVal
  | .record, v => isRecord v = true → v ≈ localVal
  | .bindings, v => some (sanitizeBindings v) ≈ localVal

instance (v : Val) : Decidable (HostMap v) :=
  match v with
  | none => isFalse nofun
  | some hosts => decidable_of_iff ((some (dropTokens hosts) : Val) ≈ some hosts) (by simp [HostMap])

instance (v : Val) : ∀ rule : Rule, Decidable (rule.Accepts v)
  | .kept | .assigned => inferInstanceAs (Decidable True)
  | .hostMap => inferInstanceAs (Decidable (HostMap v))
  | .list => inferInstanceAs (Decidable (isArray v = true))
  | .record => inferInstanceAs (Decidable (isRecord v = true))
  | .bindings => inferInstanceAs (Decidable (some (sanitizeBindings v) ≈ v))

instance (rule : Rule) (localVal : Val) : ∀ incoming, Decidable (rule.Stores localVal incoming)
  | some v => inferInstanceAs (Decidable (rule.Accepts v))
  | none => inferInstanceAs (Decidable (rule = .assigned ∨ rule = .kept ∧ localVal = none))

section Rules

variable {rule : Rule} {v w localVal : Val}

theorem isArray_of_equiv (h : v ≈ w) (hv : isArray v = true) : isArray w = true := by
  unfold isArray at hv
  split at hv
  · match w, h with
    | some ⟨.arr _, _⟩, _ => rfl
  · cases hv

theorem isRecord_of_equiv (h : v ≈ w) (hv : isRecord v = true) : isRecord w = true := by
  unfold isRecord at hv
  split at hv
  · match w, h with
    | some ⟨.obj _, _⟩, _ => rfl
  · cases hv

/-- No host of a map without tokens is `null`. -/
theorem not_null_of_hostMap {hosts : Value} (h : some (dropTokens hosts) ≈ (some hosts : Val)) :
    hosts.1 ≠ .null ∧ ∀ p ∈ entries hosts.1, p.2 ≠ .null := by
  obtain ⟨a, ha⟩ := hosts
  cases a with
  | obj fields =>
    refine ⟨nofun, fun p hp hnull => ?_⟩
    have hsame := (Raw.deepEqual_obj.1 h).2 (p.1, dropToken p.2) (List.mem_map_of_mem hp)
    obtain ⟨b, hb, heq⟩ := hsame
    rw [(lookup_eq_some (Raw.wf_obj.1 ha).1).2 hp, Option.some.injEq] at hb
    rw [← hb, hnull] at heq
    exact absurd heq nofun
  | _ => exact absurd h nofun

theorem mergeHosts_iff {hosts : Val} : (∃ w, (mergeHostsPreservingTokens localVal hosts).map some = some w ∧ w ≈ hosts) ↔
    HostMap hosts := by
  constructor
  · rintro ⟨w, hw, heq⟩
    match hosts, hw, heq with
    | some hosts, hw, heq =>
      unfold mergeHostsPreservingTokens at hw
      split at hw
      · cases hw
      · cases hw
      · rename_i hsome
        obtain rfl := Option.some.inj hsome
        split at hw
        · cases hw
        · obtain rfl := Option.some.inj hw
          exact ⟨_, rfl, heq⟩
  · rintro ⟨hosts, rfl, heq⟩
    obtain ⟨hnull, hnone⟩ := not_null_of_hostMap heq
    refine ⟨some (dropTokens hosts), ?_, heq⟩
    unfold mergeHostsPreservingTokens
    split
    · simp_all
    · simp_all
    · rename_i hsome
      obtain rfl := Option.some.inj hsome
      rw [if_neg, Option.map_some]
      rintro ⟨p, hp, hpnull, _⟩
      exact hnone p hp hpnull

theorem replaceHosts_iff (localVal v : Val) : (∃ w, (mergeHostsPreservingTokens localVal (orEmptyObject v)).map some = some w ∧ w ≈ v) ↔
    HostMap v := by
  have hempty : mergeHostsPreservingTokens localVal (some emptyObject) = some (dropTokens emptyObject) := by
    unfold mergeHostsPreservingTokens
    exact if_neg fun ⟨p, hp, _⟩ => absurd hp nofun
  rcases v with _ | ⟨a, ha⟩
  · refine iff_of_false ?_ (fun ⟨_, h, _⟩ => absurd h nofun)
    rintro ⟨w, hw, heq⟩
    rw [Val.equiv_none] at heq
    simp [orEmptyObject, hempty, heq] at hw
  · cases a with
    | null =>
      refine iff_of_false ?_ (fun ⟨_, h, heq⟩ => by obtain rfl := Option.some.inj h; exact absurd heq nofun)
      rintro ⟨w, hw, heq⟩
      simp only [orEmptyObject, hempty, Option.map_some, Option.some.injEq] at hw
      rw [← hw] at heq
      exact absurd heq nofun
    | _ => exact mergeHosts_iff

/-- A full replacement leaves what comes in, or nothing where nothing comes in. -/
theorem replace_iff (rule : Rule) (localVal : Val) (incoming : Option Val) :
    (∃ w, rule.replace incoming localVal = some w ∧ w ≈ incoming.getD none) ↔ rule.Stores localVal incoming := by
  cases incoming with
  | none =>
    cases rule with
    | kept => simp [Rule.replace, Rule.Stores, Val.equiv_none]
    | assigned => simp [Rule.replace, Rule.Stores, Val.equiv_none]
    | hostMap =>
      refine (replaceHosts_iff localVal none).trans (iff_of_false ?_ ?_)
      · rintro ⟨_, h, _⟩
        cases h
      · simp [Rule.Stores]
    | list | record | bindings => simp [Rule.replace, Rule.Stores, Val.equiv_none, isArray, isRecord]
  | some v =>
    cases rule with
    | kept | assigned => exact ⟨fun _ => trivial, fun _ => ⟨v, rfl, Setoid.refl v⟩⟩
    | hostMap => exact replaceHosts_iff localVal v
    | list =>
      simp only [Rule.replace, Rule.Stores, Rule.Accepts, Option.getD_some, Option.some.injEq, exists_eq_left']
      split
      · exact ⟨fun _ => ‹_›, fun _ => Setoid.refl v⟩
      · exact ⟨fun h => isArray_of_equiv h rfl, fun h => absurd h ‹_›⟩
    | record =>
      simp only [Rule.replace, Rule.Stores, Rule.Accepts, Option.getD_some, Option.some.injEq, exists_eq_left']
      split
      · exact ⟨fun _ => ‹_›, fun _ => Setoid.refl v⟩
      · exact ⟨fun h => isRecord_of_equiv h rfl, fun h => absurd h ‹_›⟩
    | bindings => simp only [Rule.replace, Rule.Stores, Rule.Accepts, Option.getD_some, Option.some.injEq, exists_eq_left']

/-- A remote value other than the local one is written if and only if it is accepted. -/
theorem patch_iff (hne : ¬localVal ≈ v) : (∃ w, rule.patch v localVal = some w ∧ w ≈ v) ↔ rule.Accepts v := by
  cases rule with
  | kept | assigned => exact ⟨fun _ => trivial, fun _ => ⟨v, rfl, Setoid.refl v⟩⟩
  | hostMap => exact mergeHosts_iff
  | list =>
    simp only [Rule.patch, Option.some.injEq, exists_eq_left', Rule.Accepts]
    split
    · exact ⟨fun _ => ‹_›, fun _ => Setoid.refl v⟩
    · exact ⟨fun h => absurd h hne, fun h => absurd h ‹_›⟩
  | record =>
    simp only [Rule.patch, Option.some.injEq, exists_eq_left', Rule.Accepts]
    split
    · exact ⟨fun _ => ‹_›, fun _ => Setoid.refl v⟩
    · exact ⟨fun h => absurd h hne, fun h => absurd h ‹_›⟩
  | bindings => simp only [Rule.patch, Option.some.injEq, exists_eq_left', Rule.Accepts]

theorem spares_iff : (∃ w, rule.patch v localVal = some w ∧ w ≈ localVal) ↔ rule.Spares localVal v := by
  cases rule with
  | kept | assigned | bindings => simp only [Rule.patch, Option.some.injEq, exists_eq_left', Rule.Spares]
  | hostMap => simp only [Rule.patch, Option.map_eq_some_iff, exists_exists_and_eq_and, Rule.Spares]
  | list =>
    simp only [Rule.patch, Option.some.injEq, exists_eq_left', Rule.Spares]
    split
    · exact ⟨fun h _ => h, fun h => h ‹_›⟩
    · exact ⟨fun _ h => absurd h ‹_›, fun _ => Setoid.refl _⟩
  | record =>
    simp only [Rule.patch, Option.some.injEq, exists_eq_left', Rule.Spares]
    split
    · exact ⟨fun h _ => h, fun h => h ‹_›⟩
    · exact ⟨fun _ h => absurd h ‹_›, fun _ => Setoid.refl _⟩

end Rules

/-! ## Contributors -/

/-- The contributors that are registered at startup; the strategy of each is `full`. -/
inductive Contributor where
  | preferences
  | workspaces
  | hosts
  | layout
  | quickCommands
  | i18n
  | notificationSettings
  deriving Repr, DecidableEq

namespace Contributor

def id : Contributor → String
  | preferences => "preferences"
  | workspaces => "workspaces"
  | hosts => "hosts"
  | layout => "layout"
  | quickCommands => "quick-commands"
  | i18n => "i18n"
  | notificationSettings => "notification-settings"

def all : List Contributor := [preferences, workspaces, hosts, layout, quickCommands, i18n, notificationSettings]

/-- `DATA_FIELDS`. -/
def fields : Contributor → List String
  | preferences => ["terminalRevealDelay", "terminalRenderer", "keepAliveCount", "keepAlivePinned", "terminalSettingsVersion",
      "tabIndicatorStyle", "ccIconVariant", "codexIconVariant", "dynamicTabName", "showAgentTitleInStatusBar"]
  | workspaces => ["workspaces", "activeWorkspaceId"]
  | hosts => ["hosts", "hostOrder", "activeHostId"]
  | layout => ["regions", "activityBarWidth", "tabPosition", "activityBarWideSize", "workspaceExpanded"]
  | quickCommands => ["global", "byHost", "bindings"]
  | i18n => ["activeLocaleId", "customLocales"]
  | notificationSettings => ["agents"]

def rule : Contributor → String → Rule
  | hosts, "hosts" => .hostMap
  | hosts, _ => .assigned
  | quickCommands, "global" => .list
  | quickCommands, "byHost" => .record
  | quickCommands, "bindings" => .bindings
  | _, _ => .kept

theorem mem_all (c : Contributor) : c ∈ all := by cases c <;> decide

instance : Fintype Contributor := ⟨⟨all, by decide⟩, mem_all⟩

theorem id_inj {c d : Contributor} (h : c.id = d.id) : c = d := by
  revert h
  cases c <;> cases d <;> decide

end Contributor

abbrev Store := String → Val

abbrev Stores := Contributor → Store

structure Payload where
  version : Nat
  data : Data
  deriving DecidableEq

inductive Choice where
  | localSide
  | remoteSide
  deriving Repr, DecidableEq

abbrev ResolvedFields := Record Choice

inductive MergeStrategy where
  | fullReplace
  | fieldMerge (resolved : ResolvedFields)

/-- The fields of an old preference, which stands for two. -/
def legacyFields : List String := ["dynamicTabName", "showAgentTitleInStatusBar"]

/-- The old preference, where it is a boolean. -/
def showOscTitle (c : Contributor) (data : Data) : Option Val :=
  if c = .preferences then
    match data.get "showOscTitle" with
    | some ⟨.bool b, h⟩ => some (some ⟨.bool b, h⟩)
    | _ => none
  else none

namespace Contributor

variable (c : Contributor)

def serialize (s : Store) : Payload := ⟨1, Record.ofKeys c.fields fun f => some (s f)⟩

/-- A field of what comes in, after the old preference stands for its two. -/
def incoming (data : Data) (f : String) : Option Val :=
  if f ∈ legacyFields then (showOscTitle c data).or (data.get? f) else data.get? f

/-- The value that is written to a field by choice, if any: its own, or that of the old preference. -/
def chosen (data : Data) (resolved : ResolvedFields) (f : String) : Option Val :=
  (if f ∈ legacyFields ∧ resolved.get? "showOscTitle" = some .remoteSide then showOscTitle c data else none).or
    (if resolved.get? f = some .remoteSide then c.incoming data f else none)

/-- What becomes of a field; it may throw. -/
def written (payload : Payload) (merge : MergeStrategy) (s : Store) (f : String) : Option Val :=
  match merge with
  | .fullReplace => (c.rule f).replace (c.incoming payload.data f) (s f)
  | .fieldMerge resolved =>
    match c.chosen payload.data resolved f with
    | some v => (c.rule f).patch v (s f)
    | none => some (s f)

/-- Either all fields are written or none, when one throws. -/
def deserialize (payload : Payload) (merge : MergeStrategy) (s : Store) : Option Store :=
  if ∀ f ∈ c.fields, (c.written payload merge s f).isSome then
    some fun f => if f ∈ c.fields then (c.written payload merge s f).getD (s f) else s f
  else none

theorem serialize_get (s : Store) {f : String} (h : f ∈ c.fields) : (c.serialize s).data.get f = s f := by
  rw [Data.get, serialize, Record.get?_ofKeys, if_pos h, Option.getD_some]

variable {c} {payload : Payload} {merge : MergeStrategy} {s t : Store} {f : String}

theorem deserialize_some (h : c.deserialize payload merge s = some t) (hf : f ∈ c.fields) :
    c.written payload merge s f = some (t f) := by
  unfold deserialize at h
  split at h
  · rename_i hall
    obtain rfl := Option.some.inj h
    obtain ⟨v, hv⟩ := Option.isSome_iff_exists.1 (hall f hf)
    simp [hf, hv]
  · cases h

theorem deserialize_isSome : (c.deserialize payload merge s).isSome ↔ ∀ f ∈ c.fields, (c.written payload merge s f).isSome := by
  unfold deserialize
  split <;> simp_all

end Contributor

end Purdex.Sync
