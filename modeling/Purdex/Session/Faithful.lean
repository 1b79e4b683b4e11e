/-
When a session's row is faithful: no statement of a call changes a column of a live session that the call does not
name, and none takes its row away, so that what an update wrote is what the next read returns.
-/
import Purdex.Session.Meta
import Mathlib

namespace Purdex.Session

open Conc
open Purdex.Store (Err)

abbrev MetaEntry := Entry metaIface MetaState MetaCall

/-! ## Names -/

def MetaState.Live (s : MetaState) (id : Nat) : Prop := ∃ x ∈ s.sessions, x.id = id

instance (s : MetaState) (id : Nat) : Decidable (s.Live id) := inferInstanceAs (Decidable (∃ x ∈ s.sessions, x.id = id))

instance {P : MetaField → Prop} [DecidablePred P] : Decidable (∀ F, P F) :=
  decidable_of_iff (P .mode ∧ P .ccSessionID ∧ P .ccModel ∧ P .cwd)
    ⟨fun ⟨hmode, hid, hmodel, hcwd⟩ F => by cases F <;> assumption, fun h => ⟨h _, h _, h _, h _⟩⟩

/-- The columns a statement assigns in the row of a session. -/
def MetaOp.Writes (id : Nat) (F : MetaField) : MetaOp → Prop
  | .setMeta id' _ => id' = id
  | .updateMeta id' upd => id' = id ∧ (upd.get F).isSome
  | .resetStaleModes => F = .mode
  | _ => False

instance (id : Nat) (F : MetaField) : (o : MetaOp) → Decidable (o.Writes id F)
  | .setMeta .. => inferInstanceAs (Decidable (_ = _))
  | .updateMeta .. => inferInstanceAs (Decidable (_ ∧ _))
  | .resetStaleModes => inferInstanceAs (Decidable (_ = _))
  | .listSessions | .hasSession _ | .newSession .. | .getMeta _ | .deleteMeta _ | .cleanOrphans _ | .answer _ =>
    inferInstanceAs (Decidable False)

/-- A listing had session `id` under `name`. -/
def ListedAs (id : Nat) (name : String) : Event metaIface → Prop
  | ⟨.listSessions, .ok sessions⟩ => ∃ s ∈ sessions, s.id = id ∧ s.name = name
  | _ => False

instance (id : Nat) (name : String) : (ev : Event metaIface) → Decidable (ListedAs id name ev)
  | ⟨.listSessions, .ok sessions⟩ => inferInstanceAs (Decidable (∃ s ∈ sessions, s.id = id ∧ s.name = name))
  | ⟨.listSessions, .error _⟩ | ⟨.hasSession _, _⟩ | ⟨.newSession .., _⟩ | ⟨.getMeta _, _⟩ | ⟨.setMeta .., _⟩ | ⟨.updateMeta .., _⟩
  | ⟨.deleteMeta _, _⟩ | ⟨.cleanOrphans _, _⟩ | ⟨.resetStaleModes, _⟩ | ⟨.answer _, _⟩ => inferInstanceAs (Decidable False)

/-- The columns a call names, and of which session; that of a creation is found by its name. -/
def MetaCall.Names (id : Nat) (F : MetaField) (h : Hist metaIface) : MetaCall → Prop
  | .create name _ _ => (∃ ev ∈ h, ListedAs id name ev) ∧ (F = .mode ∨ F = .cwd)
  | .switchMode code _ => decodeSessionID code = some id ∧ F = .mode
  | .update code upd => decodeSessionID code = some id ∧ (upd.get F).isSome
  | .start => F = .mode
  | _ => False

instance (id : Nat) (F : MetaField) (h : Hist metaIface) : (k : MetaCall) → Decidable (k.Names id F h)
  | .create .. => inferInstanceAs (Decidable (_ ∧ _))
  | .switchMode .. => inferInstanceAs (Decidable (_ ∧ _))
  | .update .. => inferInstanceAs (Decidable (_ ∧ _))
  | .start => inferInstanceAs (Decidable (_ = _))
  | .list | .get _ => inferInstanceAs (Decidable False)

/-- An entry assigns a column that its call names. -/
def Sets (en : MetaEntry) (id : Nat) (F : MetaField) : Prop := en.kind.Names id F en.hist ∧ en.op.Writes id F

instance (en : MetaEntry) (id : Nat) (F : MetaField) : Decidable (Sets en id F) := inferInstanceAs (Decidable (_ ∧ _))

/-! ## Faithful traces -/

/-- The row of a live session is still there, and only what the call names of it may differ. -/
def Kept (en : MetaEntry) : Prop :=
  ∀ x ∈ en.pre.sessions, ∀ row ∈ en.pre.rows x.id, ∃ row' ∈ (metaSys.post en).rows x.id, ∀ F, ¬ Sets en x.id F → row'.get F = row.get F

instance (en : MetaEntry) : Decidable (Kept en) := by unfold Kept; infer_instance

structure Faithful (t : List MetaEntry) : Prop where
  kept : ∀ en ∈ t, Kept en
  /-- What was written to a session that stays alive is in what a later `GetSession` returns, unless a call that names
  it wrote it again. -/
  visible : ∀ newer g mid u older, t = newer ++ g :: (mid ++ u :: older) →
    ∀ id upd F v, metaSys.event u = ⟨.updateMeta id upd, .ok ()⟩ → upd.get F = some v → u.pre.Live id →
      (∀ en ∈ mid, en.pre.Live id ∧ ¬ Sets en id F) →
    ∀ code r, g.kind = .get code → decodeSessionID code = some id → g.op = .answer (.ok r) → (∀ en ∈ u :: older, en.tid ≠ g.tid) →
      ∃ s row, r = some (sessionInfo code s (some row)) ∧ row.get F = v

/-- What a statement must find for the rows to stay faithful. -/
def Proper (en : MetaEntry) : Prop :=
  en.pre.dbFault = none → match en.op with
    | .setMeta id row => en.pre.Live id → ∀ old ∈ en.pre.rows id, ∀ F, ¬ en.kind.Names id F en.hist → row.get F = old.get F
    | .updateMeta id upd => en.pre.Live id → upd ≠ .none → (en.pre.rows id).isSome
    | .deleteMeta id => en.pre.Live id → en.pre.rows id = none
    | .cleanOrphans live => live ≠ [] → ∀ x ∈ en.pre.sessions, (en.pre.rows x.id).isSome → x.id ∈ live
    | _ => True

instance (en : MetaEntry) : Decidable (Proper en) := by
  unfold Proper
  refine @instDecidableForall _ _ inferInstance ?_
  split <;> infer_instance

/-! ## What the calls do -/

/-- What stands behind the result of a `GetSession`. -/
def Found (code : String) (h : Hist metaIface) : Option SessionInfo → Prop
  | none => decodeSessionID code = none ∨
    ∃ id sessions, decodeSessionID code = some id ∧ (⟨.listSessions, .ok sessions⟩ : Event metaIface) ∈ h ∧ ∀ s ∈ sessions, s.id ≠ id
  | some info => ∃ id s row, decodeSessionID code = some id ∧ (⟨.getMeta id, .ok row⟩ : Event metaIface) ∈ h ∧ info = sessionInfo code s row

/-- The statements of a call. -/
def MetaCall.Allows (k : MetaCall) (h : Hist metaIface) : MetaOp → Prop
  | .updateMeta id upd => ∀ F, (upd.get F).isSome → k.Names id F h
  | .resetStaleModes => ∀ id, k.Names id .mode h
  | .answer (.ok r) => ∃ code, k = .get code ∧ Found code h r
  | _ => True

def MetaCall.spec (k : MetaCall) : Spec metaIface where
  ans _ _ := True
  ok h o := k.Allows h o

variable {k : MetaCall} {h : Hist metaIface} {code : String}

theorem getSession_found : wpE k.spec (getSession code) (fun h' r => Found code h' r) (fun _ _ => True) h := by
  unfold getSession
  cases hcode : decodeSessionID code with
  | none => exact .inl hcode
  | some id =>
    refine (wpE_bind _ _ _).2 ⟨trivial, fun r _ => ?_⟩
    cases r with
    | error e => trivial
    | ok sessions =>
      cases hfind : sessions.find? (·.id == id) with
      | none =>
        rw [wp_pure]
        dsimp only
        rw [hfind]
        refine (wpE_bind _ _ _).2 ((wpE_lift _).2 ⟨trivial, fun r _ => ?_⟩)
        refine .inr ⟨id, sessions, hcode, List.mem_cons_of_mem _ List.mem_cons_self, fun s hs heq => ?_⟩
        exact absurd heq (by simpa using List.find?_eq_none.1 hfind s hs)
      | some s =>
        rw [wp_pure]
        dsimp only
        rw [hfind]
        refine (wpE_bind _ _ _).2 ⟨trivial, fun r _ => ?_⟩
        cases r with
        | error e => trivial
        | ok row => exact ⟨id, s, row, hcode, List.mem_cons_self, rfl⟩

/-- A statement that any call may issue. -/
def MetaOp.Free : MetaOp → Prop
  | .updateMeta .. | .resetStaleModes | .answer _ => False
  | _ => True

theorem allows_of_free : ∀ {o : MetaOp}, o.Free → k.Allows h o
  | .listSessions, _ | .hasSession _, _ | .newSession .., _ | .getMeta _, _ | .setMeta .., _ | .deleteMeta _, _ | .cleanOrphans _, _ => trivial

theorem listTmuxSessions_only : OnlyE MetaOp.Free listTmuxSessions := only_call trivial

theorem getMeta_only (id : Nat) : OnlyE MetaOp.Free (getMeta id) := only_call trivial

theorem setMeta_only (id : Nat) (row : SessionMeta) : OnlyE MetaOp.Free (setMeta id row) := only_call trivial

theorem mergeSessions_only : ∀ sessions : List LiveSession, OnlyE MetaOp.Free (mergeSessions sessions)
  | [] => trivial
  | s :: rest => by
    unfold mergeSessions
    cases encodeSessionID s.id with
    | none => exact mergeSessions_only rest
    | some code => exact onlyE_bind (getMeta_only s.id) fun _ => onlyE_bind (mergeSessions_only rest) fun _ => trivial

theorem listSessions_only : OnlyE MetaOp.Free listSessions :=
  onlyE_bind listTmuxSessions_only fun sessions => onlyE_bind (only_call trivial) fun _ => mergeSessions_only sessions

theorem handleCreate_only (name cwd mode : String) : OnlyE MetaOp.Free (handleCreate name cwd mode) := by
  unfold handleCreate
  dsimp only
  generalize (if cwd = "" then "/" else cwd) = dir, (if mode = "" then "terminal" else mode) = mode'
  split
  · trivial
  split
  · trivial
  refine onlyE_bind (onlyE_lift (only_call trivial)) fun taken => ?_
  split
  · trivial
  refine onlyE_bind (only_call trivial) fun _ => onlyE_bind listTmuxSessions_only fun sessions => ?_
  split
  · trivial
  split
  · trivial
  exact setMeta_only _ _

theorem handleSwitchMode_allowed (code mode : String) :
    wpE (MetaCall.switchMode code mode).spec (handleSwitchMode code mode) (fun _ _ => True) (fun _ _ => True) h := by
  unfold handleSwitchMode
  split
  · trivial
  refine wpE_seq getSession_found fun h' r _ hr => ?_
  cases r with
  | none => trivial
  | some info =>
    obtain ⟨id, s, row, hcode, -, -⟩ := hr
    refine wpE_seq (Q := fun _ _ => True) ⟨trivial, fun r _ => by cases r <;> trivial⟩ fun h' _ _ _ => ?_
    simp only [updateMeta, hcode]
    refine ⟨fun F hF => ⟨hcode, ?_⟩, fun r _ => by cases r <;> trivial⟩
    cases F with
    | mode => rfl
    | ccSessionID => cases hF
    | ccModel => cases hF
    | cwd => cases hF

/-- What a call issues, it is allowed to. -/
theorem body_allowed : ∀ k : MetaCall, wp k.spec k.body (fun _ _ => True) h
  | .list => (wp_bind _ _ _ _).2 (wp_of_only (fun _ _ => allows_of_free) listSessions_only fun _ _ _ => trivial)
  | .get code => by
    refine (wp_bind _ _ _ _).2 (wp_mono _ getSession_found fun h r _ hr => ⟨?_, fun _ _ => trivial⟩)
    cases r with
    | error e => trivial
    | ok r => exact ⟨code, rfl, hr⟩
  | .create name cwd mode => (wp_bind _ _ _ _).2 (wp_of_only (fun _ _ => allows_of_free) (handleCreate_only name cwd mode) fun _ _ _ => trivial)
  | .switchMode code mode => (wp_bind _ _ _ _).2 (wp_mono _ (handleSwitchMode_allowed code mode) fun _ _ _ _ => trivial)
  | .update code upd => by
    refine (wp_bind _ _ _ _).2 ?_
    cases hcode : decodeSessionID code with
    | none =>
      simp only [updateMeta, hcode]
      trivial
    | some id =>
      simp only [updateMeta, hcode]
      exact ⟨fun F hF => ⟨hcode, hF⟩, fun _ _ => trivial⟩
  | .start => ⟨fun _ => rfl, fun _ _ => trivial⟩

def metaContract : Contract metaSys where
  spec := MetaCall.spec
  inv _ _ := True
  fin _ _ := True
  ans_exec _ _ _ := trivial
  inv_start _ := trivial
  body_ok k _ _ := wp_mono _ (body_allowed k) fun _ r _ _ => by cases r <;> trivial

/-! ## One statement -/

variable {s : MetaState} {rows : Keyed Nat SessionMeta} {id : Nat}

/-- What a row has, it has after a statement that sees to it when the database answers. -/
theorem statement_row {P : SessionMeta → Prop} (hrow : ∃ row ∈ s.rows id, P row) (hok : s.dbFault = none → ∃ row ∈ rows id, P row) :
    ∃ row ∈ (s.statement rows).2.rows id, P row := by
  unfold MetaState.statement
  cases hfault : s.dbFault with
  | some e => exact hrow
  | none => exact hok hfault

theorem exec_listSessions (s : MetaState) : MetaOp.exec .listSessions s = (s.tmuxFault.elim (.ok s.sessions) .error, s) := by
  cases h : s.tmuxFault <;> simp [MetaOp.exec, h]

theorem exec_getMeta (id : Nat) (s : MetaState) : MetaOp.exec (.getMeta id) s = (s.dbFault.elim (.ok (s.rows id)) .error, s) := by
  cases h : s.dbFault <;> simp [MetaOp.exec, h]

theorem exec_newSession_rows (name cwd : String) (s : MetaState) : (MetaOp.exec (.newSession name cwd) s).2.rows = s.rows := by
  cases h : s.tmuxFault with
  | some e => simp [MetaOp.exec, h]
  | none =>
    simp only [MetaOp.exec, h]
    split <;> rfl

theorem exec_updateMeta {upd : MetaUpdate} (hne : upd ≠ .none) (id : Nat) (s : MetaState) :
    MetaOp.exec (.updateMeta id upd) s = s.statement (Function.update s.rows id ((s.rows id).map upd.apply)) := if_neg hne

theorem exec_cleanOrphans {live : List Nat} (hne : live ≠ []) (s : MetaState) :
    MetaOp.exec (.cleanOrphans live) s = s.statement fun id => if id ∈ live then s.rows id else none := if_neg hne

theorem statement_ok (hfault : s.dbFault = none) : s.statement rows = (.ok (), { s with rows }) := by
  unfold MetaState.statement
  rw [hfault]

theorem get_apply (upd : MetaUpdate) (row : SessionMeta) (F : MetaField) : (upd.apply row).get F = (upd.get F).getD (row.get F) := by
  cases F <;> rfl

/-- A statement that finds what it must keeps every row faithful. -/
theorem kept_of_proper {en : MetaEntry} (hallows : en.kind.Allows en.hist en.op) (hproper : Proper en) : Kept en := by
  obtain ⟨tid, kind, hist, op, s⟩ := en
  intro x hx row hrow
  have hlive : s.Live x.id := ⟨x, hx, rfl⟩
  have hsame : ∃ row' ∈ s.rows x.id, ∀ F, ¬ Sets ⟨tid, kind, hist, op, s⟩ x.id F → row'.get F = row.get F := ⟨row, hrow, fun _ _ => rfl⟩
  cases op with
  | listSessions =>
    show ∃ row' ∈ (MetaOp.exec .listSessions s).2.rows x.id, _
    rw [exec_listSessions]
    exact hsame
  | hasSession name => exact hsame
  | newSession name cwd =>
    show ∃ row' ∈ (MetaOp.exec (.newSession name cwd) s).2.rows x.id, _
    rw [exec_newSession_rows]
    exact hsame
  | getMeta id =>
    show ∃ row' ∈ (MetaOp.exec (.getMeta id) s).2.rows x.id, _
    rw [exec_getMeta]
    exact hsame
  | setMeta id new =>
    refine statement_row hsame fun hfault => ?_
    by_cases hid : id = x.id
    · subst hid
      refine ⟨new, Function.update_self _ _ _, fun F hF => hproper hfault hlive row hrow F fun hnames => hF ⟨hnames, rfl⟩⟩
    · exact ⟨row, (Function.update_of_ne (Ne.symm hid) _ _).trans hrow, fun _ _ => rfl⟩
  | updateMeta id upd =>
    show ∃ row' ∈ (MetaOp.exec (.updateMeta id upd) s).2.rows x.id, _
    by_cases hgiven : upd = .none
    · subst hgiven
      exact hsame
    rw [exec_updateMeta hgiven]
    refine statement_row hsame fun _ => ?_
    by_cases hid : id = x.id
    · subst hid
      refine ⟨upd.apply row, by rw [Function.update_self, hrow]; rfl, fun F hF => ?_⟩
      rw [get_apply]
      cases hgiven : upd.get F with
      | none => rfl
      | some v =>
        have hsome : (upd.get F).isSome := by rw [hgiven]; rfl
        exact absurd ⟨hallows F hsome, rfl, hsome⟩ hF
    · exact ⟨row, (Function.update_of_ne (Ne.symm hid) _ _).trans hrow, fun _ _ => rfl⟩
  | deleteMeta id =>
    refine statement_row hsame fun hfault => ?_
    have hid : x.id ≠ id := fun heq => by
      have hgone := hproper hfault (heq ▸ hlive)
      rw [← heq, hrow] at hgone
      cases hgone
    exact ⟨row, (Function.update_of_ne hid _ _).trans hrow, fun _ _ => rfl⟩
  | cleanOrphans live =>
    show ∃ row' ∈ (MetaOp.exec (.cleanOrphans live) s).2.rows x.id, _
    by_cases hne : live = []
    · rw [hne]
      exact hsame
    rw [exec_cleanOrphans hne]
    refine statement_row hsame fun hfault => ⟨row, ?_, fun _ _ => rfl⟩
    exact (if_pos (hproper hfault hne x hx (by rw [hrow]; rfl))).trans hrow
  | resetStaleModes =>
    refine statement_row hsame fun _ => ⟨{ row with mode := "terminal" }, by rw [hrow]; rfl, fun F hF => ?_⟩
    cases F with
    | mode => exact absurd ⟨hallows x.id, rfl⟩ hF
    | ccSessionID => rfl
    | ccModel => rfl
    | cwd => rfl
  | answer r => exact hsame

theorem sessions_of_listed {en : MetaEntry} {sessions : List LiveSession} (hev : metaSys.event en = ⟨.listSessions, .ok sessions⟩) :
    en.pre.sessions = sessions := by
  obtain ⟨tid, kind, hist, op, s⟩ := en
  obtain rfl : op = .listSessions := congrArg Event.op hev
  have hres : (MetaOp.exec .listSessions s).1 = .ok sessions := eq_of_heq (Event.mk.inj hev).2
  rw [exec_listSessions] at hres
  cases hfault : s.tmuxFault with
  | some e =>
    rw [hfault] at hres
    cases hres
  | none =>
    rw [hfault] at hres
    exact Except.ok.inj hres

theorem row_of_read {en : MetaEntry} {row : Option SessionMeta} (hev : metaSys.event en = ⟨.getMeta id, .ok row⟩) :
    en.pre.rows id = row := by
  obtain ⟨tid, kind, hist, op, s⟩ := en
  obtain rfl : op = .getMeta id := congrArg Event.op hev
  have hres : (MetaOp.exec (.getMeta id) s).1 = .ok row := eq_of_heq (Event.mk.inj hev).2
  rw [exec_getMeta] at hres
  cases hfault : s.dbFault with
  | some e =>
    rw [hfault] at hres
    cases hres
  | none =>
    rw [hfault] at hres
    exact Except.ok.inj hres

/-- An update that returned no error is in the row. -/
theorem updated_of_proper {u : MetaEntry} {upd : MetaUpdate} {F : MetaField} {v : String} (hproper : Proper u)
    (hev : metaSys.event u = ⟨.updateMeta id upd, .ok ()⟩) (hgiven : upd.get F = some v) (hlive : u.pre.Live id) :
    ∃ row ∈ (metaSys.post u).rows id, row.get F = v := by
  obtain ⟨tid, kind, hist, op, s⟩ := u
  obtain rfl : op = .updateMeta id upd := congrArg Event.op hev
  have hres : (MetaOp.exec (.updateMeta id upd) s).1 = .ok () := eq_of_heq (Event.mk.inj hev).2
  show ∃ row ∈ (MetaOp.exec (.updateMeta id upd) s).2.rows id, _
  have hne : upd ≠ .none := fun heq => by
    rw [heq] at hgiven
    cases F <;> cases hgiven
  rw [exec_updateMeta hne] at hres ⊢
  unfold MetaState.statement at hres ⊢
  cases hfault : s.dbFault with
  | some e =>
    rw [hfault] at hres
    cases hres
  | none =>
    obtain ⟨row, hrow⟩ := Option.isSome_iff_exists.1 (hproper hfault hlive hne)
    refine ⟨upd.apply row, ?_, by rw [get_apply, hgiven]; rfl⟩
    show Function.update s.rows id ((s.rows id).map upd.apply) id = _
    rw [Function.update_self, hrow]
    rfl

/-! ## Runs -/

/-- One session, with a row or without. -/
def oneSession (row : Option SessionMeta) : MetaState :=
  ⟨[⟨0, "work", "/src"⟩], 1, Function.update (fun _ => none) 0 row, none, none⟩

def playMeta (ls : List (Label MetaCall Outside)) (s : MetaState) : Option (Pool metaIface MetaState MetaCall) :=
  metaSys.play (fun _ _ => true) ls ⟨s, [], []⟩

theorem faithful_of_playMeta {ls : List (Label MetaCall Outside)} {s : MetaState} {p : Pool metaIface MetaState MetaCall}
    (hp : playMeta ls s = some p) : metaSys.Reach (fun _ => True) (fun _ _ => True) p :=
  Sys.reach_of_play (fun _ _ _ => trivial) (.init trivial) hp

/-- An update, and then a read. -/
def updateThenGet : List (Label MetaCall Outside) :=
  [.spawn (.update "grnhi7" ⟨none, some "a1", none, none⟩), .act 0, .spawn (.get "grnhi7"), .act 1, .act 1, .act 1]

/-- The mode of a session is switched; the agent session and the model are set to nothing. -/
def switchMode : List (Label MetaCall Outside) :=
  [.spawn (.switchMode "grnhi7" "terminal"), .act 0, .act 0, .act 0, .act 0]

/-- A session is created between a listing and its clean-up. -/
def createDuringList : List (Label MetaCall Outside) :=
  [.spawn .list, .act 0, .spawn (.create "next" "/src" "stream"), .act 1, .act 1, .act 1, .act 1, .act 0]

/-- The last of four operations is a read of session `grnhi7` without the agent session that the first gave it. -/
def missed : List MetaEntry → Bool
  | [g, b, c, u] => decide ((u.op = .updateMeta 0 ⟨none, some "a1", none, none⟩ ∧ u.pre.dbFault = none ∧ u.pre.Live 0) ∧
      (∀ en ∈ [b, c], en.pre.Live 0 ∧ ¬ Sets en 0 .ccSessionID) ∧ u.tid ≠ g.tid ∧
      g.kind = .get "grnhi7" ∧ g.op = .answer (.ok (some ⟨"grnhi7", 0, "work", "terminal", "/src", "", ""⟩)))
  | _ => false

end Purdex.Session
