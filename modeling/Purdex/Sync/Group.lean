/-
The clients of a group and their daemon: a sync is a pull, a merge and a push, between which those of
other clients run. A push replaces the whole canonical bundle by what its client has enabled.
-/
import Purdex.Sync.Client
import Purdex.Sync.Register
import Mathlib

namespace Purdex.Sync

open Conc Json

/-! ## Bundles as they are exchanged -/

/-- Undefined fields are not written. -/
def Bundle.wire (b : Bundle) : Bundle :=
  { b with
    collections := Record.ofKeys b.collections.keys fun i => (b.collections.get? i).map fun payload =>
      { payload with data := Record.ofKeys payload.data.keys fun k => (payload.data.get k).map some } }

/-- The value a bundle has for a field. -/
def valueIn (b : Option Bundle) (c : Contributor) (f : String) : Val :=
  b.bind fun b => (b.collections.get? c.id).bind fun payload => Data.get (Payload.data payload) f

/-- A body is the bundle it was written from. -/
def readBundle (b : Bundle) : Option (Option Bundle) := some (some b)

/-! ## Devices -/

/-- How far a sync is: the modules that were enabled when it started, and what it pulled. An edit made
while the push is on its way is not in it, and counts as one made after it. -/
inductive Phase where
  | idle
  | pulled (enabled : Modules) (remote : Option Bundle)
  | merged (enabled : Modules)

/-- A client, its sync, and what its last pull returned. -/
structure Device where
  client : Client
  phase : Phase
  seen : Option Bundle

structure Group where
  db : DB (Option Bundle)
  devices : String → Device

inductive Event where
  | pull (clientID : String)
  | merge (clientID : String)
  | push (clientID : String) (now : Int)
  | edit (clientID : String) (stores : Stores)
  | toggle (clientID moduleId : String)

def Event.clientID : Event → String
  | .pull clientID => clientID
  | .merge clientID => clientID
  | .push clientID _ => clientID
  | .edit clientID _ => clientID
  | .toggle clientID _ => clientID

namespace Device

variable (E : Engine) (d : Device)

/-- The reply to a pull has arrived; one that is an error ends the sync. -/
def receive : Reply (Option Bundle) → Device
  | .null => { d with phase := .pulled d.client.enabledModules none, seen := none }
  | .bundle remote => { d with phase := .pulled d.client.enabledModules remote, seen := remote }
  | _ => d

/-- The merge of what was pulled; without conflicts the sync goes on to push. -/
def merge : Device :=
  match d.phase with
  | .pulled enabled remote =>
    match syncPull E d.client.lastSyncedBundle enabled remote d.client.stores with
    | (some result, stores) => { d with client := d.client.settle (result, stores), phase := .idle }
    | (none, stores) => { d with client := { d.client with stores := stores }, phase := .merged enabled }
  | _ => d

/-- The reply to a push has arrived. -/
def pushed (bundle : Bundle) (reply : Reply (Option Bundle)) : Device :=
  { d with
    phase := .idle
    client := if reply = .noContent then d.client.setLastSyncedBundle bundle else d.client }

end Device

namespace Group

variable (E : Engine) (env : Env (Option Bundle)) (g : Group)

def set (clientID : String) (d : Device) : Group := { g with devices := Function.update g.devices clientID d }

/-- A sync that is under way is not started again. -/
def step : Event → Group
  | .pull clientID =>
    match (g.devices clientID).phase with
    | .idle =>
      let out := serveIn env readBundle (.pull clientID) g.db
      { g with db := out.2 }.set clientID ((g.devices clientID).receive out.1)
    | _ => g
  | .merge clientID => g.set clientID ((g.devices clientID).merge E)
  | .push clientID now =>
    match (g.devices clientID).phase with
    | .merged enabled =>
      let bundle := E.serialize clientID enabled now (g.devices clientID).client.stores
      let out := serveIn env readBundle (.push clientID bundle.wire) g.db
      { g with db := out.2 }.set clientID ((g.devices clientID).pushed bundle out.1)
    | _ => g
  | .edit clientID stores =>
    let d := g.devices clientID
    g.set clientID { d with client := { d.client with stores := stores } }
  | .toggle clientID moduleId =>
    let d := g.devices clientID
    g.set clientID { d with client := d.client.toggleModule moduleId }

end Group

/-! ## Lost updates -/

/-- The value the canonical bundle of a group has for a field. -/
def DB.value (db : DB (Option Bundle)) (groupID : String) (c : Contributor) (f : String) : Val :=
  valueIn ((db.bundleOf groupID).getD none) c f

/-- What was done, and in which state. -/
abbrev Done := Served Group Event Unit

/-- None of the statements fails up to the one that stores the bundle of a push. -/
def Env.StoresPush {β : Type} (env : Env β) (db : DB β) : Prop :=
  env.fails db.tick = false ∧ env.fails (db.tick + 2) = false ∧ env.fails (db.tick + 5) = false

section Lost

variable (E : Engine) (env : Env (Option Bundle)) (groupID : String)

/-- A push replaced the value of a field by a different one, having seen it at its last pull. -/
def Replaces (c : Contributor) (f : String) (v : Val) (e : Done) : Prop :=
  ∃ clientID now w, e.request = .push clientID now ∧ e.pre.db.value groupID c f ≈ v ∧
    valueIn (e.pre.devices clientID).seen c f ≈ v ∧
      (e.pre.step E env e.request).db.value groupID c f = some w ∧ ¬some w ≈ v

/-- A value that the canonical bundle has after a push stays there until a push replaces it by a
different one, having seen it. -/
def NoLostUpdate (g : Group) (t : List Done) : Prop :=
  ∀ later e earlier, t = later ++ e :: earlier → ∀ clientID now, e.request = .push clientID now →
    ∀ c, ∀ f ∈ c.fields, ∀ v, (e.pre.step E env e.request).db.value groupID c f = some v →
      g.db.value groupID c f ≈ some v ∨ ∃ e' ∈ later, Replaces E env groupID c f (some v) e'

/-- Every value of the canonical bundle is of a module that was enabled and of a field that is not
undefined, and is the one in the store or one that the last pull returned. -/
def Device.Covers (d : Device) (enabled : Modules) (canonical : Contributor → String → Val) : Prop :=
  ∀ c, ∀ f ∈ c.fields, ∀ v ∈ canonical c f, c ∈ E.contributors enabled.1 ∧
    ∃ w ∈ d.client.stores c f, some w ≈ some v ∨ valueIn d.seen c f ≈ some v

instance (d : Device) (enabled : Modules) (canonical : Contributor → String → Val) : Decidable (d.Covers E enabled canonical) := by
  delta Device.Covers
  infer_instance

/-- A push that is going to be stored covers the canonical bundle. -/
def UpToDate (g : Group) : Event → Prop
  | .push clientID _ =>
    match (g.devices clientID).phase with
    | .merged enabled => env.StoresPush g.db → (g.devices clientID).Covers E enabled (g.db.value groupID)
    | _ => True
  | _ => True

instance (g : Group) : ∀ ev, Decidable (UpToDate E env groupID g ev)
  | .push clientID _ => by
    delta UpToDate Env.StoresPush
    dsimp only
    split <;> infer_instance
  | .pull _ | .merge _ | .edit .. | .toggle .. => inferInstanceAs (Decidable True)

/-- The clients are members of the groups `m` says, and none is syncing. -/
def Starts (m : String → Option String) (g : Group) : Prop :=
  Members m g.db ∧ ∀ clientID, (g.devices clientID).phase = .idle

/-- The runs of the clients of one group. -/
abbrev Syncs (m : String → Option String) (ok : Group → Event → Prop) : Group → List Done → Prop :=
  Serves (fun ev g => ((), g.step E env ev)) (Starts m) fun g ev => m ev.clientID = some groupID ∧ ok g ev

end Lost

/-! ## What a push and a pull do to the canonical bundle -/

section Steps

variable {E : Engine} {env : Env (Option Bundle)} {groupID clientID : String} {m : String → Option String} {g : Group}
  {c : Contributor} {f : String}

theorem valueIn_wire (b : Bundle) : valueIn (some b.wire) c f = valueIn (some b) c f := by
  have hpayload : b.wire.collections.get? c.id = (b.collections.get? c.id).map fun payload =>
      { payload with data := Record.ofKeys payload.data.keys fun k => (payload.data.get k).map some } := by
    refine Record.get?_ofKeys_of (fun k hk => ?_) c.id
    rw [Record.get?_eq_none hk]
    rfl
  unfold valueIn
  rw [Option.bind_some, Option.bind_some, hpayload]
  cases b.collections.get? c.id with
  | none => rfl
  | some payload =>
    have hdata : (Record.ofKeys payload.data.keys fun k => (payload.data.get k).map some).get? f = (payload.data.get f).map some := by
      refine Record.get?_ofKeys_of (fun k hk => ?_) f
      rw [Data.get, Record.get?_eq_none hk]
      rfl
    change Data.get (Record.ofKeys _ _) f = payload.data.get f
    rw [Data.get, hdata]
    cases payload.data.get f <;> rfl

/-- A serialized bundle has what the enabled contributors store. -/
theorem valueIn_serialize {enabled : Modules} {now : Int} {s : Stores} (hc : c ∈ E.contributors enabled.1) (hf : f ∈ c.fields) :
    valueIn (some (E.serialize clientID enabled now s)) c f = s c f := by
  have hpayload : (E.serialize clientID enabled now s).collections.get? c.id = some (c.serialize (s c)) := by
    obtain ⟨hid, hreg⟩ := Engine.mem_contributors.1 hc
    rw [Engine.serialize, Record.get?_ofKeys, if_pos hid, Engine.get_eq hreg]
    rfl
  rw [valueIn, Option.bind_some, hpayload, Option.bind_some, Contributor.serialize_get c _ hf]

theorem value_congr {db db' : DB (Option Bundle)} (h : db'.canonical = db.canonical) : db'.value groupID c f = db.value groupID c f := by
  rw [DB.value, DB.value, DB.bundleOf, DB.bundleOf, h]

theorem inGroup_of_member (hm : Members m g.db) (hin : m clientID = some groupID) : InGroup groupID g.db clientID := by
  intro g'
  rw [hm g' clientID, hin]

theorem canonical_pull {db : DB (Option Bundle)} (hin : InGroup groupID db clientID) :
    (serveIn env readBundle (.pull clientID) db).2.canonical = db.canonical := by
  simp only [serveIn, serve, handlePull]
  split
  · rfl
  · rw [eval_orError_snd (exec env) db fun bundle s => by split <;> rfl]
    exact (eval_pullCanonical env hin).2.1

/-- A push leaves the canonical bundle as it was or replaces it. -/
theorem canonical_push {db : DB (Option Bundle)} (hin : InGroup groupID db clientID) (b : Bundle) :
    (serveIn env readBundle (.push clientID b) db).2.canonical = db.canonical ∨
      env.StoresPush db ∧ (serveIn env readBundle (.push clientID b) db).2.bundleOf groupID = some (some b) := by
  simp only [serveIn, serve, handlePush, readBundle]
  split
  · exact .inl rfl
  · rw [eval_orError_snd (exec env) db fun _ _ => rfl]
    have hpushed := eval_pushBundle env hin (some b)
    generalize (pushBundle clientID (some b)).run.eval (I := iface (Option Bundle)) (exec env) db = out at hpushed
    cases hpushed with
    | refused hc _ => exact .inl hc
    | torn hf₀ hf₂ hf₅ _ hbundle => exact .inr ⟨⟨hf₀, hf₂, hf₅⟩, hbundle⟩
    | stored _ hf₀ hf₂ hf₅ hbundle _ _ _ _ _ => exact .inr ⟨⟨hf₀, hf₂, hf₅⟩, hbundle⟩

theorem members_step_group (hm : Members m g.db) (ev : Event) : Members m (g.step E env ev).db := by
  have hserve : ∀ {req : Request Bundle} {id : String}, req.client = some id → Members m (serveIn env readBundle req g.db).2 := by
    intro req id hreq groupID' id'
    rw [(eval_reading env readBundle hm hreq).1]
    exact hm groupID' id'
  cases ev with
  | pull clientID =>
    unfold Group.step
    dsimp only
    split
    · exact hserve rfl
    · exact hm
  | push clientID now =>
    unfold Group.step
    dsimp only
    split
    · exact hserve rfl
    · exact hm
  | merge | edit | toggle => exact hm

/-- One step keeps a value of the canonical bundle, or replaces it, having seen it. -/
theorem kept_or_replaced {ev : Event} {v : Value} (hm : Members m g.db) (hin : m ev.clientID = some groupID)
    (hok : UpToDate E env groupID g ev) (hf : f ∈ c.fields) (hv : g.db.value groupID c f = some v) :
    (g.step E env ev).db.value groupID c f ≈ some v ∨ Replaces E env groupID c f (some v) ⟨ev, g, ()⟩ := by
  have hkept : (g.step E env ev).db.canonical = g.db.canonical → (g.step E env ev).db.value groupID c f ≈ some v :=
    fun h => Val.equiv_of_eq ((value_congr h).trans hv)
  cases ev with
  | merge | edit | toggle => exact .inl (hkept rfl)
  | pull clientID =>
    refine .inl (hkept ?_)
    unfold Group.step
    dsimp only
    split
    · exact canonical_pull (inGroup_of_member hm hin)
    · rfl
  | push clientID now =>
    cases hphase : (g.devices clientID).phase with
    | idle | pulled =>
      refine .inl (hkept ?_)
      simp only [Group.step, hphase]
    | merged enabled =>
      have hstep : (g.step E env (.push clientID now)).db = (serveIn env readBundle (.push clientID
          (E.serialize clientID enabled now (g.devices clientID).client.stores).wire) g.db).2 := by
        simp only [Group.step, hphase, Group.set]
      have hmember : InGroup groupID g.db clientID := inGroup_of_member hm hin
      have hcovers : env.StoresPush g.db → (g.devices clientID).Covers E enabled (g.db.value groupID) := by
        simpa only [UpToDate, hphase] using hok
      rcases canonical_push hmember (E.serialize clientID enabled now (g.devices clientID).client.stores).wire with hsame | ⟨hstores, hbundle⟩
      · exact .inl (hkept (hstep ▸ hsame))
      · obtain ⟨hc, w, hw, hseen⟩ := hcovers hstores c f hf v hv
        have hnew : (g.step E env (.push clientID now)).db.value groupID c f = some w := by
          rw [hstep, DB.value, hbundle, Option.getD_some, valueIn_wire, valueIn_serialize hc hf, hw]
        by_cases hsame : (some w : Val) ≈ some v
        · exact .inl (hnew ▸ hsame)
        · exact .inr ⟨clientID, now, w, rfl, Val.equiv_of_eq hv, hseen.resolve_left hsame, hnew, hsame⟩

theorem Replaces.congr {v w : Val} {e : Done} (h : Replaces E env groupID c f v e) (hvw : v ≈ w) : Replaces E env groupID c f w e := by
  obtain ⟨clientID, now, u, hreq, hpre, hseen, hpost, hne⟩ := h
  exact ⟨clientID, now, u, hreq, Setoid.trans hpre hvw, Setoid.trans hseen hvw, hpost,
    fun hu => hne (Setoid.trans hu (Setoid.symm hvw))⟩

theorem members_of_syncs {ok : Group → Event → Prop} {t : List Done} (h : Syncs E env groupID m ok g t) : Members m g.db := by
  induction h with
  | init hstart => exact hstart.1
  | step _ _ ih => exact members_step_group ih _

end Steps

/-- In a run whose pushes all come from clients that are up to date, no update is lost. -/
theorem no_lost_update (E : Engine) (env : Env (Option Bundle)) (m : String → Option String) (groupID : String) {g : Group}
    {t : List Done} (h : Syncs E env groupID m (UpToDate E env groupID) g t) : NoLostUpdate E env groupID g t := by
  induction h with
  | init => exact fun later e earlier ht => absurd ht (by simp)
  | @step g t ev hrun hok ih =>
    intro later e earlier ht clientID now hreq c f hf v hv
    rcases later with _ | ⟨e', later⟩
    · -- the push itself
      obtain ⟨rfl, rfl⟩ := List.cons.inj ht
      exact .inl (Val.equiv_of_eq hv)
    · obtain ⟨rfl, rfl⟩ := List.cons.inj ht
      rcases ih later e earlier rfl clientID now hreq c f hf v hv with hcur | ⟨e', he', hrep⟩
      · cases hval : g.db.value groupID c f with
        | none =>
          rw [hval] at hcur
          exact absurd (Val.equiv_none.1 (Setoid.symm hcur)) nofun
        | some u =>
          rw [hval] at hcur
          rcases kept_or_replaced (members_of_syncs hrun) hok.1 hok.2 hf hval with hkept | hrep
          · exact .inl (Setoid.trans hkept hcur)
          · exact .inr ⟨_, List.mem_cons_self, hrep.congr hcur⟩
      · exact .inr ⟨e', List.mem_cons_of_mem _ he', hrep⟩

/-! ## Two clients -/

def workspacesOnly (active : String) : Stores
  | .workspaces => (workspaceData ["w1", "w2", "w3"] active).get
  | _ => fun _ => none

/-- A client that was never synced. -/
def newDevice (clientId active : String) : Device :=
  ⟨⟨clientId, workspacesOnly active, none, ⟨["workspaces"], List.nodup_singleton "workspaces"⟩, [], none⟩, .idle, none⟩

def twoMembers (clientID : String) : Option String := if clientID ∈ ["c_1", "c_2"] then some "g_1" else none

/-- A group of two clients, and no bundle. -/
def twoDevices : Group where
  db := ((DB.empty.insertGroup "g_1").upsertMember ⟨"g_1", "c_1", "", 0⟩).upsertMember ⟨"g_1", "c_2", "", 0⟩
  devices clientID := newDevice clientID (if clientID = "c_1" then "w1" else "w2")

def calmDaemon : Env (Option Bundle) := .calm fun _ => []

theorem starts_twoDevices : Starts twoMembers twoDevices := by
  refine ⟨fun groupID clientID => ?_, fun _ => rfl⟩
  have hmembers : twoDevices.db.members = [("g_1", "c_1"), ("g_1", "c_2")] := by decide
  rw [hmembers]
  unfold twoMembers
  aesop

/-- One client after the other, with an edit before the second push. -/
def takingTurns : List Event :=
  [.pull "c_1", .merge "c_1", .push "c_1" 0, .pull "c_2", .merge "c_2", .edit "c_2" (workspacesOnly "w3"), .push "c_2" 1]

theorem no_lost_update_takingTurns : NoLostUpdate syncEngine calmDaemon "g_1"
    (serveAll (fun ev g => ((), g.step syncEngine calmDaemon ev)) takingTurns twoDevices []).1
    (serveAll (fun ev g => ((), g.step syncEngine calmDaemon ev)) takingTurns twoDevices []).2 := by
  have hinit : Syncs syncEngine calmDaemon "g_1" twoMembers (UpToDate syncEngine calmDaemon "g_1") twoDevices [] :=
    .init starts_twoDevices
  refine no_lost_update syncEngine calmDaemon twoMembers "g_1" (hinit.all ?_)
  decide

/-- A push that comes between the pull and the push of the other client. -/
def overlapping : List Event :=
  [.pull "c_2", .pull "c_1", .merge "c_1", .push "c_1" 0, .merge "c_2", .push "c_2" 1]

/-- The workspace that was pushed first is gone, and the other client never saw it. -/
theorem overlapping_lost : ¬∀ (E : Engine) (env : Env (Option Bundle)) (m : String → Option String) (groupID : String) (g : Group)
    (t : List Done), Syncs E env groupID m (fun _ _ => True) g t → NoLostUpdate E env groupID g t := by
  intro h
  have hinit : Syncs syncEngine calmDaemon "g_1" twoMembers (fun _ _ => True) twoDevices [] := .init starts_twoDevices
  have hok : AllOk (fun ev g => ((), g.step syncEngine calmDaemon ev)) (fun g ev => twoMembers ev.clientID = some "g_1" ∧ True)
      overlapping twoDevices := by decide
  obtain hcur | ⟨e, he, clientID, now, w, hreq, _, hseen, _⟩ :=
    h _ _ _ _ _ _ (hinit.all hok) [_, _] _ _ rfl "c_1" 0 rfl .workspaces "activeWorkspaceId" (by decide) ⟨.str "w1", rfl⟩
      (by decide)
  · exact absurd hcur (by decide)
  · rcases he with _ | ⟨_, _ | ⟨_, he⟩⟩
    · obtain ⟨rfl, rfl⟩ := Event.push.inj hreq
      exact absurd hseen (by decide)
    · cases hreq
    · cases he

end Purdex.Sync
