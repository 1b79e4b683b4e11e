/-
Membership over whole runs of requests: which group each client is in, by the creates, joins and
removals that succeeded, as long as no client is added to a group while it is in another.
-/
import Purdex.Conc.Serial
import Purdex.Conc.Runs
import Purdex.Sync.Handlers

namespace Purdex.Sync

open Conc

variable {β ρ : Type}

/-! ## Members of the groups -/

/-- The pairs of a group and a client in it. -/
def DB.members (db : DB β) : List (String × String) := db.groups.map GroupRow.key

/-- The statements that leave the members as they are. -/
def Op.KeepsMembers : Op β → Prop
  | .upsertMember .. => False
  | .deleteMember .. => False
  | _ => True

/-- The group a statement names. -/
def Op.group : Op β → Option String
  | .touch groupID _ _ => some groupID
  | .selectDevice groupID _ => some groupID
  | .upsertCanonical groupID _ _ => some groupID
  | .insertHistory groupID _ _ _ _ => some groupID
  | .pruneHistory groupID => some groupID
  | .selectBundle groupID => some groupID
  | .selectHistory groupID _ => some groupID
  | .insertGroup groupID => some groupID
  | .selectGroup groupID => some groupID
  | .upsertMember groupID _ _ _ => some groupID
  | .deleteMember groupID _ => some groupID
  | .selectMembers groupID => some groupID
  | .deleteCodes groupID => some groupID
  | .insertCode row => some row.groupID
  | _ => none

theorem touch_members (db : DB β) (groupID clientID : String) (now : Int) :
    (db.touch groupID clientID now).members = db.members := by
  unfold DB.members DB.touch
  rw [List.map_map]
  refine List.map_congr_left fun row _ => ?_
  simp only [Function.comp]
  split <;> rfl

theorem mem_upsertMember (db : DB β) (row : GroupRow) (k : String × String) :
    k ∈ (db.upsertMember row).members ↔ k ∈ db.members ∨ k = row.key := by
  unfold DB.upsertMember DB.members
  split
  · rename_i h
    obtain ⟨r, hr, hkey⟩ := h
    have hmap : (db.groups.map fun r => if r.key = row.key then row else r).map GroupRow.key = db.groups.map GroupRow.key := by
      rw [List.map_map]
      refine List.map_congr_left fun r _ => ?_
      simp only [Function.comp]
      split <;> simp_all
    simp only [hmap]
    refine ⟨.inl, fun h => h.elim id ?_⟩
    rintro rfl
    exact hkey ▸ List.mem_map_of_mem hr
  · simp

theorem mem_deleteMember (db : DB β) (groupID clientID : String) (k : String × String) :
    k ∈ (db.deleteMember groupID clientID).members ↔ k ∈ db.members ∧ k ≠ (groupID, clientID) := by
  simp only [DB.members, DB.deleteMember, List.mem_map, List.mem_filter, decide_eq_true_eq]
  constructor
  · rintro ⟨row, ⟨hrow, hne⟩, rfl⟩
    exact ⟨⟨row, hrow, rfl⟩, hne⟩
  · rintro ⟨⟨row, hrow, rfl⟩, hne⟩
    exact ⟨row, ⟨hrow, hne⟩, rfl⟩

theorem exec_members [Inhabited β] (env : Env β) (o : Op β) (db : DB β) (ho : o.KeepsMembers) :
    (exec env o db).2.members = db.members := by
  cases o with
  | upsertMember | deleteMember => exact ho.elim
  | touch groupID clientID now =>
    exact write_frame env db _ DB.members (fun _ => rfl) (touch_members db groupID clientID now)
  | insertGroup groupID =>
    refine write_frame env db _ DB.members (fun _ => rfl) ?_
    unfold DB.insertGroup
    split <;> rfl
  | upsertCanonical groupID now bundle =>
    refine write_frame env db _ DB.members (fun _ => rfl) ?_
    unfold DB.upsertCanonical
    split <;> rfl
  | insertCode row =>
    simp only [exec]
    unfold DB.insertCode
    split
    · rename_i h
      split at h
      · cases h
      · cases h
        exact write_frame env db _ DB.members (fun _ => rfl) rfl
    · rfl
  | insertHistory | pruneHistory | deleteCodes | bumpAttempts | deleteCode =>
    exact write_frame env db _ DB.members (fun _ => rfl) rfl
  | _ => rfl

/-- Every client is in the group `m` says, and in no other. -/
def Members (m : String → Option String) (db : DB β) : Prop :=
  ∀ groupID clientID, (groupID, clientID) ∈ db.members ↔ m clientID = some groupID

/-- Which group a client is looked up in does not depend on the order the rows come up in. -/
theorem lookup_group {group : Option String} {db : DB β} {clientID : String}
    (h : ∀ groupID, (groupID, clientID) ∈ db.members ↔ group = some groupID) (env : Env β) (n : Nat) :
    ((env.scan n db.groups).find? fun row => row.clientID = clientID).map (·.groupID) = group := by
  have hmem : ∀ row, row ∈ env.scan n db.groups ↔ row ∈ db.groups := fun row => (env.scan_perm n db.groups).mem_iff
  cases hfind : (env.scan n db.groups).find? fun row => row.clientID = clientID with
  | some row =>
    have hclient : row.clientID = clientID := by simpa using List.find?_some hfind
    have hrow : row ∈ db.groups := (hmem row).1 (List.mem_of_find?_eq_some hfind)
    have hkey : (row.groupID, clientID) ∈ db.members := hclient ▸ List.mem_map_of_mem hrow
    exact ((h _).1 hkey).symm
  | none =>
    cases hgroup : group with
    | none => rfl
    | some groupID =>
      obtain ⟨row, hrow, hkey⟩ := List.mem_map.1 ((h groupID).2 hgroup)
      obtain ⟨rfl, rfl⟩ := Prod.mk.inj hkey
      have hnone := List.find?_eq_none.1 hfind row ((hmem row).2 hrow)
      simp at hnone

/-! ## Requests that act on the group of their client -/

/-- A lookup of a client's group fails or gives the group `m` says. -/
def Answers (m : String → Option String) : (o : Op β) → o.Res → Prop
  | .selectClientGroup clientID, found => found = none ∨ found = some (m clientID)
  | _, _ => True

/-- Statements about the group `m` says of the client, which leave the members as they are. -/
def ActsOn (m : String → Option String) (clientID : String) (o : Op β) : Prop :=
  o.KeepsMembers ∧ ∀ groupID, o.group = some groupID → m clientID = some groupID

def memberSpec (m : String → Option String) (clientID : String) : Spec (iface β) :=
  ⟨Answers m, fun _ => ActsOn m clientID⟩

section Acts

variable {m : String → Option String} {clientID groupID : String} {h : Hist (iface β)}

theorem wpE_clientGroupID {Q : Hist (iface β) → String → Prop} {E : Hist (iface β) → Err → Prop}
    (hQ : ∀ h' groupID, m clientID = some groupID → Q h' groupID) (hE : ∀ h' err, E h' err) :
    wpE (memberSpec m clientID) (clientGroupID clientID) Q E h := by
  unfold clientGroupID
  rw [wpE_bind, wpE_query, wp_call]
  refine ⟨⟨trivial, by simp [Op.group]⟩, fun found hfound => ?_⟩
  rcases hfound with rfl | rfl
  · exact hE _ _
  · cases hgroup : m clientID with
    | none => exact hE _ _
    | some groupID => exact hQ _ groupID hgroup

/-- A method that goes on with the group of its client. -/
theorem wp_onGroup {α : Type} {status : Nat} {f : String → Code β α} {k : α → Prog (iface β) (Reply β)}
    (hf : ∀ groupID, m clientID = some groupID → OnlyE (I := iface β) (ActsOn m clientID) (f groupID))
    (hk : ∀ a, (k a).Only (ActsOn m clientID)) :
    wp (memberSpec m clientID) (orError status (clientGroupID clientID >>= f) k) (fun _ _ => True) h := by
  have hok : ∀ (h : Hist (iface β)) (o : Op β), ActsOn m clientID o → (memberSpec m clientID).ok h o := fun _ _ ho => ho
  rw [wp_orError, wpE_bind]
  refine wpE_clientGroupID (fun h' groupID hgroup => ?_) fun _ _ => trivial
  refine wpE_of_only hok (hf groupID hgroup) (fun _ a _ => ?_) fun _ _ _ => trivial
  exact wp_of_only hok (hk a) fun _ _ _ => trivial

theorem actsOn_group {o : Op β} (hgroup : m clientID = some groupID) (hkeep : o.KeepsMembers)
    (ho : o.group = some groupID) : ActsOn m clientID o :=
  ⟨hkeep, fun g hg => by rw [hgroup, ← ho, hg]⟩

theorem actsOn_none {o : Op β} (hkeep : o.KeepsMembers) (ho : o.group = none) : ActsOn m clientID o :=
  ⟨hkeep, fun g hg => by simp [ho] at hg⟩

theorem onlyE_getTime : OnlyE (I := iface β) (ActsOn m clientID) getTime :=
  onlyE_ask (actsOn_none trivial rfl)

theorem onlyE_updateLastSeen (hgroup : m clientID = some groupID) :
    OnlyE (I := iface β) (ActsOn m clientID) (updateLastSeen groupID clientID) :=
  onlyE_bind onlyE_getTime fun _ => onlyE_execute (only_call (I := iface β) (actsOn_group hgroup trivial rfl))

theorem wp_handlePush {readBody : ρ → Option β} (body : ρ) : wp (memberSpec m clientID) (handlePush readBody clientID body) (fun _ _ => True) h := by
  unfold handlePush
  split
  · trivial
  · split
    · trivial
    · refine wp_onGroup (fun groupID hgroup => ?_) fun _ => trivial
      refine onlyE_bind (onlyE_updateLastSeen hgroup) fun _ => ?_
      refine onlyE_bind onlyE_getTime fun now => ?_
      refine onlyE_bind (onlyE_ask (actsOn_group hgroup trivial rfl)) fun device => ?_
      refine onlyE_bind (onlyE_execute (only_call (I := iface β) (actsOn_group hgroup trivial rfl))) fun _ => ?_
      refine onlyE_bind (onlyE_execute (only_call (I := iface β) (actsOn_group hgroup trivial rfl))) fun _ => ?_
      exact onlyE_bind (onlyE_ask (actsOn_group hgroup trivial rfl)) fun _ => trivial

theorem wp_handlePull [DecidableEq β] [Inhabited β] : wp (memberSpec m clientID) (handlePull clientID) (fun _ (_ : Reply β) => True) h := by
  unfold handlePull
  split
  · trivial
  · refine wp_onGroup (fun groupID hgroup => ?_) fun bundle => by split <;> trivial
    refine onlyE_bind (onlyE_updateLastSeen hgroup) fun _ => ?_
    exact onlyE_bind (onlyE_query (only_call (I := iface β) (actsOn_group hgroup trivial rfl))) fun _ => trivial

theorem wp_handleGroupMembers : wp (memberSpec m clientID) (handleGroupMembers clientID) (fun _ (_ : Reply β) => True) h := by
  unfold handleGroupMembers
  split
  · trivial
  · refine wp_onGroup (fun groupID hgroup => ?_) fun _ => trivial
    exact onlyE_bind (onlyE_query (only_call (I := iface β) (actsOn_group hgroup trivial rfl))) fun _ => trivial

theorem wp_handlePairCreate : wp (memberSpec m clientID) (handlePairCreate clientID) (fun _ (_ : Reply β) => True) h := by
  unfold handlePairCreate
  split
  · trivial
  · refine wp_onGroup (fun groupID hgroup => ?_) fun _ => trivial
    refine onlyE_bind (onlyE_bind (onlyE_ask (actsOn_none trivial rfl)) fun bytes => by cases bytes <;> trivial) fun code => ?_
    refine onlyE_bind onlyE_getTime fun now => ?_
    refine onlyE_bind (onlyE_execute (only_call (I := iface β) (actsOn_group hgroup trivial rfl))) fun _ => ?_
    exact onlyE_bind (onlyE_execute (only_call (I := iface β) (actsOn_group hgroup trivial rfl))) fun _ => trivial

theorem wp_handleHistory (limit : Option Int) :
    wp (memberSpec m clientID) (handleHistory clientID limit) (fun _ (_ : Reply β) => True) h := by
  unfold handleHistory
  split
  · trivial
  · rw [wp_orError, listHistorySummary, wpE_bind, listHistory, wpE_bind]
    refine wpE_clientGroupID (fun h' groupID hgroup => ?_) fun _ _ => trivial
    rw [wpE_query, wp_call]
    refine ⟨actsOn_group hgroup trivial rfl, fun rows _ => ?_⟩
    cases rows <;> trivial

end Acts

/-! ## Who joined what -/

variable [DecidableEq β] [Inhabited β]

/-- A request and what it was answered. -/
abbrev ServedRequest (β ρ : Type) := Served (DB β) (Request ρ) (Reply β)

/-- The client whose group a served request changed, and its group from then on. -/
def membershipChange (s : ServedRequest β ρ) : Option (String × Option String) :=
  match s.request, s.reply with
  | .groupCreate clientID _, .group groupID => some (clientID, some groupID)
  | .groupJoin groupID clientID _, .noContent => some (clientID, some groupID)
  | .pairVerify _ clientID _, .group groupID => some (clientID, some groupID)
  | .groupRemoveMember _ targetID, .noContent => some (targetID, none)
  | _, _ => none

/-- The group a client created or joined last, unless it was removed since. -/
def joinedGroup : List (ServedRequest β ρ) → String → Option String
  | [], _ => none
  | s :: t, clientID =>
    match membershipChange s with
    | some (changed, group) => if clientID = changed then group else joinedGroup t clientID
    | none => joinedGroup t clientID

/-- The requests that act on the group of their client. -/
def Request.client : Request ρ → Option String
  | .push clientID _ => some clientID
  | .pull clientID => some clientID
  | .history clientID _ => some clientID
  | .pairCreate clientID => some clientID
  | .groupMembers clientID => some clientID
  | _ => none

variable (env : Env β) (readBody : ρ → Option β)

def serveIn (req : Request ρ) (db : DB β) : Reply β × DB β :=
  (serve readBody req).eval (I := iface β) (exec env) db

/-- What membership promises of a state and of what was served before: every client is in the group
it created or joined last and in no other, and what it asks for next is about this group. -/
structure OneGroup (db : DB β) (t : List (ServedRequest β ρ)) : Prop where
  members : Members (joinedGroup t) db
  acts : ∀ req clientID, Request.client req = some clientID →
    ∀ ev ∈ (serve readBody req).trail (I := iface β) (exec env) db,
      (∀ groupID, ev.op.group = some groupID → joinedGroup t clientID = some groupID) ∧
        Answers (joinedGroup t) ev.op ev.res

/-! ## Which requests add a client -/

def DB.hasGroup (db : DB β) (groupID : String) : Bool := db.canonical.any fun row => row.groupID = groupID

/-- The pair that is added when the statements from number `n` on do not fail. -/
def Env.adding (env : Env β) (n : Nat) (known : Bool) (groupID clientID : String) : Option (String × String) :=
  if known ∧ env.fails n = false ∧ env.fails (n + 2) = false then some (groupID, clientID) else none

/-- The group and the client a request is going to add to it. -/
def Request.adds (env : Env β) (db : DB β) : Request ρ → Option (String × String)
  | .groupCreate clientID _ =>
    if clientID = "" ∨ env.fails (db.tick + 1) then none
    else (env.random db.tick).bind fun bytes => env.adding (db.tick + 2) true (groupIDOf bytes) clientID
  | .groupJoin groupID clientID _ =>
    if groupID = "" ∨ clientID = "" then none else env.adding db.tick (db.hasGroup groupID) groupID clientID
  | .pairVerify code clientID _ =>
    if code = "" ∨ clientID = "" ∨ env.fails db.tick ∨ env.fails (db.tick + 2) then none
    else match db.pairing.find? fun row => row.code = code with
      | some row =>
        if maxAttempts ≤ row.attempts ∨ row.expiresAt < env.clock (db.tick + 1) then none
        else env.adding (db.tick + 3) (db.hasGroup row.groupID) row.groupID clientID
      | none => none
  | _ => none

/-- The request adds its client to no group while it is in another. -/
def AddsFresh (env : Env β) (db : DB β) (req : Request ρ) : Prop :=
  ∀ groupID clientID, req.adds env db = some (groupID, clientID) →
    ∀ row ∈ db.groups, row.clientID = clientID → row.groupID = groupID

omit [DecidableEq β] [Inhabited β] in
theorem addsFresh_iff {env : Env β} {db : DB β} {req : Request ρ} : AddsFresh env db req ↔
    ∀ pair ∈ req.adds env db, ∀ row ∈ db.groups, row.clientID = pair.2 → row.groupID = pair.1 :=
  ⟨fun h pair hpair => h pair.1 pair.2 hpair, fun h groupID clientID hadds => h (groupID, clientID) hadds⟩

instance (env : Env β) (db : DB β) (req : Request ρ) : Decidable (AddsFresh env db req) :=
  decidable_of_iff _ addsFresh_iff.symm

/-! ## One request -/

section Step

variable (env : Env β)

omit [DecidableEq β]

theorem eval_addClientToGroup (db : DB β) (groupID clientID device : String) :
    ∃ r db', (addClientToGroup groupID clientID device).run.eval (I := iface β) (exec env) db = (r, db') ∧
      (r = .ok () → env.adding db.tick (db.hasGroup groupID) groupID clientID = some (groupID, clientID) ∧
        ∀ k, k ∈ db'.members ↔ k ∈ db.members ∨ k = (groupID, clientID)) ∧
      ∀ err, r = .error err → db'.members = db.members := by
  have hselect : exec env (.selectGroup groupID) db =
      (if env.fails db.tick then none else some (db.hasGroup groupID), db.next) := rfl
  unfold addClientToGroup
  rw [eval_query_seq, Prog.eval_call, hselect]
  cases hfail : env.fails db.tick with
  | true => exact ⟨_, _, rfl, nofun, fun _ _ => rfl⟩
  | false =>
    cases hgroup : db.hasGroup groupID with
    | false => exact ⟨_, _, rfl, nofun, fun _ _ => rfl⟩
    | true =>
      simp only [Bool.false_eq_true, if_false, if_true]
      rw [eval_getTime_seq, eval_execute, Prog.eval_call]
      have hwrite := write_cases env db.next.next
        (db.next.next.upsertMember ⟨groupID, clientID, device, env.clock db.next.tick⟩)
      simp only [exec]
      rcases hwrite with ⟨hf, hw⟩ | ⟨hf, hw⟩
      · rw [hw]
        exact ⟨_, _, rfl, nofun, fun _ _ => rfl⟩
      · rw [hw]
        exact ⟨_, _, rfl, fun _ => ⟨if_pos ⟨rfl, hfail, hf⟩, mem_upsertMember _ _⟩, nofun⟩

/-- A redeemed code gives the group of its row, and three statements were issued. -/
theorem eval_verifyPairingCode (db : DB β) (code : String) :
    ∃ r db', (verifyPairingCode code).run.eval (I := iface β) (exec env) db = (r, db') ∧ db'.members = db.members ∧
      ∀ groupID, r = .ok groupID → env.fails db.tick = false ∧ env.fails (db.tick + 2) = false ∧
        db'.tick = db.tick + 3 ∧ db'.canonical = db.canonical ∧
        ∃ row, (db.pairing.find? fun row => row.code = code) = some row ∧ groupID = row.groupID ∧
          ¬ (maxAttempts ≤ row.attempts ∨ row.expiresAt < env.clock (db.tick + 1)) := by
  have hselect : exec env (.selectCode code) db =
      (if env.fails db.tick then none else some (db.pairing.find? fun row => row.code = code), db.next) := rfl
  have hkeep : ∀ (db : DB β) why, (exec env (.deleteCode code why) db).2.members = db.members :=
    fun db why => exec_members env _ db trivial
  unfold verifyPairingCode
  rw [eval_query_seq, Prog.eval_call, hselect]
  cases hfail : env.fails db.tick with
  | true => exact ⟨_, _, rfl, rfl, nofun⟩
  | false =>
    cases hfind : db.pairing.find? fun row => row.code = code with
    | none => exact ⟨_, _, rfl, exec_members env .bumpAttempts db.next trivial, nofun⟩
    | some row =>
      simp only [Bool.false_eq_true, if_false]
      split
      · exact ⟨_, _, rfl, hkeep db.next _, nofun⟩
      · rename_i hattempts
        rw [eval_getTime_seq]
        split
        · exact ⟨_, _, rfl, hkeep db.next.next _, nofun⟩
        · rename_i hexpires
          rw [eval_execute_seq, Prog.eval_call]
          have hwrite := write_cases env db.next.next (db.next.next.deleteCode code)
          simp only [exec]
          rcases hwrite with ⟨hf, hw⟩ | ⟨hf, hw⟩
          · rw [hw]
            exact ⟨_, _, rfl, rfl, nofun⟩
          · rw [hw]
            refine ⟨_, _, rfl, rfl, fun groupID heq => ⟨trivial, hf, rfl, rfl, row, rfl, (Except.ok.inj heq).symm, ?_⟩⟩
            rintro (h | h)
            · exact hattempts h
            · exact hexpires h

/-- What the lookup of a client's group returns. -/
def groupOrError (found : Option (Option String)) (clientID : String) : Except Err String :=
  match found with
  | none => .error .store
  | some none => .error (.clientNotInAnyGroup clientID)
  | some (some groupID) => .ok groupID

theorem exec_selectClientGroup {group : Option String} {db : DB β} {clientID : String}
    (h : ∀ groupID, (groupID, clientID) ∈ db.members ↔ group = some groupID) :
    exec env (.selectClientGroup clientID) db = (if env.fails db.tick then none else some group, db.next) := by
  rw [← lookup_group h env db.tick]
  rfl

theorem eval_clientGroupID {group : Option String} {db : DB β} {clientID : String}
    (h : ∀ groupID, (groupID, clientID) ∈ db.members ↔ group = some groupID) :
    (clientGroupID clientID).run.eval (I := iface β) (exec env) db =
      (groupOrError (if env.fails db.tick then none else some group) clientID, db.next) := by
  unfold clientGroupID
  rw [eval_query_seq, Prog.eval_call, exec_selectClientGroup env h]
  cases env.fails db.tick with
  | true => rfl
  | false => cases group <;> rfl

/-- A removal takes the target out of the group the target is in. -/
theorem eval_removeClientFromGroup {m : String → Option String} {db : DB β} (hm : Members m db)
    (requesterID targetID : String) :
    ∃ r db', (removeClientFromGroup requesterID targetID).run.eval (I := iface β) (exec env) db = (r, db') ∧
      (r = .ok () → ∃ groupID, m targetID = some groupID ∧
        ∀ k, k ∈ db'.members ↔ k ∈ db.members ∧ k ≠ (groupID, targetID)) ∧
      ∀ err, r = .error err → db'.members = db.members := by
  have hm' : Members m db.next := hm
  unfold removeClientFromGroup
  rw [eval_run_bind, eval_clientGroupID env (hm · requesterID)]
  cases groupOrError (if env.fails db.tick then none else some (m requesterID)) requesterID with
  | error err => exact ⟨_, _, rfl, nofun, fun _ _ => rfl⟩
  | ok groupID =>
    dsimp only
    rw [eval_run_bind, eval_run_lift, eval_clientGroupID env (hm' · targetID)]
    have htarget : ∀ g, groupOrError (if env.fails db.next.tick then none else some (m targetID)) targetID = .ok g →
        m targetID = some g := by
      intro g hg
      cases hf : env.fails db.next.tick <;> cases hmt : m targetID <;> simp_all [groupOrError]
    rcases hfound : groupOrError (if env.fails db.next.tick then none else some (m targetID)) targetID with err | targetGroup
    · exact ⟨_, _, rfl, nofun, fun _ _ => rfl⟩
    · dsimp only
      split
      · exact ⟨_, _, rfl, nofun, fun _ _ => rfl⟩
      · rename_i hsame
        obtain rfl : targetGroup = groupID := not_not.1 hsame
        rw [eval_execute, Prog.eval_call]
        have hwrite := write_cases env db.next.next (db.next.next.deleteMember targetGroup targetID)
        simp only [exec]
        rcases hwrite with ⟨_, hw⟩ | ⟨_, hw⟩
        · rw [hw]
          exact ⟨_, _, rfl, nofun, fun _ _ => rfl⟩
        · rw [hw]
          exact ⟨_, _, rfl, fun _ => ⟨targetGroup, htarget _ hfound, mem_deleteMember _ _ _⟩, nofun⟩

/-- What a request may do to the members: nothing, add the pair it was going to add, or take a client
out of its group, and its answer tells which. -/
def ChangesAs (m : String → Option String) (env : Env β) (db : DB β) (req : Request ρ) (out : Reply β × DB β) : Prop :=
  match membershipChange (⟨req, db, out.1⟩ : ServedRequest β ρ) with
  | none => out.2.members = db.members
  | some (clientID, some groupID) => req.adds env db = some (groupID, clientID) ∧
    ∀ k, k ∈ out.2.members ↔ k ∈ db.members ∨ k = (groupID, clientID)
  | some (clientID, none) => ∃ groupID, m clientID = some groupID ∧
    ∀ k, k ∈ out.2.members ↔ k ∈ db.members ∧ k ≠ (groupID, clientID)

variable {m : String → Option String} {db : DB β}

omit [Inhabited β] in
theorem hasGroup_of_canonical {db' : DB β} (h : db'.canonical = db.canonical) (groupID : String) :
    db'.hasGroup groupID = db.hasGroup groupID := by
  rw [DB.hasGroup, DB.hasGroup, h]

theorem hasGroup_insertGroup (groupID : String) : (db.insertGroup groupID).hasGroup groupID = true := by
  unfold DB.insertGroup DB.hasGroup
  split <;> simp_all

theorem insertGroup_members (groupID : String) : (db.insertGroup groupID).members = db.members := by
  unfold DB.insertGroup
  split <;> rfl

theorem insertGroup_tick (groupID : String) : (db.insertGroup groupID).tick = db.tick := by
  unfold DB.insertGroup
  split <;> rfl

theorem changes_groupJoin (groupID clientID device : String) :
    ChangesAs m env db (.groupJoin groupID clientID device : Request ρ)
      ((handleGroupJoin groupID clientID device).eval (I := iface β) (exec env) db) := by
  unfold handleGroupJoin
  split
  · exact rfl
  · rename_i hids
    obtain ⟨r, db', heval, hok, herr⟩ := eval_addClientToGroup env db groupID clientID device
    rw [eval_orError, heval]
    cases r with
    | error err => exact herr err rfl
    | ok _ => exact ⟨by rw [Request.adds, if_neg hids]; exact (hok rfl).1, (hok rfl).2⟩

theorem changes_groupRemoveMember (hm : Members m db) (requesterID targetID : String) :
    ChangesAs m env db (.groupRemoveMember requesterID targetID : Request ρ)
      ((handleGroupRemoveMember requesterID targetID).eval (I := iface β) (exec env) db) := by
  unfold handleGroupRemoveMember
  split
  · exact rfl
  · obtain ⟨r, db', heval, hok, herr⟩ := eval_removeClientFromGroup env hm requesterID targetID
    rw [eval_orError, heval]
    cases r with
    | error err => exact herr err rfl
    | ok _ => exact hok rfl

theorem changes_pairVerify (code clientID device : String) :
    ChangesAs m env db (.pairVerify code clientID device : Request ρ)
      ((handlePairVerify code clientID device).eval (I := iface β) (exec env) db) := by
  unfold handlePairVerify
  split
  · exact rfl
  · rename_i hids
    obtain ⟨r, db₁, heval, hkeep, hverify⟩ := eval_verifyPairingCode env db code
    rw [eval_orError, heval]
    cases r with
    | error err => exact hkeep
    | ok groupID =>
      obtain ⟨hfail, hfail', htick, hcanonical, row, hfind, rfl, hvalid⟩ := hverify groupID rfl
      obtain ⟨r, db', heval', hok, herr⟩ := eval_addClientToGroup env db₁ row.groupID clientID device
      simp only [eval_orError, heval']
      cases r with
      | error err => exact (herr err rfl).trans hkeep
      | ok _ =>
        obtain ⟨hadds, hmem⟩ := hok rfl
        rw [htick, hasGroup_of_canonical hcanonical] at hadds
        rw [hkeep] at hmem
        refine ⟨?_, hmem⟩
        have hguard : ¬ (code = "" ∨ clientID = "" ∨ env.fails db.tick = true ∨ env.fails (db.tick + 2) = true) := by
          simp_all
        rw [Request.adds, if_neg hguard, hfind]
        exact (if_neg hvalid).trans hadds

theorem eval_generateGroupID (db : DB β) : generateGroupID.run.eval (I := iface β) (exec env) db =
    (match env.random db.tick with
      | some bytes => .ok (groupIDOf bytes)
      | none => .error .generateGroupID, db.next) := by
  rw [generateGroupID, eval_ask_seq, show exec env (.random 8) db = (env.random db.tick, db.next) from rfl]
  cases env.random db.tick <;> rfl

theorem eval_createGroup (db : DB β) (groupID : String) :
    ∃ r db', (createGroup groupID).run.eval (I := iface β) (exec env) db = (r, db') ∧ db'.members = db.members ∧
      (r = .ok () → env.fails db.tick = false ∧ db'.tick = db.tick + 1 ∧ db'.hasGroup groupID = true) := by
  rw [createGroup, eval_execute, Prog.eval_call]
  simp only [exec]
  rcases write_cases env db (db.insertGroup groupID) with ⟨_, hw⟩ | ⟨hf, hw⟩
  · rw [hw]
    exact ⟨_, _, rfl, rfl, nofun⟩
  · rw [hw]
    exact ⟨_, _, rfl, insertGroup_members groupID,
      fun _ => ⟨hf, congrArg (· + 1) (insertGroup_tick groupID), hasGroup_insertGroup groupID⟩⟩

theorem changes_groupCreate (clientID device : String) :
    ChangesAs m env db (.groupCreate clientID device : Request ρ)
      ((handleGroupCreate clientID device).eval (I := iface β) (exec env) db) := by
  unfold handleGroupCreate
  split
  · exact rfl
  · rename_i hid
    rw [eval_orError, eval_generateGroupID]
    cases hbytes : env.random db.tick with
    | none => exact rfl
    | some bytes =>
      obtain ⟨r, db₁, heval, hkeep, hcreate⟩ := eval_createGroup env db.next (groupIDOf bytes)
      simp only [eval_orError, heval]
      cases r with
      | error err => exact hkeep
      | ok _ =>
        obtain ⟨hfail, htick, hgroup⟩ := hcreate rfl
        obtain ⟨r, db', heval', hok, herr⟩ := eval_addClientToGroup env db₁ (groupIDOf bytes) clientID device
        simp only [heval']
        cases r with
        | error err => exact (herr err rfl).trans hkeep
        | ok _ =>
          obtain ⟨hadds, hmem⟩ := hok rfl
          rw [htick, hgroup] at hadds
          rw [hkeep] at hmem
          refine ⟨?_, hmem⟩
          have hguard : ¬ (clientID = "" ∨ env.fails (db.tick + 1) = true) := by
            rintro (h | h)
            · exact hid h
            · exact absurd (hfail.symm.trans h) (by simp)
          rw [Request.adds, if_neg hguard, hbytes]
          exact hadds

variable [DecidableEq β] (readBody : ρ → Option β)

theorem wp_reading {req : Request ρ} {clientID : String} (hreq : req.client = some clientID) (h : Hist (iface β)) :
    wp (memberSpec m clientID) (serve readBody req) (fun _ _ => True) h := by
  cases req with
  | push | pull | history | pairCreate | groupMembers => 
    cases hreq
    first
      | exact wp_handlePush _
      | exact wp_handlePull
      | exact wp_handleHistory _
      | exact wp_handlePairCreate
      | exact wp_handleGroupMembers
  | _ => cases hreq

/-- A request about the group of its client leaves the members as they are. -/
theorem eval_reading (hm : Members m db) {req : Request ρ} {clientID : String} (hreq : req.client = some clientID) :
    (serveIn env readBody req db).2.members = db.members ∧
      ∀ ev ∈ (serve readBody req).trail (I := iface β) (exec env) db, 
        (∀ groupID, ev.op.group = some groupID → m clientID = some groupID) ∧ Answers m ev.op ev.res := by
  have hans : ∀ (o : Op β) (s : DB β), s.members = db.members → Answers m o (exec env o s).1 := by
    intro o s hs
    cases o with
    | selectClientGroup c =>
      have hms : Members m s := by
        intro groupID c'
        rw [hs]
        exact hm groupID c'
      rw [exec_selectClientGroup env (hms · c)]
      cases env.fails s.tick
      · exact .inr rfl
      · exact .inl rfl
    | _ => trivial
  have hkeep : ∀ (h : Hist (iface β)) (o : Op β) (s : DB β), ActsOn m clientID o → s.members = db.members →
      (exec env o s).2.members = db.members :=
    fun _ o s ho hs => (exec_members env o s ho.1).trans hs
  obtain ⟨_, hmem, htrail⟩ := eval_of_wp (S := memberSpec m clientID) hans hkeep (wp_reading readBody hreq []) rfl
  exact ⟨hmem, fun ev hev => ⟨(htrail ev hev).2.elim fun _ h => h.2, (htrail ev hev).1⟩⟩

theorem changes_serve (hm : Members m db) (req : Request ρ) : ChangesAs m env db req (serveIn env readBody req db) := by
  cases req with
  | groupCreate clientID device => exact changes_groupCreate env clientID device
  | groupJoin groupID clientID device => exact changes_groupJoin env groupID clientID device
  | pairVerify code clientID device => exact changes_pairVerify env code clientID device
  | groupRemoveMember requesterID targetID => exact changes_groupRemoveMember env hm requesterID targetID
  | invalid => exact rfl
  | push | pull | history | pairCreate | groupMembers => exact (eval_reading env readBody hm rfl).1

end Step

/-! ## Whole runs -/

/-- No client is in a group yet. -/
def NoMembers (db : DB β) : Prop := db.groups = []

variable {env readBody}

/-- One request keeps every client in the group it joined last. -/
theorem members_step {db : DB β} {t : List (ServedRequest β ρ)} {req : Request ρ} (hm : Members (joinedGroup t) db)
    (hfresh : AddsFresh env db req) :
    Members (joinedGroup (⟨req, db, (serveIn env readBody req db).1⟩ :: t)) (serveIn env readBody req db).2 := by
  have hchange := changes_serve env readBody hm req
  unfold ChangesAs at hchange
  intro groupID clientID
  unfold joinedGroup
  split at hchange
  · rename_i hnone
    rw [hnone, hchange]
    exact hm groupID clientID
  · rename_i changed joined hsome
    obtain ⟨hadds, hmem⟩ := hchange
    rw [hsome, hmem]
    dsimp only
    split
    · rename_i heq
      subst heq
      constructor
      · rintro (hold | hnew)
        · obtain ⟨row, hrow, hkey⟩ := List.mem_map.1 hold
          obtain ⟨rfl, rfl⟩ := Prod.mk.inj hkey
          exact congrArg some (hfresh joined row.clientID hadds row hrow rfl).symm
        · exact congrArg some (Prod.mk.inj hnew).1.symm
      · intro h
        exact .inr (by rw [Option.some.inj h])
    · rename_i hne
      rw [← hm groupID clientID]
      exact or_iff_left fun h => hne (Prod.mk.inj h).2
  · rename_i changed hsome
    obtain ⟨old, hold, hmem⟩ := hchange
    rw [hsome, hmem, hm groupID clientID]
    dsimp only
    split
    · rename_i heq
      subst heq
      rw [hold]
      simp only [Option.some.injEq, ne_eq, Prod.mk.injEq, and_true, reduceCtorEq, iff_false, not_and, not_not]
      exact Eq.symm
    · rename_i hne
      exact and_iff_left fun h => hne (Prod.mk.inj h).2

theorem membership_is_function (env : Env β) (readBody : ρ → Option β) (db : DB β) (t : List (ServedRequest β ρ))
    (hr : Serves (serveIn env readBody) NoMembers (AddsFresh env) db t) : OneGroup env readBody db t := by
  have hm : Members (joinedGroup t) db := by
    induction hr with
    | init hs => exact fun groupID clientID => by simp [DB.members, show _ = [] from hs, joinedGroup]
    | step _ hfresh ih => exact members_step ih hfresh
  exact ⟨hm, fun req clientID hreq => (eval_reading env readBody hm hreq).2⟩

/-! ## Two groups -/

/-- The random bytes are all the number of the statement. -/
def countingEnv : Env String := .calm fun n => List.replicate 8 n

/-- The identifier of the group created by the request that begins with statement `n`. -/
def createdAt (n : Nat) : String := groupIDOf (List.replicate 8 n)

/-- Two clients create a group each, and one leaves its own for that of the other. -/
def moving : List (Request String) :=
  [.groupCreate "c_1" "", .groupCreate "c_2" "", .groupRemoveMember "c_1" "c_1", .groupJoin (createdAt 5) "c_1" ""]

/-- The same, without leaving first. -/
def joiningTwo : List (Request String) :=
  [.groupCreate "c_1" "", .groupCreate "c_2" "", .groupJoin (createdAt 5) "c_1" ""]

/-- The state after a list of requests and what was served. -/
def servedTo (reqs : List (Request String)) : DB String × List (ServedRequest String String) :=
  serveAll (serveIn countingEnv some) reqs DB.empty []

theorem noMembers_empty : NoMembers (DB.empty : DB String) := rfl

theorem membership_is_function_moving :
    AllOk (serveIn countingEnv (some : String → Option String)) (AddsFresh countingEnv) moving DB.empty ∧
      joinedGroup (servedTo moving).2 "c_1" = some (createdAt 5) ∧
        OneGroup countingEnv some (servedTo moving).1 (servedTo moving).2 := by
  have hok : AllOk (serveIn countingEnv (some : String → Option String)) (AddsFresh countingEnv) moving DB.empty := by
    decide
  exact ⟨hok, by decide,
    membership_is_function countingEnv some _ _ ((Serves.init noMembers_empty).all hok)⟩

/-- A client that joins a second group stays in the first, and is looked up in it. -/
theorem joined_two : ¬ ∀ db t, Serves (serveIn countingEnv (some : String → Option String)) NoMembers (fun _ _ => True) db t →
    OneGroup countingEnv some db t := by
  intro h
  have hserves := (Serves.init noMembers_empty).all
    (allOk_true (serveIn countingEnv (some : String → Option String)) joiningTwo DB.empty)
  have hfirst : (createdAt 0, "c_1") ∈ (servedTo joiningTwo).1.members := by decide
  have hjoined : joinedGroup (servedTo joiningTwo).2 "c_1" = some (createdAt 5) := by decide
  have hsame := ((h _ _ hserves).members _ _).1 hfirst
  exact absurd (hjoined.symm.trans hsame) (by decide)

end Purdex.Sync
