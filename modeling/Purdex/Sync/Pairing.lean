/-
Pairing codes under every interleaving of requests: a redeemed code was issued and not redeemed
since, within its time and its attempts, and a failed attempt counts against the other codes, as
long as no statement comes between the lookup of a code and its deletion that changes the verdict.
-/
import Purdex.Conc.Pool
import Purdex.Conc.Runs
import Purdex.Sync.Handlers

namespace Purdex.Sync

open Conc

variable {β ρ : Type} [DecidableEq β] [Inhabited β]

/-! ## The daemon as a system -/

/-- A request is served by a thread of its own, which ends with the reply. -/
def serving (readBody : ρ → Option β) (req : Request ρ) : Prog (iface β) (Option (Request ρ)) := do
  let reply ← serve readBody req
  let _ ← Prog.call (I := iface β) (.respond reply)
  return none

def daemon (env : Env β) (readBody : ρ → Option β) : Sys (iface β) (DB β) (Request ρ) Empty where
  body := serving readBody
  exec := exec env
  spawns _ := []
  tick e _ := e.elim

/-- A statement of a request. -/
abbrev Stmt (β ρ : Type) := Entry (iface β) (DB β) (Request ρ)

/-! ## What the statements do to the codes -/

section Codes

variable {β : Type}

def issuedRow : Event (iface β) → Option PairingRow
  | ⟨.insertCode row, done⟩ => ifDone done (some row) none
  | _ => none

def redeemedCode : Event (iface β) → Option String
  | ⟨.deleteCode code .redeemed, done⟩ => ifDone done (some code) none
  | _ => none

def bumped : Event (iface β) → Bool
  | ⟨.bumpAttempts, done⟩ => done
  | _ => false

/-- The codes after a statement. -/
def pairingAfter : Event (iface β) → List PairingRow → List PairingRow
  | ⟨.deleteCodes groupID, done⟩, rows => ifDone done (rows.filter fun row => row.groupID ≠ groupID) rows
  | ⟨.insertCode row, done⟩, rows => ifDone done (rows ++ [row]) rows
  | ⟨.bumpAttempts, done⟩, rows => ifDone done (rows.map PairingRow.bump) rows
  | ⟨.deleteCode code _, done⟩, rows => ifDone done (rows.filter fun row => row.code ≠ code) rows
  | _, rows => rows

/-- A row after a statement was issued by it, or was there before and was not redeemed by it. -/
theorem mem_pairingAfter {ev : Event (iface β)} {rows : List PairingRow} {row : PairingRow}
    (h : row ∈ pairingAfter ev rows) : issuedRow ev = some row ∨
      ∃ r ∈ rows, row = (if bumped ev then r.bump else r) ∧ redeemedCode ev ≠ some r.code := by
  obtain ⟨o, done⟩ := ev
  cases o with
  | insertCode new =>
    rcases done with _ | _
    · exact .inr ⟨row, h, rfl, by simp [redeemedCode]⟩
    · rcases List.mem_append.1 h with h | h
      · exact .inr ⟨row, h, rfl, by simp [redeemedCode]⟩
      · exact .inl (congrArg some (List.mem_singleton.1 h).symm)
  | deleteCodes groupID =>
    rcases done with _ | _
    · exact .inr ⟨row, h, rfl, by simp [redeemedCode]⟩
    · exact .inr ⟨row, (List.mem_filter.1 h).1, rfl, by simp [redeemedCode]⟩
  | bumpAttempts =>
    rcases done with _ | _
    · exact .inr ⟨row, h, rfl, by simp [redeemedCode]⟩
    · obtain ⟨r, hr, rfl⟩ := List.mem_map.1 h
      exact .inr ⟨r, hr, rfl, by simp [redeemedCode]⟩
  | deleteCode code why =>
    rcases done with _ | _
    · exact .inr ⟨row, h, rfl, by cases why <;> simp [redeemedCode, ifDone]⟩
    · obtain ⟨hr, hne⟩ := List.mem_filter.1 h
      refine .inr ⟨row, hr, rfl, ?_⟩
      cases why <;> simp [redeemedCode, ifDone, (of_decide_eq_true hne).symm]
  | _ => exact .inr ⟨row, h, rfl, by simp [redeemedCode]⟩

end Codes

omit [DecidableEq β] in
theorem exec_pairing (env : Env β) (o : Op β) (db : DB β) :
    (exec env o db).2.pairing = pairingAfter ⟨o, (exec env o db).1⟩ db.pairing := by
  cases o with
  | insertCode row =>
    simp only [exec, pairingAfter]
    cases h : db.insertCode row with
    | none => rfl
    | some db' =>
      simp only [← insertCode_pairing h]
      exact write_view env db db' DB.pairing next_pairing
  | deleteCodes | bumpAttempts | deleteCode => exact write_view env db _ DB.pairing next_pairing
  | touch | upsertCanonical | insertHistory | pruneHistory | insertGroup | upsertMember | deleteMember =>
    exact write_frame env db _ DB.pairing next_pairing (by simp [DB.touch, DB.insertHistory, DB.pruneHistory, DB.deleteMember])
  | _ => rfl

omit [DecidableEq β] in
/-- A code is issued only while no row has it. -/
theorem issued_new {env : Env β} {o : Op β} {db : DB β} {row : PairingRow}
    (h : issuedRow ⟨o, (exec env o db).1⟩ = some row) : ∀ r ∈ db.pairing, r.code ≠ row.code := by
  cases o with
  | insertCode new =>
    by_cases hnew : ∃ r ∈ db.pairing, r.code = new.code
    · simp [exec, issuedRow, DB.insertCode, hnew, ifDone] at h
    · obtain ⟨_, rfl⟩ := ifDone_eq_some h
      exact fun r hr heq => hnew ⟨r, hr, heq⟩
  | _ => simp [issuedRow] at h

/-! ## Outstanding codes -/

variable (env : Env β) (readBody : ρ → Option β)

/-- The event of a statement. -/
def Stmt.event (en : Stmt β ρ) : Event (iface β) := (daemon env readBody).event en

/-- How many failed attempts a stretch of the trace recorded. -/
def bumps (t : List (Stmt β ρ)) : Nat := t.countP fun en => bumped (Stmt.event env readBody en)

/-- The last time `code` was issued was as `row`, `mid` is what happened since, and it was not redeemed. -/
def Outstanding (t : List (Stmt β ρ)) (code : String) (row : PairingRow) (mid : List (Stmt β ρ)) : Prop :=
  ∃ issue older, t = mid ++ issue :: older ∧ issuedRow (issue.event env readBody) = some row ∧ row.code = code ∧
    ∀ en ∈ mid, redeemedCode (en.event env readBody) ≠ some code ∧
      ∀ r, issuedRow (en.event env readBody) = some r → r.code ≠ code

/-- The row is that of an outstanding code, with the attempts recorded since. -/
def Tracked (t : List (Stmt β ρ)) (row : PairingRow) : Prop :=
  ∃ issued mid, Outstanding env readBody t row.code issued mid ∧ row.expiresAt = issued.expiresAt ∧
    row.attempts = issued.attempts + bumps env readBody mid

variable {env readBody}

theorem Outstanding.code {t mid : List (Stmt β ρ)} {code : String} {row : PairingRow}
    (h : Outstanding env readBody t code row mid) : row.code = code := by
  obtain ⟨_, _, _, _, hcode, _⟩ := h
  exact hcode

theorem tracked_cons {t : List (Stmt β ρ)} {en : Stmt β ρ} (ih : ∀ row ∈ en.pre.pairing, Tracked env readBody t row) :
    ∀ row ∈ ((daemon env readBody).post en).pairing, Tracked env readBody (en :: t) row := by
  intro row hrow
  have hev : en.event env readBody = ⟨en.op, (exec env en.op en.pre).1⟩ := rfl
  rw [show ((daemon env readBody).post en).pairing = _ from exec_pairing env en.op en.pre] at hrow
  rcases mem_pairingAfter hrow with hnew | ⟨r, hr, rfl, hred⟩
  · exact ⟨row, [], ⟨en, t, rfl, hnew, rfl, by simp⟩, rfl, rfl⟩
  · obtain ⟨issued, mid, ⟨issue, older, rfl, hi, hc, hmid⟩, hexp, hatt⟩ := ih r hr
    have hkeys : (if bumped ⟨en.op, (exec env en.op en.pre).1⟩ then r.bump else r).code = r.code ∧
        (if bumped ⟨en.op, (exec env en.op en.pre).1⟩ then r.bump else r).expiresAt = r.expiresAt := by
      split <;> exact ⟨rfl, rfl⟩
    refine ⟨issued, en :: mid, ⟨issue, older, rfl, hi, hc.trans hkeys.1.symm, fun e he => ?_⟩, hkeys.2.trans hexp, ?_⟩
    · rw [hkeys.1]
      rcases List.mem_cons.1 he with rfl | he
      · exact ⟨hred, fun new hnew => (issued_new hnew r hr).symm⟩
      · exact hmid e he
    · rw [bumps, List.countP_cons, ← bumps, hev]
      split
      · simp only [PairingRow.bump, hatt]
        omega
      · simp [hatt]

/-- The database before any statement has been issued. -/
def NoCodes (db : DB β) : Prop := db.pairing = []

variable {ok : Pool (iface β) (DB β) (Request ρ) → Label (Request ρ) Empty → Prop} {p : Pool (iface β) (DB β) (Request ρ)}

theorem tracked_of_reach (hr : (daemon env readBody).Reach NoCodes ok p) :
    (∀ row ∈ p.shared.pairing, Tracked env readBody p.trace row) ∧
      ∀ post en pre, p.trace = post ++ en :: pre → ∀ row ∈ en.pre.pairing, Tracked env readBody pre row := by
  refine hr.shared_invariant (P := fun db t => (∀ row ∈ db.pairing, Tracked env readBody t row) ∧
    ∀ post en pre, t = post ++ en :: pre → ∀ row ∈ en.pre.pairing, Tracked env readBody pre row) ?_
    (fun _ e => e.elim) fun p i k h o f _ _ _ ⟨ih, ihpre⟩ => ⟨?_, fun post en pre heq => ?_⟩
  · intro db hdb
    rw [show db.pairing = [] from hdb]
    exact ⟨by simp, by simp⟩
  · have hen : ∀ row ∈ (⟨i, k, h, o, p.shared⟩ : Stmt β ρ).pre.pairing, Tracked env readBody p.trace row := ih
    exact tracked_cons hen
  · cases post with
    | nil =>
      obtain ⟨rfl, rfl⟩ := List.cons.inj heq
      exact ih
    | cons e post => exact ihpre post en pre (List.cons.inj heq).2

/-! ## Failed attempts -/

/-- The errors of an attempt with a wrong, a locked and an expired code. -/
def failedAttempts : List Err := [.codeNotFound, .codeLocked, .codeExpired]

/-- The statement a failed attempt ends with. -/
def EndsAttempt (code : String) (o : Op β) : Prop :=
  o = .bumpAttempts ∨ o = .deleteCode code .locked ∨ o = .deleteCode code .expired

/-- A verify request that is answered as a failed attempt just issued such a statement, and one that
goes on with a group has just redeemed its code. -/
structure EndsWell (req : Request ρ) (h : Hist (iface β)) (o : Op β) : Prop where
  failed : ∀ code clientID device err, req = .pairVerify code clientID device → o = .respond (.error forbidden err) →
    err ∈ failedAttempts → ∃ ev rest, h = ev :: rest ∧ EndsAttempt code ev.op
  yielded : ∀ code clientID device groupID, req = .pairVerify code clientID device → o = .selectGroup groupID →
    ∃ rest, h = ⟨.deleteCode code .redeemed, true⟩ :: rest

/-- The statements that say nothing about the outcome. -/
def Plain (o : Op β) : Prop := (∀ reply, o ≠ .respond reply) ∧ ∀ groupID, o ≠ .selectGroup groupID

section Verify

variable {β : Type} {req : Request ρ} {code : String} {h : Hist (iface β)}

theorem endsWell_of_plain {o : Op β} (ho : Plain o) : EndsWell req h o :=
  ⟨fun _ _ _ _ _ heq => absurd heq (ho.1 _), fun _ _ _ _ _ heq => absurd heq (ho.2 _)⟩

theorem endsWell_respond {reply : Reply β} (hreply : ∀ err, reply ≠ .error forbidden err) :
    EndsWell req h (.respond reply) :=
  ⟨fun _ _ _ err _ heq => absurd (Op.respond.inj heq) (hreply err), fun _ _ _ _ _ heq => by simp at heq⟩

theorem wpE_verifyPairingCode (code : String) (h : Hist (iface β)) :
    wpE (anyAnswer (EndsWell req)) (verifyPairingCode code)
      (fun h' _ => ∃ rest, h' = ⟨.deleteCode code .redeemed, true⟩ :: rest)
      (fun h' err => err ∈ failedAttempts → ∃ ev rest, h' = ev :: rest ∧ EndsAttempt code ev.op) h := by
  unfold verifyPairingCode
  rw [wpE_bind, wpE_query, wp_call]
  refine ⟨endsWell_of_plain (by simp [Plain]), fun row _ => ?_⟩
  rcases row with _ | _ | row
  · simp [failedAttempts]
  · -- a wrong code
    dsimp only
    rw [wpE_bind, wpE_ask]
    exact ⟨endsWell_of_plain (by simp [Plain]), fun _ _ _ => ⟨_, _, rfl, .inl rfl⟩⟩
  · dsimp only
    split
    · rw [wpE_bind, wpE_ask]
      exact ⟨endsWell_of_plain (by simp [Plain]), fun _ _ _ => ⟨_, _, rfl, .inr (.inl rfl)⟩⟩
    · rw [getTime, wpE_bind, wpE_ask]
      refine ⟨endsWell_of_plain (by simp [Plain]), fun now _ => ?_⟩
      split
      · rw [wpE_bind, wpE_ask]
        exact ⟨endsWell_of_plain (by simp [Plain]), fun _ _ _ => ⟨_, _, rfl, .inr (.inr rfl)⟩⟩
      · rw [wpE_bind, wpE_execute, wp_call]
        refine ⟨endsWell_of_plain (by simp [Plain]), fun done _ => ?_⟩
        cases done
        · simp [failedAttempts]
        · exact ⟨_, rfl⟩

/-- Adding the client to the group of the code it redeemed. -/
theorem wpE_addRedeemed {clientID device groupID : String}
    (hred : ∃ rest, h = ⟨.deleteCode code .redeemed, true⟩ :: rest) :
    wpE (anyAnswer (EndsWell (.pairVerify code clientID device : Request ρ))) (addClientToGroup groupID clientID device)
      (fun _ _ => True) (fun _ _ => True) h := by
  unfold addClientToGroup
  rw [wpE_bind, wpE_query, wp_call]
  refine ⟨⟨fun _ _ _ _ _ heq => by simp at heq, ?_⟩, fun found _ => ?_⟩
  · rintro _ _ _ _ ⟨⟩ _
    exact hred
  · rcases found with _ | _ | _
    · trivial
    · trivial
    · simp only [if_true]
      rw [getTime, wpE_bind, wpE_ask]
      refine ⟨endsWell_of_plain (by simp [Plain]), fun now _ => ?_⟩
      rw [wpE_execute, wp_call]
      exact ⟨endsWell_of_plain (by simp [Plain]), fun done _ => by cases done <;> trivial⟩

end Verify

theorem wp_serving (readBody : ρ → Option β) (req : Request ρ) (h : Hist (iface β)) :
    wp (anyAnswer (EndsWell req)) (serving readBody req) (fun _ _ => True) h := by
  cases req with
  | pairVerify code clientID device =>
    refine wp_seq (Q := fun h reply => EndsWell (.pairVerify code clientID device : Request ρ) h (.respond reply)) ?_
      fun h reply _ hreply => ⟨hreply, fun _ _ => trivial⟩
    simp only [serve, handlePairVerify]
    split
    · exact endsWell_respond (by simp [badRequest, forbidden])
    · rw [wp_orError]
      refine wpE_mono _ (wpE_verifyPairingCode code h) (fun h groupID _ hred => ?_) fun h err _ hend => ?_
      · rw [wp_orError]
        refine wpE_mono _ (wpE_addRedeemed hred) (fun _ _ _ _ => ?_) fun _ _ _ _ => ?_
        · exact endsWell_respond (by simp)
        · exact endsWell_respond (by simp [internalServerError, forbidden])
      · refine ⟨?_, fun _ _ _ _ _ heq => by simp at heq⟩
        rintro _ _ _ _ ⟨⟩ ⟨⟩ hfail
        exact hend hfail
  | _ =>
    refine wp_of_only (fun h o _ => ?_) (only_true _) fun _ _ _ => trivial
    exact ⟨fun _ _ _ _ heq => by simp at heq, fun _ _ _ _ heq => by simp at heq⟩

def pairingContract (env : Env β) (readBody : ρ → Option β) : Contract (daemon env readBody) where
  spec req := anyAnswer (EndsWell req)
  inv _ _ := True
  fin _ _ := True
  ans_exec _ _ _ := trivial
  inv_start _ := trivial
  body_ok req h _ := wp_mono _ (wp_serving readBody req h) fun _ r _ _ => by cases r <;> trivial

/-! ## Single use, in time, within the attempts -/

variable (env readBody) in
/-- Every other code has one attempt more after the statement. -/
def Counts (code : String) (en : Stmt β ρ) : Prop :=
  ∀ row ∈ en.pre.pairing, row.code ≠ code → row.bump ∈ ((daemon env readBody).post en).pairing

variable (env readBody) in
/-- What pairing promises of a trace: a request gets on with a group only by redeeming its code, a
code is redeemed once for every time it is issued, in time and before its attempts are used up, and
a failed attempt counts against every other code. -/
structure SingleUse (t : List (Stmt β ρ)) : Prop where
  yielded : ∀ post en pre code clientID device groupID, t = post ++ en :: pre →
    en.kind = .pairVerify code clientID device → en.op = .selectGroup groupID →
    ∃ en' ∈ pre, en'.tid = en.tid ∧ redeemedCode (en'.event env readBody) = some code
  redeemed : ∀ post en pre code, t = post ++ en :: pre → redeemedCode (en.event env readBody) = some code →
    ∃ row mid, Outstanding env readBody pre code row mid ∧ bumps env readBody mid < maxAttempts ∧
      env.clock en.pre.tick ≤ row.expiresAt
  once : ∀ post en mid en' pre code, t = post ++ en :: (mid ++ en' :: pre) →
    redeemedCode (en.event env readBody) = some code → redeemedCode (en'.event env readBody) = some code →
    ∃ issue ∈ mid, ∃ row, issuedRow (issue.event env readBody) = some row ∧ row.code = code
  counted : ∀ post en pre code clientID device err, t = post ++ en :: pre →
    en.kind = .pairVerify code clientID device → en.op = .respond (.error forbidden err) → err ∈ failedAttempts →
    ∃ en' ∈ pre, en'.tid = en.tid ∧ EndsAttempt code en'.op ∧ Counts env readBody code en'

/-- Nothing came between the lookup of a code and the statement it leads to: a redeemed code is still
there, unlocked and in time; a locked or expired one is the only code; and a failed attempt is
recorded, unless there is no code. -/
def Undisturbed (env : Env β) (en : Stmt β ρ) : Prop :=
  match en.op with
  | .deleteCode code .redeemed => env.fails en.pre.tick = false →
    ∃ row ∈ en.pre.pairing, row.code = code ∧ row.attempts < maxAttempts ∧ env.clock en.pre.tick ≤ row.expiresAt
  | .deleteCode code _ => ∀ row ∈ en.pre.pairing, row.code = code
  | .bumpAttempts => env.fails en.pre.tick = true → en.pre.pairing = []
  | _ => True

def checkUndisturbed (env : Env β) (en : Stmt β ρ) : Bool :=
  match en.op with
  | .deleteCode code .redeemed => env.fails en.pre.tick || en.pre.pairing.any fun row =>
    row.code = code ∧ row.attempts < maxAttempts ∧ env.clock en.pre.tick ≤ row.expiresAt
  | .deleteCode code _ => en.pre.pairing.all fun row => row.code = code
  | .bumpAttempts => !env.fails en.pre.tick || en.pre.pairing.isEmpty
  | _ => true

omit [DecidableEq β] [Inhabited β] in
theorem checkUndisturbed_iff {env : Env β} {en : Stmt β ρ} : checkUndisturbed env en = true ↔ Undisturbed env en := by
  unfold checkUndisturbed Undisturbed
  split <;> cases env.fails en.pre.tick <;> simp

instance (env : Env β) (en : Stmt β ρ) : Decidable (Undisturbed env en) :=
  decidable_of_iff _ checkUndisturbed_iff

theorem counts_of_undisturbed {code : String} {en : Stmt β ρ} (hen : Undisturbed env en) (hop : EndsAttempt code en.op) :
    Counts env readBody code en := by
  intro row hrow hne
  obtain ⟨tid, kind, h, o, db⟩ := en
  obtain rfl | rfl | rfl := hop
  · -- recorded, as there is another code
    have hdone : env.fails db.tick = false := by
      cases hf : env.fails db.tick with
      | false => rfl
      | true => exact absurd hrow (by simp [show db.pairing = [] from hen hf])
    rw [show ((daemon env readBody).post ⟨tid, kind, h, .bumpAttempts, db⟩).pairing = _ from
      exec_pairing env .bumpAttempts db]
    simp only [exec, write, hdone, pairingAfter, ifDone]
    exact List.mem_map_of_mem hrow
  · exact absurd (hen row hrow) hne
  · exact absurd (hen row hrow) hne

omit [DecidableEq β] in
theorem redeemedCode_eq_some {o : Op β} {db : DB β} {code : String}
    (h : redeemedCode ⟨o, (exec env o db).1⟩ = some code) : o = .deleteCode code .redeemed ∧ env.fails db.tick = false := by
  cases o with
  | deleteCode code' why =>
    cases why with
    | redeemed =>
      obtain ⟨hdone, rfl⟩ := ifDone_eq_some h
      refine ⟨rfl, ?_⟩
      simp only [exec, write] at hdone
      split at hdone
      · cases hdone
      · rename_i hf
        exact Bool.eq_false_iff.2 hf
    | _ => cases h
  | _ => cases h

theorem Undisturbed.of_redeemed {code : String} {en : Stmt β ρ} (hen : Undisturbed env en)
    (h : redeemedCode (en.event env readBody) = some code) :
    ∃ row ∈ en.pre.pairing, row.code = code ∧ row.attempts < maxAttempts ∧ env.clock en.pre.tick ≤ row.expiresAt := by
  obtain ⟨tid, kind, hist, o, db⟩ := en
  obtain ⟨rfl, hdone⟩ := redeemedCode_eq_some h
  exact hen hdone

omit [DecidableEq β] [Inhabited β] in
theorem redeemedCode_ne_issuedRow {ev : Event (iface β)} {code : String} {row : PairingRow}
    (h : redeemedCode ev = some code) : issuedRow ev ≠ some row := by
  obtain ⟨o, done⟩ := ev
  cases o with
  | deleteCode => simp [issuedRow]
  | _ => cases h

/-- The issue a code is outstanding by comes after every redemption of the code. -/
theorem Outstanding.after {mid' mid pre : List (Stmt β ρ)} {en' : Stmt β ρ} {code : String} {row : PairingRow}
    (h : Outstanding env readBody (mid ++ en' :: pre) code row mid')
    (hred : redeemedCode (en'.event env readBody) = some code) :
    ∃ issue ∈ mid, issuedRow (issue.event env readBody) = some row := by
  obtain ⟨issue, older, heq, hi, _, hmid⟩ := h
  rcases List.append_eq_append_iff.1 heq with ⟨l, rfl, hl⟩ | ⟨l, rfl, hl⟩
  · cases l with
    | nil =>
      obtain ⟨rfl, _⟩ := List.cons.inj hl
      exact absurd hi (redeemedCode_ne_issuedRow hred)
    | cons e l =>
      obtain ⟨rfl, _⟩ := List.cons.inj hl
      exact absurd hred (hmid en' (by simp)).1
  · cases l with
    | nil =>
      obtain ⟨rfl, _⟩ := List.cons.inj hl
      exact absurd hi (redeemedCode_ne_issuedRow hred)
    | cons e l =>
      obtain ⟨rfl, _⟩ := List.cons.inj hl
      exact ⟨issue, by simp, hi⟩

/-- A redeemed code is outstanding, in time and before its attempts are used up. -/
theorem redeemed_outstanding {p : Pool (iface β) (DB β) (Request ρ)}
    (hr : (daemon env readBody).Reach NoCodes (Sys.Guarded fun _ en => Undisturbed env en) p)
    {post pre : List (Stmt β ρ)} {en : Stmt β ρ} {code : String} (heq : p.trace = post ++ en :: pre)
    (hred : redeemedCode (en.event env readBody) = some code) :
    ∃ row mid, Outstanding env readBody pre code row mid ∧ bumps env readBody mid < maxAttempts ∧
      env.clock en.pre.tick ≤ row.expiresAt := by
  have hen : Undisturbed env en := Sys.guarded_trace (fun _ _ h => h) hr post en pre heq
  obtain ⟨row, hrow, hcode, hatt, hclock⟩ := hen.of_redeemed hred
  obtain ⟨issued, mid, hout, hexp, hbumps⟩ := (tracked_of_reach hr).2 post en pre heq row hrow
  rw [hcode] at hout
  exact ⟨issued, mid, hout, by omega, hexp ▸ hclock⟩

theorem pairing_single_use (env : Env β) (readBody : ρ → Option β) (p : Pool (iface β) (DB β) (Request ρ))
    (hr : (daemon env readBody).Reach NoCodes (Sys.Guarded fun _ en => Undisturbed env en) p) :
    SingleUse env readBody p.trace where
  yielded := by
    intro post en pre code clientID device groupID heq hkind hop
    have hok : EndsWell en.kind en.hist en.op := (pairingContract env readBody).ok_of_trace hr en (by simp [heq])
    obtain ⟨rest, hhist⟩ := hok.yielded code clientID device groupID hkind hop
    obtain ⟨en', hen', htid, hev⟩ :=
      Sys.mem_hist hr heq (hhist ▸ List.mem_cons_self : (⟨.deleteCode code .redeemed, true⟩ : Event (iface β)) ∈ en.hist)
    exact ⟨en', hen', htid, by rw [Stmt.event, hev]; rfl⟩
  redeemed post en pre code heq hred := redeemed_outstanding hr heq hred
  once := by
    intro post en mid en' pre code heq hred hred'
    obtain ⟨row, mid', hout, _⟩ := redeemed_outstanding hr heq hred
    obtain ⟨issue, hissue, hi⟩ := hout.after hred'
    exact ⟨issue, hissue, row, hi, hout.code⟩
  counted := by
    intro post en pre code clientID device err heq hkind hop hfail
    have hok : EndsWell en.kind en.hist en.op := (pairingContract env readBody).ok_of_trace hr en (by simp [heq])
    obtain ⟨ev, rest, hhist, hend⟩ := hok.failed code clientID device err hkind hop hfail
    obtain ⟨en', hen', htid, hev⟩ := Sys.mem_hist hr heq (hhist ▸ List.mem_cons_self : ev ∈ en.hist)
    obtain ⟨post', pre', hpre⟩ := List.append_of_mem hen'
    have hun : Undisturbed env en' :=
      Sys.guarded_trace (fun _ _ h => h) hr (post ++ en :: post') en' pre' (by rw [heq, hpre]; simp)
    have hop' : EndsAttempt code en'.op := by
      subst hev
      exact hend
    exact ⟨en', hen', htid, hop', counts_of_undisturbed hun hop'⟩

/-! ## Two redeemers -/

/-- The random bytes are zero. -/
def calmEnv : Env String := .calm fun _ => List.replicate 8 0

/-- One group with one client. -/
def oneClient : DB String := (DB.empty.insertGroup "g_1").upsertMember ⟨"g_1", "c_1", "", 0⟩

theorem noCodes_oneClient : NoCodes oneClient := rfl

def firstCode : String := codeOf (List.replicate 8 0)

/-- A code is issued. -/
def issuing : List (Label (Request String) Empty) := .spawn (.pairCreate "c_1") :: List.replicate 5 (.act 0)

/-- It is redeemed by one client. -/
def redeeming : List (Label (Request String) Empty) :=
  issuing ++ .spawn (.pairVerify firstCode "c_2" "") :: List.replicate 3 (.act 1)

/-- Two clients look it up before either deletes it. -/
def racing : List (Label (Request String) Empty) :=
  issuing ++ [.spawn (.pairVerify firstCode "c_2" ""), .spawn (.pairVerify firstCode "c_3" ""),
    .act 1, .act 1, .act 2, .act 2, .act 1, .act 2]

def textDaemon : Sys (iface String) (DB String) (Request String) Empty := daemon calmEnv some

/-- The codes redeemed in a run, the latest first. -/
def redemptions (p : Pool (iface String) (DB String) (Request String)) : List (Option String) :=
  p.trace.map fun en => redeemedCode (textDaemon.event en)

theorem pairing_single_use_redeemed : ∃ p, (some firstCode ∈ redemptions p) ∧ SingleUse calmEnv some p.trace := by
  have hplay : ((textDaemon.play (Sys.guardedB fun _ en => Undisturbed calmEnv en) redeeming ⟨oneClient, [], []⟩).map
      fun p => (redemptions p).head?) = some (some (some firstCode)) := by decide
  obtain ⟨p, hp, hhead⟩ := Option.map_eq_some_iff.1 hplay
  exact ⟨p, List.mem_of_mem_head? hhead,
    pairing_single_use calmEnv some p (Sys.reach_of_play (fun _ _ => Sys.guarded_of_guardedB) (.init noCodes_oneClient) hp)⟩

/-- Both redeem it. -/
theorem redeemed_twice : ¬ ∀ p, textDaemon.Reach NoCodes (fun _ _ => True) p → SingleUse calmEnv some p.trace := by
  intro h
  have hplay : ((textDaemon.play (fun _ _ => true) racing ⟨oneClient, [], []⟩).map
      fun p => (redemptions p).take 2) = some [some firstCode, some firstCode] := by decide
  obtain ⟨p, hp, hhead⟩ := Option.map_eq_some_iff.1 hplay
  have hr : textDaemon.Reach NoCodes (fun _ _ => True) p := Sys.reach_of_play (fun _ _ _ => trivial) (.init noCodes_oneClient) hp
  rcases htrace : p.trace with _ | ⟨en, _ | ⟨en', rest⟩⟩
  · simp [redemptions, htrace] at hhead
  · simp [redemptions, htrace] at hhead
  · simp only [redemptions, htrace, List.map_cons, List.take_succ_cons, List.take_zero, List.cons.injEq,
      and_true] at hhead
    obtain ⟨issue, hissue, _⟩ := (h p hr).once [] en [] en' rest firstCode htrace hhead.1 hhead.2
    simp at hissue

end Purdex.Sync
