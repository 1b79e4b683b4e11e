/-
Quick commands: a session is created for the command, the command is typed into it, and a send that failed can be tried again.
Every request looks its host up when it is sent, and takes another one where the host is gone.
-/
import Purdex.Conc.Async
import Purdex.Hosts.Store

namespace Purdex.Client

open Conc Hosts

/-! ## The executors -/

structure SlotStores where
  hosts : HostState
  /-- The ids of the workspaces. -/
  workspaces : List String

/-- `retry` is a toast that offers to send again, and the wait for it to be clicked or to go. -/
inductive SlotRequest
  | resolveHostId
  | createSession (base : String) (headers : List (String × String)) (name cwd : String)
  | sendKeys (base : String) (headers : List (String × String)) (sessionCode keys : String)
  | switchToSession (hostId sessionCode : String)
  | retry

/-- A session that is created has a code, which is empty where the answer has none; else there is a reason. -/
abbrev SlotIface : Iface where
  Op := SlotRequest
  Res
    | .resolveHostId => Option HostId
    | .createSession .. => Except String String
    | .sendKeys .. => Bool
    | .switchToSession .. => Bool
    | .retry => Bool

abbrev SlotM (α : Type) := Async SlotIface SlotStores α

abbrev SlotTurn := Turn SlotIface SlotStores

abbrev asked (o : SlotRequest) (r : SlotIface.Res o) (pre : SlotStores) : SlotTurn := Turn.asked o r pre

def ask (o : SlotRequest) : SlotM (SlotIface.Res o) := Async.request (I := SlotIface) o

def createSession (hostId : HostId) (name cwd : String) : SlotM (Except String String) := do
  let w ← Async.read
  ask (.createSession (w.hosts.getDaemonBase hostId) (w.hosts.getAuthHeaders hostId) name cwd)

def executeCommand (hostId : HostId) (sessionCode command : String) : SlotM Bool := do
  let w ← Async.read
  ask (.sendKeys (w.hosts.getDaemonBase hostId) (w.hosts.getAuthHeaders hostId) sessionCode (command ++ "\n"))

inductive Toast
  | createFailed (reason : String)
  | switchFailed
  | sendKeysFailed
  deriving DecidableEq

/-- Of a command only its text; the name is made of its name and the time. -/
structure QuickCommand where
  name : String
  command : String

/-- The last part of both executors: the command is sent, the session shown, and a send that failed offered again. -/
def sendAndSwitch (hostId : HostId) (sessionCode command : String) (retry : SlotM Unit) : SlotM (Option Toast) := do
  let sendKeysOk ← executeCommand hostId sessionCode command
  let switchOk ← ask (.switchToSession hostId sessionCode)
  if sendKeysOk = true ∧ switchOk = true then pure none
  else if switchOk = false then pure (some .switchFailed)
  else do
    let clicked ← ask .retry
    if clicked = true then retry >>= fun _ => pure (some .sendKeysFailed) else pure (some .sendKeysFailed)

/-- `runWorkspaceSlot` behind the choice of the host. The probe is that of its callers: the workspace is there. -/
def workspaceSlotOn (cmd : QuickCommand) (hostId : HostId) (workspaceId : String) (cwd : Option String) : SlotM (Option Toast) := do
  let created ← createSession hostId cmd.name (cwd.getD "~")
  match created with
  | .error reason => pure (some (.createFailed reason))
  | .ok sessionCode => do
    let w ← Async.read
    if workspaceId ∉ w.workspaces then pure (some .switchFailed)
    else sendAndSwitch hostId sessionCode cmd.command (do
      let _ ← executeCommand hostId sessionCode cmd.command
      pure ())

def runWorkspaceSlot (cmd : QuickCommand) (hostId : Option HostId) (workspaceId : String) (cwd : Option String) : SlotM (Option Toast) :=
  match hostId with
  | some hostId => workspaceSlotOn cmd hostId workspaceId cwd
  | none => do
    let picked ← ask .resolveHostId
    match picked with
    | none => pure none
    | some hostId => workspaceSlotOn cmd hostId workspaceId cwd

/-- White space as `trim` takes it off. -/
def isJsSpace (c : Char) : Bool :=
  c.toNat ∈ [0x9, 0xA, 0xB, 0xC, 0xD, 0x20, 0xA0, 0x1680, 0x2028, 0x2029, 0x202F, 0x205F, 0x3000, 0xFEFF] ||
    (0x2000 ≤ c.toNat && c.toNat ≤ 0x200A)

def trim (s : String) : String := String.ofList ((s.toList.dropWhile isJsSpace).reverse.dropWhile isJsSpace).reverse

/-- The probe is that of its caller: the host is there. -/
def runHostSlot (cmd : QuickCommand) (hostId : HostId) (cwd : Option String) : SlotM (Option Toast) := do
  let w ← Async.read
  if hostId ∉ w.hosts.hosts then pure (some .switchFailed)
  else do
    let created ← createSession hostId cmd.name (cwd.getD "~")
    match created with
    | .error reason => pure (some (.createFailed reason))
    | .ok answered =>
      let sessionCode := trim answered
      if sessionCode = "" then pure (some (.createFailed "empty session code"))
      else do
        let w ← Async.read
        if hostId ∉ w.hosts.hosts then pure (some .switchFailed)
        else sendAndSwitch hostId sessionCode cmd.command (do
          let w ← Async.read
          if hostId ∉ w.hosts.hosts then pure ()
          else do
            let _ ← executeCommand hostId sessionCode cmd.command
            pure ())

/-! ## What they ask -/

/-- A session that was created, under this code as it was answered or trimmed. -/
def CreatedAs (t : List SlotTurn) (sessionCode : String) : Prop :=
  ∃ base headers name cwd code pre, asked (.createSession base headers name cwd) (.ok code) pre ∈ t ∧
    (sessionCode = code ∨ sessionCode = trim code)

def Retried (t : List SlotTurn) : Prop := ∃ pre, asked .retry true pre ∈ t

/-- Each request is addressed to what the host's id leads to at that moment, and is made under the guard of its executor. -/
def slotTerms (hostId : HostId) (onCreate : SlotStores → Prop) (onSend : List SlotTurn → SlotStores → Prop) : Terms SlotIface SlotStores where
  rely _ _ := True
  asks t pre o := match o with
    | .createSession base _ _ _ => base = pre.hosts.getDaemonBase hostId ∧ onCreate pre
    | .sendKeys base _ sessionCode _ => base = pre.hosts.getDaemonBase hostId ∧ CreatedAs t sessionCode ∧ onSend t pre
    | _ => True
  writes _ _ _ := True

theorem CreatedAs.later {t t' : List SlotTurn} {sessionCode : String} (h : CreatedAs t sessionCode) (hsub : ∀ e ∈ t, e ∈ t') :
    CreatedAs t' sessionCode := by
  obtain ⟨base, headers, name, cwd, code, pre, hin, hcode⟩ := h
  exact ⟨base, headers, name, cwd, code, pre, hsub _ hin, hcode⟩

section Does

variable {hostId : HostId} {onCreate : SlotStores → Prop} {onSend : List SlotTurn → SlotStores → Prop} {s : SlotStores} {t : List SlotTurn}
  {sessionCode command : String}

theorem does_executeCommand (hcode : CreatedAs t sessionCode) (hsend : onSend t s) :
    (executeCommand hostId sessionCode command).Does (slotTerms hostId onCreate onSend) s t fun _ _ t' => CreatedAs t' sessionCode :=
  ⟨⟨rfl, hcode, hsend⟩, fun _ _ _ => hcode.later fun _ he => List.mem_cons_of_mem _ he⟩

theorem does_sendAndSwitch {retry : SlotM Unit} (hcode : CreatedAs t sessionCode) (hsend : onSend t s)
    (hretry : ∀ s' t', CreatedAs t' sessionCode → Retried t' → retry.Does (slotTerms hostId onCreate onSend) s' t' fun _ _ _ => True) :
    (sendAndSwitch hostId sessionCode command retry).Does (slotTerms hostId onCreate onSend) s t fun _ _ _ => True := by
  refine does_seq (does_executeCommand hcode hsend) fun sendKeysOk s₁ t₁ hsent => ?_
  refine ⟨trivial, fun switchOk s₂ _ => ?_⟩
  change Async.Does _ (if sendKeysOk = true ∧ switchOk = true then _ else _) _ _ _
  split
  · trivial
  · split
    · trivial
    · refine ⟨trivial, fun clicked s₃ _ => ?_⟩
      change Async.Does _ (if clicked = true then _ else _) _ _ _
      split
      · rename_i hclicked
        subst hclicked
        have hstill := CreatedAs.later hsent fun e he => List.mem_cons_of_mem (asked .retry true s₂) (List.mem_cons_of_mem
          (asked (.switchToSession hostId sessionCode) switchOk s₁) he)
        exact does_seq (hretry s₃ _ hstill ⟨s₂, List.mem_cons_self⟩) fun _ _ _ _ => trivial
      · trivial

theorem does_workspaceSlotOn (cmd : QuickCommand) (hostId : HostId) (workspaceId : String) (cwd : Option String) (s : SlotStores)
    (t : List SlotTurn) : (workspaceSlotOn cmd hostId workspaceId cwd).Does
      (slotTerms hostId (fun _ => True) fun t pre => Retried t ∨ workspaceId ∈ pre.workspaces) s t fun _ _ _ => True := by
  refine ⟨⟨rfl, trivial⟩, fun created s₁ _ => ?_⟩
  cases created with
  | error reason => trivial
  | ok code =>
    change Async.Does _ (if workspaceId ∉ s₁.workspaces then _ else _) _ _ _
    split
    · trivial
    · rename_i hlive
      refine does_sendAndSwitch ⟨_, _, _, _, code, s, List.mem_cons_self, .inl rfl⟩ (.inr (not_not.1 hlive)) ?_
      intro s₂ t₂ hcode hretried
      exact does_seq (does_executeCommand hcode (.inl hretried)) fun _ _ _ _ => trivial

theorem does_runHostSlot (cmd : QuickCommand) (hostId : HostId) (cwd : Option String) (s : SlotStores) (t : List SlotTurn) :
    (runHostSlot cmd hostId cwd).Does
      (slotTerms hostId (fun pre => hostId ∈ pre.hosts.hosts) fun _ pre => hostId ∈ pre.hosts.hosts) s t fun _ _ _ => True := by
  change Async.Does _ (if hostId ∉ s.hosts.hosts then _ else _) _ _ _
  split
  · trivial
  · rename_i hlive
    refine ⟨⟨rfl, not_not.1 hlive⟩, fun created s₁ _ => ?_⟩
    cases created with
    | error reason => trivial
    | ok code =>
      change Async.Does _ (if trim code = "" then _ else _) _ _ _
      split
      · trivial
      · change Async.Does _ (if hostId ∉ s₁.hosts.hosts then _ else _) _ _ _
        split
        · trivial
        · rename_i hlive₁
          refine does_sendAndSwitch ⟨_, _, _, _, code, s, List.mem_cons_self, .inr rfl⟩ (not_not.1 hlive₁) ?_
          intro s₂ t₂ hcode _
          change Async.Does _ (if hostId ∉ s₂.hosts.hosts then _ else _) _ _ _
          split
          · trivial
          · rename_i hlive₂
            exact does_seq (does_executeCommand hcode (not_not.1 hlive₂)) fun _ _ _ _ => trivial

end Does

/-! ## What was meant -/

/-- The session is created on the chosen host; and each send goes to where the host was then, into that session, while the host
is there and what the command belongs to. -/
structure Meant (hostId : HostId) (belongs : SlotStores → Prop) (trace : List SlotTurn) : Prop where
  created : ∀ base headers name cwd r pre, asked (.createSession base headers name cwd) r pre ∈ trace →
    ∃ host, pre.hosts.hosts.lookup hostId = some host ∧ base = "http://" ++ host.ip ++ ":" ++ toString host.port
  sent : ∀ later earlier base headers code keys r pre, trace = later ++ asked (.sendKeys base headers code keys) r pre :: earlier →
    belongs pre ∧ hostId ∈ pre.hosts.hosts ∧ CreatedAs earlier code ∧
      ∀ base₀ headers₀ name cwd r₀ pre₀, asked (.createSession base₀ headers₀ name cwd) r₀ pre₀ ∈ earlier → base = base₀

/-- The chosen host is there when the session is created. -/
def HostAtCreate (hostId : HostId) (trace : List SlotTurn) : Prop :=
  ∀ base headers name cwd r pre, asked (.createSession base headers name cwd) r pre ∈ trace → hostId ∈ pre.hosts.hosts

/-- And when something is sent it is, under the address that it had then. -/
def HostAtSend (hostId : HostId) (trace : List SlotTurn) : Prop :=
  ∀ later earlier base headers code keys r pre, trace = later ++ asked (.sendKeys base headers code keys) r pre :: earlier →
    hostId ∈ pre.hosts.hosts ∧
      ∀ base₀ headers₀ name cwd r₀ pre₀, asked (.createSession base₀ headers₀ name cwd) r₀ pre₀ ∈ earlier →
        pre.hosts.getDaemonBase hostId = pre₀.hosts.getDaemonBase hostId

/-- The workspace is there when a send is tried again. -/
def WorkspaceAtRetry (workspaceId : String) (trace : List SlotTurn) : Prop :=
  ∀ later earlier base headers code keys r pre, trace = later ++ asked (.sendKeys base headers code keys) r pre :: earlier →
    Retried earlier → workspaceId ∈ pre.workspaces

theorem getDaemonBase_of_mem {s : HostState} {hostId : HostId} (h : hostId ∈ s.hosts) :
    ∃ host, s.hosts.lookup hostId = some host ∧ s.getDaemonBase hostId = "http://" ++ host.ip ++ ":" ++ toString host.port := by
  obtain ⟨host, hhost⟩ := Option.isSome_iff_exists.1 (AList.lookup_isSome.2 h)
  exact ⟨host, hhost, by simp [HostState.getDaemonBase, HostState.addressed, hhost]⟩

section Kept

variable {hostId : HostId} {onCreate : SlotStores → Prop} {onSend : List SlotTurn → SlotStores → Prop} {trace : List SlotTurn}

theorem create_of_kept (h : (slotTerms hostId onCreate onSend).Kept trace) {base : String} {headers : List (String × String)}
    {name cwd : String} {r : Except String String} {pre : SlotStores}
    (hin : asked (.createSession base headers name cwd) r pre ∈ trace) : base = pre.hosts.getDaemonBase hostId ∧ onCreate pre := by
  obtain ⟨later, earlier, rfl⟩ := List.append_of_mem hin
  exact (kept_of_append h).1

theorem send_of_kept (h : (slotTerms hostId onCreate onSend).Kept trace) {later earlier : List SlotTurn} {base : String}
    {headers : List (String × String)} {code keys : String} {r : Bool} {pre : SlotStores}
    (hin : trace = later ++ asked (.sendKeys base headers code keys) r pre :: earlier) :
    base = pre.hosts.getDaemonBase hostId ∧ CreatedAs earlier code ∧ onSend earlier pre := by
  subst hin
  exact (kept_of_append h).1

/-- Requests that are addressed by the host's id are meant for it exactly where it stands, when they are made, where it stood. -/
theorem meant_iff {belongs : SlotStores → Prop} (h : (slotTerms hostId onCreate onSend).Kept trace) :
    Meant hostId belongs trace ↔ HostAtCreate hostId trace ∧ HostAtSend hostId trace ∧
      ∀ later earlier base headers code keys r pre, trace = later ++ asked (.sendKeys base headers code keys) r pre :: earlier →
        belongs pre := by
  constructor
  · intro hm
    refine ⟨fun base headers name cwd r pre hin => ?_, fun later earlier base headers code keys r pre heq => ?_,
      fun later earlier base headers code keys r pre heq => (hm.sent _ _ _ _ _ _ _ _ heq).1⟩
    · obtain ⟨host, hhost, -⟩ := hm.created _ _ _ _ _ _ hin
      exact AList.lookup_isSome.1 (by rw [hhost]; rfl)
    · obtain ⟨-, hthere, -, hbase⟩ := hm.sent _ _ _ _ _ _ _ _ heq
      refine ⟨hthere, fun base₀ headers₀ name cwd r₀ pre₀ hin => ?_⟩
      have hin' : asked (.createSession base₀ headers₀ name cwd) r₀ pre₀ ∈ trace := by
        rw [heq]
        exact List.mem_append_right _ (List.mem_cons_of_mem _ hin)
      calc pre.hosts.getDaemonBase hostId = base := (send_of_kept h heq).1.symm
        _ = base₀ := hbase _ _ _ _ _ _ hin
        _ = pre₀.hosts.getDaemonBase hostId := (create_of_kept h hin').1
  · rintro ⟨hcreate, hsend, hbelongs⟩
    refine ⟨fun base headers name cwd r pre hin => ?_, fun later earlier base headers code keys r pre heq => ?_⟩
    · obtain ⟨host, hhost, hurl⟩ := getDaemonBase_of_mem (hcreate _ _ _ _ _ _ hin)
      exact ⟨host, hhost, (create_of_kept h hin).1.trans hurl⟩
    · obtain ⟨hthere, hsame⟩ := hsend _ _ _ _ _ _ _ _ heq
      obtain ⟨hbase, hcode, -⟩ := send_of_kept h heq
      refine ⟨hbelongs _ _ _ _ _ _ _ _ heq, hthere, hcode, fun base₀ headers₀ name cwd r₀ pre₀ hin => ?_⟩
      have hin' : asked (.createSession base₀ headers₀ name cwd) r₀ pre₀ ∈ trace := by
        rw [heq]
        exact List.mem_append_right _ (List.mem_cons_of_mem _ hin)
      calc base = pre.hosts.getDaemonBase hostId := hbase
        _ = pre₀.hosts.getDaemonBase hostId := hsame _ _ _ _ _ _ hin
        _ = base₀ := (create_of_kept h hin').1.symm

end Kept

/-! ## Runs -/

/-- The host a workspace's command is for: the one of its context, or the one that is picked at the first wait. -/
def chosenHost (hostId : Option HostId) (env : Env SlotIface SlotStores) (n : Nat) : Option HostId :=
  hostId <|> env.answer n .resolveHostId

theorem workspace_kept (cmd : QuickCommand) (hostId : HostId) (workspaceId : String) (cwd : Option String)
    (env : Env SlotIface SlotStores) (n : Nat) (s : SlotStores) (t : List SlotTurn)
    (ht : (slotTerms hostId (fun _ => True) fun t pre => Retried t ∨ workspaceId ∈ pre.workspaces).Kept t) :
    (slotTerms hostId (fun _ => True) fun t pre => Retried t ∨ workspaceId ∈ pre.workspaces).Kept
      (((workspaceSlotOn cmd hostId workspaceId cwd).play env n s).trace ++ t) :=
  ((does_workspaceSlotOn cmd hostId workspaceId cwd s t).play (fun _ _ => trivial) ht).1

theorem runWorkspaceSlot_kept (cmd : QuickCommand) (hostId : Option HostId) (workspaceId : String) (cwd : Option String)
    (env : Env SlotIface SlotStores) (n : Nat) (s : SlotStores) {chosen : HostId} (h : chosenHost hostId env n = some chosen) :
    (slotTerms chosen (fun _ => True) fun t pre => Retried t ∨ workspaceId ∈ pre.workspaces).Kept
      ((runWorkspaceSlot cmd hostId workspaceId cwd).play env n s).trace := by
  cases hostId with
  | some hostId =>
    cases h
    have hkept := workspace_kept cmd chosen workspaceId cwd env n s [] trivial
    rwa [List.append_nil] at hkept
  | none =>
    replace h : env.answer n .resolveHostId = some chosen := h
    have hrun : ((runWorkspaceSlot cmd none workspaceId cwd).play env n s).trace =
        ((workspaceSlotOn cmd chosen workspaceId cwd).play env (n + 1) (env.meanwhile n s)).trace ++
          [asked .resolveHostId (some chosen) s] := by
      change ((match env.answer n .resolveHostId with
        | none => pure none
        | some hostId => workspaceSlotOn cmd hostId workspaceId cwd : SlotM (Option Toast)).play env (n + 1) (env.meanwhile n s)).trace ++
          [asked .resolveHostId (env.answer n .resolveHostId) s] = _
      rw [h]
    rw [hrun]
    exact workspace_kept cmd chosen workspaceId cwd env (n + 1) (env.meanwhile n s) _ ⟨trivial, trivial⟩

/-- Where no host is picked nothing is asked of one. -/
theorem runWorkspaceSlot_unchosen (cmd : QuickCommand) (hostId : Option HostId) (workspaceId : String) (cwd : Option String)
    (env : Env SlotIface SlotStores) (n : Nat) (s : SlotStores) (h : chosenHost hostId env n = none) :
    ((runWorkspaceSlot cmd hostId workspaceId cwd).play env n s).trace = [asked .resolveHostId none s] := by
  cases hostId with
  | some hostId => cases h
  | none =>
    replace h : env.answer n .resolveHostId = none := h
    change ((match env.answer n .resolveHostId with
      | none => pure none
      | some hostId => workspaceSlotOn cmd hostId workspaceId cwd : SlotM (Option Toast)).play env (n + 1) (env.meanwhile n s)).trace ++
        [asked .resolveHostId (env.answer n .resolveHostId) s] = _
    rw [h]
    rfl

theorem runHostSlot_kept (cmd : QuickCommand) (hostId : HostId) (cwd : Option String) (env : Env SlotIface SlotStores) (n : Nat)
    (s : SlotStores) : (slotTerms hostId (fun pre => hostId ∈ pre.hosts.hosts) fun _ pre => hostId ∈ pre.hosts.hosts).Kept
      ((runHostSlot cmd hostId cwd).play env n s).trace := by
  rw [← List.append_nil ((runHostSlot cmd hostId cwd).play env n s).trace]
  exact ((does_runHostSlot cmd hostId cwd s []).play (fun _ _ => trivial) trivial).1

/-- A workspace's command is meant exactly where its host stands when the session is created and stands there still whenever
something is sent, and the workspace is there when a send is tried again; a host's command exactly where the host has not moved. -/
theorem quick_command_iff (cmd : QuickCommand) (cwd : Option String) (env : Env SlotIface SlotStores) (n : Nat) (s : SlotStores) :
    (∀ hostId workspaceId, ∀ chosen, chosenHost hostId env n = some chosen →
      (Meant chosen (workspaceId ∈ ·.workspaces) ((runWorkspaceSlot cmd hostId workspaceId cwd).play env n s).trace ↔
        HostAtCreate chosen ((runWorkspaceSlot cmd hostId workspaceId cwd).play env n s).trace ∧
          HostAtSend chosen ((runWorkspaceSlot cmd hostId workspaceId cwd).play env n s).trace ∧
            WorkspaceAtRetry workspaceId ((runWorkspaceSlot cmd hostId workspaceId cwd).play env n s).trace)) ∧
    (∀ hostId workspaceId, chosenHost hostId env n = none →
      ((runWorkspaceSlot cmd hostId workspaceId cwd).play env n s).trace = [asked .resolveHostId none s]) ∧
    ∀ hostId,
      (Meant hostId (hostId ∈ ·.hosts.hosts) ((runHostSlot cmd hostId cwd).play env n s).trace ↔
        HostAtSend hostId ((runHostSlot cmd hostId cwd).play env n s).trace) := by
  refine ⟨fun hostId workspaceId chosen hchosen => ?_,
    fun hostId workspaceId => runWorkspaceSlot_unchosen cmd hostId workspaceId cwd env n s, fun hostId => ?_⟩
  · have hkept := runWorkspaceSlot_kept cmd hostId workspaceId cwd env n s hchosen
    rw [meant_iff hkept]
    refine and_congr_right fun _ => and_congr_right fun _ => ⟨fun h later earlier base headers code keys r pre heq _ => ?_,
      fun h later earlier base headers code keys r pre heq => ?_⟩
    · exact h _ _ _ _ _ _ _ _ heq
    · obtain ⟨-, -, hretried | hlive⟩ := send_of_kept hkept heq
      · exact h _ _ _ _ _ _ _ _ heq hretried
      · exact hlive
  · have hkept := runHostSlot_kept cmd hostId cwd env n s
    rw [meant_iff hkept]
    constructor
    · exact fun h => h.2.1
    · intro h
      refine ⟨fun base headers name cwd r pre hin => (create_of_kept hkept hin).2, h, ?_⟩
      exact fun later earlier base headers code keys r pre heq => (send_of_kept hkept heq).2.2

/-! ## A host that goes -/

/-- Two hosts. -/
def twoHosts : HostState :=
  ((createDefaultState "b").addHost ⟨some "a", "a", "10.0.0.1", 7860, none⟩ "").getD (createDefaultState "b")

/-- Everything is answered, and while the session is created its host is removed. -/
def hostGoes : Env SlotIface SlotStores where
  answer _
    | .resolveHostId => none
    | .createSession .. => .ok "abc123"
    | .sendKeys .. => true
    | .switchToSession .. => true
    | .retry => false
  meanwhile n s := if n = 0 then { s with hosts := (s.hosts.removeHost "a").getD s.hosts } else s

theorem quick_command_iff_removed :
    Meant "a" ("w" ∈ ·.workspaces)
        ((runWorkspaceSlot ⟨"clean", "rm -rf build"⟩ (some "a") "w" none).play hostGoes 0 ⟨twoHosts, ["w"]⟩).trace ↔
      HostAtCreate "a" ((runWorkspaceSlot ⟨"clean", "rm -rf build"⟩ (some "a") "w" none).play hostGoes 0 ⟨twoHosts, ["w"]⟩).trace ∧
        HostAtSend "a" ((runWorkspaceSlot ⟨"clean", "rm -rf build"⟩ (some "a") "w" none).play hostGoes 0 ⟨twoHosts, ["w"]⟩).trace ∧
          WorkspaceAtRetry "w"
            ((runWorkspaceSlot ⟨"clean", "rm -rf build"⟩ (some "a") "w" none).play hostGoes 0 ⟨twoHosts, ["w"]⟩).trace :=
  (quick_command_iff ⟨"clean", "rm -rf build"⟩ none hostGoes 0 ⟨twoHosts, ["w"]⟩).1 (some "a") "w" "a" rfl

/-- The command goes to the other host. -/
theorem sent_elsewhere : ¬Meant "a" ("w" ∈ ·.workspaces)
    ((runWorkspaceSlot ⟨"clean", "rm -rf build"⟩ (some "a") "w" none).play hostGoes 0 ⟨twoHosts, ["w"]⟩).trace := by
  intro hm
  obtain ⟨-, hthere, -⟩ := hm.sent [_] [_] _ _ _ _ _ _ rfl
  exact absurd hthere (by decide)

end Purdex.Client
