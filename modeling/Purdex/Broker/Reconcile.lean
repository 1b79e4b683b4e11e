/-
Reconciling a scan: the brokers in the process table, their state directories and their socket directories, which are found on their
own, made into one list of records.
-/
import Purdex.Broker.Types
import Mathlib.Data.List.Dedup

namespace Purdex.Broker.Scan

/-! ## Candidates and records -/

inductive AnomalyCode
  | brokerJSONPidMismatch
  | stateDirOrphan
  | processOrphan
  | socketOrphan
  | cwdUnresolvable
  | cwdMissing
  | cwdTransientStatError
  | lstartUnparseable
  | argvTruncated
  | stateJSONUnreadable
  | brokerJSONUnreadable
  | duplicateRuntime
  | brokerKeyCollision
  | stateDirNoMatch
  | foreignOwner
  deriving Repr, DecidableEq

structure Anomaly where
  code : AnomalyCode
  detail : String
  deriving Repr, DecidableEq

structure JobCounts where
  queued : Nat := 0
  running : Nat := 0
  completed : Nat := 0
  failed : Nat := 0
  cancelled : Nat := 0
  unknown : Nat := 0
  deriving Repr, DecidableEq

structure ProcessCandidate where
  key : String
  pid : Int
  ppid : Int := 1
  lstart : Int := 0
  rssKB : Int := 0
  rawCwd : String := ""
  cwdResolved : String := ""
  endpoint : String := ""
  pidFile : String := ""
  anomalies : List Anomaly := []
  deriving Repr, DecidableEq

/-- What is read of `broker.json` here. -/
structure BrokerJSONFile where
  sessionDir : String := ""
  pid : Int
  deriving Repr, DecidableEq

structure StateCandidate where
  key : String
  stateDir : String
  hasBrokerJSON : Bool := true
  brokerJSON : BrokerJSONFile
  stateJSONReadable : Bool := true
  jobCounts : JobCounts := {}
  lastJobUpdatedAt : Option Int := none
  anomalies : List Anomaly := []
  deriving Repr, DecidableEq

/-- `pidFromFile` is 0 where there is no pid in the directory that can be read. -/
structure SocketCandidate where
  syntheticKey : String := ""
  sockDir : String
  pidFromFile : Int
  anomalies : List Anomaly := []
  deriving Repr, DecidableEq

structure SourceMask where
  process : Bool := false
  stateDir : Bool := false
  socket : Bool := false
  deriving Repr, DecidableEq

structure BrokerRecord where
  key : String
  pid : Int := 0
  lstart : Int := 0
  ppid : Int := 0
  rssBytes : Int := 0
  cwd : String := ""
  cwdResolved : String := ""
  endpoint : String := ""
  socketDir : String := ""
  pidFile : String := ""
  stateDir : String := ""
  hasBrokerJSON : Bool := false
  brokerJSONPID : Int := 0
  stateJSONReadable : Bool := false
  jobCounts : JobCounts := {}
  lastJobUpdatedAt : Option Int := none
  cwdExists : Bool := false
  cwdStatErr : String := ""
  sources : SourceMask
  anomalies : List Anomaly
  deriving Repr, DecidableEq

/-! ## Looking for a directory -/

inductive StatError
  | notExist
  | permission
  | other
  deriving Repr, DecidableEq

/-- What comes of `fs.Stat` within its budget. The details of anomalies come with it. -/
inductive StatResult
  | found
  | overBudget (detail : String)
  | ctxDone
  | failed (err : StatError) (detail : String)
  deriving Repr, DecidableEq

structure Look where
  ctxErr : Bool
  result : StatResult
  deriving Repr, DecidableEq

def classifyCwd (look : Look) (record : BrokerRecord) : BrokerRecord :=
  if look.ctxErr then { record with cwdExists := false, cwdStatErr := "ctx_canceled" }
  else if record.cwdResolved = "" ∧ record.cwd = "" then record
  else
    match look.result with
    | .found => { record with cwdExists := true }
    | .overBudget detail => { record with
        cwdExists := false
        cwdStatErr := "timeout"
        anomalies := record.anomalies ++ [⟨.cwdTransientStatError, detail⟩] }
    | .ctxDone => { record with cwdExists := false, cwdStatErr := "ctx_canceled" }
    | .failed .notExist detail => { record with
        cwdExists := false
        cwdStatErr := "ENOENT"
        anomalies := record.anomalies ++ [⟨.cwdMissing, detail⟩] }
    | .failed .permission detail => { record with
        cwdExists := false
        cwdStatErr := "EACCES"
        anomalies := record.anomalies ++ [⟨.cwdTransientStatError, detail⟩] }
    | .failed .other detail => { record with
        cwdExists := false
        cwdStatErr := "other"
        anomalies := record.anomalies ++ [⟨.cwdTransientStatError, detail⟩] }

/-- The directory of a `unix:` endpoint. -/
def socketDirFromEndpoint (endpoint : String) : String :=
  match unixAddr endpoint with
  | none => ""
  | some sock =>
    match sock.toList.reverse.dropWhile (· ≠ '/') with
    | [] => ""
    | _ :: dir => String.ofList dir.reverse

/-! ## Reconciling -/

section Reconcile

variable (processes : List ProcessCandidate) (states : List StateCandidate) (sockets : List SocketCandidate)

/-- The last directory of a key stands for it. -/
def stateByKey (key : String) : Option StateCandidate := states.reverse.find? (·.key = key)

def stateBySocketDir (dir : String) : Option StateCandidate :=
  states.reverse.find? fun sc => sc.brokerJSON.sessionDir ≠ "" ∧ sc.brokerJSON.sessionDir = dir

def processByKey (key : String) : List ProcessCandidate := processes.filter (·.key = key)

def canonicalCwdForCollision (pc : ProcessCandidate) : String := if pc.cwdResolved ≠ "" then pc.cwdResolved else pc.rawCwd

/-- What is told of several processes with one key. -/
def sharedKey (pc : ProcessCandidate) : List Anomaly :=
  let same := processByKey processes pc.key
  if 1 < same.length then
    let distinctCwd := (same.map canonicalCwdForCollision).dedup
    if 1 < distinctCwd.length then
      [⟨.brokerKeyCollision, "Key=" ++ pc.key ++ " shared across " ++ toString distinctCwd.length ++ " distinct cwd"⟩]
    else [⟨.duplicateRuntime, toString same.length ++ " processes share Key=" ++ pc.key⟩]
  else []

/-- The state directory a process owns: that of its key, where it alone has the key or is the one in `broker.json`. -/
def isOwner (pc : ProcessCandidate) (sc : StateCandidate) : Bool :=
  (processByKey processes pc.key).length = 1 || (sc.brokerJSON.pid ≠ 0 && sc.brokerJSON.pid = pc.pid)

def ownedState (pc : ProcessCandidate) : Option StateCandidate := (stateByKey states pc.key).filter (isOwner processes pc)

/-- The first socket directory with the pid. -/
def ownedSocket (pc : ProcessCandidate) : Option SocketCandidate :=
  sockets.find? fun s => s.pidFromFile ≠ 0 && s.pidFromFile = pc.pid

def fromProcess (pc : ProcessCandidate) : BrokerRecord where
  key := pc.key
  pid := pc.pid
  lstart := pc.lstart
  ppid := pc.ppid
  rssBytes := pc.rssKB * 1024
  cwd := pc.rawCwd
  cwdResolved := pc.cwdResolved
  endpoint := pc.endpoint
  socketDir := socketDirFromEndpoint pc.endpoint
  pidFile := pc.pidFile
  sources := { process := true }
  anomalies := pc.anomalies ++ sharedKey processes pc

def withState (pc : ProcessCandidate) (record : BrokerRecord) : BrokerRecord :=
  match ownedState processes states pc with
  | some sc => { record with
      sources := { record.sources with stateDir := true }
      stateDir := sc.stateDir
      hasBrokerJSON := sc.hasBrokerJSON
      brokerJSONPID := sc.brokerJSON.pid
      stateJSONReadable := sc.stateJSONReadable
      jobCounts := sc.jobCounts
      lastJobUpdatedAt := sc.lastJobUpdatedAt
      anomalies := record.anomalies ++ sc.anomalies ++
        if sc.brokerJSON.pid ≠ 0 ∧ sc.brokerJSON.pid ≠ pc.pid then
          [⟨.brokerJSONPidMismatch, "process.pid=" ++ toString pc.pid ++ " ≠ broker.json.pid=" ++ toString sc.brokerJSON.pid⟩]
        else [] }
  | none =>
    if (stateByKey states pc.key).isNone then
      { record with anomalies := record.anomalies ++
          [⟨.processOrphan, "no state dir for Key=" ++ pc.key⟩,
            ⟨.stateDirNoMatch, "process record could not be matched to any state dir"⟩] }
    else record

def withSocket (pc : ProcessCandidate) (record : BrokerRecord) : BrokerRecord :=
  match ownedSocket sockets pc with
  | some s => { record with
      sources := { record.sources with socket := true }
      socketDir := if record.socketDir = "" then s.sockDir else record.socketDir
      anomalies := record.anomalies ++ s.anomalies }
  | none => record

def orphanState (sc : StateCandidate) : BrokerRecord where
  key := sc.key
  stateDir := sc.stateDir
  hasBrokerJSON := sc.hasBrokerJSON
  brokerJSONPID := sc.brokerJSON.pid
  stateJSONReadable := sc.stateJSONReadable
  jobCounts := sc.jobCounts
  lastJobUpdatedAt := sc.lastJobUpdatedAt
  sources := { stateDir := true }
  anomalies := ⟨.stateDirOrphan, "state dir " ++ sc.stateDir ++ " has broker.json (pid=" ++ toString sc.brokerJSON.pid ++
    ") but no live process"⟩ :: sc.anomalies

/-- `synth` is a hash of the path. -/
def orphanSocket (synth : String → String) (s : SocketCandidate) : BrokerRecord where
  key :=
    match stateBySocketDir states s.sockDir with
    | some sc => sc.key
    | none => if s.syntheticKey ≠ "" then "unknown:" ++ s.syntheticKey else "unknown:" ++ synth s.sockDir
  socketDir := s.sockDir
  sources := { socket := true }
  anomalies := ⟨.socketOrphan, "socket dir " ++ s.sockDir ++ " has broker.pid=" ++ toString s.pidFromFile ++
    " not in process scan"⟩ :: s.anomalies

/-- The state keys and the socket directories that a process took, and the records. -/
structure Merging where
  used : List String := []
  mergedSockets : List String := []
  out : List BrokerRecord := []

/-- The record of one process, with what is known of it from elsewhere. -/
def processRecord (look : ProcessCandidate → Look) (pc : ProcessCandidate) : BrokerRecord :=
  classifyCwd (look pc) (withSocket sockets pc (withState processes states pc (fromProcess processes pc)))

def mergeProcess (look : ProcessCandidate → Look) (m : Merging) (pc : ProcessCandidate) : Merging where
  used := m.used ++ if (ownedState processes states pc).isSome then [pc.key] else []
  mergedSockets := m.mergedSockets ++ ((ownedSocket sockets pc).map SocketCandidate.sockDir).toList
  out := m.out ++ [processRecord processes states sockets look pc]

def reconcile (look : ProcessCandidate → Look) (synth : String → String) : List BrokerRecord :=
  let m := processes.foldl (mergeProcess processes states sockets look) {}
  m.out ++ (states.filter (·.key ∉ m.used)).map orphanState ++
    (sockets.filter (·.sockDir ∉ m.mergedSockets)).map (orphanSocket states synth)

end Reconcile

/-! ## What a record tells -/

/-- All that is known of the process. -/
structure Tells (pc : ProcessCandidate) (record : BrokerRecord) : Prop where
  key : record.key = pc.key
  pid : record.pid = pc.pid
  lstart : record.lstart = pc.lstart
  ppid : record.ppid = pc.ppid
  rssBytes : record.rssBytes = pc.rssKB * 1024
  cwd : record.cwd = pc.rawCwd
  cwdResolved : record.cwdResolved = pc.cwdResolved
  endpoint : record.endpoint = pc.endpoint
  pidFile : record.pidFile = pc.pidFile
  anomalies : pc.anomalies ⊆ record.anomalies

/-- All that is known of the state directory. -/
structure Carries (sc : StateCandidate) (record : BrokerRecord) : Prop where
  source : record.sources.stateDir = true
  key : record.key = sc.key
  stateDir : record.stateDir = sc.stateDir
  hasBrokerJSON : record.hasBrokerJSON = sc.hasBrokerJSON
  brokerJSONPID : record.brokerJSONPID = sc.brokerJSON.pid
  stateJSONReadable : record.stateJSONReadable = sc.stateJSONReadable
  jobCounts : record.jobCounts = sc.jobCounts
  lastJobUpdatedAt : record.lastJobUpdatedAt = sc.lastJobUpdatedAt
  anomalies : sc.anomalies ⊆ record.anomalies

/-- A socket directory merged into the record of a process. -/
structure Joins (s : SocketCandidate) (record : BrokerRecord) : Prop where
  process : record.sources.process = true
  socket : record.sources.socket = true
  pid : record.pid = s.pidFromFile
  anomalies : s.anomalies ⊆ record.anomalies

/-- A record with the state directory in it. -/
def BrokerRecord.isOf (record : BrokerRecord) (sc : StateCandidate) : Bool :=
  record.sources.stateDir && record.stateDir = sc.stateDir

/-- A record of the socket directory alone. -/
def BrokerRecord.isOwn (record : BrokerRecord) (s : SocketCandidate) : Bool :=
  !record.sources.process && record.sources.socket && record.socketDir = s.sockDir

def BrokerRecord.tagged (record : BrokerRecord) (code : AnomalyCode) : Bool := record.anomalies.any (·.code = code)

section Records

variable {processes : List ProcessCandidate} {states : List StateCandidate} {sockets : List SocketCandidate}
  {look : ProcessCandidate → Look} {synth : String → String} {pc : ProcessCandidate} {sc : StateCandidate} {s : SocketCandidate}

/-- What the steps behind the state directory leave as it is. -/
structure Grows (record record' : BrokerRecord) : Prop where
  rest : record' = { record with
    socketDir := record'.socketDir
    cwdExists := record'.cwdExists
    cwdStatErr := record'.cwdStatErr
    sources := { record.sources with socket := record'.sources.socket }
    anomalies := record'.anomalies }
  socket : record.sources.socket = true → record'.sources.socket = true
  anomalies : record.anomalies ⊆ record'.anomalies

theorem grows_classifyCwd (l : Look) (record : BrokerRecord) : Grows record (classifyCwd l record) := by
  unfold classifyCwd
  split
  · exact ⟨rfl, id, fun _ => id⟩
  · split
    · exact ⟨rfl, id, fun _ => id⟩
    · split
      · exact ⟨rfl, id, fun _ => id⟩
      · exact ⟨rfl, id, List.subset_append_left _ _⟩
      · exact ⟨rfl, id, fun _ => id⟩
      all_goals exact ⟨rfl, id, List.subset_append_left _ _⟩

theorem grows_withSocket (pc : ProcessCandidate) (record : BrokerRecord) : Grows record (withSocket sockets pc record) := by
  unfold withSocket
  cases ownedSocket sockets pc with
  | none => exact ⟨rfl, id, fun _ => id⟩
  | some s => exact ⟨rfl, fun _ => rfl, List.subset_append_left _ _⟩

theorem Grows.trans {record record' record'' : BrokerRecord} (h : Grows record record') (h' : Grows record' record'') : Grows record record'' where
  rest := by
    rw [h'.rest, h.rest]
  socket := h'.socket ∘ h.socket
  anomalies := List.Subset.trans h.anomalies h'.anomalies

theorem grows_processRecord (pc : ProcessCandidate) :
    Grows (withState processes states pc (fromProcess processes pc)) (processRecord processes states sockets look pc) :=
  (grows_withSocket pc _).trans (grows_classifyCwd _ _)

/-- A process has a record with all that is known of it. -/
theorem processRecord_tells (pc : ProcessCandidate) :
    Tells pc (processRecord processes states sockets look pc) ∧ (processRecord processes states sockets look pc).sources.process = true := by
  have hgrows := @grows_processRecord processes states sockets look pc
  have hstate : Tells pc (withState processes states pc (fromProcess processes pc)) ∧
      (withState processes states pc (fromProcess processes pc)).sources.process = true := by
    unfold withState fromProcess
    cases ownedState processes states pc with
    | some sc =>
      refine ⟨⟨rfl, rfl, rfl, rfl, rfl, rfl, rfl, rfl, rfl, ?_⟩, rfl⟩
      simp only [List.append_assoc]
      exact List.subset_append_left _ _
    | none =>
      simp only
      split
      · refine ⟨⟨rfl, rfl, rfl, rfl, rfl, rfl, rfl, rfl, rfl, ?_⟩, rfl⟩
        simp only [List.append_assoc]
        exact List.subset_append_left _ _
      · exact ⟨⟨rfl, rfl, rfl, rfl, rfl, rfl, rfl, rfl, rfl, List.subset_append_left _ _⟩, rfl⟩
  obtain ⟨htells, hprocess⟩ := hstate
  have hanomalies := List.Subset.trans htells.anomalies hgrows.anomalies
  rw [hgrows.rest]
  exact ⟨⟨htells.key, htells.pid, htells.lstart, htells.ppid, htells.rssBytes, htells.cwd, htells.cwdResolved, htells.endpoint,
    htells.pidFile, hanomalies⟩, hprocess⟩

theorem ownedState_key (h : ownedState processes states pc = some sc) : sc ∈ states ∧ sc.key = pc.key := by
  obtain ⟨hfound, -⟩ := Option.filter_eq_some_iff.1 h
  have hkey := List.find?_some hfound
  exact ⟨List.mem_reverse.1 (List.mem_of_find?_eq_some hfound), by simpa using hkey⟩

/-- And all that is known of the state directory it owns. -/
theorem processRecord_carries (h : ownedState processes states pc = some sc) :
    Carries sc (processRecord processes states sockets look pc) := by
  have hgrows := @grows_processRecord processes states sockets look pc
  have hstate : Carries sc (withState processes states pc (fromProcess processes pc)) := by
    unfold withState
    rw [h]
    refine ⟨rfl, (ownedState_key h).2.symm, rfl, rfl, rfl, rfl, rfl, rfl, ?_⟩
    exact fun a ha => List.mem_append_left _ (List.mem_append_right _ ha)
  have hanomalies := List.Subset.trans hstate.anomalies hgrows.anomalies
  rw [hgrows.rest]
  exact ⟨hstate.source, hstate.key, hstate.stateDir, hstate.hasBrokerJSON, hstate.brokerJSONPID, hstate.stateJSONReadable,
    hstate.jobCounts, hstate.lastJobUpdatedAt, hanomalies⟩

theorem processRecord_isOf : (processRecord processes states sockets look pc).isOf sc = true ↔
    ∃ owned, ownedState processes states pc = some owned ∧ owned.stateDir = sc.stateDir := by
  cases howned : ownedState processes states pc with
  | some owned =>
    have hcarries := @processRecord_carries processes states sockets look pc owned howned
    rw [BrokerRecord.isOf, hcarries.source, hcarries.stateDir, Bool.true_and, decide_eq_true_iff]
    exact ⟨fun h => ⟨owned, rfl, h⟩, fun ⟨_, heq, h⟩ => Option.some.inj heq ▸ h⟩
  | none =>
    have hgrows := @grows_processRecord processes states sockets look pc
    have hnone : (withState processes states pc (fromProcess processes pc)).sources.stateDir = false := by
      unfold withState
      rw [howned]
      simp only
      split <;> rfl
    rw [BrokerRecord.isOf, hgrows.rest]
    simp only [hnone, Bool.false_and]
    exact ⟨nofun, nofun⟩

theorem processRecord_joins (h : ownedSocket sockets pc = some s) : Joins s (processRecord processes states sockets look pc) := by
  obtain ⟨htells, hprocess⟩ := @processRecord_tells processes states sockets look pc
  have hsocket : (withSocket sockets pc (withState processes states pc (fromProcess processes pc))).sources.socket = true ∧
      s.anomalies ⊆ (withSocket sockets pc (withState processes states pc (fromProcess processes pc))).anomalies := by
    unfold withSocket
    rw [h]
    exact ⟨rfl, List.subset_append_right _ _⟩
  have hgrows := grows_classifyCwd (look pc) (withSocket sockets pc (withState processes states pc (fromProcess processes pc)))
  have hpid : pc.pid = s.pidFromFile := by
    have hfound := List.find?_some h
    simp only [ne_eq, decide_not, Bool.and_eq_true, Bool.not_eq_true', decide_eq_false_iff_not, decide_eq_true_eq] at hfound
    exact hfound.2.symm
  exact ⟨hprocess, hgrows.socket hsocket.1, htells.pid.trans hpid, List.Subset.trans hsocket.2 hgrows.anomalies⟩

theorem isOwn_processRecord : (processRecord processes states sockets look pc).isOwn s = false := by
  rw [BrokerRecord.isOwn, (processRecord_tells pc).2]
  rfl

/-! ## The list of records -/

theorem foldl_mergeProcess (l : List ProcessCandidate) (m : Merging) :
    l.foldl (mergeProcess processes states sockets look) m =
      { used := m.used ++ (l.filter fun pc => (ownedState processes states pc).isSome).map ProcessCandidate.key
        mergedSockets := m.mergedSockets ++ (l.filterMap (ownedSocket sockets)).map SocketCandidate.sockDir
        out := m.out ++ l.map (processRecord processes states sockets look) } := by
  induction l generalizing m with
  | nil => simp
  | cons pc l ih =>
    rw [List.foldl_cons, ih, mergeProcess, List.filter_cons, List.filterMap_cons]
    cases ownedState processes states pc <;> cases ownedSocket sockets pc <;> simp

/-- A process owns the directory of the key. -/
def Owned (processes : List ProcessCandidate) (states : List StateCandidate) (key : String) : Prop :=
  ∃ pc ∈ processes, pc.key = key ∧ (ownedState processes states pc).isSome

/-- A process owns the socket directory, by its path. -/
def OwnedSocket (processes : List ProcessCandidate) (sockets : List SocketCandidate) (dir : String) : Prop :=
  ∃ pc ∈ processes, (ownedSocket sockets pc).map SocketCandidate.sockDir = some dir

instance (key : String) : Decidable (Owned processes states key) :=
  inferInstanceAs (Decidable (∃ pc ∈ processes, pc.key = key ∧ (ownedState processes states pc).isSome))

instance (dir : String) : Decidable (OwnedSocket processes sockets dir) :=
  inferInstanceAs (Decidable (∃ pc ∈ processes, (ownedSocket sockets pc).map SocketCandidate.sockDir = some dir))

theorem reconcile_eq : reconcile processes states sockets look synth =
    processes.map (processRecord processes states sockets look) ++
      (states.filter fun sc => ¬ Owned processes states sc.key).map orphanState ++
        (sockets.filter fun s => ¬ OwnedSocket processes sockets s.sockDir).map (orphanSocket states synth) := by
  unfold reconcile
  simp only [foldl_mergeProcess, List.nil_append]
  congr 1
  · congr 2
    refine List.filter_congr fun sc _ => ?_
    rw [decide_eq_decide]
    simp only [List.mem_map, List.mem_filter, Owned]
    refine not_congr ⟨?_, ?_⟩
    · rintro ⟨pc, ⟨hpc, hsome⟩, hkey⟩
      exact ⟨pc, hpc, hkey, hsome⟩
    · rintro ⟨pc, hpc, hkey, hsome⟩
      exact ⟨pc, ⟨hpc, hsome⟩, hkey⟩
  · congr 1
    refine List.filter_congr fun s _ => ?_
    rw [decide_eq_decide]
    simp only [List.mem_map, List.mem_filterMap, OwnedSocket, Option.map_eq_some_iff]
    refine not_congr ⟨?_, ?_⟩
    · rintro ⟨owned, ⟨pc, hpc, hsome⟩, hdir⟩
      exact ⟨pc, hpc, owned, hsome, hdir⟩
    · rintro ⟨pc, hpc, owned, hsome, hdir⟩
      exact ⟨owned, ⟨pc, hpc, hsome⟩, hdir⟩

theorem mem_reconcile {record : BrokerRecord} : record ∈ reconcile processes states sockets look synth ↔
    (∃ pc ∈ processes, processRecord processes states sockets look pc = record) ∨
      (∃ sc ∈ states, ¬ Owned processes states sc.key ∧ orphanState sc = record) ∨
        ∃ s ∈ sockets, ¬ OwnedSocket processes sockets s.sockDir ∧ orphanSocket states synth s = record := by
  rw [reconcile_eq, List.append_assoc, List.mem_append, List.mem_append]
  simp only [List.mem_map, List.mem_filter, decide_eq_true_eq, and_assoc]

/-! ## Counting -/

theorem countP_eq_one {α : Type} [DecidableEq α] {l : List α} {P : α → Bool} (hl : l.Nodup) {a : α} (ha : a ∈ l) (hP : P a = true)
    (honly : ∀ b ∈ l, P b = true → b = a) : l.countP P = 1 := by
  have hcount : l.countP P = l.count a := by
    refine List.countP_congr fun b hb => ?_
    rw [beq_iff_eq]
    exact ⟨honly b hb, fun h => h ▸ hP⟩
  rw [hcount, List.count_eq_one_of_mem hl ha]

theorem countP_states (hdirs : (states.map StateCandidate.stateDir).Nodup) (hsc : sc ∈ states) {P : StateCandidate → Bool} (hP : P sc = true) :
    (states.filter P).countP (fun other => (orphanState other).isOf sc) = 1 := by
  have hnodup : (states.filter P).Nodup := hdirs.of_map.filter _
  refine countP_eq_one hnodup (List.mem_filter.2 ⟨hsc, hP⟩) (by simp [BrokerRecord.isOf, orphanState]) fun other hother hof => ?_
  have hdir : other.stateDir = sc.stateDir := by simpa [BrokerRecord.isOf, orphanState] using hof
  exact List.inj_on_of_nodup_map hdirs (List.mem_filter.1 hother).1 hsc hdir

theorem countP_sockets (hdirs : (sockets.map SocketCandidate.sockDir).Nodup) (hs : s ∈ sockets) {P : SocketCandidate → Bool} (hP : P s = true) :
    (sockets.filter P).countP (fun other => (orphanSocket states synth other).isOwn s) = 1 := by
  have hnodup : (sockets.filter P).Nodup := hdirs.of_map.filter _
  refine countP_eq_one hnodup (List.mem_filter.2 ⟨hs, hP⟩) (by simp [BrokerRecord.isOwn, orphanSocket]) fun other hother hown => ?_
  have hdir : other.sockDir = s.sockDir := by simpa [BrokerRecord.isOwn, orphanSocket] using hown
  exact List.inj_on_of_nodup_map hdirs (List.mem_filter.1 hother).1 hs hdir

/-! ## What is conserved -/

/-- Each process has its record, each state directory is in one, and each socket directory is in that of its process or in its own,
which no process has a claim to. -/
structure Conserved (processes : List ProcessCandidate) (states : List StateCandidate) (sockets : List SocketCandidate)
    (out : List BrokerRecord) : Prop where
  runtimes : List.Forall₂ Tells processes (out.filter (·.sources.process))
  directories : ∀ sc ∈ states, out.countP (·.isOf sc) = 1
  carried : ∀ sc ∈ states, ∀ record ∈ out, record.isOf sc = true →
    Carries sc record ∧ (record.sources.process = true ∨ record.tagged .stateDirOrphan = true)
  joined : ∀ s ∈ sockets, ((∃ record ∈ out, Joins s record) ∧ out.countP (·.isOwn s) = 0) ∨ out.countP (·.isOwn s) = 1
  orphans : ∀ s ∈ sockets, ∀ record ∈ out, record.isOwn s = true →
    record.tagged .socketOrphan = true ∧ ∀ pc ∈ processes, pc.pid ≠ s.pidFromFile

/-- A process may claim the directory of the key: it alone has the key, or the last directory of the key names it. -/
def Claimed (processes : List ProcessCandidate) (states : List StateCandidate) (key : String) : Prop :=
  ∃ sc, stateByKey states key = some sc ∧ ∃ pc ∈ processes, pc.key = key ∧
    ((processByKey processes key).length = 1 ∨ (sc.brokerJSON.pid ≠ 0 ∧ sc.brokerJSON.pid = pc.pid))

/-- No two state directories have a key that a process claims, and no two socket directories the pid of a process. -/
structure Unambiguous (processes : List ProcessCandidate) (states : List StateCandidate) (sockets : List SocketCandidate) : Prop where
  keys : ∀ sc ∈ states, ∀ other ∈ states, sc.key = other.key → Claimed processes states sc.key → sc.stateDir = other.stateDir
  pids : ∀ s ∈ sockets, ∀ pc ∈ processes, pc.pid = s.pidFromFile →
    s.pidFromFile ≠ 0 ∧ ∀ other ∈ sockets, other.pidFromFile = s.pidFromFile → s.sockDir = other.sockDir

theorem owned_iff_claimed (key : String) : Owned processes states key ↔ Claimed processes states key := by
  unfold Owned Claimed ownedState isOwner
  constructor
  · rintro ⟨pc, hpc, rfl, hsome⟩
    obtain ⟨sc, hsc⟩ := Option.isSome_iff_exists.1 hsome
    obtain ⟨hlast, howner⟩ := Option.filter_eq_some_iff.1 hsc
    exact ⟨sc, hlast, pc, hpc, rfl, by simpa using howner⟩
  · rintro ⟨sc, hlast, pc, hpc, rfl, howner⟩
    refine ⟨pc, hpc, rfl, Option.isSome_iff_exists.2 ⟨sc, Option.filter_eq_some_iff.2 ⟨hlast, by simpa using howner⟩⟩⟩

section Distinct

variable (hpids : (processes.map ProcessCandidate.pid).Nodup) (hdirs : (states.map StateCandidate.stateDir).Nodup)
  (hsocks : (sockets.map SocketCandidate.sockDir).Nodup)

include hdirs in
theorem ownedState_of_isOf (hsc : sc ∈ states) (h : (processRecord processes states sockets look pc).isOf sc = true) :
    ownedState processes states pc = some sc := by
  obtain ⟨owned, howned, hdir⟩ := processRecord_isOf.1 h
  rwa [List.inj_on_of_nodup_map hdirs (ownedState_key howned).1 hsc hdir] at howned

include hpids in
/-- A directory has one owner. -/
theorem owner_unique {pc' : ProcessCandidate} (hpc : pc ∈ processes) (hpc' : pc' ∈ processes) (h : ownedState processes states pc = some sc)
    (h' : ownedState processes states pc' = some sc) : pc = pc' := by
  have hkey : pc.key = pc'.key := (ownedState_key h).2.symm.trans (ownedState_key h').2
  have howner := (Option.filter_eq_some_iff.1 h).2
  have howner' := (Option.filter_eq_some_iff.1 h').2
  simp only [isOwner, Bool.or_eq_true, Bool.and_eq_true, decide_eq_true_eq] at howner howner'
  rw [← hkey] at howner'
  have hmem : pc ∈ processByKey processes pc.key := List.mem_filter.2 ⟨hpc, by simp⟩
  have hmem' : pc' ∈ processByKey processes pc.key := List.mem_filter.2 ⟨hpc', by simp [hkey]⟩
  by_cases hone : (processByKey processes pc.key).length = 1
  · obtain ⟨only, honly⟩ := List.length_eq_one_iff.1 hone
    rw [honly, List.mem_singleton] at hmem hmem'
    rw [hmem, hmem']
  · have hpid := (howner.resolve_left hone).2
    have hpid' := (howner'.resolve_left hone).2
    exact List.inj_on_of_nodup_map hpids hpc hpc' (hpid.symm.trans hpid')

include hdirs in
/-- How often a directory is in a record: once for each process that owns it, and once where none owns its key. -/
theorem countP_isOf (hsc : sc ∈ states) : (reconcile processes states sockets look synth).countP (·.isOf sc) =
    processes.countP (fun pc => (processRecord processes states sockets look pc).isOf sc) +
      if Owned processes states sc.key then 0 else 1 := by
  have hsockets : ∀ l : List SocketCandidate, (l.map (orphanSocket states synth)).countP (·.isOf sc) = 0 := fun l => by
    refine List.countP_eq_zero.2 fun record hrecord => ?_
    obtain ⟨s, -, rfl⟩ := List.mem_map.1 hrecord
    exact nofun
  rw [reconcile_eq, List.countP_append, List.countP_append, hsockets, List.countP_map, List.countP_map, Nat.add_zero]
  congr 1
  split
  · rename_i howned
    refine List.countP_eq_zero.2 fun other hother hof => ?_
    obtain ⟨hmem, hfree⟩ := List.mem_filter.1 hother
    have hdir : other.stateDir = sc.stateDir := by simpa [BrokerRecord.isOf, orphanState] using hof
    rw [List.inj_on_of_nodup_map hdirs hmem hsc hdir] at hfree
    exact absurd howned (of_decide_eq_true hfree)
  · rename_i hfree
    exact countP_states hdirs hsc (decide_eq_true hfree)

include hpids hdirs in
theorem directories_iff : (∀ sc ∈ states, (reconcile processes states sockets look synth).countP (·.isOf sc) = 1) ↔
    ∀ sc ∈ states, ∀ other ∈ states, sc.key = other.key → Claimed processes states sc.key → sc.stateDir = other.stateDir := by
  simp only [← owned_iff_claimed]
  constructor
  · intro h
    -- the directory of a key that is owned is the last one with the key
    have hlast : ∀ sc ∈ states, Owned processes states sc.key → stateByKey states sc.key = some sc := fun sc hsc howned => by
      have hcount := h sc hsc
      rw [countP_isOf hdirs hsc, if_pos howned, Nat.add_zero] at hcount
      obtain ⟨pc, -, hof⟩ := List.countP_pos_iff.1 (hcount ▸ Nat.one_pos)
      have howns := ownedState_of_isOf hdirs hsc hof
      rw [(ownedState_key howns).2]
      exact (Option.filter_eq_some_iff.1 howns).1
    intro sc hsc other hother hkey howned
    have hsame := (hlast sc hsc howned).symm.trans (hkey ▸ hlast other hother (hkey ▸ howned))
    rw [Option.some.inj hsame]
  · intro h sc hsc
    rw [countP_isOf hdirs hsc]
    by_cases howned : Owned processes states sc.key
    · rw [if_pos howned]
      obtain ⟨pc, hpc, hkey, hsome⟩ := id howned
      obtain ⟨owned, howns⟩ := Option.isSome_iff_exists.1 hsome
      obtain ⟨hmem, hown⟩ := ownedState_key howns
      have hdir := h sc hsc owned hmem (hkey.symm.trans hown.symm) howned
      rw [← List.inj_on_of_nodup_map hdirs hsc hmem hdir] at howns
      have hcount := countP_eq_one (P := fun pc => (processRecord processes states sockets look pc).isOf sc) hpids.of_map hpc
        (processRecord_isOf.2 ⟨sc, howns, rfl⟩) fun pc' hpc' hof => owner_unique hpids hpc' hpc (ownedState_of_isOf hdirs hsc hof) howns
      rw [hcount]
    · rw [if_neg howned]
      have hzero : processes.countP (fun pc => (processRecord processes states sockets look pc).isOf sc) = 0 := by
        refine List.countP_eq_zero.2 fun pc hpc hof => howned ?_
        have howns := ownedState_of_isOf hdirs hsc hof
        exact ⟨pc, hpc, (ownedState_key howns).2.symm, Option.isSome_of_eq_some howns⟩
      rw [hzero]

/-! ## Socket directories -/

theorem ownedSocket_eq (h : ownedSocket sockets pc = some s) : s ∈ sockets ∧ s.pidFromFile ≠ 0 ∧ s.pidFromFile = pc.pid := by
  have hfound := List.find?_some h
  simp only [ne_eq, decide_not, Bool.and_eq_true, Bool.not_eq_true', decide_eq_false_iff_not, decide_eq_true_eq] at hfound
  exact ⟨List.mem_of_find?_eq_some h, hfound⟩

include hsocks in
theorem ownedSocket_iff (hs : s ∈ sockets) : OwnedSocket processes sockets s.sockDir ↔ ∃ pc ∈ processes, ownedSocket sockets pc = some s := by
  unfold OwnedSocket
  refine exists_congr fun pc => and_congr_right fun _ => ?_
  rw [Option.map_eq_some_iff]
  constructor
  · rintro ⟨owned, howned, hdir⟩
    rwa [List.inj_on_of_nodup_map hsocks (ownedSocket_eq howned).1 hs hdir] at howned
  · exact fun h => ⟨s, h, rfl⟩

include hsocks in
theorem countP_isOwn (hs : s ∈ sockets) : (reconcile processes states sockets look synth).countP (·.isOwn s) =
    if OwnedSocket processes sockets s.sockDir then 0 else 1 := by
  have hprocesses : (processes.map (processRecord processes states sockets look)).countP (·.isOwn s) = 0 := by
    refine List.countP_eq_zero.2 fun record hrecord => ?_
    obtain ⟨pc, -, rfl⟩ := List.mem_map.1 hrecord
    rw [isOwn_processRecord]
    exact nofun
  have hstates : ∀ l : List StateCandidate, (l.map orphanState).countP (·.isOwn s) = 0 := fun l => by
    refine List.countP_eq_zero.2 fun record hrecord => ?_
    obtain ⟨sc, -, rfl⟩ := List.mem_map.1 hrecord
    exact nofun
  rw [reconcile_eq, List.countP_append, List.countP_append, hprocesses, hstates, List.countP_map, Nat.zero_add]
  split
  · rename_i howned
    refine List.countP_eq_zero.2 fun other hother hown => ?_
    obtain ⟨-, hfree⟩ := List.mem_filter.1 hother
    have hdir : other.sockDir = s.sockDir := by simpa [BrokerRecord.isOwn, orphanSocket] using hown
    rw [hdir] at hfree
    exact absurd howned (of_decide_eq_true hfree)
  · rename_i hfree
    exact countP_sockets hsocks hs (decide_eq_true hfree)

include hsocks in
/-- A socket directory is in the record of the first process that takes it, or in its own. -/
theorem socket_joined (hs : s ∈ sockets) : let out := reconcile processes states sockets look synth
    ((∃ record ∈ out, Joins s record) ∧ out.countP (·.isOwn s) = 0) ∨ out.countP (·.isOwn s) = 1 := by
  intro out
  change (_ ∧ (reconcile processes states sockets look synth).countP (·.isOwn s) = 0) ∨ _ = 1
  rw [countP_isOwn hsocks hs]
  by_cases howned : OwnedSocket processes sockets s.sockDir
  · obtain ⟨pc, hpc, hsome⟩ := (ownedSocket_iff hsocks hs).1 howned
    exact .inl ⟨⟨_, mem_reconcile.2 (.inl ⟨pc, hpc, rfl⟩), processRecord_joins hsome⟩, if_pos howned⟩
  · exact .inr (if_neg howned)

include hsocks in
theorem orphans_iff : (∀ s ∈ sockets, ∀ record ∈ reconcile processes states sockets look synth, record.isOwn s = true →
      record.tagged .socketOrphan = true ∧ ∀ pc ∈ processes, pc.pid ≠ s.pidFromFile) ↔
    ∀ s ∈ sockets, ∀ pc ∈ processes, pc.pid = s.pidFromFile →
      s.pidFromFile ≠ 0 ∧ ∀ other ∈ sockets, other.pidFromFile = s.pidFromFile → s.sockDir = other.sockDir := by
  constructor
  · intro h
    -- a directory whose pid a process has is the one that the process takes
    have htaken : ∀ s ∈ sockets, ∀ pc ∈ processes, pc.pid = s.pidFromFile → ownedSocket sockets pc = some s := fun s hs pc hpc hpid => by
      have howned : OwnedSocket processes sockets s.sockDir := by
        by_contra hfree
        have hrecord : orphanSocket states synth s ∈ reconcile processes states sockets look synth :=
          mem_reconcile.2 (.inr (.inr ⟨s, hs, hfree, rfl⟩))
        exact (h s hs _ hrecord (by simp [BrokerRecord.isOwn, orphanSocket])).2 pc hpc hpid
      obtain ⟨taker, -, htaker⟩ := (ownedSocket_iff hsocks hs).1 howned
      have hsame : taker.pid = pc.pid := (ownedSocket_eq htaker).2.2.symm.trans hpid.symm
      unfold ownedSocket at htaker ⊢
      rwa [hsame] at htaker
    intro s hs pc hpc hpid
    have hfirst := htaken s hs pc hpc hpid
    refine ⟨(ownedSocket_eq hfirst).2.1, fun other hother hsame => ?_⟩
    rw [htaken other hother pc hpc (hpid.trans hsame.symm)] at hfirst
    rw [Option.some.inj hfirst]
  · intro h s hs record hrecord hown
    rcases mem_reconcile.1 hrecord with ⟨pc, -, rfl⟩ | ⟨sc, -, -, rfl⟩ | ⟨other, hother, hfree, rfl⟩
    · rw [isOwn_processRecord] at hown
      cases hown
    · cases hown
    · have hdir : other.sockDir = s.sockDir := by simpa [BrokerRecord.isOwn, orphanSocket] using hown
      obtain rfl := List.inj_on_of_nodup_map hsocks hother hs hdir
      refine ⟨by simp [BrokerRecord.tagged, orphanSocket], fun pc hpc hpid => hfree ?_⟩
      obtain ⟨hne, hsame⟩ := h other hs pc hpc hpid
      have hsome : (ownedSocket sockets pc).isSome := List.find?_isSome.2 ⟨other, hs, by simp [hne, hpid]⟩
      obtain ⟨first, hfirst⟩ := Option.isSome_iff_exists.1 hsome
      obtain ⟨hmem, -, hpid'⟩ := ownedSocket_eq hfirst
      refine ⟨pc, hpc, ?_⟩
      rw [hfirst, Option.map_some, hsame first hmem (hpid'.trans hpid)]

/-! ## When it is conserved -/

theorem runtimes_told : List.Forall₂ Tells processes ((reconcile processes states sockets look synth).filter (·.sources.process)) := by
  have hprocesses : (processes.map (processRecord processes states sockets look)).filter (·.sources.process) =
      processes.map (processRecord processes states sockets look) := by
    refine List.filter_eq_self.2 fun record hrecord => ?_
    obtain ⟨pc, -, rfl⟩ := List.mem_map.1 hrecord
    exact (processRecord_tells pc).2
  have hrest : ∀ l : List BrokerRecord, (∀ record ∈ l, record.sources.process = false) → l.filter (·.sources.process) = [] := fun l hl =>
    List.filter_eq_nil_iff.2 fun record hrecord => by simp [hl record hrecord]
  rw [reconcile_eq, List.filter_append, List.filter_append, hprocesses, hrest, hrest, List.append_nil, List.append_nil,
    List.forall₂_map_right_iff, List.forall₂_same]
  · exact fun pc _ => (processRecord_tells pc).1
  · intro record hrecord
    obtain ⟨s, -, rfl⟩ := List.mem_map.1 hrecord
    rfl
  · intro record hrecord
    obtain ⟨sc, -, rfl⟩ := List.mem_map.1 hrecord
    rfl

include hdirs in
theorem record_carries (hsc : sc ∈ states) {record : BrokerRecord} (hrecord : record ∈ reconcile processes states sockets look synth)
    (hof : record.isOf sc = true) : Carries sc record ∧ (record.sources.process = true ∨ record.tagged .stateDirOrphan = true) := by
  rcases mem_reconcile.1 hrecord with ⟨pc, -, rfl⟩ | ⟨other, hother, -, rfl⟩ | ⟨s, -, -, rfl⟩
  · exact ⟨processRecord_carries (ownedState_of_isOf hdirs hsc hof), .inl (processRecord_tells pc).2⟩
  · have hdir : other.stateDir = sc.stateDir := by simpa [BrokerRecord.isOf, orphanState] using hof
    obtain rfl := List.inj_on_of_nodup_map hdirs hother hsc hdir
    refine ⟨⟨rfl, rfl, rfl, rfl, rfl, rfl, rfl, rfl, List.subset_cons_self _ _⟩, .inr ?_⟩
    simp [BrokerRecord.tagged, orphanState]
  · cases hof

end Distinct

end Records

/-! ## Two directories with one pid -/

def onDisk (_ : ProcessCandidate) : Look := ⟨false, .found⟩

def broker : ProcessCandidate := { key := "1f4dd4d978bb1234", pid := 4242, rawCwd := "/work", endpoint := "unix:/tmp/cxc-b/broker.sock" }

def workState : StateCandidate := { key := "1f4dd4d978bb1234", stateDir := "/data/work-1f4dd4d978bb1234", brokerJSON := ⟨"/tmp/cxc-b", 4242⟩ }

def brokerSocket : SocketCandidate := { sockDir := "/tmp/cxc-b", pidFromFile := 4242 }

/-- What a broker left that had the pid before. -/
def staleSocket : SocketCandidate := { sockDir := "/tmp/cxc-a", pidFromFile := 4242 }

end Purdex.Broker.Scan
