/-
The dispatcher behind the agent store: what it makes of each change of the last events, and what it forgets of the sessions that go.
-/
import Purdex.Client.Notifications
import Purdex.Conc.Reach

namespace Purdex.Client

open Joined Json Nav

/-! ## Purges -/

/-- `key.split(':')[0]`. -/
def hostPart (key : String) : String :=
  match cut ':' key.toList with
  | none => key
  | some (hostId, _) => String.ofList hostId

namespace Debounce

variable (d : Debounce)

def purgeDebounceForCompositeKey (ck : String) : Debounce := { d with entries := d.entries.filter fun e => e.1.1 ≠ ck }

def purgeDebounceForHost (hostId : String) : Debounce := { d with entries := d.entries.filter fun e => ¬OfHost hostId e.1.1 }

/-- The module's own subscription: the sessions that went, then the hosts of which none is left. -/
def onLastEvents (prev current : Record NormalizedEvent) : Debounce :=
  let gone := prev.keys.filter fun key => (current.get? key).isNone
  let prevHostIds := (prev.keys.map hostPart).dedup
  let currHostIds := current.keys.map hostPart
  (prevHostIds.filter (· ∉ currHostIds)).foldl purgeDebounceForHost (gone.foldl purgeDebounceForCompositeKey d)

end Debounce

/-! ## What is heard of a change -/

/-- The key of a bucket, before it is made a text. -/
def ShouldNotifyParams.bucket (params : ShouldNotifyParams) : String × String × String :=
  (params.compositeKey, normalizeEventName params.eventName, params.errorString)

/-- Whether `shouldNotify` gets as far as the debounce of errors. -/
def ShouldNotifyParams.reachesDebounce (params : ShouldNotifyParams) (hasFocus : Bool) : Bool :=
  params.status = "error" && !params.notificationSilent && params.settings.enabled &&
    params.settings.events.get? (normalizeEventName params.eventName) ≠ some false &&
    (params.hasTab || params.settings.notifyWithoutTab) && !(params.focusedCompositeKey = params.compositeKey && hasFocus)

/-- What is remembered of a run, the last first. -/
inductive Entry where
  /-- An event came; `passed` says what `shouldDispatch` made of it. -/
  | arrived (key : String) (broadcastTs : Int) (passed : Bool)
  /-- An error reached the debounce. -/
  | error (bucket : String × String × String) (now : Int) (through : Bool)
  | removed (key : String)
  | restarted
  deriving DecidableEq

namespace Desk

variable (d : Desk)

/-- What the loop asks `shouldNotify` about. -/
def paramsFor (key : String) (event : NormalizedEvent) : ShouldNotifyParams where
  status := event.status
  eventName := event.rawEventName
  compositeKey := key
  focusedCompositeKey := (getActiveSessionInfo d.stores.tabStore).elim "" fun active => compositeKey active.1 active.2
  hasTab := (findTabBySessionCode d.stores.tabStore.tabs (decompose key).2).isSome
  settings := getSettingsForAgent d.agents event.agentType
  notificationSilent := event.detail.notificationSilent
  errorString := event.detail.error.getD ""

/-- What a turn of the loop adds to what is remembered. -/
def entries (key : String) (event : NormalizedEvent) : List Entry :=
  let passed := (shouldDispatch d.seen key event.broadcastTs).1
  let params := d.paramsFor key event
  (if passed && params.reachesDebounce d.hasFocus then
    [.error params.bucket d.now (shouldNotify params d.hasFocus d.now d.debounce).1] else []) ++
    [.arrived key event.broadcastTs passed]

/-- One turn of the loop: nothing for an event that was there before. -/
def hear (prev : Record NormalizedEvent) (st : Desk × List Entry) (entry : String × NormalizedEvent) : Desk × List Entry :=
  if (prev.get? entry.1).map (·.broadcastTs) = some entry.2.broadcastTs then st
  else ((st.1.dispatch entry.1 entry.2).2, st.1.entries entry.1 entry.2 ++ st.2)

def clearSeenTs (d : Desk) (key : String) : Desk := { d with seen := d.seen.restrict (· ≠ key) }

/-- Both subscriptions, behind a change of the last events. -/
def onLastEvents (prev : Record NormalizedEvent) : Desk × List Entry :=
  let gone := prev.keys.filter fun key => (d.lastEvents.get? key).isNone
  let purged := { d with debounce := d.debounce.onLastEvents prev d.lastEvents }
  d.lastEvents.entries.foldl (hear prev) (gone.foldl clearSeenTs purged, gone.map .removed)

end Desk

/-! ## Moves -/

structure Dispatcher where
  desk : Desk
  log : List Entry

namespace Dispatcher

inductive Move where
  | handleNormalizedEvent (hostId sessionCode : String) (event : NormalizedEvent)
  | clearSession (hostId sessionCode : String)
  | removeHost (hostId : String)
  /-- What is in memory is lost. -/
  | restart
  | advance (ms : Nat)
  /-- What the user does meanwhile, and the other stores. -/
  | elsewhere (d : Desk)

variable (w : Dispatcher)

/-- Nothing has come yet, on a client that was never started. -/
def start (d : Desk) : Dispatcher := ⟨{ d with lastEvents := .empty, seen := .empty, debounce := ⟨[], 0⟩ }, []⟩

/-- An event, where `key` is its session's. It comes also where the loop leaves it out, as it has the time of the one before. -/
def event (key : String) (event : NormalizedEvent) : Dispatcher :=
  let heard := { w.desk with lastEvents := w.desk.lastEvents.set key event }.onLastEvents w.desk.lastEvents
  ⟨heard.1, (if heard.2 = [] then [.arrived key event.broadcastTs false] else heard.2) ++ w.log⟩

/-- The last events of the sessions that stay. -/
def removal (stays : String → Bool) : Dispatcher :=
  let heard := { w.desk with lastEvents := w.desk.lastEvents.restrict stays }.onLastEvents w.desk.lastEvents
  ⟨heard.1, heard.2 ++ w.log⟩

def clear (hostId sessionCode : String) : Dispatcher := w.removal (· ≠ compositeKey hostId sessionCode)

def step : Move → Dispatcher → Option Dispatcher
  | .handleNormalizedEvent hostId sessionCode event, w =>
    some (if event.status = "clear" then w.clear hostId sessionCode else w.event (compositeKey hostId sessionCode) event)
  | .clearSession hostId sessionCode, w => some (w.clear hostId sessionCode)
  | .removeHost hostId, w => some (w.removal fun key => ¬OfHost hostId key)
  | .restart, w => some ⟨{ w.desk with lastEvents := .empty, debounce := ⟨[], 0⟩ }, .restarted :: w.log⟩
  | .advance ms, w => some { w with desk := { w.desk with now := w.desk.now + ms } }
  | .elsewhere d, w =>
    some { w with desk := { d with
      lastEvents := w.desk.lastEvents
      seen := w.desk.seen
      debounce := w.desk.debounce
      now := w.desk.now } }

end Dispatcher

end Purdex.Client
