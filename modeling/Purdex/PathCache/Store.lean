/-
The store of the path cache: lists of directories by scope, what is done to them, and how they come back from what was persisted.
-/
import Purdex.PathCache.Normal
import Purdex.Json.Fields
import Purdex.Conc.Reach

namespace Purdex.PathCache

open Json

/-- `entriesByScope`, in the order of the object's keys. -/
abbrev Scopes := List (String × List PathCacheEntry)

/-- What `Date.now()` can answer. -/
abbrev TimeValue := { ms : Int // -8640000000000000 ≤ ms ∧ ms ≤ 8640000000000000 }

namespace Scopes

variable (s : Scopes)

/-! ## Actions -/

def add (hostId cwd sessionCode dir : String) (now : TimeValue) : Scopes :=
  match normalizeCwd cwd, normalizeDir dir with
  | some cwdNorm, some dirNorm =>
    let key := scopeKey hostId cwdNorm
    Fields.put key (upsertEntry (s.lookup key) ⟨dirNorm, sessionCode, now.1⟩) s
  | _, _ => s

/-- The list of a scope, empty where it has none. -/
def listAt (key : String) : List PathCacheEntry := (s.lookup key).getD []

/-- The source's `lookup`. -/
def lookupCandidates (hostId cwd basename : String) (currentSessionCode : Option String) : List String :=
  match normalizeCwd cwd with
  | none => []
  | some cwdNorm => (rankCandidates (s.listAt (scopeKey hostId cwdNorm)) currentSessionCode).map fun e => candidate basename e.dir

/-- `{ [key]: _removed, ...rest }`. -/
def without (key : String) : Scopes := s.filter fun p => p.1 ≠ key

def pruneStaleCandidate (hostId cwd candidatePath : String) : Scopes :=
  match normalizeCwd cwd with
  | none => s
  | some cwdNorm =>
    let key := scopeKey hostId cwdNorm
    match s.lookup key, normalizeDir (dirname candidatePath) with
    | some existing, some dir =>
      let next := existing.filter (·.dir ≠ dir)
      if next.length = existing.length then s
      else if next.length = 0 then s.without key
      else Fields.put key next s
    | _, _ => s

def clearScope (hostId cwd : String) : Scopes :=
  match normalizeCwd cwd with
  | none => s
  | some cwdNorm =>
    let key := scopeKey hostId cwdNorm
    if (s.lookup key).isNone then s else s.without key

/-- The scope is one of the host. -/
def IsOf (hostId key : String) : Prop := (parseScopeKey key).map (·.1) = some hostId

instance (hostId key : String) : Decidable (IsOf hostId key) := inferInstanceAs (Decidable (_ = _))

def clearBySession (hostId sessionCode : String) : Scopes :=
  let others (list : List PathCacheEntry) := list.filter (·.sessionCode ≠ sessionCode)
  let next := s.filterMap fun p =>
    if ¬IsOf hostId p.1 then some p else if 0 < (others p.2).length then some (p.1, others p.2) else none
  let changed := s.any fun p => IsOf hostId p.1 && (others p.2).length ≠ p.2.length
  if changed then next else s

def clearHost (hostId : String) : Scopes :=
  let next := s.filter fun p => ¬IsOf hostId p.1
  let changed := s.any fun p => IsOf hostId p.1
  if changed then next else s

/-! ## Persisting -/

def rawEntry (e : PathCacheEntry) : Raw :=
  .obj [("dir", .str e.dir), ("sessionCode", .str e.sessionCode), ("touchedAt", .num e.touchedAt)]

def raw : Raw := .obj (s.map fun p => (p.1, .arr (p.2.map rawEntry)))

/-- What is persisted of the state. -/
def persisted : Raw := .obj [("entriesByScope", s.raw)]

/-- One field of a loop over the fields of what was persisted. -/
def keepClean (cleaned : Scopes) (field : String × Raw) : Scopes :=
  if parseScopeKey field.1 = none then cleaned
  else if 0 < (sanitizeEntries field.2).length then Fields.put field.1 (sanitizeEntries field.2) cleaned
  else cleaned

/-- `none` for a state without `entriesByScope`. -/
def sanitizeRehydratedPathCache (entriesByScope : Option Raw) (error : Bool) : Scopes :=
  if error then []
  else match entriesByScope with
    | some (.obj fields) => fields.foldl keepClean []
    | _ => []

/-- What is persisted is spread over the state there is. -/
def merged (persisted : Raw) : Raw :=
  match persisted with
  | .obj fields => (fields.lookup "entriesByScope").getD s.raw
  | _ => s.raw

def rehydrate (persisted : Raw) : Scopes := sanitizeRehydratedPathCache (some (s.merged persisted)) false

/-! ## Moves -/

inductive Move where
  | add (hostId cwd sessionCode dir : String) (now : TimeValue)
  | pruneStaleCandidate (hostId cwd candidatePath : String)
  | clearScope (hostId cwd : String)
  | clearBySession (hostId sessionCode : String)
  | clearHost (hostId : String)
  /-- From any value, over the state there is. -/
  | rehydrate (persisted : Raw)
  /-- A window begins with what another has persisted. -/
  | reload

def step : Move → Scopes → Option Scopes
  | .add hostId cwd sessionCode dir now, s => some (s.add hostId cwd sessionCode dir now)
  | .pruneStaleCandidate hostId cwd candidatePath, s => some (s.pruneStaleCandidate hostId cwd candidatePath)
  | .clearScope hostId cwd, s => some (s.clearScope hostId cwd)
  | .clearBySession hostId sessionCode, s => some (s.clearBySession hostId sessionCode)
  | .clearHost hostId, s => some (s.clearHost hostId)
  | .rehydrate persisted, s => some (s.rehydrate persisted)
  | .reload, s => some (rehydrate [] s.persisted)

end Scopes

end Purdex.PathCache
