/-
The keys of what is kept per session: the host's id, a colon, the session's code. A code has no colon, an id may.
-/
import Purdex.Text.Joined

namespace Purdex.Client

open Joined

def compositeKey (hostId sessionCode : String) : String := hostId ++ ":" ++ sessionCode

theorem toList_compositeKey (hostId sessionCode : String) :
    (compositeKey hostId sessionCode).toList = join ':' hostId.toList sessionCode.toList := by
  simp [compositeKey, join]

/-- A key as the hooks take it apart, at its first colon. -/
def decompose (key : String) : String × String :=
  match cut ':' key.toList with
  | none => ("", key)
  | some (hostId, sessionCode) => (String.ofList hostId, String.ofList sessionCode)

theorem decompose_compositeKey {hostId : String} (h : ':' ∉ hostId.toList) (sessionCode : String) :
    decompose (compositeKey hostId sessionCode) = (hostId, sessionCode) := by
  rw [decompose, toList_compositeKey, cut_join h]
  simp

theorem decompose_compositeKey_iff {hostId sessionCode : String} :
    decompose (compositeKey hostId sessionCode) = (hostId, sessionCode) ↔ ':' ∉ hostId.toList := by
  refine ⟨fun h => ?_, fun h => decompose_compositeKey h sessionCode⟩
  unfold decompose at h
  rw [toList_compositeKey] at h
  cases hcut : cut ':' (join ':' hostId.toList sessionCode.toList) with
  | none => exact absurd (show ':' ∈ join ':' hostId.toList sessionCode.toList by simp [join]) (cut_eq_none.1 hcut)
  | some p =>
    rw [hcut] at h
    have hfirst : String.ofList p.1 = hostId := (Prod.mk.inj h).1
    have hlist : p.1 = hostId.toList := by rw [← hfirst, String.toList_ofList]
    exact hlist ▸ (join_cut hcut).2

/-- What `key.startsWith(hostId + ':')` looks for. -/
def OfHost (hostId key : String) : Prop := hostId.toList ++ [':'] <+: key.toList

instance (hostId key : String) : Decidable (OfHost hostId key) := inferInstanceAs (Decidable (_ <+: _))

theorem ofHost_compositeKey {hostId hostId' sessionCode : String} (hc : ':' ∉ sessionCode.toList) :
    OfHost hostId (compositeKey hostId' sessionCode) ↔ hostId = hostId' ∨ OfHost hostId hostId' := by
  unfold OfHost
  rw [toList_compositeKey, prefix_join_iff hc, String.toList_inj]

theorem OfHost.colon_mem {hostId key : String} (h : OfHost hostId key) : ':' ∈ key.toList :=
  h.subset (by simp)

/-- A key with a colon goes together again. -/
theorem compositeKey_decompose {key : String} (h : ':' ∈ key.toList) : compositeKey (decompose key).1 (decompose key).2 = key := by
  unfold decompose
  cases hcut : cut ':' key.toList with
  | none => exact absurd h (cut_eq_none.1 hcut)
  | some p =>
    refine String.toList_injective ?_
    rw [toList_compositeKey, String.toList_ofList, String.toList_ofList]
    exact (join_cut hcut).1

end Purdex.Client
