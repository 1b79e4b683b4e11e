/-
No event is told twice: over every run, what passes is what is newer than all that came of its session, and an error is let through where none
of its bucket came within the window.
-/
import Purdex.Client.Dispatcher
import Purdex.Client.OwnEvents
import Purdex.Json.Fields

namespace Purdex.Client

open Joined Json Conc

/-! ## What a run is to keep -/

/-- The times of a session's events, since it was removed. -/
def since (key : String) : List Entry → List Int
  | [] => []
  | .arrived k broadcastTs _ :: log => if k = key then broadcastTs :: since key log else since key log
  | .removed k :: log => if k = key then [] else since key log
  | _ :: log => since key log

/-- When errors of a bucket reached the debounce, since its session was removed and the client started. -/
def reached (bucket : String × String × String) : List Entry → List Int
  | [] => []
  | .error b now _ :: log => if b = bucket then now :: reached bucket log else reached bucket log
  | .removed k :: log => if k = bucket.1 then [] else reached bucket log
  | .restarted :: _ => []
  | _ :: log => reached bucket log

/-- An event passes that is not the first and newer than all others; an error is let through that has none in the window before it. -/
def Sound : List Entry → Prop
  | [] => True
  | .arrived key broadcastTs passed :: log =>
    (passed = true ↔ since key log ≠ [] ∧ ∀ ts ∈ since key log, ts < broadcastTs) ∧ Sound log
  | .error bucket now through :: log =>
    (through = true ↔ ∀ t ∈ reached bucket log, t + errorNotifyWindow ≤ now) ∧ Sound log
  | _ :: log => Sound log

def bucketOf : Entry → Option (String × String × String)
  | .error bucket _ _ => some bucket
  | _ => none

/-- The buckets of all errors that reached the debounce. -/
def buckets (log : List Entry) : List (String × String × String) := log.filterMap bucketOf

def passedOf : Entry → Option (String × Int)
  | .arrived key broadcastTs true => some (key, broadcastTs)
  | _ => none

/-- The events that passed. -/
def passedEvents (log : List Entry) : List (String × Int) := log.filterMap passedOf

theorem since_removed (key : String) (log : List Entry) :
    ∀ gone : List String, since key (gone.map .removed ++ log) = if key ∈ gone then [] else since key log
  | [] => by simp
  | k :: gone => by
    rw [List.map_cons, List.cons_append, since, since_removed key log gone]
    by_cases hk : k = key
    · rw [if_pos hk, if_pos (hk ▸ List.mem_cons_self)]
    · rw [if_neg hk]
      simp [Ne.symm hk]

theorem reached_removed (bucket : String × String × String) (log : List Entry) :
    ∀ gone : List String, reached bucket (gone.map .removed ++ log) = if bucket.1 ∈ gone then [] else reached bucket log
  | [] => by simp
  | k :: gone => by
    rw [List.map_cons, List.cons_append, reached, reached_removed bucket log gone]
    by_cases hk : k = bucket.1
    · rw [if_pos hk, if_pos (hk ▸ List.mem_cons_self)]
    · rw [if_neg hk]
      simp [Ne.symm hk]

theorem sound_removed {log : List Entry} (h : Sound log) : ∀ gone : List String, Sound (gone.map .removed ++ log)
  | [] => h
  | _ :: gone => sound_removed h gone

theorem mem_buckets_of_reached {bucket : String × String × String} {t : Int} {log : List Entry} (h : t ∈ reached bucket log) :
    bucket ∈ buckets log := by
  induction log with
  | nil => cases h
  | cons e log ih =>
    have hlater : bucket ∈ buckets log → bucket ∈ buckets (e :: log) := fun hmem => by
      obtain ⟨e', he', hbucket⟩ := List.mem_filterMap.1 hmem
      exact List.mem_filterMap.2 ⟨e', List.mem_cons_of_mem _ he', hbucket⟩
    cases e with
    | error b now through =>
      rw [reached] at h
      split at h
      · rename_i hb
        exact List.mem_filterMap.2 ⟨_, List.mem_cons_self, congrArg some hb⟩
      · exact hlater (ih h)
    | removed k =>
      rw [reached] at h
      split at h
      · cases h
      · exact hlater (ih h)
    | restarted => cases h
    | arrived => exact hlater (ih h)

/-! ## The debounce -/

section Debounce

variable {d : Debounce} {times : String × String × String → List Int} {now : Int} {bucket : String × String × String}

/-- The debounce has the last time of each bucket, but for those whose window is over. -/
structure Recent (d : Debounce) (times : String × String × String → List Int) (now : Int) : Prop where
  nodup : (d.entries.map Prod.fst).Nodup
  told : ∀ bucket u, (bucket, u) ∈ d.entries →
    (∃ t ∈ times bucket, u = t + errorNotifyWindow) ∧ ∀ t ∈ times bucket, t + errorNotifyWindow ≤ u
  forgotten : ∀ bucket, bucket ∉ d.entries.map Prod.fst → ∀ t ∈ times bucket, t + errorNotifyWindow ≤ now

theorem Recent.later (h : Recent d times now) {now' : Int} (hle : now ≤ now') : Recent d times now' :=
  { h with forgotten := fun bucket hb t ht => Int.le_trans (h.forgotten bucket hb t ht) hle }

theorem Recent.congr {times' : String × String × String → List Int} (h : Recent d times now) (htimes : ∀ bucket, times' bucket = times bucket) :
    Recent d times' now := (funext htimes : times' = times) ▸ h

/-- What is thrown away is over, or is no longer asked about. -/
theorem Recent.filter {times' : String × String × String → List Int} {p : (String × String × String) × Int → Bool} (h : Recent d times now)
    (hkept : ∀ e ∈ d.entries, p e = true → times' e.1 = times e.1) (hgone : ∀ e ∈ d.entries, p e = false → ∀ t ∈ times' e.1, t + errorNotifyWindow ≤ now)
    (habsent : ∀ bucket, bucket ∉ d.entries.map Prod.fst → times' bucket ⊆ times bucket) (lastSweepAt : Int) :
    Recent ⟨d.entries.filter p, lastSweepAt⟩ times' now where
  nodup := (List.filter_sublist.map _).nodup h.nodup
  told := fun bucket u hu => by
    obtain ⟨hu, hp⟩ := List.mem_filter.1 hu
    rw [hkept _ hu hp]
    exact h.told bucket u hu
  forgotten := fun bucket hb t ht => by
    by_cases hmem : bucket ∈ d.entries.map Prod.fst
    · obtain ⟨e, he, rfl⟩ := List.mem_map.1 hmem
      refine hgone e he (eq_false_of_ne_true fun hp => hb ?_) t ht
      exact List.mem_map.2 ⟨e, List.mem_filter.2 ⟨he, hp⟩, rfl⟩
    · exact h.forgotten bucket hmem t (habsent bucket hmem ht)

theorem Recent.sweep (h : Recent d times now) : Recent (d.sweep now) times now ∧ (d.sweep now).entries.Sublist d.entries := by
  unfold Debounce.sweep
  split
  · refine ⟨h.filter (fun _ _ _ => rfl) (fun e he hp t ht => ?_) (fun _ _ => List.Subset.refl _) now, List.filter_sublist⟩
    have hold : e.2 < now - 5 * errorNotifyWindow := Decidable.not_not.1 (of_decide_eq_false hp)
    have hle := (h.told e.1 e.2 he).2 t ht
    unfold errorNotifyWindow at *
    omega
  · exact ⟨h, List.Sublist.refl _⟩

/-- An error is let through where the window of its bucket is over; the bucket's window then begins. -/
theorem Recent.tell (h : Recent d times now) (hpast : ∀ t ∈ times bucket, t ≤ now)
    (hcap : ∀ l : List (String × String × String), l.Nodup → l ⊆ bucket :: d.entries.map Prod.fst → l.length ≤ maxDebounceEntries) :
    ((d.tell bucket now).1 = true ↔ ∀ t ∈ times bucket, t + errorNotifyWindow ≤ now) ∧
      Recent (d.tell bucket now).2 (fun b => if b = bucket then now :: times b else times b) now ∧
        (d.tell bucket now).2.entries.map Prod.fst ⊆ bucket :: d.entries.map Prod.fst := by
  obtain ⟨hs, hsub⟩ := h.sweep
  have hkeys : (d.sweep now).entries.map Prod.fst ⊆ d.entries.map Prod.fst := (hsub.map _).subset
  have hwindow : ∀ t ∈ times bucket, t + errorNotifyWindow ≤ now + errorNotifyWindow := fun t ht => Int.add_le_add_right (hpast t ht) _
  unfold Debounce.tell
  simp only
  cases hlookup : (d.sweep now).entries.lookup bucket with
  | some silentUntil =>
    have hmem := mem_of_lookup hlookup
    obtain ⟨⟨t₀, ht₀, hsilent⟩, hall⟩ := hs.told bucket silentUntil hmem
    have hmap : ((d.sweep now).entries.map fun e => if e.1 = bucket then (bucket, now + errorNotifyWindow) else e).map Prod.fst =
        (d.sweep now).entries.map Prod.fst := by
      rw [List.map_map]
      refine List.map_congr_left fun e _ => ?_
      by_cases he : e.1 = bucket
      · simp [he]
      · simp [he]
    refine ⟨?_, ⟨?_, fun b u hu => ?_, fun b hb t ht => ?_⟩, ?_⟩
    · rw [decide_eq_true_eq, Int.not_lt]
      refine ⟨fun hle t ht => Int.le_trans (hall t ht) hle, fun hle => ?_⟩
      rw [hsilent]
      exact hle t₀ ht₀
    · simp only
      rw [hmap]
      exact hs.nodup
    · obtain ⟨e, he, heq⟩ := List.mem_map.1 hu
      split at heq
      · cases heq
        rw [if_pos rfl]
        refine ⟨⟨now, List.mem_cons_self, rfl⟩, fun t ht => ?_⟩
        rcases List.mem_cons.1 ht with rfl | ht
        · exact Int.le_refl _
        · exact hwindow t ht
      · rename_i hne
        cases heq
        rw [if_neg hne]
        exact hs.told b u he
    · simp only at hb
      rw [hmap] at hb
      have hne : b ≠ bucket := fun heq => hb (List.mem_map.2 ⟨_, hmem, heq.symm⟩)
      rw [if_neg hne] at ht
      exact hs.forgotten b hb t ht
    · simp only
      rw [hmap]
      exact fun b hb => List.mem_cons_of_mem _ (hkeys hb)
  | none =>
    have hnew : bucket ∉ (d.sweep now).entries.map Prod.fst := fun hmem => by
      rw [← lookup_isSome, hlookup] at hmem
      cases hmem
    have hroom : (d.sweep now).entries.length < maxDebounceEntries := by
      have hle := hcap (bucket :: (d.sweep now).entries.map Prod.fst) (List.nodup_cons.2 ⟨hnew, hs.nodup⟩)
        (List.cons_subset_cons _ hkeys)
      rw [List.length_cons, List.length_map] at hle
      exact hle
    simp only
    rw [if_neg (Nat.not_le_of_lt hroom)]
    refine ⟨iff_of_true trivial (hs.forgotten bucket hnew), ⟨?_, fun b u hu => ?_, fun b hb t ht => ?_⟩, ?_⟩
    · rw [List.map_append, List.map_singleton]
      exact List.nodup_append.2 ⟨hs.nodup, List.nodup_singleton _, fun a ha b hb heq => hnew (by
        rw [heq, List.mem_singleton.1 hb] at ha
        exact ha)⟩
    · rcases List.mem_append.1 hu with hu | hu
      · have hne : b ≠ bucket := fun heq => hnew (List.mem_map.2 ⟨_, hu, heq⟩)
        rw [if_neg hne]
        exact hs.told b u hu
      · cases List.mem_singleton.1 hu
        rw [if_pos rfl]
        refine ⟨⟨now, List.mem_cons_self, rfl⟩, fun t ht => ?_⟩
        rcases List.mem_cons.1 ht with rfl | ht
        · exact Int.le_refl _
        · exact hwindow t ht
    · rw [List.map_append, List.mem_append, not_or] at hb
      have hne : b ≠ bucket := fun heq => hb.2 (by simp [heq])
      rw [if_neg hne] at ht
      exact hs.forgotten b hb.1 t ht
    · rw [List.map_append]
      refine List.append_subset.2 ⟨fun b hb => List.mem_cons_of_mem _ (hkeys hb), ?_⟩
      exact fun b hb => by
        rw [List.mem_singleton.1 hb]
        exact List.mem_cons_self

end Debounce

/-! ## What is purged -/

theorem foldl_purgeForCompositeKey (keys : List String) (d : Debounce) :
    keys.foldl Debounce.purgeDebounceForCompositeKey d = { d with entries := d.entries.filter fun e => e.1.1 ∉ keys } := by
  induction keys generalizing d with
  | nil => simp
  | cons key keys ih =>
    rw [List.foldl_cons, ih, Debounce.purgeDebounceForCompositeKey]
    simp only [List.filter_filter]
    refine congrArg (fun l => Debounce.mk l d.lastSweepAt) (List.filter_congr fun e _ => ?_)
    by_cases h : e.1.1 = key <;> simp [h]

theorem foldl_purgeForHost (hosts : List String) (d : Debounce) :
    hosts.foldl Debounce.purgeDebounceForHost d = { d with entries := d.entries.filter fun e => ∀ h ∈ hosts, ¬OfHost h e.1.1 } := by
  induction hosts generalizing d with
  | nil => simp
  | cons host hosts ih =>
    rw [List.foldl_cons, ih, Debounce.purgeDebounceForHost]
    simp only [List.filter_filter]
    refine congrArg (fun l => Debounce.mk l d.lastSweepAt) (List.filter_congr fun e _ => ?_)
    by_cases h : OfHost host e.1.1 <;> simp [h]

theorem colon_not_mem_hostPart (key : String) : ':' ∉ (hostPart key).toList := by
  unfold hostPart
  cases hcut : cut ':' key.toList with
  | none => exact cut_eq_none.1 hcut
  | some p =>
    simp only
    rw [String.toList_ofList]
    exact (join_cut hcut).2

theorem hostPart_of_ofHost {hostId key : String} (hcolon : ':' ∉ hostId.toList) (h : OfHost hostId key) : hostPart key = hostId := by
  obtain ⟨rest, hrest⟩ := h
  have hjoin : key.toList = join ':' hostId.toList rest := by
    rw [← hrest, join]
    simp
  unfold hostPart
  rw [hjoin, cut_join hcolon]
  exact String.ofList_toList

/-- The second rule purges nothing that the first leaves: who has entries has a last event. -/
theorem debounce_onLastEvents {d : Debounce} {prev current : Record NormalizedEvent} (hkeys : ∀ e ∈ d.entries, (prev.get? e.1.1).isSome) :
    d.onLastEvents prev current =
      { d with entries := d.entries.filter fun e => e.1.1 ∉ prev.keys.filter fun key => (current.get? key).isNone } := by
  unfold Debounce.onLastEvents
  simp only
  rw [foldl_purgeForHost, foldl_purgeForCompositeKey]
  refine congrArg (fun l => Debounce.mk l d.lastSweepAt) (List.filter_eq_self.2 fun e he => decide_eq_true fun host hhost hof => ?_)
  obtain ⟨hin, hstays⟩ := List.mem_filter.1 he
  obtain ⟨hprev, hcurrent⟩ := List.mem_filter.1 hhost
  obtain ⟨key, -, rfl⟩ := List.mem_map.1 (List.mem_dedup.1 hprev)
  have hpart := hostPart_of_ofHost (colon_not_mem_hostPart key) hof
  refine of_decide_eq_true hcurrent (List.mem_map.2 ⟨e.1.1, Record.mem_keys.2 ?_, hpart⟩)
  by_contra hnone
  refine of_decide_eq_true hstays (List.mem_filter.2 ⟨Record.mem_keys.2 (hkeys e hin), ?_⟩)
  rw [Option.isNone_iff_eq_none]
  exact Option.not_isSome_iff_eq_none.1 hnone

theorem foldl_clearSeenTs (keys : List String) (d : Desk) : ∃ seen, keys.foldl Desk.clearSeenTs d = { d with seen } ∧
    ∀ key, seen.get? key = if key ∈ keys then none else d.seen.get? key := by
  induction keys generalizing d with
  | nil => exact ⟨d.seen, rfl, fun key => by simp⟩
  | cons k keys ih =>
    obtain ⟨seen, hseen, hget⟩ := ih (d.clearSeenTs k)
    refine ⟨seen, hseen, fun key => ?_⟩
    rw [hget]
    change (if key ∈ keys then none else (d.seen.restrict (· ≠ k)).get? key) = _
    rw [Record.get?_restrict]
    by_cases hk : key = k <;> simp [hk]

/-! ## What is heard -/

namespace Desk

variable {d : Desk} {prev : Record NormalizedEvent} {key : String} {event : NormalizedEvent}

theorem hear_known {entry : String × NormalizedEvent} (h : prev.get? entry.1 = some entry.2) (st : Desk × List Entry) :
    hear prev st entry = st := by
  unfold hear
  rw [h]
  exact if_pos rfl

/-- An event: nothing went, and the others were there. -/
theorem onLastEvents_set (hkeys : ∀ e ∈ d.debounce.entries, (prev.get? e.1.1).isSome) (hd : d.lastEvents = prev.set key event) :
    d.onLastEvents prev = hear prev (d, []) (key, event) := by
  have hget := fun k => Record.get?_set prev key event k
  have hgone : (prev.keys.filter fun k => (d.lastEvents.get? k).isNone) = [] := by
    refine List.filter_eq_nil_iff.2 fun k hk hnone => ?_
    rw [Record.mem_keys] at hk
    rw [hd, hget] at hnone
    split at hnone
    · cases hnone
    · rw [Option.isNone_iff_eq_none.1 hnone] at hk
      cases hk
  have hpurged : d.debounce.onLastEvents prev d.lastEvents = d.debounce := by
    rw [debounce_onLastEvents hkeys, hgone]
    simp
  have hnodup := (prev.set key event).nodup
  have hfold : (prev.set key event).entries.foldl (hear prev) (d, []) = hear prev (d, []) (key, event) := by
    refine Fields.foldl_one (f := hear prev) (P := fun _ => True) (fun entry hentry hne st _ => hear_known ?_ st) hnodup ?_ trivial trivial
    · have hold := (hget entry.1).symm.trans ((lookup_eq_some hnodup).2 hentry)
      rw [if_neg hne] at hold
      exact hold
    · exact (lookup_eq_some hnodup).1 ((hget key).trans (if_pos rfl))
  unfold onLastEvents
  simp only
  rw [hgone, hpurged]
  rw [← hd] at hfold
  exact hfold

/-- Sessions that go are forgotten, and nothing else happens. -/
theorem onLastEvents_restrict (hkeys : ∀ e ∈ d.debounce.entries, (prev.get? e.1.1).isSome) {stays : String → Bool}
    (hd : d.lastEvents = prev.restrict stays) :
    ∃ (seen : Record Int) (gone : List String), (∀ k, k ∈ gone ↔ (prev.get? k).isSome ∧ stays k = false) ∧
      (∀ k, seen.get? k = if k ∈ gone then none else d.seen.get? k) ∧
        d.onLastEvents prev = ({ d with
          seen
          debounce := { d.debounce with entries := d.debounce.entries.filter fun e => e.1.1 ∉ gone } }, gone.map .removed) := by
  have hget := fun k => Record.get?_restrict prev stays k
  obtain ⟨seen, hseen, hgone⟩ := foldl_clearSeenTs (prev.keys.filter fun k => (d.lastEvents.get? k).isNone)
    { d with debounce := d.debounce.onLastEvents prev d.lastEvents }
  refine ⟨seen, prev.keys.filter fun k => (d.lastEvents.get? k).isNone, fun k => ?_, hgone, ?_⟩
  · rw [List.mem_filter, Record.mem_keys, hd, hget]
    cases stays k
    · simp
    · cases prev.get? k <;> simp
  · unfold onLastEvents
    simp only
    rw [hseen, ← debounce_onLastEvents hkeys]
    refine Fields.foldl_none (f := hear prev) (P := fun _ => True) (fun entry hentry st _ => hear_known ?_ st) trivial
    rw [hd] at hentry
    have hold := (hget entry.1).symm.trans ((lookup_eq_some (prev.restrict stays).nodup).2 hentry)
    split at hold
    · exact hold
    · cases hold

/-- The loop's effect on what is dispatched behind it. -/
theorem dispatch_desk (d : Desk) (key : String) (event : NormalizedEvent) :
    (d.dispatch key event).2 = { d with
      seen := (shouldDispatch d.seen key event.broadcastTs).2
      debounce := if (shouldDispatch d.seen key event.broadcastTs).1 = true then
        (shouldNotify (d.paramsFor key event) d.hasFocus d.now d.debounce).2 else d.debounce } := by
  unfold dispatch dispatchAs
  simp only
  cases hpassed : (shouldDispatch d.seen key event.broadcastTs).1 with
  | false => rfl
  | true =>
    rw [if_neg (Bool.noConfusion), if_pos rfl]
    split
    · rfl
    · split <;> rfl

/-- Whether there is a text does not depend on the session's name. -/
theorem text_isSome (eventName : String) (detail : EventDetail) (name name' : String) (t : String → List (String × String) → String) :
    (buildNotificationContent eventName detail name t).isSome = (buildNotificationContent eventName detail name' t).isSome := by
  unfold buildNotificationContent
  simp only
  rw [Option.isSome_map, Option.isSome_map]

/-- Where an event is shown. -/
theorem dispatch_shown_iff (d : Desk) (key : String) (event : NormalizedEvent) :
    (d.dispatch key event).1.isSome ↔
      (shouldDispatch d.seen key event.broadcastTs).1 = true ∧ (shouldNotify (d.paramsFor key event) d.hasFocus d.now d.debounce).1 = true ∧
        (buildNotificationContent event.rawEventName event.detail "" d.t).isSome = true ∧ d.platform ≠ .none := by
  have hdispatch : d.dispatch key event = d.dispatchAs key (decompose key).1 (decompose key).2
      (findTabBySessionCode d.stores.tabStore.tabs (decompose key).2).isSome event := rfl
  rw [hdispatch]
  unfold dispatchAs
  simp only
  cases (shouldDispatch d.seen key event.broadcastTs).1 with
  | false => simp
  | true =>
    rw [if_neg Bool.noConfusion]
    change (if (shouldNotify (d.paramsFor key event) d.hasFocus d.now d.debounce).1 = false then _ else _ : Option Shown × Desk).1.isSome ↔ _
    cases (shouldNotify (d.paramsFor key event) d.hasFocus d.now d.debounce).1 with
    | false => simp
    | true =>
      rw [if_neg Bool.noConfusion]
      split
      · rename_i hnone
        rw [(text_isSome _ _ _ "" _).symm.trans (congrArg Option.isSome hnone)]
        simp
      · rename_i content hsome
        rw [(text_isSome _ _ _ "" _).symm.trans (congrArg Option.isSome hsome)]
        by_cases hplatform : d.platform = .none
        · simp [hplatform]
        · simp [hplatform]

end Desk

theorem shouldNotify_debounce (params : ShouldNotifyParams) (hasFocus : Bool) (now : Int) (debounce : Debounce) :
    shouldNotify params hasFocus now debounce =
      if params.reachesDebounce hasFocus then debounce.tell params.bucket now
      else ((shouldNotify params hasFocus now debounce).1, debounce) := by
  cases h : params.reachesDebounce hasFocus with
  | true =>
    obtain ⟨⟨⟨⟨⟨hstatus, hsilent⟩, henabled⟩, hevents⟩, htab⟩, hfocus⟩ := by
      simpa [ShouldNotifyParams.reachesDebounce] using h
    have hidle : ¬(params.status = "idle" ∧ normalizeEventName params.eventName = "Notification") := fun hidle =>
      absurd (hstatus.symm.trans hidle.1) (by decide)
    have hshown : ¬(¬params.hasTab = true ∧ ¬params.settings.notifyWithoutTab = true) := fun hno => htab.elim hno.1 hno.2
    have hlooks : ¬(params.focusedCompositeKey = params.compositeKey ∧ hasFocus = true) := fun hboth =>
      hfocus.elim (fun hother => hother hboth.1) fun hno => Bool.false_ne_true (hno.symm.trans hboth.2)
    rw [if_pos rfl]
    unfold shouldNotify
    simp only
    rw [if_neg (not_not.2 (.inr (.inr hstatus))), if_neg (by rw [hsilent]; exact Bool.false_ne_true), if_neg hidle,
      if_neg (not_not.2 henabled), if_neg hevents, if_neg hshown, if_neg hlooks, if_pos hstatus]
    rfl
  | false =>
    rw [if_neg Bool.noConfusion]
    refine Prod.ext rfl ?_
    unfold shouldNotify
    simp only
    split_ifs with _ hsilent _ henabled hevents htab hfocus hstatus <;> try rfl
    · -- every check before was passed
      refine absurd h (ne_false_of_eq_true ?_)
      simp only [ShouldNotifyParams.reachesDebounce, Bool.and_eq_true, Bool.or_eq_true, decide_eq_true_eq]
      refine ⟨⟨⟨⟨⟨hstatus, by simpa using hsilent⟩, henabled⟩, hevents⟩, ?_⟩, ?_⟩
      · by_contra hno
        exact htab (not_or.1 hno)
      · by_contra hno
        exact hfocus (by simpa using hno)

namespace Desk

variable {d : Desk} {key : String} {event : NormalizedEvent}

/-- A turn of the loop that does not get to the debounce. -/
theorem turn_quiet (h : ((shouldDispatch d.seen key event.broadcastTs).1 && (d.paramsFor key event).reachesDebounce d.hasFocus) = false) :
    (d.dispatch key event).2 = { d with seen := (shouldDispatch d.seen key event.broadcastTs).2 } ∧
      d.entries key event = [.arrived key event.broadcastTs (shouldDispatch d.seen key event.broadcastTs).1] := by
  constructor
  · rw [dispatch_desk, shouldNotify_debounce]
    cases hpassed : (shouldDispatch d.seen key event.broadcastTs).1 with
    | false => rfl
    | true =>
      rw [hpassed, Bool.true_and] at h
      rw [h]
      rfl
  · unfold entries
    simp only
    rw [h]
    rfl

/-- One that does. -/
theorem turn_error (h : ((shouldDispatch d.seen key event.broadcastTs).1 && (d.paramsFor key event).reachesDebounce d.hasFocus) = true) :
    (d.dispatch key event).2 = { d with
      seen := (shouldDispatch d.seen key event.broadcastTs).2
      debounce := (d.debounce.tell (d.paramsFor key event).bucket d.now).2 } ∧
      d.entries key event = [.error (d.paramsFor key event).bucket d.now (d.debounce.tell (d.paramsFor key event).bucket d.now).1,
        .arrived key event.broadcastTs (shouldDispatch d.seen key event.broadcastTs).1] := by
  obtain ⟨hpassed, hreach⟩ := Bool.and_eq_true_iff.1 h
  constructor
  · rw [dispatch_desk, shouldNotify_debounce, hpassed, hreach]
    rfl
  · unfold entries
    simp only
    rw [h, shouldNotify_debounce, hreach]
    rfl

end Desk

theorem shouldDispatch_spec {seen : Record Int} {key : String} {log : List Entry} (hunseen : seen.get? key = none → since key log = [])
    (hseen : ∀ s, seen.get? key = some s → s ∈ since key log ∧ ∀ ts ∈ since key log, ts ≤ s) (broadcastTs : Int) :
    ((shouldDispatch seen key broadcastTs).1 = true ↔ since key log ≠ [] ∧ ∀ ts ∈ since key log, ts < broadcastTs) ∧
      (∃ s, (shouldDispatch seen key broadcastTs).2.get? key = some s ∧ s ∈ broadcastTs :: since key log ∧
        ∀ ts ∈ broadcastTs :: since key log, ts ≤ s) ∧
      ∀ k, k ≠ key → (shouldDispatch seen key broadcastTs).2.get? k = seen.get? k := by
  have hset : ∀ k, (seen.set key broadcastTs).get? k = if k = key then some broadcastTs else seen.get? k := Record.get?_set seen key broadcastTs
  unfold shouldDispatch
  cases hstored : seen.get? key with
  | none =>
    rw [hunseen hstored]
    simp only
    refine ⟨by simp, ⟨broadcastTs, (hset key).trans (if_pos rfl), by simp, by simp⟩, fun k hk => (hset k).trans (if_neg hk)⟩
  | some stored =>
    obtain ⟨hmem, hmax⟩ := hseen stored hstored
    simp only
    split
    · rename_i hle
      refine ⟨iff_of_false Bool.noConfusion fun hnew => ?_, ⟨stored, hstored, List.mem_cons_of_mem _ hmem, fun ts hts => ?_⟩, fun _ _ => rfl⟩
      · exact absurd (hnew.2 stored hmem) (Int.not_lt.2 hle)
      · rcases List.mem_cons.1 hts with rfl | hts
        · exact hle
        · exact hmax ts hts
    · rename_i hlt
      have hlt := Int.not_le.1 hlt
      refine ⟨iff_of_true rfl ⟨List.ne_nil_of_mem hmem, fun ts hts => Int.lt_of_le_of_lt (hmax ts hts) hlt⟩,
        ⟨broadcastTs, (hset key).trans (if_pos rfl), List.mem_cons_self, fun ts hts => ?_⟩, fun k hk => (hset k).trans (if_neg hk)⟩
      rcases List.mem_cons.1 hts with rfl | hts
      · exact Int.le_refl _
      · exact Int.le_of_lt (Int.lt_of_le_of_lt (hmax ts hts) hlt)

/-! ## What every state keeps -/

namespace Dispatcher

variable {w w' : Dispatcher} {key : String} {event : NormalizedEvent}

structure Kept (w : Dispatcher) : Prop where
  sound : Sound w.log
  heard : ∀ key event, w.desk.lastEvents.get? key = some event → event.broadcastTs ∈ since key w.log
  unseen : ∀ key, w.desk.seen.get? key = none → since key w.log = []
  seen : ∀ key s, w.desk.seen.get? key = some s → s ∈ since key w.log ∧ ∀ ts ∈ since key w.log, ts ≤ s
  recent : Recent w.desk.debounce (fun bucket => reached bucket w.log) w.desk.now
  past : ∀ bucket, ∀ t ∈ reached bucket w.log, t ≤ w.desk.now
  keys : ∀ e ∈ w.desk.debounce.entries, (w.desk.lastEvents.get? e.1.1).isSome

/-- Not more than so many buckets in all. -/
def FewBuckets (w : Dispatcher) : Prop := (buckets w.log).dedup.length ≤ maxDebounceEntries

theorem kept_start (d : Desk) : Kept (start d) where
  sound := trivial
  heard := fun _ event h => nomatch (h : none = some event)
  unseen := fun _ _ => rfl
  seen := fun _ s h => nomatch (h : none = some s)
  recent := ⟨List.nodup_nil, fun _ _ h => absurd h List.not_mem_nil, fun _ _ _ h => absurd h List.not_mem_nil⟩
  past := fun _ _ h => absurd h List.not_mem_nil
  keys := fun _ h => absurd h List.not_mem_nil

/-- The same event once more: the loop leaves it out, and it is not newer. -/
theorem Kept.again (h : Kept w) {before : NormalizedEvent} (hbefore : w.desk.lastEvents.get? key = some before)
    (hts : before.broadcastTs = event.broadcastTs) :
    Kept ⟨{ w.desk with lastEvents := w.desk.lastEvents.set key event }, .arrived key event.broadcastTs false :: w.log⟩ := by
  have hmem : event.broadcastTs ∈ since key w.log := hts ▸ h.heard key before hbefore
  have hsince : ∀ k, since k (.arrived key event.broadcastTs false :: w.log) =
      if key = k then event.broadcastTs :: since k w.log else since k w.log := fun _ => rfl
  have hget := fun k => Record.get?_set w.desk.lastEvents key event k
  refine ⟨⟨iff_of_false Bool.noConfusion fun hnew => Int.lt_irrefl _ (hnew.2 _ hmem), h.sound⟩, fun k e he => ?_, fun k hk => ?_, fun k s hk => ?_,
    h.recent, h.past, fun e he => ?_⟩
  · replace he : (w.desk.lastEvents.set key event).get? k = some e := he
    rw [hget] at he
    rw [hsince]
    split at he
    · rename_i hk
      cases he
      rw [if_pos hk.symm]
      exact List.mem_cons_self
    · rename_i hk
      rw [if_neg (Ne.symm hk)]
      exact h.heard k e he
  · have hold := h.unseen k hk
    rw [hsince, if_neg, hold]
    rintro rfl
    rw [hold] at hmem
    cases hmem
  · obtain ⟨hs, hmax⟩ := h.seen k s hk
    rw [hsince]
    split
    · rename_i heq
      subst heq
      refine ⟨List.mem_cons_of_mem _ hs, fun ts hts => ?_⟩
      rcases List.mem_cons.1 hts with rfl | hts
      · exact hmax _ hmem
      · exact hmax ts hts
    · exact ⟨hs, hmax⟩
  · change ((w.desk.lastEvents.set key event).get? e.1.1).isSome
    rw [hget]
    split
    · rfl
    · exact h.keys e he

/-- An event that the loop takes up, up to the debounce. -/
theorem Kept.arrive (h : Kept w) (key : String) (event : NormalizedEvent) :
    Kept ⟨{ w.desk with
        lastEvents := w.desk.lastEvents.set key event
        seen := (shouldDispatch w.desk.seen key event.broadcastTs).2 },
      .arrived key event.broadcastTs (shouldDispatch w.desk.seen key event.broadcastTs).1 :: w.log⟩ := by
  obtain ⟨hpassed, ⟨s, hs, hmem, hmax⟩, hothers⟩ := shouldDispatch_spec (h.unseen key) (h.seen key) event.broadcastTs
  have hsince : ∀ k, since k (.arrived key event.broadcastTs (shouldDispatch w.desk.seen key event.broadcastTs).1 :: w.log) =
      if key = k then event.broadcastTs :: since k w.log else since k w.log := fun _ => rfl
  have hget := fun k => Record.get?_set w.desk.lastEvents key event k
  refine ⟨⟨hpassed, h.sound⟩, fun k e he => ?_, fun k hk => ?_, fun k stored hk => ?_, h.recent, h.past, fun e he => ?_⟩
  · replace he : (w.desk.lastEvents.set key event).get? k = some e := he
    rw [hget] at he
    rw [hsince]
    split at he
    · rename_i hk
      cases he
      rw [if_pos hk.symm]
      exact List.mem_cons_self
    · rename_i hk
      rw [if_neg (Ne.symm hk)]
      exact h.heard k e he
  · have hne : k ≠ key := by
      rintro rfl
      cases hs.symm.trans hk
    rw [hsince, if_neg (Ne.symm hne)]
    exact h.unseen k ((hothers k hne).symm.trans hk)
  · rw [hsince]
    split
    · rename_i heq
      subst heq
      cases hs.symm.trans hk
      exact ⟨hmem, hmax⟩
    · rename_i hne
      exact h.seen k stored ((hothers k (Ne.symm hne)).symm.trans hk)
  · change ((w.desk.lastEvents.set key event).get? e.1.1).isSome
    rw [hget]
    split
    · rfl
    · exact h.keys e he

theorem Kept.error (h : Kept w) {bucket : String × String × String} (hkey : (w.desk.lastEvents.get? bucket.1).isSome)
    (hfew : (buckets (.error bucket w.desk.now (w.desk.debounce.tell bucket w.desk.now).1 :: w.log)).dedup.length ≤ maxDebounceEntries) :
    Kept ⟨{ w.desk with debounce := (w.desk.debounce.tell bucket w.desk.now).2 },
      .error bucket w.desk.now (w.desk.debounce.tell bucket w.desk.now).1 :: w.log⟩ := by
  have hbuckets : ∀ l : List (String × String × String), l.Nodup → l ⊆ bucket :: w.desk.debounce.entries.map Prod.fst →
      l.length ≤ maxDebounceEntries := by
    refine fun l hnodup hsub => Nat.le_trans (List.subperm_of_subset hnodup fun b hb => ?_).length_le hfew
    refine List.mem_dedup.2 ?_
    rcases List.mem_cons.1 (hsub hb) with rfl | hb
    · exact List.mem_cons_self
    · obtain ⟨e, he, rfl⟩ := List.mem_map.1 hb
      obtain ⟨⟨t, ht, -⟩, -⟩ := h.recent.told e.1 e.2 he
      exact List.mem_cons_of_mem _ (mem_buckets_of_reached ht)
  obtain ⟨hthrough, hrecent, hkeys⟩ := h.recent.tell (h.past bucket) hbuckets
  refine ⟨⟨hthrough, h.sound⟩, h.heard, h.unseen, h.seen, hrecent.congr fun b => ?_, fun b t ht => ?_, fun e he => ?_⟩
  · change (if bucket = b then _ else _) = _
    simp only [eq_comm]
  · replace ht : t ∈ if bucket = b then w.desk.now :: reached b w.log else reached b w.log := ht
    split at ht
    · rcases List.mem_cons.1 ht with rfl | ht
      · exact Int.le_refl _
      · exact h.past b t ht
    · exact h.past b t ht
  · rcases List.mem_cons.1 (hkeys (List.mem_map_of_mem he)) with hb | hb
    · rw [hb]
      exact hkey
    · obtain ⟨e', he', heq⟩ := List.mem_map.1 hb
      rw [← heq]
      exact h.keys e' he'

/-- What an event comes to, `d` the desk with it in the store. -/
theorem event_eq (hkeys : ∀ e ∈ w.desk.debounce.entries, (w.desk.lastEvents.get? e.1.1).isSome) {d : Desk}
    (hd : d = { w.desk with lastEvents := w.desk.lastEvents.set key event }) :
    w.event key event =
      if (w.desk.lastEvents.get? key).map (·.broadcastTs) = some event.broadcastTs then ⟨d, .arrived key event.broadcastTs false :: w.log⟩
      else ⟨(d.dispatch key event).2, d.entries key event ++ w.log⟩ := by
  have hheard : d.onLastEvents w.desk.lastEvents = Desk.hear w.desk.lastEvents (d, []) (key, event) :=
    Desk.onLastEvents_set (hd ▸ hkeys) (hd ▸ rfl)
  unfold Dispatcher.event
  simp only
  rw [← hd, hheard]
  unfold Desk.hear
  simp only
  split
  · rfl
  · have hne : d.entries key event ++ [] ≠ [] := by
      unfold Desk.entries
      simp
    rw [if_neg hne, List.append_nil]

theorem Kept.onEvent (h : Kept w) (hfew : FewBuckets (w.event key event)) : Kept (w.event key event) := by
  obtain ⟨d, hd⟩ : ∃ d, d = { w.desk with lastEvents := w.desk.lastEvents.set key event } := ⟨_, rfl⟩
  have harrive := h.arrive key event
  rw [event_eq h.keys hd] at hfew ⊢
  split
  · rename_i hsame
    obtain ⟨before, hbefore, hts⟩ := Option.map_eq_some_iff.1 hsame
    rw [hd]
    exact h.again hbefore hts
  · rename_i hnew
    rw [if_neg hnew] at hfew
    have hseen : d.seen = w.desk.seen := by rw [hd]
    have hstate : { w.desk with
        lastEvents := w.desk.lastEvents.set key event
        seen := (shouldDispatch w.desk.seen key event.broadcastTs).2 } = { d with seen := (shouldDispatch d.seen key event.broadcastTs).2 } := by
      rw [hd]
    rw [hstate, ← hseen] at harrive
    cases hturn : (shouldDispatch d.seen key event.broadcastTs).1 && (d.paramsFor key event).reachesDebounce d.hasFocus with
    | false =>
      obtain ⟨hdesk, hentries⟩ := Desk.turn_quiet hturn
      rw [hdesk, hentries]
      exact harrive
    | true =>
      obtain ⟨hdesk, hentries⟩ := Desk.turn_error hturn
      rw [hdesk, hentries] at hfew ⊢
      have hin : (d.lastEvents.get? key).isSome := by
        rw [hd]
        change ((w.desk.lastEvents.set key event).get? key).isSome
        rw [Record.get?_set, if_pos rfl]
        rfl
      exact @Kept.error _ harrive (d.paramsFor key event).bucket hin hfew

theorem Kept.onRemoval (h : Kept w) (stays : String → Bool) : Kept (w.removal stays) := by
  obtain ⟨seen, gone, hgone, hseen, hheard⟩ := Desk.onLastEvents_restrict
    (d := { w.desk with lastEvents := w.desk.lastEvents.restrict stays }) h.keys rfl
  have hget := fun k => Record.get?_restrict w.desk.lastEvents stays k
  have hstays : ∀ k, (w.desk.lastEvents.get? k).isSome → k ∉ gone → stays k = true := fun k hk hnot =>
    eq_true_of_ne_false fun hno => hnot ((hgone k).2 ⟨hk, hno⟩)
  unfold Dispatcher.removal
  simp only
  rw [hheard]
  refine ⟨sound_removed h.sound gone, fun k e he => ?_, fun k hk => ?_, fun k s hk => ?_, ?_, fun bucket t ht => ?_, fun e he => ?_⟩
  · replace he : (w.desk.lastEvents.restrict stays).get? k = some e := he
    rw [hget] at he
    rw [since_removed]
    split at he
    · rename_i hk
      rw [if_neg fun hmem => Bool.false_ne_true (((hgone k).1 hmem).2.symm.trans hk)]
      exact h.heard k e he
    · cases he
  · rw [since_removed]
    split
    · rfl
    · rename_i hnot
      exact h.unseen k ((if_neg hnot ▸ hseen k).symm.trans hk)
  · replace hk : seen.get? k = some s := hk
    rw [hseen] at hk
    split at hk
    · cases hk
    · rename_i hnot
      rw [since_removed, if_neg hnot]
      exact h.seen k s hk
  · refine h.recent.filter (fun e _ hp => ?_) (fun e _ hp t ht => ?_) (fun bucket _ t ht => ?_) _
    · rw [reached_removed, if_neg (of_decide_eq_true hp)]
    · rw [reached_removed, if_pos (by simpa using hp)] at ht
      cases ht
    · rw [reached_removed] at ht
      split at ht
      · cases ht
      · exact ht
  · rw [reached_removed] at ht
    split at ht
    · cases ht
    · exact h.past bucket t ht
  · obtain ⟨hin, hnot⟩ := List.mem_filter.1 he
    have hold := h.keys e hin
    change ((w.desk.lastEvents.restrict stays).get? e.1.1).isSome
    rw [hget, if_pos (hstays _ hold (of_decide_eq_true hnot))]
    exact hold

/-! ## Every run -/

/-- The events of a session come in order, as far as they come to this client. -/
def NonDecreasing (w : Dispatcher) : Move → Prop
  | .handleNormalizedEvent hostId sessionCode event =>
    ∀ ts passed, .arrived (compositeKey hostId sessionCode) ts passed ∈ w.log → ts ≤ event.broadcastTs
  | _ => True

theorem kept_step {move : Move} (h : Kept w) (hs : step move w = some w') (hfew : FewBuckets w') : Kept w' := by
  cases move with
  | handleNormalizedEvent hostId sessionCode event =>
    cases hs
    split at hfew
    · rename_i hclear
      rw [if_pos hclear]
      exact h.onRemoval _
    · rename_i hclear
      rw [if_neg hclear]
      exact h.onEvent hfew
  | clearSession | removeHost =>
    cases hs
    exact h.onRemoval _
  | restart =>
    cases hs
    exact ⟨h.sound, fun _ event hget => (nomatch (hget : none = some event)), h.unseen, h.seen,
      ⟨List.nodup_nil, fun _ _ hmem => absurd hmem List.not_mem_nil, fun _ _ _ hmem => absurd hmem List.not_mem_nil⟩,
      fun _ _ hmem => absurd hmem List.not_mem_nil, fun _ hmem => absurd hmem List.not_mem_nil⟩
  | advance ms =>
    cases hs
    have hle : w.desk.now ≤ w.desk.now + ms := by omega
    exact ⟨h.sound, h.heard, h.unseen, h.seen, h.recent.later hle, fun bucket t ht => Int.le_trans (h.past bucket t ht) hle, h.keys⟩
  | elsewhere d =>
    cases hs
    exact ⟨h.sound, h.heard, h.unseen, h.seen, h.recent, h.past, h.keys⟩

/-- What is remembered only grows. -/
theorem suffix_step {move : Move} (hs : step move w = some w') : w.log <:+ w'.log := by
  have hremoval : ∀ stays, w.log <:+ (w.removal stays).log := fun _ => List.suffix_append _ _
  cases move with
  | handleNormalizedEvent hostId sessionCode event =>
    cases hs
    split
    · exact hremoval _
    · exact List.suffix_append _ _
  | clearSession | removeHost =>
    cases hs
    exact hremoval _
  | restart =>
    cases hs
    exact List.suffix_cons _ _
  | advance | elsewhere =>
    cases hs
    exact List.suffix_refl _

theorem FewBuckets.earlier (h : FewBuckets w') (hsuffix : w.log <:+ w'.log) : FewBuckets w := by
  refine Nat.le_trans (List.subperm_of_subset (List.nodup_dedup _) fun b hb => ?_).length_le h
  obtain ⟨e, he, hbucket⟩ := List.mem_filterMap.1 (List.mem_dedup.1 hb)
  exact List.mem_dedup.2 (List.mem_filterMap.2 ⟨e, hsuffix.subset he, hbucket⟩)

theorem reaches_kept {d : Desk} {ok : Dispatcher → Move → Prop} (hr : Reach step (start d) ok w) (hfew : FewBuckets w) : Kept w :=
  hr.invariant (P := fun v => FewBuckets v → Kept v) (fun _ => kept_start d)
    (fun _ _ _ _ ih _ hs hfew => kept_step (ih (hfew.earlier (suffix_step hs))) hs hfew) hfew

/-! ## Once -/

/-- No event is older than one of its session before it. -/
def Ordered : List Entry → Prop
  | [] => True
  | .arrived key broadcastTs _ :: log => (∀ ts passed, .arrived key ts passed ∈ log → ts ≤ broadcastTs) ∧ Ordered log
  | _ :: log => Ordered log

theorem ordered_append {log : List Entry} (h : Ordered log) : ∀ gone : List String, Ordered (gone.map .removed ++ log)
  | [] => h
  | _ :: gone => ordered_append h gone

/-- What came of a session before is not newer than something that came since it was removed. -/
theorem exists_since {log : List Entry} (h : Ordered log) (hne : since key log ≠ []) {ts : Int} {passed : Bool}
    (hmem : .arrived key ts passed ∈ log) : ∃ t ∈ since key log, ts ≤ t := by
  induction log with
  | nil => cases hmem
  | cons e log ih =>
    cases e with
    | arrived k t p =>
      rw [since] at hne ⊢
      by_cases hk : k = key
      · subst hk
        rw [if_pos rfl]
        rcases List.mem_cons.1 hmem with heq | hmem
        · cases heq
          exact ⟨ts, List.mem_cons_self, Int.le_refl _⟩
        · exact ⟨t, List.mem_cons_self, h.1 ts passed hmem⟩
      · rw [if_neg hk] at hne ⊢
        exact ih h.2 hne ((List.mem_cons.1 hmem).resolve_left fun heq => hk (Entry.arrived.inj heq).1.symm)
    | removed k =>
      rw [since] at hne ⊢
      split at hne
      · exact absurd rfl hne
      · rename_i hk
        rw [if_neg hk]
        exact ih h hne ((List.mem_cons.1 hmem).resolve_left nofun)
    | error | restarted => exact ih h hne ((List.mem_cons.1 hmem).resolve_left nofun)

theorem mem_passedEvents {log : List Entry} {p : String × Int} (h : p ∈ passedEvents log) : .arrived p.1 p.2 true ∈ log := by
  obtain ⟨e, he, hp⟩ := List.mem_filterMap.1 h
  cases e with
  | arrived key ts passed =>
    cases passed with
    | true =>
      cases hp
      exact he
    | false => cases hp
  | _ => cases hp

/-- What passes is newer than all before it, so nothing passes twice. -/
theorem nodup_passedEvents : ∀ {log : List Entry}, Sound log → Ordered log → (passedEvents log).Nodup
  | [], _, _ => List.nodup_nil
  | .arrived key ts true :: log, hs, ho => by
    refine List.nodup_cons.2 ⟨fun hmem => ?_, nodup_passedEvents hs.2 ho.2⟩
    obtain ⟨hne, hnew⟩ := hs.1.1 rfl
    obtain ⟨t, ht, hle⟩ := exists_since ho.2 hne (mem_passedEvents hmem)
    exact absurd (hnew t ht) (Int.not_lt.2 hle)
  | .arrived _ _ false :: log, hs, ho => @nodup_passedEvents log hs.2 ho.2
  | .error .. :: log, hs, ho => @nodup_passedEvents log hs.2 ho
  | .removed _ :: log, hs, ho => @nodup_passedEvents log hs ho
  | .restarted :: log, hs, ho => @nodup_passedEvents log hs ho

/-- An event adds itself, and maybe an error that it is. -/
theorem event_log (hkeys : ∀ e ∈ w.desk.debounce.entries, (w.desk.lastEvents.get? e.1.1).isSome) (key : String) (event : NormalizedEvent) :
    ∃ passed, (w.event key event).log = .arrived key event.broadcastTs passed :: w.log ∨
      ∃ bucket now through, (w.event key event).log = .error bucket now through :: .arrived key event.broadcastTs passed :: w.log := by
  obtain ⟨d, hd⟩ : ∃ d, d = { w.desk with lastEvents := w.desk.lastEvents.set key event } := ⟨_, rfl⟩
  rw [event_eq hkeys hd]
  split
  · exact ⟨false, .inl rfl⟩
  · refine ⟨(shouldDispatch d.seen key event.broadcastTs).1, ?_⟩
    cases hturn : (shouldDispatch d.seen key event.broadcastTs).1 && (d.paramsFor key event).reachesDebounce d.hasFocus with
    | false =>
      rw [(Desk.turn_quiet hturn).2]
      exact .inl rfl
    | true =>
      rw [(Desk.turn_error hturn).2]
      exact .inr ⟨_, _, _, rfl⟩

theorem ordered_step {move : Move} (hkept : Kept w) (h : Ordered w.log) (hok : NonDecreasing w move) (hs : step move w = some w') :
    Ordered w'.log := by
  have hremoval : ∀ stays, Ordered (w.removal stays).log := by
    intro stays
    obtain ⟨seen, gone, -, -, hheard⟩ := Desk.onLastEvents_restrict
      (d := { w.desk with lastEvents := w.desk.lastEvents.restrict stays }) hkept.keys rfl
    unfold Dispatcher.removal
    simp only
    rw [hheard]
    exact ordered_append h gone
  cases move with
  | handleNormalizedEvent hostId sessionCode event =>
    cases hs
    split
    · exact hremoval _
    · obtain ⟨passed, hlog | ⟨bucket, now, through, hlog⟩⟩ := event_log hkept.keys (compositeKey hostId sessionCode) event
      · rw [hlog]
        exact ⟨hok, h⟩
      · rw [hlog]
        exact ⟨hok, h⟩
  | clearSession | removeHost =>
    cases hs
    exact hremoval _
  | restart | advance | elsewhere =>
    cases hs
    exact h

theorem reaches_ordered {d : Desk} (hr : Reach step (start d) NonDecreasing w) (hfew : FewBuckets w) : Ordered w.log := by
  refine hr.invariant (P := fun v => FewBuckets v → Ordered v.log) (fun _ => ?_) (fun v _ _ hv ih hok hs hfew => ?_) hfew
  · trivial
  · have hearlier := hfew.earlier (suffix_step hs)
    exact ordered_step (reaches_kept hv hearlier) (ih hearlier) hok hs

/-- No event passes twice; an event passes that is newer than all of its session since that was removed, but for the first; and an error is let
through that has none of its bucket in the window before it, since its session was removed and the client started. -/
theorem told_once (d : Desk) (hr : Reach step (start d) NonDecreasing w) (hfew : FewBuckets w) :
    (passedEvents w.log).Nodup ∧ Sound w.log ∧ (∀ key, w.desk.seen.get? key = none ↔ since key w.log = []) ∧
      ∀ key event, (w.desk.dispatch key event).1.isSome ↔
        (shouldDispatch w.desk.seen key event.broadcastTs).1 = true ∧
          (shouldNotify (w.desk.paramsFor key event) w.desk.hasFocus w.desk.now w.desk.debounce).1 = true ∧
            (buildNotificationContent event.rawEventName event.detail "" w.desk.t).isSome = true ∧ w.desk.platform ≠ .none := by
  have h := reaches_kept hr hfew
  refine ⟨nodup_passedEvents h.sound (reaches_ordered hr hfew), h.sound, fun key => ⟨h.unseen key, fun hnil => ?_⟩,
    fun key event => Desk.dispatch_shown_iff w.desk key event⟩
  cases hseen : w.desk.seen.get? key with
  | none => rfl
  | some s =>
    have hmem := (h.seen key s hseen).1
    rw [hnil] at hmem
    cases hmem

def refusedEvent (broadcastTs : Int) : NormalizedEvent :=
  ⟨"cc", "error", "PdxStopFailure", broadcastTs, ⟨some "rate_limit", false, none, none, none, none, none⟩⟩

def toldTwice : List Move :=
  [.handleNormalizedEvent "h" "s" (refusedEvent 1), .handleNormalizedEvent "h" "s" (refusedEvent 2), .restart, .advance 1000,
    .handleNormalizedEvent "h" "s" (refusedEvent 3)]

def allowed (w : Dispatcher) : Move → Bool
  | .handleNormalizedEvent hostId sessionCode event => w.log.all fun
    | .arrived key ts _ => key ≠ compositeKey hostId sessionCode || ts ≤ event.broadcastTs
    | _ => true
  | _ => true

theorem nonDecreasing_of_allowed (w : Dispatcher) (move : Move) (h : allowed w move = true) : NonDecreasing w move := by
  cases move with
  | handleNormalizedEvent hostId sessionCode event =>
    intro ts passed hmem
    simpa using List.all_eq_true.1 h _ hmem
  | _ => trivial

def toldLog : List Entry :=
  [.error ("h:s", "StopFailure", "rate_limit") 1000 true, .arrived "h:s" 3 true, .restarted,
    .error ("h:s", "StopFailure", "rate_limit") 0 true, .arrived "h:s" 2 true, .arrived "h:s" 1 false]

theorem toldTwice_log : (playAll step allowed toldTwice (start (tellingDesk .empty "h:s"))).map (·.log) = some toldLog := by decide

theorem told_once_twice : ∃ w : Dispatcher, w.log = toldLog ∧ (passedEvents w.log).Nodup := by
  obtain ⟨w, hplay, hlog⟩ := Option.map_eq_some_iff.1 toldTwice_log
  have hfew : FewBuckets w := by
    unfold FewBuckets
    rw [hlog]
    decide
  exact ⟨w, hlog, (told_once (tellingDesk .empty "h:s") (Reach.init.playAll nonDecreasing_of_allowed hplay) hfew).1⟩

/-- Without the client's start in between. -/
def reachedEver (bucket : String × String × String) : List Entry → List Int
  | [] => []
  | .error b now _ :: log => if b = bucket then now :: reachedEver bucket log else reachedEver bucket log
  | .removed k :: log => if k = bucket.1 then [] else reachedEver bucket log
  | _ :: log => reachedEver bucket log

/-- A client that starts again has forgotten what it told. -/
theorem told_again : ∃ w, Reach step (start (tellingDesk .empty "h:s")) NonDecreasing w ∧ FewBuckets w ∧
    ∃ bucket now log, w.log = .error bucket now true :: log ∧ ∃ t ∈ reachedEver bucket log, now < t + errorNotifyWindow := by
  obtain ⟨w, hplay, hlog⟩ := Option.map_eq_some_iff.1 toldTwice_log
  have hfew : FewBuckets w := by
    unfold FewBuckets
    rw [hlog]
    decide
  exact ⟨w, Reach.init.playAll nonDecreasing_of_allowed hplay, hfew, _, _, _, hlog, 0, by decide, by decide⟩

end Dispatcher

end Purdex.Client
