/-
What the batcher hands on, in every run: each byte that was written, once, and in the order it was written where the calls begin in the order
their chunks were taken.
-/
import Purdex.Terminal.Batcher
import Mathlib

namespace Purdex.Terminal

open Conc World

variable {w w' : World} {a b : Actor} {s t : Stage} {maxSize : Int}

/-! ## Stages -/

theorem stage_setStage_of_ne (h : b ≠ a) : (w.setStage a s).stage b = w.stage b := by
  cases a with
  | writer =>
    cases b with
    | writer => exact absurd rfl h
    | timer k => rfl
  | timer k =>
    cases b with
    | writer => rfl
    | timer j => exact List.getElem?_set_ne fun heq => h (congrArg Actor.timer heq.symm)

theorem stage_setStage_self (h : w.stage a = some t) : (w.setStage a s).stage a = some s := by
  cases a with
  | writer => rfl
  | timer k =>
    have hlt : k < w.timers.length := (List.getElem?_eq_some_iff.1 h).1
    exact List.getElem?_set_self hlt

/-- Only a timer that is armed is stopped. -/
theorem stage_stopTimer (h : w.stage a = some s) (hs : s ≠ .armed) : w.stopTimer.stage a = some s := by
  cases a with
  | writer => exact h
  | timer k =>
    have h : w.timers[k]? = some s := h
    dsimp only [World.stage, World.stopTimer]
    cases w.timer with
    | none => exact h
    | some j =>
      dsimp only
      split
      · rename_i harmed
        rw [List.getElem?_set_ne, h]
        rintro rfl
        rw [harmed] at h
        exact hs (Option.some.inj h).symm
      · exact h

/-! ## What every state keeps -/

/-- Of the chunks, whatever the timers do: each was handed on once or is in the hands of one who is flushing. -/
structure Chunks (w : World) : Prop where
  once : (w.calls ++ w.pending.map Prod.snd).Perm w.taken
  bytes : w.taken.flatten ++ w.buf = w.written
  nonempty : ∀ c ∈ w.taken, c ≠ []
  actors : (w.pending.map Prod.fst).Nodup
  hand : ∀ p ∈ w.pending, w.stage p.1 = some .flushing

/-- A timer is for what is in the buffer. -/
structure Covered (w : World) : Prop where
  timer : w.buf ≠ [] → ∃ k, w.timer = some k ∧ (w.timers[k]? = some .armed ∨ w.timers[k]? = some .waiting)
  clear : w.buf = [] → w.timer = none
  rest : w.stopped = true → w.buf = []

theorem Chunks.flushLocked (h : Chunks w) (ha : w.stage a = some t) (ht : t ≠ .flushing) (harmed : t ≠ .armed) :
    Chunks (w.flushLocked a s) := by
  have hfree : ∀ p ∈ w.pending, p.1 ≠ a := fun p hp heq => by
    have hp := h.hand p hp
    rw [heq, ha] at hp
    exact ht (Option.some.inj hp)
  unfold World.flushLocked
  split
  · exact ⟨h.once, h.bytes, h.nonempty, h.actors, fun p hp => (stage_setStage_of_ne (hfree p hp)).trans (h.hand p hp)⟩
  · rename_i hbuf
    refine ⟨?_, ?_, ?_, ?_, ?_⟩
    · rw [List.map_append, ← List.append_assoc]
      exact h.once.append_right [w.buf]
    · change (w.taken ++ [w.buf]).flatten ++ [] = w.written
      rw [List.append_nil, List.flatten_concat, h.bytes]
    · intro c hc
      rcases List.mem_append.1 hc with hc | hc
      · exact h.nonempty c hc
      · rw [List.mem_singleton.1 hc]
        exact hbuf
    · rw [List.map_append, List.nodup_append]
      refine ⟨h.actors, List.nodup_singleton _, ?_⟩
      rintro b hb c hc rfl
      obtain ⟨p, hp, rfl⟩ := List.mem_map.1 hb
      exact hfree p hp (List.mem_singleton.1 hc)
    · intro p hp
      rcases List.mem_append.1 hp with hp | hp
      · exact (stage_setStage_of_ne (hfree p hp)).trans (stage_stopTimer (h.hand p hp) nofun)
      · rw [List.mem_singleton.1 hp]
        exact stage_setStage_self (stage_stopTimer ha harmed)

theorem covered_flushLocked (hclear : w.buf = [] → w.timer = none) : Covered (w.flushLocked a s) := by
  unfold World.flushLocked
  split
  · rename_i hbuf
    exact ⟨fun hne => absurd hbuf hne, fun _ => hclear hbuf, fun _ => hbuf⟩
  · exact ⟨fun hne => absurd rfl hne, fun _ => rfl, fun _ => rfl⟩

theorem Chunks.setStage (h : Chunks w) (ha : w.stage a = some t) (ht : t ≠ .flushing) : Chunks (w.setStage a s) := by
  refine ⟨h.once, h.bytes, h.nonempty, h.actors, fun p hp => (stage_setStage_of_ne ?_).trans (h.hand p hp)⟩
  rintro heq
  have hp := h.hand p hp
  rw [heq, ha] at hp
  exact ht (Option.some.inj hp)

theorem Covered.setStage (h : Covered w) (ha : w.stage a = some t) (harmed : t ≠ .armed) (hwaiting : t ≠ .waiting) : Covered (w.setStage a s) := by
  refine ⟨fun hbuf => ?_, h.clear, h.rest⟩
  obtain ⟨k, hk, hstage⟩ := h.timer hbuf
  have hne : Actor.timer k ≠ a := by
    rintro rfl
    have ha : w.timers[k]? = some t := ha
    rw [ha] at hstage
    rcases hstage with hstage | hstage
    · exact harmed (Option.some.inj hstage)
    · exact hwaiting (Option.some.inj hstage)
  have hkept : (w.setStage a s).timers[k]? = w.timers[k]? := stage_setStage_of_ne hne
  exact ⟨k, hk, hkept ▸ hstage⟩

/-- The chunk of an actor is taken out of the hands of all. -/
theorem call_split (h : Chunks w) {p : Actor × Bytes} (hfind : w.pending.find? (·.1 = a) = some p) :
    p.1 = a ∧ ∃ before behind, w.pending = before ++ p :: behind ∧ w.pending.filter (·.1 ≠ a) = before ++ behind := by
  have hp : p.1 = a := by simpa using List.find?_some hfind
  obtain ⟨before, behind, hsplit⟩ := List.append_of_mem (List.mem_of_find?_eq_some hfind)
  refine ⟨hp, before, behind, hsplit, ?_⟩
  have hnodup := h.actors
  rw [hsplit, List.map_append, List.map_cons, List.nodup_middle, List.nodup_cons, ← List.map_append] at hnodup
  have hothers : ∀ q ∈ before ++ behind, decide (q.1 ≠ a) = true := fun q hq =>
    decide_eq_true fun heq => hnodup.1 (hp ▸ heq ▸ List.mem_map_of_mem hq)
  rw [hsplit, List.filter_append, List.filter_cons_of_neg (by simpa using hp), ← List.filter_append, List.filter_eq_self.2 hothers]

theorem Chunks.call (h : Chunks w) {p : Actor × Bytes} (hfind : w.pending.find? (·.1 = a) = some p) :
    Chunks { (w.setStage a .calling) with pending := w.pending.filter (·.1 ≠ a), calls := w.calls ++ [p.2] } := by
  obtain ⟨hp, before, behind, hsplit, hfilter⟩ := call_split h hfind
  refine ⟨?_, h.bytes, h.nonempty, ?_, fun q hq => ?_⟩
  · have honce := h.once
    rw [hsplit, List.map_append, List.map_cons] at honce
    dsimp only
    rw [hfilter, List.append_assoc, List.map_append]
    refine List.Perm.trans (List.Perm.append_left _ ?_) honce
    change (p.2 :: (before.map Prod.snd ++ behind.map Prod.snd)).Perm _
    exact List.perm_middle.symm
  · exact h.actors.sublist (List.filter_sublist.map _)
  · obtain ⟨hq, hne⟩ := List.mem_filter.1 hq
    exact (stage_setStage_of_ne (of_decide_eq_true hne)).trans (h.hand q hq)

theorem Chunks.wrote (h : Chunks w) (data : Bytes) : Chunks (w.wrote data) := by
  refine ⟨h.once, ?_, h.nonempty, h.actors, h.hand⟩
  change w.taken.flatten ++ (w.buf ++ data) = w.written ++ data
  rw [← List.append_assoc, h.bytes]

theorem Chunks.stopTimer (h : Chunks w) : Chunks w.stopTimer :=
  ⟨h.once, h.bytes, h.nonempty, h.actors, fun p hp => stage_stopTimer (h.hand p hp) nofun⟩

theorem Chunks.afterFunc (h : Chunks w) : Chunks w.afterFunc := by
  refine ⟨h.once, h.bytes, h.nonempty, h.actors, fun p hp => ?_⟩
  have hhand := h.hand p hp
  cases hactor : p.1 with
  | writer =>
    rw [hactor] at hhand
    exact hhand
  | timer k =>
    rw [hactor] at hhand
    exact (List.getElem?_append_left (List.getElem?_eq_some_iff.1 hhand).1).trans hhand

/-! ## Moves -/

theorem Chunks.step {m : Move} (h : Chunks w) (hstep : Stepped maxSize w m w') : Chunks w' := by
  cases hstep with
  | ignored => exact h
  | full hwriter => exact (h.wrote _).flushLocked (congrArg some hwriter) nofun nofun
  | arms => exact (h.wrote _).afterFunc
  | gathers => exact h.wrote _
  | stops hwriter =>
    have hstopped : Chunks { w with stopped := true } := ⟨h.once, h.bytes, h.nonempty, h.actors, h.hand⟩
    exact hstopped.stopTimer.flushLocked (congrArg some hwriter) nofun nofun
  | fires harmed => exact h.setStage harmed nofun
  | acquires hwaiting => exact h.flushLocked hwaiting nofun nofun
  | calls hfind => exact h.call hfind
  | returns hcalling => exact h.setStage hcalling nofun

theorem Covered.wrote (h : Covered w) {data : Bytes} (hstopped : w.stopped = false) (hdata : data ≠ []) (htimer : w.timer ≠ none) :
    Covered (w.wrote data) := by
  refine ⟨fun _ => h.timer fun hbuf => htimer (h.clear hbuf), fun hbuf => ?_, fun htrue => ?_⟩
  · exact absurd (List.append_eq_nil_iff.1 hbuf).2 hdata
  · rw [show (w.wrote data).stopped = w.stopped from rfl, hstopped] at htrue
    cases htrue

theorem Covered.step {m : Move} (h : Covered w) (hchunks : Chunks w) (hm : Writes w m) (hstep : Stepped maxSize w m w') : Covered w' := by
  cases hstep with
  | ignored => exact h
  | @full data hwriter hstopped hfull =>
    refine covered_flushLocked fun hbuf => ?_
    exact absurd (congrArg Move.write (List.append_eq_nil_iff.1 hbuf).2) hm
  | @arms data hwriter hstopped htimer =>
    have hdata : data ≠ [] := fun hdata => hm (congrArg Move.write hdata)
    refine ⟨fun _ => ⟨w.timers.length, rfl, .inl List.getElem?_concat_length⟩, fun hbuf => ?_, fun htrue => ?_⟩
    · exact absurd (List.append_eq_nil_iff.1 hbuf).2 hdata
    · exact absurd (hstopped.symm.trans htrue) Bool.false_ne_true
  | gathers hwriter hstopped htimer => exact h.wrote hstopped (fun hdata => hm (congrArg Move.write hdata)) htimer
  | stops hwriter => exact covered_flushLocked h.clear
  | @fires k harmed =>
    refine ⟨fun hbuf => ?_, h.clear, h.rest⟩
    obtain ⟨j, hj, hstage⟩ := h.timer hbuf
    refine ⟨j, hj, ?_⟩
    by_cases hjk : j = k
    · subst hjk
      exact .inr (stage_setStage_self (a := .timer j) harmed)
    · have hkept : (w.setStage (.timer k) .waiting).timers[j]? = w.timers[j]? := List.getElem?_set_ne (Ne.symm hjk)
      exact hkept ▸ hstage
  | acquires hwaiting => exact covered_flushLocked h.clear
  | @calls a p hfind =>
    obtain ⟨hp, before, behind, hsplit, -⟩ := call_split hchunks hfind
    have hhand := hchunks.hand p (hsplit ▸ List.mem_append_right _ List.mem_cons_self)
    have hset := h.setStage (s := .calling) (t := .flushing) (hp ▸ hhand) nofun nofun
    exact ⟨hset.timer, hset.clear, hset.rest⟩
  | returns hcalling => exact h.setStage hcalling nofun nofun

/-- The calls have begun in the order the chunks were taken. -/
def Ordered (w : World) : Prop := w.calls ++ w.pending.map Prod.snd = w.taken

theorem Ordered.flushLocked (h : Ordered w) : Ordered (w.flushLocked a s) := by
  unfold World.flushLocked
  split
  · exact h
  · change w.calls ++ (w.pending ++ [(a, w.buf)]).map Prod.snd = w.taken ++ [w.buf]
    rw [List.map_append, ← List.append_assoc, h]
    rfl

theorem Ordered.step {m : Move} (h : Ordered w) (hchunks : Chunks w) (hm : InTurn w m) (hstep : Stepped maxSize w m w') : Ordered w' := by
  cases hstep with
  | ignored => exact h
  | full => exact Ordered.flushLocked (w := w.wrote _) h
  | arms => exact h
  | gathers => exact h
  | stops => exact Ordered.flushLocked (w := { w with stopped := true }.stopTimer) h
  | fires => exact h
  | acquires => exact Ordered.flushLocked h
  | @calls a p hfind =>
    obtain ⟨q, rest, hpending⟩ : ∃ q rest, w.pending = q :: rest := by
      cases hpending : w.pending with
      | nil =>
        rw [hpending] at hfind
        cases hfind
      | cons q rest => exact ⟨q, rest, rfl⟩
    have hq : q.1 = a := by
      have hhead := hm.2 a rfl
      rw [hpending] at hhead
      exact Option.some.inj hhead
    obtain rfl : p = q := by
      rw [hpending, List.find?_cons_of_pos (by simpa using hq)] at hfind
      exact (Option.some.inj hfind).symm
    have hnodup := hchunks.actors
    rw [hpending, List.map_cons, List.nodup_cons] at hnodup
    have hothers : ∀ b ∈ rest, decide (b.1 ≠ a) = true := fun b hb => decide_eq_true fun heq => hnodup.1 (hq ▸ heq ▸ List.mem_map_of_mem hb)
    have hfilter : w.pending.filter (·.1 ≠ a) = rest := by
      rw [hpending, List.filter_cons_of_neg (by simpa using hq), List.filter_eq_self.2 hothers]
    change (w.calls ++ [p.2]) ++ (w.pending.filter (·.1 ≠ a)).map Prod.snd = w.taken
    unfold Ordered at h
    rw [hpending, List.map_cons] at h
    rw [hfilter, List.append_assoc, ← h]
    rfl
  | returns => exact h

/-! ## Runs -/

/-- The states of a run of the writer, the timers and a stop, by moves that are allowed. -/
def Reaches (maxSize : Int) (ok : World → Move → Prop) : World → Prop := Reach (step maxSize) World.initial ok

theorem chunks_initial : Chunks World.initial := ⟨.refl _, rfl, nofun, List.nodup_nil, nofun⟩

theorem covered_initial : Covered World.initial := ⟨fun h => absurd rfl h, fun _ => rfl, fun _ => rfl⟩

theorem reaches_kept (h : Reaches maxSize Writes w) : Chunks w ∧ Covered w := by
  refine h.invariant (P := fun w => Chunks w ∧ Covered w) ⟨chunks_initial, covered_initial⟩ fun w w' m _ hkept hok hstep => ?_
  exact ⟨hkept.1.step (stepped_of_step hstep), hkept.2.step hkept.1 hok (stepped_of_step hstep)⟩

theorem reaches_ordered (h : Reaches maxSize InTurn w) : Ordered w := by
  refine h.invariant (P := Ordered) (by rfl) fun w w' m hr hordered hok hstep => ?_
  have hreach : Reaches maxSize Writes w := hr.mono fun _ _ hok => hok.1
  exact hordered.step (reaches_kept hreach).1 hok (stepped_of_step hstep)

/-- What holds of every state: the chunks handed on are not empty, nothing is lost or handed on twice, and what is in the buffer has a timer that
is armed or runs. -/
structure Safe (w : World) : Prop where
  once : (w.calls ++ w.pending.map Prod.snd).Perm w.taken
  bytes : w.taken.flatten ++ w.buf = w.written
  nonempty : ∀ c ∈ w.calls, c ≠ []
  covered : w.buf ≠ [] → ∃ k, w.timer = some k ∧ (w.timers[k]? = some .armed ∨ w.timers[k]? = some .waiting)

/-- What was handed on is the beginning of what was written, and all of it once the batcher is stopped and nobody flushes. -/
structure InOrder (w : World) : Prop where
  sofar : w.calls.flatten ++ (w.pending.map Prod.snd).flatten ++ w.buf = w.written
  all : w.stopped = true → w.writer ≠ .flushing → .flushing ∉ w.timers → w.calls.flatten = w.written

theorem Chunks.safe (h : Chunks w) (hcovered : Covered w) : Safe w :=
  ⟨h.once, h.bytes, fun c hc => h.nonempty c (h.once.subset (List.mem_append_left _ hc)), hcovered.timer⟩

theorem Chunks.none_pending (h : Chunks w) (hwriter : w.writer ≠ .flushing) (htimers : .flushing ∉ w.timers) : w.pending = [] := by
  refine List.eq_nil_iff_forall_not_mem.2 fun p hp => ?_
  have hhand := h.hand p hp
  cases hactor : p.1 with
  | writer =>
    rw [hactor] at hhand
    exact hwriter (Option.some.inj hhand)
  | timer k =>
    rw [hactor] at hhand
    exact htimers (List.mem_of_getElem? hhand)

theorem Chunks.inOrder (h : Chunks w) (hcovered : Covered w) (hordered : Ordered w) : InOrder w := by
  have hbytes : w.calls.flatten ++ (w.pending.map Prod.snd).flatten ++ w.buf = w.written := by
    rw [← List.flatten_append, hordered, h.bytes]
  refine ⟨hbytes, fun hstopped hwriter htimers => ?_⟩
  rw [h.none_pending hwriter htimers, hcovered.rest hstopped] at hbytes
  simpa using hbytes

/-- In every run of writes that are not empty nothing is lost, and a timer waits for what is in the buffer; and where each call begins in the turn
of its chunk, the output is in order. -/
theorem output_in_order (maxSize : Int) :
    (∀ w, Reaches maxSize Writes w → Safe w) ∧ ∀ w, Reaches maxSize InTurn w → Safe w ∧ InOrder w := by
  have hsafe : ∀ w, Reaches maxSize Writes w → Safe w := fun w h => (reaches_kept h).1.safe (reaches_kept h).2
  refine ⟨hsafe, fun w h => ?_⟩
  have hwrites : Reaches maxSize Writes w := h.mono fun _ _ hok => hok.1
  exact ⟨hsafe w hwrites, (reaches_kept hwrites).1.inOrder (reaches_kept hwrites).2 (reaches_ordered h)⟩

/-- The timer's callback has taken its chunk, and the writer, whose buffer is full in the meantime, is quicker to call. -/
def overtaken : List Move :=
  [.write [1], .fire 0, .acquire 0, .write [2, 3], .call .writer, .call (.timer 0), .return .writer, .return (.timer 0), .stop]

theorem output_overtaken : ∃ w, Reaches 2 Writes w ∧ w.stopped = true ∧ w.writer ≠ .flushing ∧ .flushing ∉ w.timers ∧
    w.calls.flatten = [2, 3, 1] ∧ w.written = [1, 2, 3] := by
  have hplay : playAll (step 2) (fun _ m => m ≠ .write []) overtaken World.initial =
      some ⟨[], none, true, .idle, [.done], [], [[2, 3], [1]], [[1], [2, 3]], [1, 2, 3]⟩ := by decide
  have hreach : Reaches 2 Writes _ := Reach.init.playAll (fun _ m hok => show m ≠ .write [] from of_decide_eq_true hok) hplay
  exact ⟨_, hreach, rfl, nofun, by decide, rfl, rfl⟩

end Purdex.Terminal
