/-
What the subscribers of the session list were told: whoever was sent anything was sent the list that the hash was taken
of, or one that came after it.
-/
import Purdex.Session.Watcher
import Purdex.Conc.Chan

namespace Purdex.Session

open Conc

variable {α : Type}

/-! ## What was sent since -/

/-- Something was sent to the `i`-th subscriber since `start`. -/
def Watch.Reached (w : Watch α) (start i : Nat) : Prop := ∃ sessions, (i, sessions) ∈ w.log.drop start

/-- Of the registered subscribers all but the `rest` that were ever sent anything were sent something since `start`, unless a
message to them was dropped. -/
def Watch.CoversBut (w : Watch α) (start : Nat) (rest : List Nat) : Prop :=
  ∀ (i : Nat) (c : Client α), w.clients[i]? = some c → c.registered = true → c.dropped = 0 → c.sent ≠ [] → i ∉ rest → w.Reached start i

/-- What is known while the ticker is in a phase: the list that the hash was last taken of has reached everybody, except
from the change of the hash to the end of its broadcast. -/
def Watch.Told (w : Watch α) : Phase α → Prop
  | .changed _ | .ready true _ => True
  | .sending polled start _ rest => start ≤ w.log.length ∧ w.CoversBut start rest ∧ if polled then w.hashedAt ≤ start else w.CoversBut w.hashedAt []
  | _ => w.CoversBut w.hashedAt []

structure Watch.Sound (w : Watch α) : Prop where
  known : ∀ e ∈ w.log, e.1 < w.clients.length
  last : ∀ (i : Nat) (c : Client α) start, w.clients[i]? = some c → w.Reached start i →
    ∃ sessions, c.sent.getLast? = some sessions ∧ (i, sessions) ∈ w.log.drop start
  hashed : w.hashedAt ≤ w.log.length
  snapshot : ∀ (i : Nat) (c : Client α), w.clients[i]? = some c → c.snapshot = .done true → c.dropped = 0 → c.sent ≠ []
  told : w.Told w.ticker

/-- Nothing is sent, and nobody is registered who was not, but for new subscribers. -/
structure Frame (w w' : Watch α) : Prop where
  log : w'.log = w.log
  grows : w.clients.length ≤ w'.clients.length
  clients : ∀ (i : Nat) (c' : Client α), w'.clients[i]? = some c' → c' = newClient ∧ w.clients.length ≤ i ∨
    ∃ c : Client α, w.clients[i]? = some c ∧ c'.sent = c.sent ∧ c'.dropped = c.dropped ∧ (c'.registered = true → c.registered = true) ∧
      (c'.snapshot = .done true → c.snapshot = .done true ∨ (c.dropped = 0 → c.sent ≠ []))

section Frame

variable {w w' : Watch α} {start i : Nat} {rest : List Nat} {sessions : List α} {room : Bool}

/-- A step that moves goroutines only. -/
theorem Frame.of_eq (hlog : w'.log = w.log) (hclients : w'.clients = w.clients) : Frame w w' :=
  ⟨hlog, hclients ▸ le_rfl, fun _ c hget => .inr ⟨c, hclients ▸ hget, rfl, rfl, id, .inl⟩⟩

theorem getElem?_client {run : Client α → Client α} {j : Nat} {c' : Client α} (hget : (w.client i run).clients[j]? = some c') :
    ∃ c : Client α, w.clients[j]? = some c ∧ c' = if i = j then run c else c := by
  rw [Watch.client, List.getElem?_modify, Option.map_eq_map, Option.map_eq_some_iff] at hget
  obtain ⟨c, hc, rfl⟩ := hget
  exact ⟨c, hc, rfl⟩

/-- A step that changes nothing but how far a subscriber is. -/
theorem Frame.client {run : Client α → Client α} (hsent : ∀ c, (run c).sent = c.sent) (hdropped : ∀ c, (run c).dropped = c.dropped)
    (hregistered : ∀ c, (run c).registered = true → c.registered = true)
    (hsnapshot : ∀ c, w.clients[i]? = some c → (run c).snapshot = .done true → c.snapshot = .done true ∨ (c.dropped = 0 → c.sent ≠ [])) :
    Frame w (w.client i run) := by
  refine ⟨rfl, (List.length_modify _ _ _).ge, fun j c' hget => .inr ?_⟩
  obtain ⟨c, hc, rfl⟩ := getElem?_client hget
  refine ⟨c, hc, ?_⟩
  split
  · rename_i heq
    exact ⟨hsent c, hdropped c, hregistered c, hsnapshot c (heq ▸ hc)⟩
  · exact ⟨rfl, rfl, id, .inl⟩

theorem Frame.add : Frame w { w with clients := w.clients ++ [newClient] } := by
  refine ⟨rfl, by simp, fun i c' hget => ?_⟩
  rw [List.getElem?_append] at hget
  split at hget
  · exact .inr ⟨c', hget, rfl, rfl, id, .inl⟩
  · refine .inl ⟨?_, Nat.not_lt.1 ‹_›⟩
    exact (List.mem_singleton.1 (List.mem_of_getElem? hget))

theorem Watch.CoversBut.frame (h : w.CoversBut start rest) (hframe : Frame w w') : w'.CoversBut start rest := by
  intro i c' hget hregistered hdropped hsent hi
  rcases hframe.clients i c' hget with ⟨rfl, -⟩ | ⟨c, hc, hsent', hdropped', hregistered', -⟩
  · exact absurd rfl hsent
  · obtain ⟨sessions, hmem⟩ := h i c hc (hregistered' hregistered) (hdropped'.symm.trans hdropped) (hsent' ▸ hsent) hi
    exact ⟨sessions, hframe.log ▸ hmem⟩

theorem Watch.Told.frame {p : Phase α} (h : w.Told p) (hframe : Frame w w') (hhashed : w'.hashedAt = w.hashedAt) : w'.Told p := by
  have hcovers : w.CoversBut w.hashedAt [] → w'.CoversBut w'.hashedAt [] := fun h => by
    rw [hhashed]
    exact h.frame hframe
  unfold Watch.Told at h ⊢
  split at h
  · trivial
  · trivial
  · obtain ⟨hle, hbut, hpolled⟩ := h
    refine ⟨hframe.log ▸ hle, hbut.frame hframe, ?_⟩
    split at hpolled
    · rw [if_pos ‹_›, hhashed]
      exact hpolled
    · rw [if_neg ‹_›]
      exact hcovers hpolled
  · exact hcovers h

/-- What is known but for the ticker. -/
theorem Watch.Sound.frame (h : w.Sound) (hframe : Frame w w') (hhashed : w'.hashedAt ≤ w'.log.length) (htold : w'.Told w'.ticker) : w'.Sound := by
  refine ⟨fun e he => ?_, fun i c' start hget hreached => ?_, hhashed, fun i c' hget hdone hdropped => ?_, htold⟩
  · exact (h.known e (hframe.log ▸ he)).trans_le hframe.grows
  · obtain ⟨sessions, hmem⟩ := hreached
    rw [hframe.log] at hmem ⊢
    rcases hframe.clients i c' hget with ⟨-, hle⟩ | ⟨c, hc, hsent, -⟩
    · exact absurd (h.known _ (List.mem_of_mem_drop hmem)) (Nat.not_lt.2 hle)
    · rw [hsent]
      exact h.last i c start hc ⟨sessions, hmem⟩
  · rcases hframe.clients i c' hget with ⟨rfl, -⟩ | ⟨c, hc, hsent, hdropped', -, hdone'⟩
    · cases hdone
    · rw [hsent]
      rcases hdone' hdone with hdone | hreached
      · exact h.snapshot i c hc hdone (hdropped'.symm.trans hdropped)
      · exact hreached (hdropped'.symm.trans hdropped)

/-! ## Sends -/

/-- What a send does to whom it is for. -/
def Client.told (sessions : List α) (room : Bool) (c : Client α) : Client α :=
  if room then { c with sent := c.sent ++ [sessions] } else { c with dropped := c.dropped + 1 }

theorem send_some {c : Client α} (hget : w.clients[i]? = some c) : w.send i sessions room =
    { w with clients := w.clients.set i (c.told sessions room), log := w.log ++ if room then [(i, sessions)] else [] } := by
  rw [Watch.send, hget]
  cases room
  · simp [Client.told]
  · rfl

theorem send_none (hget : w.clients[i]? = none) : w.send i sessions room = w := by rw [Watch.send, hget]

theorem getElem?_send {j : Nat} {c c' : Client α} (hc : w.clients[i]? = some c) (hget : (w.send i sessions room).clients[j]? = some c') :
    i ≠ j ∧ w.clients[j]? = some c' ∨ i = j ∧ c' = c.told sessions room := by
  rw [send_some hc, getElem?_set_of_some hc] at hget
  split at hget
  · exact .inr ⟨‹_›, (Option.some.inj hget).symm⟩
  · exact .inl ⟨‹_›, hget⟩

theorem Watch.Reached.send {j : Nat} (h : w.Reached start j) : (w.send i sessions room).Reached start j := by
  cases hget : w.clients[i]? with
  | none => rwa [send_none hget]
  | some c =>
    obtain ⟨sent, hmem⟩ := h
    refine ⟨sent, ?_⟩
    rw [send_some hget, List.drop_append]
    exact List.mem_append_left _ hmem

/-- A send reaches whom it is for. -/
theorem Watch.CoversBut.send (h : w.CoversBut start (i :: rest)) (hle : start ≤ w.log.length) : (w.send i sessions room).CoversBut start rest := by
  intro j c' hget hregistered hdropped hsent hj
  cases hc : w.clients[i]? with
  | none =>
    rw [send_none hc] at hget ⊢
    have hne : j ≠ i := fun heq => by simp [heq, hc] at hget
    exact h j c' hget hregistered hdropped hsent (List.not_mem_cons_of_ne_of_not_mem hne hj)
  | some c =>
    rcases getElem?_send hc hget with ⟨hne, hget⟩ | ⟨rfl, rfl⟩
    · exact (h j c' hget hregistered hdropped hsent (List.not_mem_cons_of_ne_of_not_mem hne.symm hj)).send
    · cases room with
      | false => cases hdropped
      | true =>
        refine ⟨sessions, ?_⟩
        rw [send_some hc, List.drop_append_of_le_length hle]
        exact List.mem_append_right _ (List.mem_singleton_self _)

theorem Watch.CoversBut.weaken (h : w.CoversBut start rest) : w.CoversBut start (i :: rest) :=
  fun j c hget hregistered hdropped hsent hj => h j c hget hregistered hdropped hsent fun hmem => hj (List.mem_cons_of_mem i hmem)

theorem Watch.CoversBut.mono {start' : Nat} (h : w.CoversBut start rest) (hle : start' ≤ start) : w.CoversBut start' rest := by
  intro i c hget hregistered hdropped hsent hi
  obtain ⟨sessions, hmem⟩ := h i c hget hregistered hdropped hsent hi
  exact ⟨sessions, (List.drop_subset_drop_left _ hle) hmem⟩

theorem send_hashedAt : (w.send i sessions room).hashedAt = w.hashedAt := by
  cases hget : w.clients[i]? with
  | none => rw [send_none hget]
  | some c => rw [send_some hget]

theorem send_ticker : (w.send i sessions room).ticker = w.ticker := by
  cases hget : w.clients[i]? with
  | none => rw [send_none hget]
  | some c => rw [send_some hget]

theorem send_waitFor : (w.send i sessions room).waitFor = w.waitFor := by
  cases hget : w.clients[i]? with
  | none => rw [send_none hget]
  | some c => rw [send_some hget]

theorem send_log_le : w.log.length ≤ (w.send i sessions room).log.length := by
  cases hget : w.clients[i]? with
  | none => rw [send_none hget]
  | some c =>
    rw [send_some hget, List.length_append]
    exact Nat.le_add_right _ _

theorem Watch.Told.send {p : Phase α} (h : w.Told p) (hhashed : w.hashedAt ≤ w.log.length) : (w.send i sessions room).Told p := by
  have hcovers : w.CoversBut w.hashedAt [] → (w.send i sessions room).CoversBut (w.send i sessions room).hashedAt [] := fun h => by
    rw [send_hashedAt]
    exact h.weaken.send hhashed
  unfold Watch.Told at h ⊢
  split at h
  · trivial
  · trivial
  · obtain ⟨hle, hbut, hpolled⟩ := h
    refine ⟨hle.trans send_log_le, hbut.weaken.send hle, ?_⟩
    split at hpolled
    · rw [if_pos ‹_›, send_hashedAt]
      exact hpolled
    · rw [if_neg ‹_›]
      exact hcovers hpolled
  · exact hcovers h

theorem Watch.Sound.send (h : w.Sound) : (w.send i sessions room).Sound := by
  have htold : (w.send i sessions room).Told (w.send i sessions room).ticker := by
    rw [send_ticker]
    exact h.told.send h.hashed
  have hhashed : (w.send i sessions room).hashedAt ≤ (w.send i sessions room).log.length := by
    rw [send_hashedAt]
    exact h.hashed.trans send_log_le
  cases hc : w.clients[i]? with
  | none => rwa [send_none hc]
  | some c =>
    refine ⟨fun e he => ?_, fun j c' start hget hreached => ?_, hhashed, fun j c' hget hdone hdropped => ?_, htold⟩
    · rw [send_some hc] at he ⊢
      rw [List.length_set]
      rcases List.mem_append.1 he with he | he
      · exact h.known e he
      · split at he
        · obtain rfl := List.mem_singleton.1 he
          exact (List.getElem?_eq_some_iff.1 hc).1
        · cases he
    · -- what the subscriber was sent before is still its last message, unless this is
      have hold : ∀ c₀ : Client α, w.clients[j]? = some c₀ → w.Reached start j →
          ∃ last, c₀.sent.getLast? = some last ∧ (j, last) ∈ (w.send i sessions room).log.drop start := fun c₀ hc₀ hreached => by
        obtain ⟨last, hlast, hmem⟩ := h.last j c₀ start hc₀ hreached
        refine ⟨last, hlast, ?_⟩
        rw [send_some hc, List.drop_append]
        exact List.mem_append_left _ hmem
      obtain ⟨sent, hmem⟩ := hreached
      rw [send_some hc, List.drop_append] at hmem
      rcases getElem?_send hc hget with ⟨hne, hget⟩ | ⟨rfl, rfl⟩
      · rcases List.mem_append.1 hmem with hmem | hmem
        · exact hold c' hget ⟨sent, hmem⟩
        · replace hmem := List.mem_of_mem_drop hmem
          split at hmem
          · exact absurd (Prod.mk.inj (List.mem_singleton.1 hmem)).1.symm hne
          · cases hmem
      · cases room with
        | false =>
          rcases List.mem_append.1 hmem with hmem | hmem
          · exact hold c hc ⟨sent, hmem⟩
          · exact absurd (List.mem_of_mem_drop hmem) List.not_mem_nil
        | true =>
          refine ⟨sessions, List.getLast?_concat .., ?_⟩
          rw [send_some hc, List.drop_append]
          refine List.mem_append_right _ ?_
          rcases List.mem_append.1 hmem with hmem | hmem
          · have hpos := List.length_pos_of_mem hmem
            rw [List.length_drop] at hpos
            have hzero : start - w.log.length = 0 := by omega
            rw [hzero]
            exact List.mem_singleton_self _
          · obtain ⟨-, rfl⟩ := Prod.mk.inj (List.mem_singleton.1 (List.mem_of_mem_drop hmem))
            exact hmem
    · rcases getElem?_send hc hget with ⟨hne, hget⟩ | ⟨rfl, rfl⟩
      · exact h.snapshot j c' hget hdone hdropped
      · cases room with
        | false => cases hdropped
        | true => exact List.concat_ne_nil _ _

end Frame

/-! ## Step by step -/

section Steps

variable {w : Watch α} {g : Goroutine} {p p' : Phase α} {start i : Nat} {rest : List Nat}

theorem mem_registered : i ∈ w.registered ↔ ∃ c : Client α, w.clients[i]? = some c ∧ c.registered = true := by
  rw [Watch.registered, List.mem_filter, Option.any_eq_true, List.mem_range]
  exact and_iff_right_of_imp fun ⟨c, hget, _⟩ => (List.getElem?_eq_some_iff.1 hget).1

/-- Where nobody is registered, nobody was missed. -/
theorem covers_of_none (h : w.hasSubscribers = false) : w.CoversBut start rest := by
  intro i c hget hregistered
  have hany : w.hasSubscribers = true := List.any_eq_true.2 ⟨c, List.mem_of_getElem? hget, hregistered⟩
  rw [h] at hany
  cases hany

/-- A broadcast that begins has reached nobody, and goes to all that are registered. -/
theorem covers_of_perm (h : rest.Perm w.registered) : w.CoversBut start rest :=
  fun _ c hget hregistered _ _ hi => absurd (h.mem_iff.2 (mem_registered.2 ⟨c, hget, hregistered⟩)) hi

/-- The end of a snapshot, when it was sent. -/
theorem frame_snapshotSent {l : List α} {r : Bool} {c : Client α} (hc : w.clients[i]? = some c) :
    Frame (w.send i l r) ((w.send i l r).client i fun c => { c with snapshot := .done true }) := by
  refine .client (fun _ => rfl) (fun _ => rfl) (fun _ => id) fun c' hget _ => .inr fun hdropped => ?_
  rcases getElem?_send hc hget with ⟨hne, -⟩ | ⟨-, rfl⟩
  · exact absurd rfl hne
  · cases r with
    | false => cases hdropped
    | true => exact List.concat_ne_nil _ _

theorem frame_setPhase : Frame w (w.setPhase g p) := by cases g <;> exact .of_eq rfl rfl

/-- A goroutine moves on. -/
theorem Watch.Sound.move (h : w.Sound) (hphase : w.phase g = p) (hmove : g = .ticker → w.Told p → w.Told p') : (w.setPhase g p').Sound := by
  cases g with
  | waitFor => exact h.frame (.of_eq rfl rfl) h.hashed (h.told.frame (.of_eq rfl rfl) rfl)
  | ticker =>
    have hticker : w.ticker = p := hphase
    exact h.frame (.of_eq rfl rfl) h.hashed ((hmove rfl (hticker ▸ h.told)).frame (.of_eq rfl rfl) rfl)

variable (hashSessions : List α → String)

/-- What is known of the subscribers is kept by every step. -/
theorem sound_step (h : w.Sound) {st : WatchStep α} (hen : st.Enabled w) : (st.act hashSessions w).Sound := by
  -- steps that send nothing
  have hquiet : ∀ {w' : Watch α}, Frame w w' → w'.hashedAt = w.hashedAt → w.Told w'.ticker → w'.Sound := fun hframe hat htold =>
    h.frame hframe (by rw [hat, hframe.log]; exact h.hashed) (htold.frame hframe hat)
  cases st with
  | change sessions => exact hquiet (.of_eq rfl rfl) rfl h.told
  | add => exact hquiet .add rfl h.told
  | remove i => exact hquiet (.client (fun _ => rfl) (fun _ => rfl) nofun fun _ _ => .inl) rfl h.told
  | recv i => exact hquiet (.client (fun _ => rfl) (fun _ => rfl) (fun _ => id) fun _ _ => .inl) rfl h.told
  | snapshotBegins i => exact hquiet (.client (fun _ => rfl) (fun _ => rfl) (fun _ => id) fun _ _ => nofun) rfl h.told
  | snapshotLists i result =>
    cases result with
    | none => exact hquiet (.client (fun _ => rfl) (fun _ => rfl) (fun _ => id) fun _ _ h => by cases h) rfl h.told
    | some sessions => exact hquiet (.client (fun _ => rfl) (fun _ => rfl) (fun _ => id) fun _ _ => nofun) rfl h.told
  | snapshotSends i room =>
    obtain ⟨c, hc, -, sessions, hlisted⟩ := hen
    obtain ⟨registered, snapshot, sent, received, dropped⟩ := c
    obtain rfl : snapshot = .listed sessions := hlisted
    simp only [WatchStep.act, hc]
    have hframe := frame_snapshotSent (l := sessions) (r := room) hc
    exact h.send.frame hframe h.send.hashed (h.send.told.frame hframe rfl)
  | signal => exact h.move (g := .waitFor) hen fun _ => id
  | tick =>
    have hidle : w.ticker = .idle := hen
    have htold := h.told
    rw [hidle] at htold
    refine hquiet (.of_eq rfl rfl) rfl ?_
    dsimp only [WatchStep.act]
    split <;> exact htold
  | probe alive =>
    have hprobing : w.ticker = .probing := hen
    have htold := h.told
    rw [hprobing] at htold
    cases alive
    · exact hquiet (.of_eq rfl rfl) rfl htold
    · exact hquiet (.of_eq rfl rfl) rfl htold
  | enter g =>
    dsimp only [WatchStep.act]
    split <;> exact h.move hen fun _ => id
  | stamp g now =>
    dsimp only [WatchStep.act]
    split
    · exact h.move hen fun _ => id
    · have hstamped : ({ w with lastBroadcast := some now } : Watch α).Sound := hquiet (.of_eq rfl rfl) rfl h.told
      refine hstamped.move (p := .stamping) ?_ fun _ => id
      cases g <;> exact hen
  | lists g result =>
    obtain ⟨polled, since, hphase, -⟩ := hen
    cases result with
    | none => exact h.move hphase fun _ => id
    | some sessions =>
      simp only [WatchStep.act, hphase]
      cases polled
      · exact h.move hphase fun _ => id
      · exact h.move hphase fun _ => id
  | compare alive =>
    obtain ⟨sessions, hlisted⟩ := hen
    have htold := h.told
    rw [hlisted] at htold
    simp only [WatchStep.act, hlisted]
    split
    · exact hquiet (.of_eq rfl rfl) rfl htold
    split
    · exact hquiet (.of_eq rfl rfl) rfl htold
    · exact h.frame (.of_eq rfl rfl) le_rfl trivial
  | check =>
    obtain ⟨sessions, hchanged⟩ := hen
    simp only [WatchStep.act, hchanged]
    refine hquiet (.of_eq rfl rfl) rfl ?_
    cases hany : w.hasSubscribers with
    | true => exact trivial
    | false => exact covers_of_none hany
  | broadcast g order =>
    obtain ⟨⟨polled, sessions, hready⟩, hperm⟩ := hen
    simp only [WatchStep.act, hready]
    refine h.move hready fun _ htold => ⟨le_rfl, covers_of_perm hperm, ?_⟩
    cases polled with
    | true => exact h.hashed
    | false => exact htold
  | deliver g room =>
    obtain ⟨polled, start, sessions, i, rest, hsending⟩ := hen
    simp only [WatchStep.act, hsending]
    have hphase : (w.send i sessions room).phase g = .sending polled start sessions (i :: rest) := by
      cases g
      · exact send_waitFor.trans hsending
      · exact send_ticker.trans hsending
    refine h.send.move hphase fun hg _ => ?_
    subst hg
    have htold := h.told
    rw [show w.ticker = _ from hsending] at htold
    obtain ⟨hle, hcovers, hpolled⟩ := htold
    refine ⟨hle.trans send_log_le, hcovers.send hle, ?_⟩
    rw [send_hashedAt]
    cases polled with
    | true => exact hpolled
    | false => exact hpolled.weaken.send h.hashed
  | broadcastEnds g =>
    obtain ⟨polled, start, sessions, hsending⟩ := hen
    refine h.move hsending fun _ ⟨_, hcovers, hpolled⟩ => ?_
    cases polled with
    | true => exact hcovers.mono hpolled
    | false => exact hpolled

end Steps

end Purdex.Session
