/-
When the scan below a stored frame folds onto the parent a hook of the folded process would find: the scan
asks only whether the frame's process is among the nearest ancestors, the hook stops at the first frame on
the way up.
-/
import Purdex.Module.AncestorAgree
import Purdex.Module.FrameOps
import Mathlib

namespace Purdex.Module

open Purdex.Agent Purdex.Store Conc

/-! ## The chain up to a process -/

section Chain

variable {env : Env} {frameAt : Int → Option Frame} {target : Int}

/-- Whether the target is among the next ancestors, as the scan reads it. -/
def Env.below (env : Env) (target : Int) : Nat → Int → Bool
  | 0, _ => false
  | depth + 1, current => match env.processInfo current with
    | .error _ => false
    | .ok info =>
      if info.ppid = target then true
      else if info.ppid ≤ 1 ∨ info.ppid = current then false
      else env.below target depth info.ppid

/-- The frames of the chain strictly below the target. -/
def chainBelow (env : Env) (frameAt : Int → Option Frame) (target : Int) : Nat → Int → List Frame
  | 0, _ => []
  | depth + 1, ppid =>
    if ppid = target ∨ ppid ≤ 1 then []
    else (frameAt ppid).toList ++ match env.processInfo ppid with
      | .error _ => []
      | .ok info => if info.ppid = ppid then [] else chainBelow env frameAt target depth info.ppid

/-- A chain that comes by the target: what is below it, its own frame, what is above. -/
theorem chainFrames_split (hreal : 1 < target) : ∀ (depth : Nat) (current : Int) (info : ProcessInfo),
    env.processInfo current = .ok info → env.below target depth current = true →
    ∃ above, chainFrames env frameAt depth info.ppid =
      chainBelow env frameAt target depth info.ppid ++ ((frameAt target).toList ++ above)
  | 0, _, _, _, hbelow => by simp [Env.below] at hbelow
  | depth + 1, current, info, hinfo, hbelow => by
    simp only [Env.below, hinfo] at hbelow
    unfold chainFrames chainBelow
    by_cases htarget : info.ppid = target
    · have hinit : ¬ info.ppid ≤ 1 := by omega
      simp only [htarget, true_or, if_true, List.nil_append]
      rw [if_neg (by omega)]
      exact ⟨_, rfl⟩
    · rw [if_neg htarget] at hbelow
      by_cases hstop : info.ppid ≤ 1 ∨ info.ppid = current
      · rw [if_pos hstop] at hbelow
        exact absurd hbelow Bool.false_ne_true
      · rw [if_neg hstop] at hbelow
        obtain ⟨hinit, -⟩ := not_or.1 hstop
        rw [if_neg hinit, if_neg (not_or.2 ⟨htarget, hinit⟩)]
        cases hnext : env.processInfo info.ppid with
        | error e =>
          -- the scan reads the process as well, so it cannot have got past it
          cases depth <;> simp [Env.below, hnext] at hbelow
        | ok next =>
          have hself : next.ppid ≠ info.ppid := by
            intro hself
            cases depth with
            | zero => simp [Env.below] at hbelow
            | succ depth => simp [Env.below, hnext, hself, htarget] at hbelow
          simp only [if_neg hself]
          obtain ⟨above, habove⟩ := chainFrames_split hreal depth info.ppid next hnext hbelow
          exact ⟨above, by rw [habove, List.append_assoc]⟩

theorem exists_pid_of_mem_chain : ∀ (depth : Nat) (ppid : Int) {f : Frame}, f ∈ chainFrames env frameAt depth ppid →
    ∃ pid, 1 < pid ∧ frameAt pid = some f
  | 0, _, _, hf => by simp [chainFrames] at hf
  | depth + 1, ppid, f, hf => by
    unfold chainFrames at hf
    split at hf
    · simp at hf
    · next hinit =>
      rcases List.mem_append.1 hf with hf | hf
      · exact ⟨ppid, by omega, by simpa using hf⟩
      · split at hf
        · simp at hf
        · split at hf
          · simp at hf
          · exact exists_pid_of_mem_chain depth _ hf

theorem pid_ne_of_mem_chainBelow (hat : ∀ pid f, frameAt pid = some f → f.pid = pid) :
    ∀ (depth : Nat) (ppid : Int) {f : Frame}, f ∈ chainBelow env frameAt target depth ppid → f.pid ≠ target
  | 0, _, _, hf => by simp [chainBelow] at hf
  | depth + 1, ppid, f, hf => by
    unfold chainBelow at hf
    split at hf
    · simp at hf
    · next hstop =>
      rcases List.mem_append.1 hf with hf | hf
      · rw [hat ppid f (by simpa using hf)]
        exact fun heq => hstop (.inl heq)
      · split at hf
        · simp at hf
        · split at hf
          · simp at hf
          · exact pid_ne_of_mem_chainBelow hat depth _ hf

end Chain

/-! ## What the hook path finds on it -/

section Scan

variable {env : Env} {agentType : String} {parent : Frame}

/-- The hook path finds a live frame of another agent. -/
theorem hotScan_some : ∀ {frames : List Frame}, hotScan env agentType frames = some parent →
    parent ∈ frames ∧ env.frameGate parent = .live ∧ parent.agentType ≠ agentType
  | [], h => by simp [hotScan] at h
  | frame :: above, h => by
    unfold hotScan at h
    cases hg : env.frameGate frame with
    | live =>
      simp only [hg] at h
      split at h
      · cases h
      · next htype =>
        obtain rfl := Option.some.inj h
        exact ⟨by simp, hg, htype⟩
    | unreadable => simp [hg] at h
    | dead | reused =>
      simp only [hg] at h
      obtain ⟨hmem, hrest⟩ := hotScan_some h
      exact ⟨List.mem_cons_of_mem _ hmem, hrest⟩

theorem hotScan_stale : ∀ {below above : List Frame}, (∀ f ∈ below, env.Stale f) →
    hotScan env agentType (below ++ above) = hotScan env agentType above
  | [], _, _ => rfl
  | frame :: below, above, h => by
    rw [List.cons_append, hotScan]
    rcases h frame (by simp) with hg | hg
    · rw [hg]
      exact hotScan_stale fun f hf => h f (by simp [hf])
    · rw [hg]
      exact hotScan_stale fun f hf => h f (by simp [hf])

/-- A frame found above others was found past stale ones. -/
theorem stale_of_hotScan : ∀ {below above : List Frame}, hotScan env agentType (below ++ above) = some parent →
    parent ∉ below → ∀ f ∈ below, env.Stale f
  | [], _, _, _ => by simp
  | frame :: below, above, h, hout => by
    rw [List.cons_append, hotScan] at h
    have hrest : env.Stale frame → hotScan env agentType (below ++ above) = some parent →
        ∀ f ∈ frame :: below, env.Stale f := fun hstale h f hf => by
      rcases List.mem_cons.1 hf with rfl | hf
      · exact hstale
      · exact stale_of_hotScan h (fun hmem => hout (List.mem_cons_of_mem _ hmem)) f hf
    cases hg : env.frameGate frame with
    | live =>
      simp only [hg] at h
      split at h
      · cases h
      · obtain rfl := Option.some.inj h
        exact absurd (List.mem_cons_self ..) hout
    | unreadable => simp [hg] at h
    | dead => exact hrest (.inl hg) (by simpa only [hg] using h)
    | reused => exact hrest (.inr hg) (by simpa only [hg] using h)

end Scan

/-! ## The parent of a folded frame -/

/-- Nothing is in the way from the candidate up to the frame: frames below it on the chain are stale, it is live
itself, and its row is the one the store gives for its pid. -/
structure Unobstructed (s : State) (self candidate : Frame) : Prop where
  real : 1 < self.pid
  live : s.env.frameGate self = .live
  newest : ∃ row, selectByPanePID s.table self.paneID self.pid = some row ∧ row.ident = self.ident
  clear : ∀ info, s.env.processInfo candidate.pid = .ok info →
    ∀ f ∈ chainBelow s.env (selectByPanePID s.table self.paneID) self.pid proxyMaxDepth info.ppid, s.env.Stale f

/-- A hook of the process would be folded into the frame. -/
def Selects (cfg : Config) (s : State) (req : EventRequest) (self : Frame) : Prop :=
  ∃ parent, ((findProxyParent req).run.eval (exec cfg) s).1 = .ok (some parent) ∧ parent.ident = self.ident

variable {cfg : Config} {s : State} {self candidate : Frame} {req : EventRequest}

theorem eval_findProxyParent (hdb : s.env.dbFault = none) (req : EventRequest) :
    ((findProxyParent req).run.eval (exec cfg) s).1 =
      .ok (hotScan s.env req.agentType (framesAbove s req.tmuxPaneID req.senderPID)) := by
  obtain ⟨res, hres, hscan⟩ := @eval_classifyAncestor cfg s hdb req
  unfold findProxyParent
  rw [eval_run_bind, hres]
  exact congrArg Except.ok hscan

theorem frameGate_of_ident {env : Env} {f g : Frame} (h : f.ident = g.ident) : env.frameGate f = env.frameGate g := by
  have hpid : f.pid = g.pid := congrArg Ident.pid h
  have hstart : f.processStartTime = g.processStartTime := congrArg Ident.processStartTime h
  rw [Env.frameGate, hpid, hstart, Env.frameGate]

/-- A process below the frame would be folded into it exactly when nothing is in the way. -/
theorem selects_iff (hdb : s.env.dbFault = none) (hreq : req.FromProcessOf candidate) (hpane : candidate.paneID = self.paneID)
    (hbelow : s.env.below self.pid proxyMaxDepth candidate.pid = true)
    (htype : ∀ row ∈ selectByPane s.table self.paneID, row.ident = self.ident → row.agentType ≠ candidate.agentType) :
    Selects cfg s req self ↔ Unobstructed s self candidate := by
  obtain ⟨hreqPane, hagent, hpid, -⟩ := hreq
  have hat : ∀ pid f, selectByPanePID s.table self.paneID pid = some f → f.pid = pid :=
    fun _ _ h => (selectByPanePID_some h).2
  obtain ⟨info, hinfo⟩ : ∃ info, s.env.processInfo candidate.pid = .ok info := by
    cases hinfo : s.env.processInfo candidate.pid with
    | error e => simp [Env.below, proxyMaxDepth, hinfo] at hbelow
    | ok info => exact ⟨info, rfl⟩
  unfold Selects
  simp only [eval_findProxyParent hdb, hreqPane, hpane, hagent, hpid, Except.ok.injEq]
  rw [framesAbove, hinfo]
  constructor
  · rintro ⟨parent, hscan, hident⟩
    have hparentPid : parent.pid = self.pid := congrArg Ident.pid hident
    obtain ⟨hmem, hlive, -⟩ := hotScan_some hscan
    obtain ⟨pid, hreal, hfound⟩ := exists_pid_of_mem_chain _ _ hmem
    obtain rfl : pid = self.pid := (hat pid parent hfound).symm.trans hparentPid
    refine ⟨hreal, ?_, ⟨parent, hfound, hident⟩, fun info' hinfo' => ?_⟩
    · rw [← frameGate_of_ident hident]
      exact hlive
    · obtain rfl := Except.ok.inj (hinfo.symm.trans hinfo')
      obtain ⟨above, hsplit⟩ := @chainFrames_split s.env (selectByPanePID s.table self.paneID) self.pid hreal _ _ _ hinfo hbelow
      simp only [hsplit] at hscan
      exact stale_of_hotScan hscan fun hin => pid_ne_of_mem_chainBelow hat _ _ hin hparentPid
  · rintro ⟨hreal, hlive, ⟨row, hfound, hident⟩, hclear⟩
    obtain ⟨above, hsplit⟩ := @chainFrames_split s.env (selectByPanePID s.table self.paneID) self.pid hreal _ _ _ hinfo hbelow
    have hgate : s.env.frameGate row = .live := by rw [frameGate_of_ident hident]; exact hlive
    refine ⟨row, ?_, hident⟩
    simp only [hsplit]
    rw [hotScan_stale (hclear info hinfo), hfound, Option.toList_some, List.singleton_append, hotScan, hgate]
    exact if_neg (htype row (selectByPanePID_some hfound).1 hident)

/-! ## The scan -/

/-- A statement leaves the table it is run on, or the one it computes. -/
theorem stmt_table {α : Type} {s : State} {f : Table → Stmt α} :
    (s.stmt f).2.table = s.table ∨ (s.stmt f).2.table = (f s.table).2 ∧ (s.stmt f).1 = (f s.table).1 := by
  unfold State.stmt
  split
  · exact .inl rfl
  · exact .inr ⟨rfl, rfl⟩

/-- An UPDATE that answers true found the row at the version it expected. -/
theorem updateIfUnchanged_rows {t : Table} {next : Frame} {expected : Int} {r' : Row}
    (h : r' ∈ (Store.updateIfUnchanged t next expected).2.rows) : r' ∈ t.rows ∨
      (Store.updateIfUnchanged t next expected).1 = .ok true ∧
        ∃ r ∈ t.rows, r.frameID = next.frameID ∧ r.lastSeenAt = expected ∧ r' = r.setFrame next := by
  unfold Store.updateIfUnchanged at h ⊢
  dsimp only at h ⊢
  by_cases hany : t.rows.any (fun r => r.frameID = next.frameID ∧ r.lastSeenAt = expected) = true
  · rw [if_pos hany] at h ⊢
    by_cases hparent : t.parentOk next.parentFrameID = true
    · rw [if_pos hparent] at h ⊢
      rw [Table.mem_update] at h
      obtain ⟨r, hr, ⟨hp, rfl⟩ | ⟨_, rfl⟩⟩ := h
      · simp only [decide_eq_true_eq] at hp
        exact .inr ⟨rfl, r, hr, hp.1, hp.2, rfl⟩
      · exact .inl hr
    · rw [if_neg hparent] at h
      exact .inl h
  · rw [if_neg hany] at h
    exact .inl h

section Scanning

variable {env : Env} {listing : List Frame} {h : Hist iface}

/-- What a scan leaves alone: the world outside, and the agent of the frame it folds onto. -/
structure Steady (env : Env) (owner : Frame) (s : State) : Prop where
  world : s.env = env
  agent : ∀ row ∈ s.table.rows, row.ident = owner.ident → row.agentType = owner.agentType

/-- What the scan asks and does: of the frames it deletes, each is of another agent and below its own. -/
def ScanOk (env : Env) (owner : Frame) (listing : List Frame) : Op → Prop
  | .isPidAlive _ | .processStartTime _ | .readProcessInfo _ | .getByIdentity _ => True
  | .updateIfUnchanged next _ => next.agentType = owner.agentType
  | .deleteIfUnchanged frameID _ => ∃ c ∈ listing, c.frameID = frameID ∧ c.agentType ≠ owner.agentType ∧
      env.below owner.pid proxyMaxDepth c.pid = true
  | _ => False

def scanSpec (cfg : Config) (env : Env) (owner : Frame) (listing : List Frame) : Spec iface where
  ans o r := ∃ s, Steady env owner s ∧ (exec cfg o s).1 = r
  ok _ o := ScanOk env owner listing o

theorem stmt_env {α : Type} (f : Table → Stmt α) : (s.stmt f).2.env = s.env := by
  unfold State.stmt
  split <;> rfl

theorem Steady.update {next : Frame} {expected : Int} (h : Steady env self s) (hnext : next.agentType = self.agentType) :
    Steady env self (exec cfg (.updateIfUnchanged next expected) s).2 := by
  refine ⟨(stmt_env _).trans h.world, fun row hrow hident => ?_⟩
  rcases stmt_table (s := s) (f := (Store.updateIfUnchanged · next expected)) with ht | ⟨ht, -⟩
  · exact h.agent row (ht ▸ hrow) hident
  · rcases updateIfUnchanged_rows (ht ▸ hrow) with hr | ⟨-, r, -, -, -, rfl⟩
    · exact h.agent row hr hident
    · exact hnext

theorem Steady.delete {frameID : String} {lastSeenAt : Int} (h : Steady env self s) :
    Steady env self (exec cfg (.deleteIfUnchanged frameID lastSeenAt) s).2 := by
  refine ⟨(stmt_env _).trans h.world, fun row hrow => ?_⟩
  rcases stmt_table (s := s) (f := (Store.deleteIfUnchanged · frameID lastSeenAt)) with ht | ⟨ht, -⟩
  · exact h.agent row (ht ▸ hrow)
  · obtain ⟨r, hr, -, rfl⟩ := Table.mem_remove.1 (ht ▸ hrow)
    split
    · exact h.agent r hr
    · exact h.agent r hr

/-- Each operation of the scan answers from a steady state and leaves one. -/
theorem scan_step (o : Op) (s : State) (h : Hist iface) (hj : Steady env self s)
    (hok : (scanSpec cfg env self listing).ok h o) :
    (scanSpec cfg env self listing).ans o (exec cfg o s).1 ∧ Steady env self (exec cfg o s).2 := by
  refine ⟨⟨s, hj, rfl⟩, ?_⟩
  cases o with
  | isPidAlive | processStartTime | readProcessInfo => exact hj
  | getByIdentity i =>
    have hsame : (exec cfg (.getByIdentity i) s).2 = s := by
      simp only [exec, State.query]
      split <;> rfl
    rw [hsame]
    exact hj
  | updateIfUnchanged next expected => exact hj.update hok
  | deleteIfUnchanged => exact hj.delete
  | _ => exact hok.elim

/-- A frame that is, for all the scan asks of it, the one it folds onto. -/
def Stands (self current : Frame) : Prop :=
  current.ident = self.ident ∧ current.agentType = self.agentType

/-- What a steady state answers about the row of the frame. -/
theorem stands_of_read {found : Frame}
    (hans : (scanSpec cfg env self listing).ans (.getByIdentity self.ident) (.ok (some found))) : Stands self found := by
  obtain ⟨s, hj, hres⟩ := hans
  simp only [exec, State.query] at hres
  split at hres
  · cases hres
  · obtain ⟨row, hrow, hident, rfl⟩ := selectByIdentity_some (Except.ok.inj hres)
    exact ⟨hident, hj.agent row hrow hident⟩

theorem ancestorWithin_scan (target : Int) : ∀ (depth : Nat) (current : Int) (h : Hist iface),
    wp (scanSpec cfg env self listing) (ancestorWithin target depth current)
      (fun _ below => below = env.below target depth current) h
  | 0, _, _ => rfl
  | depth + 1, current, h => by
    unfold ancestorWithin Env.below
    refine wp_call_seq trivial fun info hans => ?_
    obtain ⟨s, hj, rfl⟩ := hans
    have hread : (exec cfg (.readProcessInfo current) s).1 = env.processInfo current := by rw [← hj.world]; rfl
    rw [hread]
    cases env.processInfo current with
    | error e => exact rfl
    | ok info =>
      by_cases htarget : info.ppid = target
      · simp only [htarget, if_true]
        exact rfl
      · simp only [htarget, if_false]
        split
        · exact rfl
        · exact ancestorWithin_scan target depth _ _

theorem identityGate_scan (pid : Int) (startTime : String) :
    wp (scanSpec cfg env self listing) (identityGate pid startTime) (fun _ _ => True) h := by
  refine wp_call_seq trivial fun alive _ => ?_
  split
  · refine wp_call_seq trivial fun start _ => ?_
    split <;> exact trivial
  · exact trivial

theorem ownedState_scan : ∀ (refs : List SubagentRef) (h : Hist iface),
    wp (scanSpec cfg env self listing) (ownedState refs) (fun _ _ => True) h
  | [], _ => trivial
  | ref :: refs, h => by
    unfold ownedState
    split
    · exact trivial
    · refine wp_seq (identityGate_scan _ _) fun h₁ gate _ _ => ?_
      cases gate
      · exact ownedState_scan refs _
      · exact trivial
      · exact ownedState_scan refs _
      · exact trivial

/-- What is foldable is of another agent and below the frame. -/
theorem isFoldable_scan {current c : Frame} (hstands : Stands self current) :
    wp (scanSpec cfg env self listing) (isFoldable current c) (fun _ foldable => foldable = true →
      c.agentType ≠ self.agentType ∧ env.below self.pid proxyMaxDepth c.pid = true) h := by
  have hpid : current.pid = self.pid := congrArg Ident.pid hstands.1
  unfold isFoldable
  split
  · exact nofun
  · next hother =>
    refine wp_seq (ancestorWithin_scan current.pid proxyMaxDepth c.pid h) fun h₁ below _ hbelow => ?_
    split
    · exact nofun
    · next hin =>
      have htrue : env.below self.pid proxyMaxDepth c.pid = true := by
        rw [← hpid, ← hbelow]
        simpa using hin
      refine wp_seq (ownedState_scan _ _) fun h₂ owned _ _ => ?_
      split
      · exact nofun
      · refine wp_seq (identityGate_scan _ _) fun h₃ gate _ _ => ?_
        exact fun _ => ⟨fun heq => hother (.inr (heq.trans hstands.2.symm)), htrue⟩

/-- A write of the frame's row that goes through hands it back. -/
theorem upsertIfUnchanged_scan {next : Frame} {expected : Int} (hstands : Stands self next) :
    wpE (scanSpec cfg env self listing) (upsertIfUnchanged next expected)
      (fun _ stored => ∀ f, stored = some f → Stands self f) (fun _ _ => True) h := by
  unfold upsertIfUnchanged
  split
  · exact trivial
  · refine (wpE_bind _ _ _).2 ⟨hstands.2, fun updated _ => ?_⟩
    cases updated with
    | error e => exact trivial
    | ok updated =>
      cases updated with
      | false =>
        intro f hf
        cases hf
      | true =>
        refine (wpE_bind _ _ _).2 ⟨trivial, fun found hans => ?_⟩
        cases found with
        | error e => exact trivial
        | ok found =>
          cases found with
          | none => exact trivial
          | some f =>
            rw [hstands.1] at hans
            exact fun g hg => Option.some.inj hg ▸ stands_of_read hans

/-- Edits of the list alone end with the frame's own row, if one is stored. -/
theorem casRetry_scan {edit : Frame → Frame} {exceeded : Frame → String}
    (hedit : ∀ current, Stands self current → Stands self (edit current)) :
    ∀ (attempts : Nat) (current : Frame) (h : Hist iface), Stands self current →
      wpE (scanSpec cfg env self listing) (casRetry self.ident (fun f => pure (some (edit f))) exceeded attempts current)
        (fun _ out => ∀ stored, out = .stored stored → Stands self stored) (fun _ _ => True) h
  | 0, _, _, _ => trivial
  | attempts + 1, current, h, hstands => by
    refine (wpE_bind _ _ _).2 ((wpE_lift _).2 ?_)
    refine wpE_seq (upsertIfUnchanged_scan (hedit current hstands)) fun h₁ stored _ hstored => ?_
    cases stored with
    | some f => exact fun g hg => CasOutcome.stored.inj hg ▸ hstored f rfl
    | none =>
      refine (wpE_bind _ _ _).2 ⟨trivial, fun found hans => ?_⟩
      cases found with
      | error e => exact trivial
      | ok found =>
        cases found with
        | none =>
          intro f hf
          cases hf
        | some f => exact casRetry_scan hedit attempts f _ (stands_of_read hans)

theorem attach_scan (ref : SubagentRef) (ts : Int) {current : Frame} (hstands : Stands self current) :
    wpE (scanSpec cfg env self listing) (attachProxyRefWithRetry current ref ts)
      (fun _ out => ∀ stored, out = .stored stored → Stands self stored) (fun _ _ => True) h := by
  unfold attachProxyRefWithRetry mutateSubagentsWithRetry
  rw [hstands.1]
  refine casRetry_scan (fun f hf => ?_) _ current h hstands
  exact hf

theorem foldDescendants_scan (ts : Int) : ∀ (candidates : List Frame) (current : Frame) (h : Hist iface),
    (∀ c ∈ candidates, c ∈ listing) → Stands self current →
    wpE (scanSpec cfg env self listing) (foldDescendants ts candidates current) (fun _ _ => True) (fun _ _ => True) h
  | [], _, _, _, _ => trivial
  | c :: candidates, current, h, hin, hstands => by
    have hrest : ∀ x ∈ candidates, x ∈ listing := fun x hx => hin x (List.mem_cons_of_mem _ hx)
    unfold foldDescendants
    refine wpE_seq ((wpE_lift _).2 (isFoldable_scan hstands)) fun h₁ foldable _ hfoldable => ?_
    split
    · next hyes =>
      refine wpE_seq (attach_scan _ _ hstands) fun h₂ out _ hout => ?_
      split
      · next stored =>
        obtain ⟨hother, hbelow⟩ := hfoldable hyes
        refine (wpE_bind _ _ _).2 ⟨⟨c, hin c (by simp), rfl, hother, hbelow⟩, fun deleted _ => ?_⟩
        cases deleted with
        | error e => exact trivial
        | ok deleted => exact foldDescendants_scan ts candidates stored _ hrest (hout stored rfl)
      · exact trivial
    · exact foldDescendants_scan ts candidates current _ hrest hstands

end Scanning

/-! ## What the scan folds -/

/-- In a run of the scan below a stored frame, whenever a candidate's row is deleted: the frame is the one a hook of
the candidate's process would be folded into, exactly when nothing is in the way. -/
theorem descendant_scan_folds_iff (cfg : Config) (s : State) (self : Frame) (ts : Int) (candidate : Frame)
    (req : EventRequest) (s' : State) (hself : self ∈ selectByPane s.table self.paneID)
    (hcandidate : candidate ∈ selectByPane s.table self.paneID) (hreq : req.FromProcessOf candidate)
    (hdeleted : (s', ⟨.deleteIfUnchanged candidate.frameID candidate.lastSeenAt, .ok true⟩) ∈
      (canonicalizeDescendantsAfterUpsert self ts).run.steps (exec cfg) s) :
    Selects cfg s' req self ↔ Unobstructed s' self candidate := by
  have hsteady : Steady s.env self s := by
    refine ⟨rfl, fun row hrow hident => ?_⟩
    obtain ⟨r, hr, -, hframe⟩ := mem_selectByPane.1 hself
    have hrident : r.ident = self.ident := congrArg Frame.ident hframe
    rw [Table.ext_ident hrow hr (hident.trans hrident.symm), ← hframe]
  have hpane : candidate.paneID = self.paneID := by
    obtain ⟨r, -, hrpane, hframe⟩ := mem_selectByPane.1 hcandidate
    rw [← hframe]
    exact hrpane
  -- the listing comes first, and the scan is over where it fails
  have hsteps : (s', ⟨.deleteIfUnchanged candidate.frameID candidate.lastSeenAt, .ok true⟩) ∈
      (foldDescendants ts (selectByPane s.table self.paneID) self).run.steps (exec cfg) s := by
    unfold canonicalizeDescendantsAfterUpsert at hdeleted
    rw [steps_run_bind] at hdeleted
    have hlist : (listByPane self.paneID).run.eval (exec cfg) s = s.query (selectByPane · self.paneID) := rfl
    have hone : (listByPane self.paneID).run.steps (exec cfg) s =
        [(s, ⟨.listByPane self.paneID, (s.query (selectByPane · self.paneID)).1⟩)] := rfl
    rw [hlist, hone] at hdeleted
    cases hdb : s.env.dbFault with
    | some e => simp [State.query, hdb] at hdeleted
    | none => simpa [State.query, hdb] using hdeleted
  have hscan : wpE (scanSpec cfg s.env self (selectByPane s.table self.paneID))
      (foldDescendants ts (selectByPane s.table self.paneID) self) (fun _ _ => True) (fun _ _ => True) [] :=
    foldDescendants_scan ts _ self [] (fun _ hc => hc) ⟨rfl, rfl⟩
  obtain ⟨hsteady', hres, h', hok⟩ := steps_allowed scan_step hscan hsteady _ hsteps
  obtain ⟨c, hc, hid, hother, hbelow⟩ := hok
  obtain rfl : c = candidate := List.inj_on_of_nodup_map (selectByPane_ids _ _) hc hcandidate hid
  have hdb : s'.env.dbFault = none := by
    cases hdb : s'.env.dbFault with
    | none => rfl
    | some e => simp [exec, State.stmt, hdb] at hres
  refine selects_iff hdb hreq hpane (by rw [hsteady'.world]; exact hbelow) fun row hrow hident => ?_
  obtain ⟨r, hr, -, rfl⟩ := mem_selectByPane.1 hrow
  rw [hsteady'.agent r hr hident]
  exact fun heq => hother heq.symm

/-! ## A codex below an opencode below a claude -/

/-- The opencode runs a subagent of its own, so the scan leaves it alone. -/
def opencodeFrame : Frame := { paneFrame "f2" "opencode" 20 2 with subagents := [nativeRef "call-1" "opencode" 2] }

/-- Every process is alive with the start time its frame has. -/
def plainEnv : Env := { recycledEnv with processStartTime := fun _ => .ok "t0" }

def layeredPane : State where
  table := paneTable [claudeFrame, opencodeFrame, codexFrame] (by decide) (by decide)
  identitySeq := 0
  mem := Mem.empty
  env := plainEnv

def flatPane : State := { layeredPane with table := paneTable [claudeFrame, codexFrame] (by decide) (by decide) }

/-- The state the scan is in when it deletes the row of a frame. -/
def atDeletion (s : State) (self : Frame) (candidate : Frame) : Option State :=
  (((canonicalizeDescendantsAfterUpsert self 7).run.steps (exec noProviders) s).find? fun x =>
    match x.2 with
    | ⟨.deleteIfUnchanged frameID lastSeenAt, .ok true⟩ =>
      decide (frameID = candidate.frameID ∧ lastSeenAt = candidate.lastSeenAt)
    | _ => false).map (·.1)

theorem mem_of_atDeletion {s s' : State} {self candidate : Frame} (h : atDeletion s self candidate = some s') :
    (s', ⟨.deleteIfUnchanged candidate.frameID candidate.lastSeenAt, .ok true⟩) ∈
      (canonicalizeDescendantsAfterUpsert self 7).run.steps (exec noProviders) s := by
  obtain ⟨⟨s', ev⟩, hfind, rfl⟩ := Option.map_eq_some_iff.1 h
  have hmem := List.mem_of_find?_eq_some hfind
  have hev := List.find?_some hfind
  obtain ⟨op, res⟩ := ev
  dsimp only at hev
  split at hev
  · next heq =>
    cases heq
    obtain ⟨rfl, rfl⟩ := of_decide_eq_true hev
    exact hmem
  · exact absurd hev Bool.false_ne_true

theorem descendant_scan_folds_flat : ∃ s', atDeletion flatPane claudeFrame codexFrame = some s' ∧
    (Selects noProviders s' codexHook claudeFrame ↔ Unobstructed s' claudeFrame codexFrame) := by
  have hfolds : (atDeletion flatPane claudeFrame codexFrame).isSome = true := by decide
  obtain ⟨s', hs'⟩ := Option.isSome_iff_exists.1 hfolds
  exact ⟨s', hs', descendant_scan_folds_iff noProviders flatPane claudeFrame 7 codexFrame codexHook s' (by decide)
    (by decide) ⟨rfl, rfl, rfl, rfl⟩ (mem_of_atDeletion hs')⟩

/-- A codex whose hooks would fold it into the opencode it runs under is folded into the claude above both. -/
theorem scan_skips_nearest : ¬ ∀ (cfg : Config) (s : State) (self : Frame) (ts : Int) (candidate : Frame)
    (req : EventRequest) (s' : State), self ∈ selectByPane s.table self.paneID →
    candidate ∈ selectByPane s.table self.paneID → req.FromProcessOf candidate →
    (s', ⟨.deleteIfUnchanged candidate.frameID candidate.lastSeenAt, .ok true⟩) ∈
      (canonicalizeDescendantsAfterUpsert self ts).run.steps (exec cfg) s → Selects cfg s' req self := by
  intro h
  have hrun : (atDeletion layeredPane claudeFrame codexFrame).any (fun s' =>
      decide (((findProxyParent codexHook).run.eval (exec noProviders) s').1.toOption = some (some opencodeFrame))) = true := by
    decide
  obtain ⟨s', hs', hhook⟩ := (Option.any_eq_true _ _).1 hrun
  obtain ⟨parent, hparent, hident⟩ := h noProviders layeredPane claudeFrame 7 codexFrame codexHook s' (by decide)
    (by decide) ⟨rfl, rfl, rfl, rfl⟩ (mem_of_atDeletion hs')
  have hfound := of_decide_eq_true hhook
  rw [hparent] at hfound
  obtain rfl : parent = opencodeFrame := Option.some.inj (Option.some.inj hfound)
  exact absurd hident (by decide)

end Purdex.Module
