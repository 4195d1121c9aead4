import GgsqlDuckdb.Server.Deliveries
import Mathlib.Algebra.Order.BigOperators.Group.List
import Mathlib.Algebra.Order.Group.Nat

/-!
# How often a process starts its server, and how its calls come to an end

## Main results

- `one_server`: a process starts one server, and opens windows on its page only, one at most for
  each call.
- `calls_come_to_an_end`: no call waits for ever.
-/

namespace GgsqlDuckdb

namespace Server

open Library Library.Utf8 Dispatch

variable {Options Spec : Type} {p p' : Process Options Spec}

namespace Process

/-! ## §1 Starts and windows -/

/-- A start of the server that succeeds. -/
def starts : ProcessLabel Options Spec → Bool
  | .start _ o => (startServer o).isOk
  | _ => false

/-- A call that has ended behind a registration. -/
def delivered (job : Job Options Spec) : ℕ :=
  match job.pc with
  | .ended _ => if job.registration.isSome then 1 else 0
  | _ => 0

/-- The number of calls that have ended behind a registration. -/
def deliveries (p : Process Options Spec) : ℕ := (p.jobs.map delivered).sum

/-- What the starts and the windows of a run amount to. -/
structure Counted (past : List (ProcessLabel Options Spec)) (p : Process Options Spec) : Prop where
  sound : Sound p
  started : past.countP starts = p.server.elim 0 fun _ => 1
  opened : ∀ url ∈ p.opened, ∃ s, p.server = some s ∧ url = s.baseUrl ++ ascii "/"
  windows : p.opened.length ≤ p.deliveries

theorem deliveries_setJob {j : ℕ} {job : Job Options Spec} (hj : p.jobs[j]? = some job)
    (pc : JobPc) :
    (p.setJob j pc).deliveries + delivered job =
      p.deliveries + delivered { job with pc := pc } :=
  sum_map_modify (fun job : Job Options Spec => { job with pc := pc }) delivered hj

/-- A step in which no server starts and no window opens, and no call that has been served is
touched. -/
theorem Counted.quiet {past : List (ProcessLabel Options Spec)} {l : ProcessLabel Options Spec}
    (h : Counted past p) (hsound : Sound p') (hl : starts l = false)
    (hserver : p'.server = p.server) (hopened : p'.opened = p.opened)
    (hdeliveries : p.deliveries ≤ p'.deliveries) : Counted (past ++ [l]) p' := by
  refine ⟨hsound, ?_, ?_, ?_⟩
  · rw [List.countP_append, List.countP_singleton, hl, h.started, hserver]
    simp
  · rw [hopened, hserver]
    exact h.opened
  · rw [hopened]
    exact h.windows.trans hdeliveries

theorem deliveries_of_unserved {j : ℕ} {job : Job Options Spec} (hj : p.jobs[j]? = some job)
    (hjob : delivered job = 0) (pc : JobPc) : p.deliveries ≤ (p.setJob j pc).deliveries := by
  have hsum := deliveries_setJob hj pc
  omega

theorem Counted.step {past : List (ProcessLabel Options Spec)} {l : ProcessLabel Options Spec}
    (h : Counted past p) (hstep : (process Options Spec).step p l = some p') :
    Counted (past ++ [l]) p' := by
  have hsound := h.sound.step hstep
  cases move_of_step hstep with
  | call job hpc hreg hp' hl =>
    subst hp' hl
    refine h.quiet hsound rfl rfl rfl ?_
    show p.deliveries ≤ ((p.jobs ++ [job]).map delivered).sum
    rw [List.map_append, List.sum_append]
    exact Nat.le_add_right _ _
  | dispatch j job hj hpc hp' hl =>
    subst hp' hl
    exact h.quiet hsound rfl rfl rfl (deliveries_of_unserved hj (by simp [delivered, hpc]) _)
  | enter j job hep hj hpc hserver hidle hp' hl =>
    subst hp' hl
    exact h.quiet hsound rfl rfl rfl (deliveries_of_unserved hj (by simp [delivered, hpc]) _)
  | unstarted j job hep o text hj hpc hstart hp' hl =>
    subst hp' hl
    have hfail : starts (.start j o : ProcessLabel Options Spec) = false := by
      rw [starts, hstart]
      rfl
    exact h.quiet hsound hfail rfl rfl (deliveries_of_unserved hj (by simp [delivered, hpc]) _)
  | started j job hep o s hj hpc hstart hp' hl =>
    subst hp' hl
    -- there was no server, so no window has been opened
    have hnone : p.server = none := by
      have hfits := h.sound.fits j job hj
      simp only [Job.Fits, hpc] at hfits
      exact hfits.1
    have hclosed : p.opened = [] := by
      apply List.eq_nil_iff_forall_not_mem.mpr
      intro url hurl
      obtain ⟨s', hserver, -⟩ := h.opened url hurl
      rw [hnone] at hserver
      cases hserver
    have hok : starts (.start j o : ProcessLabel Options Spec) = true := by
      rw [starts, hstart]
      rfl
    refine ⟨hsound, ?_, ?_, ?_⟩
    · rw [List.countP_append, List.countP_singleton, hok, h.started, hnone]
      rfl
    · intro url hurl
      have hmem : url ∈ p.opened := hurl
      rw [hclosed] at hmem
      cases hmem
    · show p.opened.length ≤ _
      rw [hclosed]
      exact Nat.zero_le _
  | register j job id hep s s' hj hpc hserver hbegin hp' hl =>
    subst hp' hl
    have hsum := sum_map_modify (fun job : Job Options Spec =>
      { job with registration := some s.calls.length, pc := JobPc.waiting }) delivered hj
    refine ⟨hsound, ?_, ?_, ?_⟩
    · rw [List.countP_append, h.started, hserver]
      rfl
    · intro url hurl
      obtain ⟨s₀, hserver₀, hpage⟩ := h.opened url hurl
      obtain rfl : s = s₀ := Option.some.inj (hserver.symm.trans hserver₀)
      exact ⟨s', rfl, by rw [hpage, (Registry.later_of_step hbegin).baseUrl]⟩
    · have hzero : delivered job = 0 := by simp [delivered, hpc]
      refine h.windows.trans ?_
      show (p.jobs.map delivered).sum ≤ _
      simp only [deliveries]
      omega
  | server s s' rl hserver hbegin hserve hp' hl =>
    subst hp' hl
    refine ⟨hsound, ?_, ?_, h.windows⟩
    · rw [List.countP_append, h.started, hserver]
      rfl
    · intro url hurl
      obtain ⟨s₀, hserver₀, hpage⟩ := h.opened url hurl
      obtain rfl : s = s₀ := Option.some.inj (hserver.symm.trans hserver₀)
      exact ⟨s', rfl, by rw [hpage, (Registry.later_of_step hserve).baseUrl]⟩
  | finish j job s k c r noOpenBrowser hj hpc hreg hserver hk hc hp' hl =>
    subst hp' hl
    have hsum := deliveries_setJob hj (.ended (served job.writer r))
    have hbefore : delivered job = 0 := by simp [delivered, hpc]
    have hafter : delivered { job with pc := .ended (served job.writer r) } = 1 := by
      simp [delivered, hreg]
    refine ⟨hsound, ?_, ?_, ?_⟩
    · rw [List.countP_append, h.started]
      rfl
    · intro url hurl
      rcases List.mem_append.mp hurl with hold | hnew
      · exact h.opened url hold
      · -- the page of the registration that has returned
        obtain ⟨now, st, hst⟩ :=
          (Registry.written_of_reachable (h.sound.reachable s hserver)).returned k c r hk hc
        have hurl : url = r.openUrl := by
          split_ifs at hnew
          · exact List.mem_singleton.mp hnew
          · cases hnew
        exact ⟨s, hserver, by rw [hurl, hst]; rfl⟩
    · show (p.opened ++ if spawns noOpenBrowser r then [r.openUrl] else []).length ≤
        (p.setJob j (.ended (served job.writer r))).deliveries
      have hone : (if spawns noOpenBrowser r then [r.openUrl] else []).length ≤ 1 := by
        split_ifs <;> simp
      have hwindows := h.windows
      rw [List.length_append]
      omega

end Process

/-- **A process starts one server** over any run, if any; and the windows it opens are windows on
the page of that server, at most one for each call that has ended behind a registration. -/
theorem one_server {p₀ : Process Options Spec} {tr : List (ProcessLabel Options Spec)}
    (h₀ : (process Options Spec).init p₀) (hrun : (process Options Spec).run p₀ tr = some p) :
    tr.countP Process.starts = (p.server.elim 0 fun _ => 1) ∧
    (∀ url ∈ p.opened, ∃ s, p.server = some s ∧ url = s.baseUrl ++ ascii "/") ∧
    p.opened.length ≤ p.deliveries ∧
    ∀ s, p.server = some s → ∀ tr' p', (process Options Spec).run p tr' = some p' →
      ∃ s', p'.server = some s' ∧ s'.baseUrl = s.baseUrl := by
  obtain ⟨hserver, hjobs, hopened⟩ := h₀
  have hstart : Process.Counted ([] : List (ProcessLabel Options Spec)) p₀ := by
    refine ⟨Process.sound_of_reachable (.of_init ⟨hserver, hjobs, hopened⟩), ?_, ?_, ?_⟩
    · rw [hserver]
      rfl
    · simp [hopened]
    · simp [hopened]
  have hcounted := Machine.run_history Process.Counted (fun _ _ _ _ hs hstep => hs.step hstep)
    hstart hrun
  refine ⟨hcounted.started, hcounted.opened, hcounted.windows, ?_⟩
  intro s hs tr' p' hrun'
  obtain ⟨rtr, s', hr, hs'⟩ := Process.run_registry hcounted.sound hs hrun'
  exact ⟨s', hs', (Registry.later_of_run hr).baseUrl⟩

theorem one_server_visit :
    ∃ p, (process Unit Unit).run idleProcess visit = some p ∧
      visit.countP Process.starts = (p.server.elim 0 fun _ => 1) ∧
      p.opened.length ≤ p.deliveries := by
  obtain ⟨p, hrun, -⟩ := run_visit
  obtain ⟨hstarts, -, hwindows, -⟩ := one_server ⟨rfl, rfl, rfl⟩ hrun
  exact ⟨p, hrun, hstarts, hwindows⟩

/-! ## §2 What is left to do -/

/-- The steps left of a registration. -/
def Call.work (c : Call) : ℕ := 3 - c.pc.rank

/-- The steps left of a call, its registration included while it has none. -/
def JobPc.work (started : Bool) : JobPc → ℕ
  | .running => 8
  | .registering _ => if started then 5 else 7
  | .starting _ => 6
  | .waiting => 1
  | .ended _ => 0

def Registry.work (s : Registry) : ℕ := (s.calls.map Call.work).sum

namespace Process

/-- The steps left of all calls and of their registrations. -/
def work (p : Process Options Spec) : ℕ :=
  (p.jobs.map fun job => job.pc.work p.server.isSome).sum + p.server.elim 0 Registry.work

/-- The steps of calls and of registrations. -/
def isWork : ProcessLabel Options Spec → Bool
  | .dispatch _ => true
  | .enter _ => true
  | .start _ _ => true
  | .register _ _ => true
  | .server (.insert _) => true
  | .server (.publish _) => true
  | .server (.finish _) => true
  | .finish _ _ => true
  | _ => false

def isCall : ProcessLabel Options Spec → Bool
  | .call _ _ _ _ => true
  | _ => false

theorem work_setJob {j : ℕ} {job : Job Options Spec} (hj : p.jobs[j]? = some job) (pc : JobPc) :
    (p.setJob j pc).work + job.pc.work p.server.isSome =
      p.work + pc.work p.server.isSome := by
  have hsum : ((p.setJob j pc).jobs.map fun job => job.pc.work p.server.isSome).sum +
      job.pc.work p.server.isSome =
        (p.jobs.map fun job => job.pc.work p.server.isSome).sum + pc.work p.server.isSome :=
    sum_map_modify (fun job : Job Options Spec => { job with pc := pc }) _ hj
  have hserver : (p.setJob j pc).server = p.server := rfl
  simp only [work, hserver]
  omega

/-- A step that takes a call to a place with less left to do. -/
theorem work_setJob_lt {j : ℕ} {job : Job Options Spec} (hj : p.jobs[j]? = some job) {pc : JobPc}
    (h : pc.work p.server.isSome < job.pc.work p.server.isSome) :
    1 + (p.setJob j pc).work ≤ p.work := by
  have hsum := work_setJob hj pc
  omega

theorem work_dispatched (started : Bool) (stage : Except Fault Stage) :
    (dispatched stage).work started < 8 := by
  unfold dispatched
  split
  · exact Nat.zero_lt_succ 7
  · exact Nat.zero_lt_succ 7
  · cases started with
    | true => exact (by decide : 5 < 8)
    | false => exact (by decide : 7 < 8)

/-- A server that has started leaves no call more to do. -/
theorem work_started (pc : JobPc) : pc.work true ≤ pc.work false := by
  cases pc with
  | registering hep => exact (by decide : 5 ≤ 7)
  | running => exact le_rfl
  | starting hep => exact le_rfl
  | waiting => exact le_rfl
  | ended r => exact le_rfl

theorem work_setCall {s : Registry} {k : ℕ} {id : PlotId} {hep : Bytes} {pc₀ pc : CallPc}
    (hk : s.calls[k]? = some ⟨id, hep, pc₀⟩) (hpc : pc.rank = pc₀.rank + 1)
    (hle : pc.rank ≤ 3) : 1 + ((s.setCall k pc).calls.map Call.work).sum ≤ s.work := by
  have hsum : ((s.setCall k pc).calls.map Call.work).sum + (3 - pc₀.rank) =
      s.work + (3 - pc.rank) :=
    sum_map_modify (fun c : Call => { c with pc := pc }) Call.work hk
  omega

/-- What a step of the registry other than a new registration leaves to do. -/
theorem work_registry {s s' : Registry} {l : RegistryLabel} (h : registry.step s l = some s')
    (hbegin : ∀ id hep, l ≠ .begin id hep) :
    (if isWork (.server l : ProcessLabel Options Spec) then 1 else 0) + s'.work ≤ s.work := by
  have h : s.step l = some s' := h
  -- time and requests leave the registrations alone
  have hsame : s'.calls = s.calls → 0 + s'.work ≤ s.work := by
    intro hcalls
    rw [Nat.zero_add, Registry.work, Registry.work, hcalls]
  cases l with
  | tick d => cases h; exact hsame rfl
  | begin id hep => exact absurd rfl (hbegin id hep)
  | insert k =>
    simp only [Registry.step] at h
    split at h <;> cases h
    rename_i id hep hk
    exact work_setCall hk rfl (by decide)
  | publish k =>
    simp only [Registry.step] at h
    split at h <;> cases h
    rename_i id hep hk
    exact work_setCall hk rfl (by decide)
  | finish k =>
    simp only [Registry.step] at h
    split at h <;> cases h
    rename_i id hep hk
    exact work_setCall hk rfl le_rfl
  | arrive url => cases h; exact hsame rfl
  | serve r =>
    simp only [Registry.step] at h
    split at h
    · split_ifs at h <;> cases h <;> exact hsame rfl
    · cases h
  | readLatest r =>
    simp only [Registry.step] at h
    split at h <;> cases h
    exact hsame rfl

/-- **What a step leaves to do.** -/
theorem work_of_step {l : ProcessLabel Options Spec} (h : Sound p)
    (hstep : (process Options Spec).step p l = some p') :
    (if isWork l then 1 else 0) + p'.work ≤ p.work + if isCall l then 8 else 0 := by
  cases move_of_step hstep with
  | call job hpc hreg hp' hl =>
    subst hp' hl
    have hnew : ((p.jobs ++ [job]).map fun job => job.pc.work p.server.isSome).sum =
        (p.jobs.map fun job => job.pc.work p.server.isSome).sum + 8 := by
      rw [List.map_append, List.sum_append, List.map_singleton, List.sum_singleton, hpc]
      rfl
    show 0 + (((p.jobs ++ [job]).map fun job => job.pc.work p.server.isSome).sum +
      p.server.elim 0 Registry.work) ≤ p.work + 8
    rw [hnew, work]
    omega
  | dispatch j job hj hpc hp' hl =>
    subst hp' hl
    exact work_setJob_lt hj (by rw [hpc]; exact work_dispatched _ _)
  | enter j job hep hj hpc hserver hidle hp' hl =>
    subst hp' hl
    exact work_setJob_lt hj (by rw [hpc, hserver]; exact (by decide : 6 < 7))
  | unstarted j job hep o text hj hpc hstart hp' hl =>
    subst hp' hl
    exact work_setJob_lt hj (by rw [hpc]; exact (by decide : 0 < 6))
  | started j job hep o s hj hpc hstart hp' hl =>
    subst hp' hl
    have hnone : p.server = none := by
      have hfits := h.fits j job hj
      simp only [Job.Fits, hpc] at hfits
      exact hfits.1
    have hcalls : s.work = 0 := by
      rw [Registry.work, (startServer_ok hstart).1.2.2.1]
      rfl
    -- the call that started it goes from 6 to 5, and no other has more to do
    have hsum := sum_map_modify (fun job : Job Options Spec => { job with pc := .registering hep })
      (fun job => job.pc.work true) hj
    have hothers := List.sum_le_sum (l := p.jobs)
      (f := fun job => job.pc.work true) (g := fun job => job.pc.work false)
      fun job _ => work_started job.pc
    have hbefore : job.pc.work true = 6 := by rw [hpc]; rfl
    have hafter : (JobPc.registering hep).work true = 5 := rfl
    show 1 + (((p.setJob j (.registering hep)).jobs.map fun job => job.pc.work true).sum +
      s.work) ≤ p.work + 0
    rw [work, hnone]
    simp only [setJob, Option.elim_none, Option.isSome_none] at hsum ⊢
    omega
  | register j job id hep s s' hj hpc hserver hbegin hp' hl =>
    subst hp' hl
    have hcalls : s'.work = s.work + 3 := by
      obtain ⟨-, hs'⟩ := Option.ite_none_left_eq_some.mp (show s.step (.begin id hep) = some s'
        from hbegin)
      cases hs'
      simp [Registry.work, Call.work, CallPc.rank]
    have hsum := sum_map_modify (fun job : Job Options Spec =>
      { job with registration := some s.calls.length, pc := JobPc.waiting })
      (fun job => job.pc.work true) hj
    have hbefore : job.pc.work true = 5 := by rw [hpc]; rfl
    have hafter : JobPc.waiting.work true = 1 := rfl
    show 1 + (((p.jobs.modify j fun job =>
      { job with registration := some s.calls.length, pc := JobPc.waiting }).map fun job =>
        job.pc.work true).sum + s'.work) ≤ p.work + 0
    rw [work, hserver]
    simp only [Option.elim_some, Option.isSome_some] at hsum ⊢
    omega
  | server s s' rl hserver hbegin hserve hp' hl =>
    subst hp' hl
    have hregistry := @work_registry Options Spec s s' rl hserve hbegin
    have hjobs : p.work = (p.jobs.map fun job => job.pc.work true).sum + s.work := by
      rw [work, hserver]
      rfl
    show _ + ((p.jobs.map fun job => job.pc.work true).sum + s'.work) ≤ p.work + 0
    omega
  | finish j job s k c r noOpenBrowser hj hpc hreg hserver hk hc hp' hl =>
    subst hp' hl
    exact work_setJob_lt hj (by rw [hpc]; exact (by decide : 0 < 1))

/-! ## §3 No call waits for ever -/

/-- All calls have ended. -/
def Settled (p : Process Options Spec) : Prop := ∀ job ∈ p.jobs, job.pc.isEnded = true

/-- An id that no registration has. -/
theorem exists_fresh (calls : List Call) : ∃ id : PlotId, ∀ c ∈ calls, c.id ≠ id := by
  -- an id that is longer than all of them together
  let text : Bytes := List.replicate ((calls.map fun c => c.id.text.length).sum + 1) 0x61
  have hchar : ∀ c ∈ text, isIdChar c = true := by
    intro c hc
    rw [(List.mem_replicate.mp hc).2]
    decide
  refine ⟨⟨text, by simp [text], hchar⟩, ?_⟩
  intro c hc heq
  have hlength : c.id.text.length = (calls.map fun c => c.id.text.length).sum + 1 := by
    rw [heq]
    exact List.length_replicate
  have hle : c.id.text.length ≤ (calls.map fun c => c.id.text.length).sum :=
    List.le_sum_of_mem (List.mem_map.mpr ⟨c, hc, rfl⟩)
  omega

/-- What the system can always answer. -/
def someStart : StartOutcome where
  bound := .error []
  spawned := .ok ()
  now := 0

theorem pcOf_of_job {j : ℕ} {job : Job Options Spec} {pc : JobPc} (hj : p.jobs[j]? = some job)
    (hpc : job.pc = pc) : p.pcOf j = some pc := by
  rw [pcOf, hj, Option.map_some, hpc]

/-- A server that is being started can be started, or fails to. -/
theorem start_enabled {j : ℕ} {job : Job Options Spec} {hep : Bytes} (hj : p.jobs[j]? = some job)
    (hpc : job.pc = .starting hep) (o : StartOutcome) :
    ∃ p', (process Options Spec).step p (.start j o) = some p' := by
  show ∃ p', p.step (.start j o) = some p'
  simp only [step, pcOf_of_job hj hpc]
  cases startServer o with
  | ok s => exact ⟨_, rfl⟩
  | error text => exact ⟨_, rfl⟩

theorem server_enabled {s s' : Registry} {l : RegistryLabel} (hserver : p.server = some s)
    (hl : ∀ id hep, l ≠ .begin id hep) (hstep : s.step l = some s') :
    (process Options Spec).step p (.server l) = some { p with server := some s' } := by
  show p.step (.server l) = _
  cases l with
  | begin id hep => exact absurd rfl (hl id hep)
  | _ => simp only [step, hserver, hstep, Option.map_some]

/-- A registration that a call waits for can go on, or the call can. -/
theorem waiting_enabled {j k : ℕ} {job : Job Options Spec} {s : Registry} {c : Call}
    (hj : p.jobs[j]? = some job) (hpc : job.pc = .waiting) (hreg : job.registration = some k)
    (hserver : p.server = some s) (hk : s.calls[k]? = some c) :
    ∃ l p', isWork l = true ∧ (process Options Spec).step p l = some p' := by
  obtain ⟨id, hep, pc⟩ := c
  cases pc with
  | started =>
    have hsome : (s.step (.insert k)).isSome = true := by
      simp only [Registry.step, hk, Option.isSome_some]
    obtain ⟨s', hstep⟩ := Option.isSome_iff_exists.mp hsome
    exact ⟨.server (.insert k), _, rfl, server_enabled hserver (by simp) hstep⟩
  | inserted =>
    have hsome : (s.step (.publish k)).isSome = true := by
      simp only [Registry.step, hk, Option.isSome_some]
    obtain ⟨s', hstep⟩ := Option.isSome_iff_exists.mp hsome
    exact ⟨.server (.publish k), _, rfl, server_enabled hserver (by simp) hstep⟩
  | published =>
    have hsome : (s.step (.finish k)).isSome = true := by
      simp only [Registry.step, hk, Option.isSome_some]
    obtain ⟨s', hstep⟩ := Option.isSome_iff_exists.mp hsome
    exact ⟨.server (.finish k), _, rfl, server_enabled hserver (by simp) hstep⟩
  | returned r =>
    obtain ⟨crates, query, writer, options, registration, jpc⟩ := job
    obtain rfl : registration = some k := hreg
    obtain rfl : jpc = .waiting := hpc
    have hsome : (p.step (.finish j true)).isSome = true := by
      simp only [step, hserver, hj, hk, Option.isSome_some]
    obtain ⟨p', hstep⟩ := Option.isSome_iff_exists.mp hsome
    exact ⟨.finish j true, p', rfl, hstep⟩

/-- **Until all calls have ended, one of them can go on.** -/
theorem Sound.progress (h : Sound p) (hopen : ¬ Settled p) :
    ∃ l p', isWork l = true ∧ (process Options Spec).step p l = some p' := by
  obtain ⟨job, hmem, hpc⟩ : ∃ job ∈ p.jobs, job.pc.isEnded ≠ true := by
    simpa [Settled] using hopen
  obtain ⟨j, hj⟩ := List.mem_iff_getElem?.mp hmem
  have hfits := h.fits j job hj
  unfold Job.Fits at hfits
  cases hplace : job.pc with
  | running =>
    obtain ⟨crates, query, writer, options, registration, jpc⟩ := job
    obtain rfl : jpc = .running := hplace
    have hsome : (p.step (.dispatch j)).isSome = true := by
      simp only [Process.step, hj, Option.isSome_some]
    obtain ⟨p', hstep⟩ := Option.isSome_iff_exists.mp hsome
    exact ⟨.dispatch j, p', rfl, hstep⟩
  | registering hep =>
    have hpcOf := pcOf_of_job hj hplace
    cases hserver : p.server with
    | some s =>
      -- the server is there
      obtain ⟨id, hfresh⟩ := exists_fresh s.calls
      have hstep : s.step (.begin id hep) =
          some { s with calls := s.calls ++ [⟨id, hep, .started⟩] } := by
        apply if_neg
        simpa using hfresh
      have hsome : (p.step (.register j id)).isSome = true := by
        simp only [Process.step, hserver, hpcOf, hstep, Option.map_some, Option.isSome_some]
      obtain ⟨p', hp'⟩ := Option.isSome_iff_exists.mp hsome
      exact ⟨.register j id, p', rfl, hp'⟩
    | none =>
      by_cases hbusy : (p.jobs.any fun other => other.pc.isStarting) = true
      · -- another call starts it, and can end its start
        obtain ⟨other, hother, hstarting⟩ := List.any_eq_true.mp hbusy
        obtain ⟨i, hi⟩ := List.mem_iff_getElem?.mp hother
        obtain ⟨hep', hpc'⟩ : ∃ hep', other.pc = .starting hep' := by
          unfold JobPc.isStarting at hstarting
          split at hstarting
          · exact ⟨_, by assumption⟩
          · cases hstarting
        obtain ⟨p', hp'⟩ := start_enabled hi hpc' someStart
        exact ⟨.start i someStart, p', rfl, hp'⟩
      · have hsome : (p.step (.enter j)).isSome = true := by
          simp only [Process.step, hserver, hpcOf, if_neg hbusy, Option.isSome_some]
        obtain ⟨p', hp'⟩ := Option.isSome_iff_exists.mp hsome
        exact ⟨.enter j, p', rfl, hp'⟩
  | starting hep =>
    obtain ⟨p', hp'⟩ := start_enabled hj hplace someStart
    exact ⟨.start j someStart, p', rfl, hp'⟩
  | waiting =>
    simp only [hplace] at hfits
    obtain ⟨s, k, c, hserver, hreg, hk, -⟩ := hfits
    exact waiting_enabled hj hplace hreg hserver hk
  | ended r =>
    rw [hplace] at hpc
    exact absurd rfl hpc

end Process

/-- **No call waits for ever.**  Calls and their registrations take eight steps at most for each
call, in any run; and from every state that can be reached such steps lead to one in which all
calls have ended, whichever call was starting the server and whether or not it starts. -/
theorem calls_come_to_an_end :
    (∀ (p₀ p : Process Options Spec) tr, (process Options Spec).init p₀ →
      (process Options Spec).run p₀ tr = some p →
      tr.countP Process.isWork ≤ 8 * tr.countP Process.isCall) ∧
    ∀ p : Process Options Spec, (process Options Spec).Reachable p →
      ∃ tr p', (∀ l ∈ tr, Process.isWork l = true) ∧
        (process Options Spec).run p tr = some p' ∧ Process.Settled p' := by
  refine ⟨?_, ?_⟩
  · intro p₀ p tr h₀ hrun
    have hwork := Machine.run_countP_le_gain Process.isWork Process.isCall 8 Process.work
      Process.Sound (fun _ _ _ hs hstep => ⟨hs.step hstep, Process.work_of_step hs hstep⟩)
      (Process.sound_of_reachable (.of_init h₀)) hrun
    obtain ⟨hserver, hjobs, -⟩ := h₀
    have hnothing : p₀.work = 0 := by
      rw [Process.work, hserver, hjobs]
      rfl
    omega
  · intro p hp
    have hprogress : ∀ p : Process Options Spec, Process.Sound p → ¬ Process.Settled p →
        ∃ l p', Process.isWork l = true ∧ (process Options Spec).step p l = some p' ∧
          Process.Sound p' ∧ p'.work < p.work := by
      intro p hs hopen
      obtain ⟨l, p', hl, hstep⟩ := hs.progress hopen
      have hwork := Process.work_of_step hs hstep
      have hcall : Process.isCall l = false := by
        cases l with
        | call crates query writer options => cases hl
        | _ => rfl
      rw [hl, hcall] at hwork
      simp only [if_true, Bool.false_eq_true, if_false] at hwork
      exact ⟨l, p', hl, hstep, hs.step hstep, by omega⟩
    obtain ⟨tr, p', htr, hrun, -, hend⟩ :=
      Machine.exists_run_to _ Process.work hprogress (Process.sound_of_reachable hp)
    exact ⟨tr, p', htr, hrun, hend⟩

/-- One call is starting the server, and a second one waits for it. -/
def waitingForStart : List (ProcessLabel Unit Unit) :=
  [.call distinct [] (ascii "url") [], .call distinct [] (ascii "url") [], .dispatch 0,
    .dispatch 1, .enter 0]

theorem calls_come_to_an_end_starting :
    ∃ p tr p', (process Unit Unit).run idleProcess waitingForStart = some p ∧
      ¬ Process.Settled p ∧
      waitingForStart.countP Process.isWork ≤ 8 * waitingForStart.countP Process.isCall ∧
      (∀ l ∈ tr, Process.isWork l = true) ∧ (process Unit Unit).run p tr = some p' ∧
      Process.Settled p' := by
  obtain ⟨p, hrun, job, hjob, hwaits⟩ : ∃ p, (process Unit Unit).run idleProcess waitingForStart =
      some p ∧ ∃ job, p.jobs[1]? = some job ∧ job.pc.isEnded = false := ⟨_, rfl, _, rfl, rfl⟩
  have hbound := calls_come_to_an_end.1 idleProcess p waitingForStart ⟨rfl, rfl, rfl⟩ hrun
  obtain ⟨tr, p', htr, hrun', hend⟩ :=
    calls_come_to_an_end.2 p ⟨idleProcess, waitingForStart, ⟨rfl, rfl, rfl⟩, hrun⟩
  refine ⟨p, tr, p', hrun, ?_, hbound, htr, hrun', hend⟩
  intro hsettled
  have hended := hsettled job (List.mem_of_getElem? hjob)
  rw [hwaits] at hended
  cases hended

end Server

end GgsqlDuckdb
