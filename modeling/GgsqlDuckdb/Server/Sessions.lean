import GgsqlDuckdb.Library.Roster
import GgsqlDuckdb.Server.Process

/-!
# What the calls of a process leave on its server

## Main results

- `Later`: what stays of a registration over any run.
- `Move`: what a step of the process does.
- `Sound`: the invariant that ties the calls to the registrations of the one server.
- `run_registry`: a run of the process is a run of its registry.
-/

namespace GgsqlDuckdb

namespace Server

open Library Library.Utf8 Dispatch

namespace Registry

/-! ## §1 Registrations over a run -/

/-- `s'` has the registrations of `s`, as far as they had come or further. -/
structure Later (s s' : Registry) : Prop where
  baseUrl : s'.baseUrl = s.baseUrl
  calls : ∀ (k : ℕ) (c : Call), s.calls[k]? = some c →
    ∃ pc, s'.calls[k]? = some { c with pc := pc } ∧ ∀ r, c.pc = .returned r → pc = .returned r

theorem Later.refl (s : Registry) : Later s s :=
  ⟨rfl, fun _ c hk => ⟨c.pc, hk, fun _ h => h⟩⟩

theorem Later.trans {s m s' : Registry} (h : Later s m) (h' : Later m s') : Later s s' := by
  refine ⟨h'.baseUrl.trans h.baseUrl, ?_⟩
  intro k c hk
  obtain ⟨pc, hm, hreturned⟩ := h.calls k c hk
  obtain ⟨pc', hs', hreturned'⟩ := h'.calls k _ hm
  exact ⟨pc', hs', fun r hr => hreturned' r (hreturned r hr)⟩

theorem Later.length {s s' : Registry} (h : Later s s') : s.calls.length ≤ s'.calls.length := by
  by_contra hlt
  -- the call behind the last one of `s'` would be lost
  have hk : s.calls[s'.calls.length]? = some s.calls[s'.calls.length] :=
    List.getElem?_eq_getElem (by omega)
  obtain ⟨pc, hk', -⟩ := h.calls _ _ hk
  have hnone : s'.calls[s'.calls.length]? = none := List.getElem?_eq_none le_rfl
  rw [hnone] at hk'
  cases hk'

/-- What a step with the label `l` does to the registrations. -/
inductive Turn (s : Registry) (l : RegistryLabel) (s' : Registry) : Prop
  | stay (hcalls : s'.calls = s.calls)
  | begin (id : PlotId) (hep : Bytes) (hl : l = .begin id hep)
      (hcalls : s'.calls = s.calls ++ [⟨id, hep, .started⟩])
  | advance (j : ℕ) (id : PlotId) (hep : Bytes) (pc₀ pc : CallPc)
      (hj : s.calls[j]? = some ⟨id, hep, pc₀⟩) (hpc₀ : ∀ r, pc₀ ≠ .returned r)
      (hreturned : ∀ r, pc = .returned r → r = registered s.baseUrl s.now s.state id)
      (hcalls : s'.calls = (s.setCall j pc).calls)

theorem turn_of_step {s s' : Registry} {l : RegistryLabel} (h : registry.step s l = some s') :
    s'.baseUrl = s.baseUrl ∧ Turn s l s' := by
  have h : s.step l = some s' := h
  cases l with
  | tick d => cases h; exact ⟨rfl, .stay rfl⟩
  | begin id hep =>
    obtain ⟨-, hs'⟩ := Option.ite_none_left_eq_some.mp h
    cases hs'
    exact ⟨rfl, .begin id hep rfl rfl⟩
  | insert k =>
    simp only [step] at h
    split at h <;> cases h
    rename_i id hep hk
    exact ⟨rfl, .advance k id hep _ _ hk (fun r => by simp) (fun r hr => by cases hr) rfl⟩
  | publish k =>
    simp only [step] at h
    split at h <;> cases h
    rename_i id hep hk
    exact ⟨rfl, .advance k id hep _ _ hk (fun r => by simp) (fun r hr => by cases hr) rfl⟩
  | finish k =>
    simp only [step] at h
    split at h <;> cases h
    rename_i id hep hk
    exact ⟨rfl, .advance k id hep _ _ hk (fun r => by simp)
      (fun r hr => (CallPc.returned.inj hr).symm) rfl⟩
  | arrive url => cases h; exact ⟨rfl, .stay rfl⟩
  | serve r =>
    simp only [step] at h
    split at h
    · split_ifs at h <;> cases h <;> exact ⟨rfl, .stay rfl⟩
    · cases h
  | readLatest r =>
    simp only [step] at h
    split at h <;> cases h
    exact ⟨rfl, .stay rfl⟩

theorem later_of_step {s s' : Registry} {l : RegistryLabel} (h : registry.step s l = some s') :
    Later s s' := by
  obtain ⟨hbase, hturn⟩ := turn_of_step h
  refine ⟨hbase, ?_⟩
  intro k c hk
  cases hturn with
  | stay hcalls => exact ⟨c.pc, hcalls ▸ hk, fun r hr => hr⟩
  | begin id hep hl hcalls =>
    have hlt := (List.getElem?_eq_some_iff.mp hk).1
    exact ⟨c.pc, by rw [hcalls, List.getElem?_append_left hlt, hk], fun r hr => hr⟩
  | advance j id hep pc₀ pc hj hpc₀ hreturned hcalls =>
    rw [hcalls, getElem?_setCall, hk]
    by_cases hjk : j = k
    · -- a registration that a step takes further has not returned
      subst hjk
      obtain rfl : ⟨id, hep, pc₀⟩ = c := Option.some.inj (hj.symm.trans hk)
      exact ⟨pc, by simp, fun r hr => absurd hr (hpc₀ r)⟩
    · exact ⟨c.pc, by simp [hjk], fun r hr => hr⟩

theorem later_of_run {s s' : Registry} {tr : List RegistryLabel}
    (h : registry.run s tr = some s') : Later s s' :=
  Machine.run_invariant (Later s) (fun _ _ _ hs hstep => hs.trans (later_of_step hstep))
    (Later.refl s) h

/-- Nothing but registrations writes plots, and what they return is read off the registry. -/
structure Written (s : Registry) : Prop where
  plots : ∀ id hep, s.state.plots id = some hep →
    ∃ (k : ℕ) (c : Call), s.calls[k]? = some c ∧ c.id.text = id ∧ c.hep = hep ∧ 1 ≤ c.pc.rank
  returned : ∀ (k : ℕ) (c : Call) (r : Registered), s.calls[k]? = some c → c.pc = .returned r →
    ∃ now st, r = registered s.baseUrl now st c.id

/-- A registration that has returned did so before, or returns now. -/
theorem returned_of_step {s s' : Registry} {l : RegistryLabel} (h : registry.step s l = some s')
    {k : ℕ} {c : Call} {r : Registered} (hk : s'.calls[k]? = some c) (hc : c.pc = .returned r) :
    s.calls[k]? = some c ∨ r = registered s.baseUrl s.now s.state c.id := by
  cases (turn_of_step h).2 with
  | stay hcalls => exact Or.inl (hcalls ▸ hk)
  | begin id hep hl hcalls =>
    rw [hcalls] at hk
    rcases getElem?_concat_cases hk with hold | ⟨-, rfl⟩
    · exact Or.inl hold
    · cases hc
  | advance j id hep pc₀ pc hj hpc₀ hreturned hcalls =>
    rw [hcalls] at hk
    rcases getElem?_modify_cases hk with ⟨rfl, d, hd, rfl⟩ | ⟨-, hold⟩
    · obtain rfl : ⟨id, hep, pc₀⟩ = d := Option.some.inj (hj.symm.trans hd)
      exact Or.inr (hreturned r hc)
    · exact Or.inl hold

theorem Written.step {s s' : Registry} {l : RegistryLabel} (hs : Written s)
    (h : registry.step s l = some s') : Written s' := by
  have heffect := effect_of_step h
  -- a registration that has stored its plot stays one
  have hkeep : ∀ id hep, s.state.plots id = some hep →
      ∃ (k : ℕ) (c : Call), s'.calls[k]? = some c ∧ c.id.text = id ∧ c.hep = hep ∧
        1 ≤ c.pc.rank := by
    intro id hep hplot
    obtain ⟨k, c, hk, hid, hhep, hrank⟩ := hs.plots id hep hplot
    obtain ⟨pc, hk', hpc⟩ := heffect.advance hk
    exact ⟨k, _, hk', hid, hhep, hrank.trans hpc⟩
  refine ⟨?_, ?_⟩
  · intro id hep hplot
    cases heffect with
    | other hcalls hplots => exact hkeep id hep (hplots ▸ hplot)
    | begin _ _ hfresh hcalls hstate => exact hkeep id hep (hstate ▸ hplot)
    | publish _ _ _ hk hcalls hstate =>
      exact hkeep id hep (by simpa [hstate, State.setLatest] using hplot)
    | finish _ _ _ r hk hcalls hstate => exact hkeep id hep (hstate ▸ hplot)
    | insert k id₀ hep₀ hk hcalls hstate =>
      rw [hstate] at hplot
      have hplot : Function.update s.state.plots id₀.text (some hep₀) id = some hep := hplot
      by_cases hid : id = id₀.text
      · -- the plot that is stored in this step
        subst hid
        rw [Function.update_self, Option.some.injEq] at hplot
        refine ⟨k, ⟨id₀, hep₀, .inserted⟩, ?_, rfl, hplot, le_rfl⟩
        rw [hcalls, getElem?_setCall, hk]
        simp
      · rw [Function.update_of_ne hid] at hplot
        exact hkeep id hep hplot
  · intro k c r hk hc
    rw [(turn_of_step h).1]
    rcases returned_of_step h hk hc with hold | hnow
    · exact hs.returned k c r hold hc
    · exact ⟨s.now, s.state, hnow⟩

theorem written_of_reachable {s : Registry} (h : registry.Reachable s) : Written s := by
  refine h.invariant Written ?_ fun _ _ _ hs hstep => hs.step hstep
  rintro s₀ ⟨hstate, -, hcalls, -⟩
  refine ⟨?_, ?_⟩
  · intro id hep hplot
    rw [hstate] at hplot
    cases hplot
  · intro k c r hk
    rw [hcalls] at hk
    cases hk

/-- **The plots are those the registrations have stored.** -/
theorem plots_iff {s : Registry} (h : registry.Reachable s) (id hep : Bytes) :
    s.state.plots id = some hep ↔
      ∃ (k : ℕ) (c : Call), s.calls[k]? = some c ∧ c.id.text = id ∧ c.hep = hep ∧
        1 ≤ c.pc.rank := by
  constructor
  · exact (written_of_reachable h).plots id hep
  · rintro ⟨k, c, hk, rfl, rfl, hrank⟩
    exact (sound_of_reachable h).consistent.stored k c hk hrank

end Registry

/-! ## §2 What a step of the process does -/

variable {Options Spec : Type}

namespace Process

/-- The step of a call, of the registry, or of both. -/
inductive Move (l : ProcessLabel Options Spec) (p p' : Process Options Spec) : Prop
  | call (job : Job Options Spec) (hpc : job.pc = .running) (hreg : job.registration = none)
      (hp' : p' = { p with jobs := p.jobs ++ [job] })
      (hl : l = .call job.crates job.query job.writer job.options)
  | dispatch (j : ℕ) (job : Job Options Spec) (hj : p.jobs[j]? = some job)
      (hpc : job.pc = .running) (hp' : p' = p.setJob j (dispatched job.stage))
      (hl : l = .dispatch j)
  | enter (j : ℕ) (job : Job Options Spec) (hep : Bytes) (hj : p.jobs[j]? = some job)
      (hpc : job.pc = .registering hep) (hserver : p.server = none)
      (hidle : ∀ other ∈ p.jobs, other.pc.isStarting = false)
      (hp' : p' = p.setJob j (.starting hep)) (hl : l = .enter j)
  | started (j : ℕ) (job : Job Options Spec) (hep : Bytes) (o : StartOutcome) (s : Registry)
      (hj : p.jobs[j]? = some job) (hpc : job.pc = .starting hep) (hstart : startServer o = .ok s)
      (hp' : p' = { p.setJob j (.registering hep) with server := some s }) (hl : l = .start j o)
  | unstarted (j : ℕ) (job : Job Options Spec) (hep : Bytes) (o : StartOutcome) (text : Bytes)
      (hj : p.jobs[j]? = some job) (hpc : job.pc = .starting hep)
      (hstart : startServer o = .error text)
      (hp' : p' = p.setJob j (.ended (.error (startFault text)))) (hl : l = .start j o)
  | register (j : ℕ) (job : Job Options Spec) (id : PlotId) (hep : Bytes) (s s' : Registry)
      (hj : p.jobs[j]? = some job) (hpc : job.pc = .registering hep) (hserver : p.server = some s)
      (hstep : registry.step s (.begin id hep) = some s')
      (hp' : p' = { p with
        server := some s'
        jobs := p.jobs.modify j fun job =>
          { job with registration := some s.calls.length, pc := .waiting } })
      (hl : l = .register j id)
  | server (s s' : Registry) (rl : RegistryLabel) (hserver : p.server = some s)
      (hbegin : ∀ id hep, rl ≠ .begin id hep) (hstep : registry.step s rl = some s')
      (hp' : p' = { p with server := some s' }) (hl : l = .server rl)
  | finish (j : ℕ) (job : Job Options Spec) (s : Registry) (k : ℕ) (c : Call) (r : Registered)
      (noOpenBrowser : Bool) (hj : p.jobs[j]? = some job) (hpc : job.pc = .waiting)
      (hreg : job.registration = some k) (hserver : p.server = some s)
      (hk : s.calls[k]? = some c) (hc : c.pc = .returned r)
      (hp' : p' = { p.setJob j (.ended (served job.writer r)) with
        opened := p.opened ++ if spawns noOpenBrowser r then [r.openUrl] else [] })
      (hl : l = .finish j noOpenBrowser)

theorem job_of_pcOf {p : Process Options Spec} {j : ℕ} {pc : JobPc} (h : p.pcOf j = some pc) :
    ∃ job, p.jobs[j]? = some job ∧ job.pc = pc := Option.map_eq_some_iff.mp h

/-- **The inversion of a step.** -/
theorem move_of_step {p p' : Process Options Spec} {l : ProcessLabel Options Spec}
    (h : (process Options Spec).step p l = some p') : Move l p p' := by
  have h : p.step l = some p' := h
  cases l with
  | call crates query writer options =>
    cases h
    exact .call _ rfl rfl rfl rfl
  | dispatch j =>
    simp only [step] at h
    split at h
    · rename_i crates query writer options reg hj
      cases h
      exact .dispatch j _ hj rfl rfl rfl
    · cases h
  | enter j =>
    simp only [step] at h
    split at h
    · rename_i hep hserver hpc
      obtain ⟨job, hj, hpc⟩ := job_of_pcOf hpc
      obtain ⟨hidle, hp'⟩ := Option.ite_none_left_eq_some.mp h
      cases hp'
      exact .enter j job hep hj hpc hserver (by simpa using hidle) rfl rfl
    · cases h
  | start j o =>
    simp only [step] at h
    split at h
    · rename_i hep hpc
      obtain ⟨job, hj, hpc⟩ := job_of_pcOf hpc
      split at h
      · rename_i s hstart
        cases h
        exact .started j job hep o s hj hpc hstart rfl rfl
      · rename_i text hstart
        cases h
        exact .unstarted j job hep o text hj hpc hstart rfl rfl
    · cases h
  | register j id =>
    simp only [step] at h
    split at h
    · rename_i s hep hserver hpc
      obtain ⟨job, hj, hpc⟩ := job_of_pcOf hpc
      obtain ⟨s', hstep, rfl⟩ := Option.map_eq_some_iff.mp h
      exact .register j job id hep s s' hj hpc hserver hstep rfl rfl
    · cases h
  | server l =>
    simp only [step] at h
    split at h
    · cases h
    · rename_i l _ _ s hserver hl _
      obtain ⟨s', hstep, rfl⟩ := Option.map_eq_some_iff.mp h
      exact .server s s' l hserver (fun id hep heq => hl id hep heq) hstep rfl rfl
    · cases h
  | finish j noOpenBrowser =>
    simp only [step] at h
    split at h
    · rename_i s crates query writer options k hserver hj
      split at h
      · rename_i id hep r hk
        cases h
        exact .finish j _ s k _ r noOpenBrowser hj rfl rfl hserver hk rfl rfl rfl
      · cases h
    · cases h

end Process

/-! ## §3 The invariant -/

/-- How a call has ended, against the server. -/
inductive Job.Ended (server : Option Registry) (job : Job Options Spec) (r : Except Fault Bytes) :
    Prop
  /-- It never came to the server. -/
  | plain (hreg : job.registration = none) (hstage : job.stage = r.map Stage.payload)
  /-- The server did not start. -/
  | unserved (hep text : Bytes) (hr : r = .error (Process.startFault text))
      (hreg : job.registration = none) (hstage : job.stage = .ok (.serve hep))
  | served (s : Registry) (k : ℕ) (c : Call) (reg : Registered)
      (hr : r = Dispatch.served job.writer reg) (hserver : server = some s)
      (hreg : job.registration = some k) (hk : s.calls[k]? = some c) (hc : c.pc = .returned reg)
      (hstage : job.stage = .ok (.serve c.hep))

/-- What a call has come to, against the server. -/
def Job.Fits (server : Option Registry) (job : Job Options Spec) : Prop :=
  match job.pc with
  | .running => job.registration = none
  | .registering hep => job.registration = none ∧ job.stage = .ok (.serve hep)
  | .starting hep => server = none ∧ job.registration = none ∧ job.stage = .ok (.serve hep)
  | .waiting => ∃ s k c, server = some s ∧ job.registration = some k ∧ s.calls[k]? = some c ∧
      job.stage = .ok (.serve c.hep)
  | .ended r => job.Ended server r

namespace Job

variable {job : Job Options Spec}

/-- What a call has come to stays true over the steps of the registry. -/
theorem Fits.later {s s' : Registry} (h : job.Fits (some s)) (hlater : Registry.Later s s') :
    job.Fits (some s') := by
  unfold Fits at h ⊢
  cases hpc : job.pc with
  | running => simpa [hpc] using h
  | registering hep => simpa [hpc] using h
  | starting hep => simp [hpc] at h
  | waiting =>
    simp only [hpc] at h ⊢
    obtain ⟨_, k, c, ⟨⟩, hreg, hk, hstage⟩ := h
    obtain ⟨pc, hk', -⟩ := hlater.calls k c hk
    exact ⟨s', k, _, rfl, hreg, hk', hstage⟩
  | ended r =>
    simp only [hpc] at h ⊢
    cases h with
    | plain hreg hstage => exact .plain hreg hstage
    | unserved hep text hr hreg hstage => exact .unserved hep text hr hreg hstage
    | served s₀ k c reg hr hserver hreg hk hc hstage =>
      cases hserver
      obtain ⟨pc, hk', hreturned⟩ := hlater.calls k c hk
      exact .served s' k _ reg hr rfl hreg hk' (hreturned reg hc) hstage

/-- A server that has just started changes nothing for the calls that do not start one. -/
theorem Fits.start {s : Registry} (h : job.Fits none) (hidle : job.pc.isStarting = false) :
    job.Fits (some s) := by
  unfold Fits at h ⊢
  cases hpc : job.pc with
  | running => simpa [hpc] using h
  | registering hep => simpa [hpc] using h
  | starting hep =>
    rw [hpc] at hidle
    cases hidle
  | waiting => simp [hpc] at h
  | ended r =>
    simp only [hpc] at h ⊢
    cases h with
    | plain hreg hstage => exact .plain hreg hstage
    | unserved hep text hr hreg hstage => exact .unserved hep text hr hreg hstage
    | served s₀ k c reg hr hserver hreg hk hc hstage => cases hserver

theorem Fits.dispatch {server : Option Registry} (hreg : job.registration = none) :
    Fits server { job with pc := Process.dispatched job.stage } := by
  cases hstage : job.stage with
  | error f => exact .plain hreg hstage
  | ok stage =>
    cases stage with
    | payload b => exact .plain hreg hstage
    | serve hep => exact ⟨hreg, hstage⟩

end Job

namespace Process

/-- The numbers of the registrations that the calls have begun. -/
def tickets (p : Process Options Spec) : List ℕ := p.jobs.filterMap Job.registration

/-- The calls and the registrations of the server belong together. -/
structure Sound (p : Process Options Spec) : Prop where
  fits : ∀ (j : ℕ) (job : Job Options Spec), p.jobs[j]? = some job → job.Fits p.server
  single : ∀ (i j : ℕ) (a b : Job Options Spec), p.jobs[i]? = some a → p.jobs[j]? = some b →
    a.pc.isStarting = true → b.pc.isStarting = true → i = j
  tickets : p.tickets.Perm (List.range (p.server.elim 0 fun s => s.calls.length))
  reachable : ∀ s, p.server = some s → registry.Reachable s
  baseUrl : ∀ s, p.server = some s → WellFormed s.baseUrl

theorem startServer_ok {o : StartOutcome} {s : Registry} (h : startServer o = .ok s) :
    registry.init s ∧ WellFormed s.baseUrl := by
  unfold startServer at h
  obtain ⟨addr, -, h⟩ := ok_of_bind h
  cases addr with
  | none => cases h
  | some addr =>
    obtain ⟨_, -, h⟩ := ok_of_bind h
    cases h
    refine ⟨⟨rfl, rfl, rfl, rfl⟩, ?_⟩
    have hscheme : WellFormed (ascii "http://") := by decide
    have hcolon : WellFormed (ascii ":") := by decide
    exact ((hscheme.append addr.1.wellFormed).append hcolon).append addr.2.wellFormed

variable {p p' : Process Options Spec}

theorem tickets_setJob (p : Process Options Spec) (j : ℕ) (pc : JobPc) :
    (p.setJob j pc).tickets = p.tickets :=
  filterMap_modify_of_eq fun _ => rfl

/-- One call goes on, and comes to what it should. -/
theorem Sound.setJob (h : Sound p) {j : ℕ} {job : Job Options Spec} (pc : JobPc)
    (hj : p.jobs[j]? = some job) (hfits : { job with pc := pc }.Fits p.server)
    (hsingle : pc.isStarting = true → ∀ other ∈ p.jobs, other.pc.isStarting = false) :
    Sound (p.setJob j pc) := by
  refine ⟨?_, ?_, ?_, h.reachable, h.baseUrl⟩
  · intro i a ha
    rcases getElem?_modify_cases ha with ⟨rfl, b, hb, rfl⟩ | ⟨-, hold⟩
    · rw [hj, Option.some.injEq] at hb
      exact hb ▸ hfits
    · exact h.fits i a hold
  · intro i i' a b ha hb hstarta hstartb
    -- a call that starts the server meets no other one
    rcases getElem?_modify_cases ha with ⟨rfl, a₀, ha₀, rfl⟩ | ⟨hne, holda⟩
    · rcases getElem?_modify_cases hb with ⟨rfl, -⟩ | ⟨-, holdb⟩
      · rfl
      · have hidle := hsingle hstarta b (List.mem_of_getElem? holdb)
        rw [hstartb] at hidle
        cases hidle
    · rcases getElem?_modify_cases hb with ⟨rfl, b₀, hb₀, rfl⟩ | ⟨-, holdb⟩
      · have hidle := hsingle hstartb a (List.mem_of_getElem? holda)
        rw [hstarta] at hidle
        cases hidle
      · exact h.single i i' a b holda holdb hstarta hstartb
  · rw [tickets_setJob]
    exact h.tickets

/-- The registry goes on without a new registration. -/
theorem Sound.serve (h : Sound p) {s s' : Registry} {l : RegistryLabel}
    (hserver : p.server = some s) (hstep : registry.step s l = some s')
    (hl : ∀ id hep, l ≠ .begin id hep) : Sound { p with server := some s' } := by
  have hlater := Registry.later_of_step hstep
  have hlength : s'.calls.length = s.calls.length := by
    cases (Registry.turn_of_step hstep).2 with
    | stay hcalls => rw [hcalls]
    | begin id hep hbegin => exact absurd hbegin (hl id hep)
    | advance k id hep pc₀ pc hk hpc₀ hreturned hcalls =>
      rw [hcalls, Registry.setCall, List.length_modify]
  have htickets := h.tickets
  rw [hserver] at htickets
  refine ⟨?_, h.single, ?_, ?_, ?_⟩
  · intro j job hj
    have hfits := h.fits j job hj
    rw [hserver] at hfits
    exact hfits.later hlater
  · show p.tickets.Perm (List.range s'.calls.length)
    rw [hlength]
    exact htickets
  · rintro _ ⟨⟩
    exact (h.reachable s hserver).run (Machine.run_single.mpr hstep)
  · rintro _ ⟨⟩
    rw [hlater.baseUrl]
    exact h.baseUrl s hserver

/-- A call that is at the server begins a registration there. -/
theorem Sound.register (h : Sound p) {j : ℕ} {job : Job Options Spec} {id : PlotId} {hep : Bytes}
    {s s' : Registry} (hj : p.jobs[j]? = some job) (hpc : job.pc = .registering hep)
    (hserver : p.server = some s) (hstep : registry.step s (.begin id hep) = some s') :
    Sound { p with
      server := some s'
      jobs := p.jobs.modify j fun job =>
        { job with registration := some s.calls.length, pc := .waiting } } := by
  have hlater := Registry.later_of_step hstep
  have hcalls : s'.calls = s.calls ++ [⟨id, hep, .started⟩] := by
    obtain ⟨-, hs'⟩ :=
      Option.ite_none_left_eq_some.mp (show s.step (.begin id hep) = some s' from hstep)
    cases hs'
    rfl
  -- what the call came to the server with
  obtain ⟨hreg, hstage⟩ : job.registration = none ∧ job.stage = .ok (.serve hep) := by
    simpa [Job.Fits, hpc] using h.fits j job hj
  have hnew : s'.calls[s.calls.length]? = some ⟨id, hep, .started⟩ := by
    rw [hcalls]
    simp
  refine ⟨?_, ?_, ?_, ?_, ?_⟩
  · intro i a ha
    rcases getElem?_modify_cases ha with ⟨rfl, b, hb, rfl⟩ | ⟨-, hold⟩
    · obtain rfl : job = b := Option.some.inj (hj.symm.trans hb)
      exact ⟨s', s.calls.length, _, rfl, rfl, hnew, hstage⟩
    · have hfits := h.fits i a hold
      rw [hserver] at hfits
      exact hfits.later hlater
  · intro i i' a b ha hb hstarta hstartb
    rcases getElem?_modify_cases ha with ⟨-, a₀, -, rfl⟩ | ⟨-, holda⟩
    · cases hstarta
    rcases getElem?_modify_cases hb with ⟨-, b₀, -, rfl⟩ | ⟨-, holdb⟩
    · cases hstartb
    exact h.single i i' a b holda holdb hstarta hstartb
  · -- the new ticket is the number of registrations so far
    have htickets := h.tickets
    rw [hserver] at htickets
    have hperm : ((p.jobs.modify j fun job =>
          { job with registration := some s.calls.length, pc := .waiting }).filterMap
            Job.registration).Perm (s.calls.length :: p.jobs.filterMap Job.registration) :=
      perm_filterMap_modify hj hreg rfl
    refine hperm.trans ((htickets.cons s.calls.length).trans ?_)
    show (s.calls.length :: List.range s.calls.length).Perm (List.range s'.calls.length)
    rw [hcalls, List.length_append, List.length_singleton, List.range_succ]
    exact (List.perm_append_singleton _ _).symm
  · rintro _ ⟨⟩
    exact (h.reachable s hserver).run (Machine.run_single.mpr hstep)
  · rintro _ ⟨⟩
    rw [hlater.baseUrl]
    exact h.baseUrl s hserver

/-- The server has started: there is none before, and no registration. -/
theorem Sound.started (h : Sound p) {j : ℕ} {job : Job Options Spec} {hep : Bytes}
    {o : StartOutcome} {s : Registry} (hj : p.jobs[j]? = some job)
    (hpc : job.pc = .starting hep) (hstart : startServer o = .ok s) :
    Sound { p.setJob j (.registering hep) with server := some s } := by
  obtain ⟨hinit, hbase⟩ := startServer_ok hstart
  obtain ⟨hserver, hreg, hstage⟩ :
      p.server = none ∧ job.registration = none ∧ job.stage = .ok (.serve hep) := by
    simpa [Job.Fits, hpc] using h.fits j job hj
  -- the call that started the server was the only one to do so
  have hidle : ∀ (i : ℕ) (other : Job Options Spec), p.jobs[i]? = some other → j ≠ i →
      other.pc.isStarting = false := by
    intro i other hi hne
    cases hother : other.pc.isStarting with
    | false => rfl
    | true => exact absurd (h.single j i job other hj hi (by rw [hpc]; rfl) hother) hne
  refine ⟨?_, ?_, ?_, ?_, ?_⟩
  · intro i a ha
    rcases getElem?_modify_cases ha with ⟨rfl, b, hb, rfl⟩ | ⟨hne, hold⟩
    · obtain rfl : job = b := Option.some.inj (hj.symm.trans hb)
      exact ⟨hreg, hstage⟩
    · have hfits := h.fits i a hold
      rw [hserver] at hfits
      exact hfits.start (hidle i a hold hne)
  · intro i i' a b ha hb hstarta hstartb
    rcases getElem?_modify_cases ha with ⟨-, a₀, -, rfl⟩ | ⟨hne, holda⟩
    · cases hstarta
    · rw [hidle i a holda hne] at hstarta
      cases hstarta
  · show (p.setJob j (.registering hep)).tickets.Perm (List.range s.calls.length)
    have htickets := h.tickets
    rw [hserver] at htickets
    rw [tickets_setJob, hinit.2.2.1]
    exact htickets
  · rintro _ ⟨⟩
    exact .of_init hinit
  · rintro _ ⟨⟩
    exact hbase

theorem Sound.step (h : Sound p) {l : ProcessLabel Options Spec}
    (hstep : (process Options Spec).step p l = some p') : Sound p' := by
  cases move_of_step hstep with
  | call job hpc hreg hp' =>
    subst hp'
    refine ⟨?_, ?_, ?_, h.reachable, h.baseUrl⟩
    · intro j a ha
      rcases getElem?_concat_cases ha with hold | ⟨-, rfl⟩
      · exact h.fits j a hold
      · simpa [Job.Fits, hpc] using hreg
    · intro i j a b ha hb hstarta hstartb
      rcases getElem?_concat_cases ha with holda | ⟨-, rfl⟩
      · rcases getElem?_concat_cases hb with holdb | ⟨-, rfl⟩
        · exact h.single i j a b holda holdb hstarta hstartb
        · rw [hpc] at hstartb
          cases hstartb
      · rw [hpc] at hstarta
        cases hstarta
    · show ((p.jobs ++ [job]).filterMap Job.registration).Perm _
      rw [List.filterMap_append, List.filterMap_cons, hreg, List.filterMap_nil, List.append_nil]
      exact h.tickets
  | dispatch j job hj hpc hp' =>
    subst hp'
    have hreg : job.registration = none := by simpa [Job.Fits, hpc] using h.fits j job hj
    refine h.setJob _ hj (.dispatch hreg) ?_
    intro hstart
    -- no call starts the server before it has asked for it
    unfold dispatched at hstart
    split at hstart <;> cases hstart
  | enter j job hep hj hpc hserver hidle hp' =>
    subst hp'
    have hfits := h.fits j job hj
    simp only [Job.Fits, hpc] at hfits
    exact h.setJob _ hj ⟨hserver, hfits.1, hfits.2⟩ fun _ => hidle
  | started j job hep o s hj hpc hstart hp' =>
    subst hp'
    exact h.started hj hpc hstart
  | unstarted j job hep o text hj hpc hstart hp' =>
    subst hp'
    have hfits := h.fits j job hj
    simp only [Job.Fits, hpc] at hfits
    exact h.setJob _ hj (.unserved hep text rfl hfits.2.1 hfits.2.2) nofun
  | register j job id hep s s' hj hpc hserver hbegin hp' =>
    subst hp'
    exact h.register hj hpc hserver hbegin
  | server s s' l hserver hl hserve hp' =>
    subst hp'
    exact h.serve hserver hserve hl
  | finish j job s k c r noOpenBrowser hj hpc hreg hserver hk hc hp' =>
    subst hp'
    have hfits := h.fits j job hj
    simp only [Job.Fits, hpc] at hfits
    obtain ⟨s₀, k₀, c₀, hserver₀, hreg₀, hk₀, hstage⟩ := hfits
    obtain rfl : s = s₀ := Option.some.inj (hserver.symm.trans hserver₀)
    obtain rfl : k = k₀ := Option.some.inj (hreg.symm.trans hreg₀)
    obtain rfl : c = c₀ := Option.some.inj (hk.symm.trans hk₀)
    have hended := h.setJob (.ended (served job.writer r)) hj
      (.served s k c r rfl hserver hreg hk hc hstage) nofun
    exact ⟨hended.fits, hended.single, hended.tickets, hended.reachable, hended.baseUrl⟩

theorem sound_of_reachable (h : (process Options Spec).Reachable p) : Sound p := by
  refine h.invariant Sound ?_ fun _ _ _ hs hstep => hs.step hstep
  rintro p₀ ⟨hserver, hjobs, -⟩
  refine ⟨?_, ?_, ?_, ?_, ?_⟩
  · simp [hjobs]
  · simp [hjobs]
  · simp [tickets, hjobs, hserver]
  · simp [hserver]
  · simp [hserver]

/-! ## §4 The registry of a process -/

/-- A step of the process is one of its registry, or none. -/
theorem registry_of_move {s : Registry} (h : Sound p) (hserver : p.server = some s)
    {l : ProcessLabel Options Spec} (hmove : Move l p p') :
    ∃ tr s', registry.run s tr = some s' ∧ p'.server = some s' := by
  have hsame : p'.server = p.server → ∃ tr s', registry.run s tr = some s' ∧ p'.server = some s' :=
    fun heq => ⟨[], s, rfl, heq.trans hserver⟩
  cases hmove with
  | call job hpc hreg hp' => exact hsame (hp' ▸ rfl)
  | dispatch j job hj hpc hp' => exact hsame (hp' ▸ rfl)
  | enter j job hep hj hpc hnone hidle hp' => exact hsame (hp' ▸ rfl)
  | unstarted j job hep o text hj hpc hstart hp' => exact hsame (hp' ▸ rfl)
  | finish j job s k c r noOpenBrowser hj hpc hreg hsome hk hc hp' => exact hsame (hp' ▸ rfl)
  | started j job hep o s' hj hpc hstart hp' =>
    -- a server is started where there is none
    have hfits := h.fits j job hj
    simp only [Job.Fits, hpc, hserver] at hfits
    cases hfits.1
  | register j job id hep s₀ s' hj hpc hserver₀ hstep hp' =>
    obtain rfl : s = s₀ := Option.some.inj (hserver.symm.trans hserver₀)
    exact ⟨[.begin id hep], s', Machine.run_single.mpr hstep, by rw [hp']⟩
  | server s₀ s' l hserver₀ hl hstep hp' =>
    obtain rfl : s = s₀ := Option.some.inj (hserver.symm.trans hserver₀)
    exact ⟨[l], s', Machine.run_single.mpr hstep, by rw [hp']⟩

/-- **A run of the process is a run of its registry.** -/
theorem run_registry {s : Registry} {tr : List (ProcessLabel Options Spec)} (h : Sound p)
    (hserver : p.server = some s) (hrun : (process Options Spec).run p tr = some p') :
    ∃ tr' s', registry.run s tr' = some s' ∧ p'.server = some s' := by
  obtain ⟨tr', s', hrun', -, hs'⟩ :=
    Machine.run_simulation (fun (p : Process Options Spec) s => Sound p ∧ p.server = some s)
      (fun p l p' s hp hstep => by
        obtain ⟨tr', s', hrun', hs'⟩ := registry_of_move hp.1 hp.2 (move_of_step hstep)
        exact ⟨tr', s', hrun', hp.1.step hstep, hs'⟩) ⟨h, hserver⟩ hrun
  exact ⟨tr', s', hrun', hs'⟩

end Process

end Server

end GgsqlDuckdb
