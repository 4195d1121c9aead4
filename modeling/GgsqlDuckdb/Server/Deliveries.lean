import GgsqlDuckdb.Server.Sessions

/-!
# What the calls of a process get

Over any interleaving of calls, of the steps of their registrations and of the requests of
browsers.

## Main results

- `server_holds_renders`: the plots on the server are the documents the calls rendered for it.
- `link_keeps_answering`: a link answers with the document of the call that returned it.
- `ended_as_run`: a call ends as `run` does on its own.
-/

namespace GgsqlDuckdb

namespace Server

open Library Library.Utf8 Dispatch

variable {Options Spec : Type} {p : Process Options Spec}

/-- What the HEP writer gives for the query and the options of the call. -/
def Job.Renders (job : Job Options Spec) (hep : Bytes) : Prop :=
  ∃ spec, job.crates.execute job.query = .ok spec ∧
    renderWith job.crates job.crates.hepWriter id spec job.options = .ok hep

theorem Job.Renders.unique {job : Job Options Spec} {hep hep' : Bytes} (h : job.Renders hep)
    (h' : job.Renders hep') : hep = hep' := by
  obtain ⟨spec, hspec, hrender⟩ := h
  obtain ⟨spec', hspec', hrender'⟩ := h'
  obtain rfl : spec = spec' := Except.ok.inj (hspec.symm.trans hspec')
  exact Except.ok.inj (hrender.symm.trans hrender')

namespace Process

/-! ## §1 Calls that have a registration -/

theorem not_serving_of_payload {crates : Crates Options Spec} {query writer options b : Bytes}
    (h : Dispatch.stage crates query writer options = .ok (.payload b)) : ¬ Serving writer := by
  intro hserve
  obtain ⟨_, -, h⟩ := ok_of_bind h
  obtain ⟨_, -, h⟩ := ok_of_bind h
  obtain ⟨_, -, h⟩ := ok_of_bind h
  obtain ⟨spec, -, h⟩ := ok_of_bind h
  unfold armStage at h
  rw [if_pos hserve] at h
  obtain ⟨hep, -, hend⟩ := ok_of_bind h
  cases hend

theorem Sound.ended (h : Sound p) {j : ℕ} {job : Job Options Spec} {r : Except Fault Bytes}
    (hj : p.jobs[j]? = some job) (hpc : job.pc = .ended r) : job.Ended p.server r := by
  have hfits := h.fits j job hj
  simpa only [Job.Fits, hpc] using hfits

/-- A call with a registration came to the server with the document registered. -/
theorem Sound.registered (h : Sound p) {j k : ℕ} {job : Job Options Spec}
    (hj : p.jobs[j]? = some job) (hreg : job.registration = some k) :
    ∃ s c, p.server = some s ∧ s.calls[k]? = some c ∧ job.stage = .ok (.serve c.hep) := by
  have hfits := h.fits j job hj
  unfold Job.Fits at hfits
  -- only a call that waits for its registration or has ended behind it has one
  cases hpc : job.pc with
  | running => simp [hpc, hreg] at hfits
  | registering hep => simp [hpc, hreg] at hfits
  | starting hep => simp [hpc, hreg] at hfits
  | waiting =>
    simp only [hpc] at hfits
    obtain ⟨s, k', c, hserver, hreg', hk, hstage⟩ := hfits
    obtain rfl : k = k' := Option.some.inj (hreg.symm.trans hreg')
    exact ⟨s, c, hserver, hk, hstage⟩
  | ended r =>
    cases h.ended hj hpc with
    | plain hnone => rw [hreg] at hnone; cases hnone
    | unserved hep text hr hnone => rw [hreg] at hnone; cases hnone
    | served s k' c reg hr hserver hreg' hk hc hstage =>
      obtain rfl : k = k' := Option.some.inj (hreg.symm.trans hreg')
      exact ⟨s, c, hserver, hk, hstage⟩

/-- A registration belongs to a call. -/
theorem Sound.owner (h : Sound p) {s : Registry} {k : ℕ} {c : Call} (hserver : p.server = some s)
    (hk : s.calls[k]? = some c) :
    ∃ (j : ℕ) (job : Job Options Spec), p.jobs[j]? = some job ∧ job.registration = some k ∧
      job.stage = .ok (.serve c.hep) := by
  have htickets := h.tickets
  rw [hserver] at htickets
  have hmem : k ∈ p.tickets :=
    htickets.mem_iff.mpr (List.mem_range.mpr (List.getElem?_eq_some_iff.mp hk).1)
  obtain ⟨job, hjob, hreg⟩ := List.mem_filterMap.mp hmem
  obtain ⟨j, hj⟩ := List.mem_iff_getElem?.mp hjob
  obtain ⟨s', c', hserver', hk', hstage⟩ := h.registered hj hreg
  obtain rfl : s = s' := Option.some.inj (hserver.symm.trans hserver')
  obtain rfl : c = c' := Option.some.inj (hk.symm.trans hk')
  exact ⟨j, job, hj, hreg, hstage⟩

/-- No two calls share a registration. -/
theorem Sound.unique (h : Sound p) {i j k : ℕ} {a b : Job Options Spec}
    (hi : p.jobs[i]? = some a) (hj : p.jobs[j]? = some b) (ha : a.registration = some k)
    (hb : b.registration = some k) : i = j := by
  have hnodup : p.tickets.Nodup := h.tickets.nodup_iff.mpr List.nodup_range
  exact index_unique hnodup hi hj ha hb

/-- What a call in the `url` mode has returned. -/
theorem Sound.link (h : Sound p) {j : ℕ} {job : Job Options Spec} {link : Bytes}
    (hj : p.jobs[j]? = some job) (hurl : job.writer = ascii "url")
    (hend : job.pc = .ended (.ok link)) :
    ∃ s k c, p.server = some s ∧ job.registration = some k ∧ s.calls[k]? = some c ∧
      1 ≤ c.pc.rank ∧ link = s.baseUrl ++ ascii "/#plot/" ++ c.id.text ∧
      job.stage = .ok (.serve c.hep) := by
  cases h.ended hj hend with
  | plain hreg hstage => exact absurd (Or.inl hurl) (not_serving_of_payload hstage)
  | unserved hep text hr => cases hr
  | served s k c reg hr hserver hreg hk hc hstage =>
    obtain ⟨now, st, hst⟩ :=
      (Registry.written_of_reachable (h.reachable s hserver)).returned k c reg hk hc
    refine ⟨s, k, c, hserver, hreg, hk, by simp [hc, CallPc.rank], ?_, hstage⟩
    rw [served_of_serving (Or.inl hurl), if_pos hurl] at hr
    rw [Except.ok.inj hr, hst]
    rfl

end Process

/-! ## §2 The plots of the server -/

/-- **The plots on the server are the documents the calls rendered for it.**  A call with a
registration is one in the `url` or `silent` mode, and registers what the HEP writer gave it for
its own query and options; every registration is that of one call; a plot is stored if and only if
one of them has stored it; and a call in another mode has none. -/
theorem server_holds_renders (hp : (process Options Spec).Reachable p) :
    (∀ (j k : ℕ) (job : Job Options Spec), p.jobs[j]? = some job → job.registration = some k →
      ∃ s c, p.server = some s ∧ s.calls[k]? = some c ∧ Serving job.writer ∧
        job.Renders c.hep) ∧
    (∀ s, p.server = some s → ∀ k < s.calls.length,
      ∃! j : ℕ, ∃ job, p.jobs[j]? = some job ∧ job.registration = some k) ∧
    (∀ s, p.server = some s → ∀ name hep, s.state.plots name = some hep ↔
      ∃ (j k : ℕ) (job : Job Options Spec) (c : Call), p.jobs[j]? = some job ∧
        job.registration = some k ∧ s.calls[k]? = some c ∧ c.id.text = name ∧
        c.pc ≠ .started ∧ job.Renders hep) ∧
    (∀ (j : ℕ) (job : Job Options Spec), p.jobs[j]? = some job → ¬ Serving job.writer →
      job.registration = none) := by
  have hsound := Process.sound_of_reachable hp
  refine ⟨?_, ?_, ?_, ?_⟩
  · intro j k job hj hreg
    obtain ⟨s, c, hserver, hk, hstage⟩ := hsound.registered hj hreg
    obtain ⟨hserve, hrenders⟩ := stage_serve hstage
    exact ⟨s, c, hserver, hk, hserve, hrenders⟩
  · intro s hserver k hlt
    obtain ⟨j, job, hj, hreg, -⟩ := hsound.owner hserver (List.getElem?_eq_getElem hlt)
    refine ⟨j, ⟨job, hj, hreg⟩, ?_⟩
    rintro i ⟨other, hi, hother⟩
    exact hsound.unique hi hj hother hreg
  · intro s hserver name hep
    rw [Registry.plots_iff (hsound.reachable s hserver)]
    constructor
    · rintro ⟨k, c, hk, hid, rfl, hrank⟩
      obtain ⟨j, job, hj, hreg, hstage⟩ := hsound.owner hserver hk
      refine ⟨j, k, job, c, hj, hreg, hk, hid, ?_, (stage_serve hstage).2⟩
      intro hpc
      rw [hpc] at hrank
      simp [CallPc.rank] at hrank
    · rintro ⟨j, k, job, c, hj, hreg, hk, hid, hpc, hrenders⟩
      obtain ⟨s', c', hserver', hk', hstage'⟩ := hsound.registered hj hreg
      obtain rfl : s = s' := Option.some.inj (hserver.symm.trans hserver')
      obtain rfl : c = c' := Option.some.inj (hk.symm.trans hk')
      have hhep : c.hep = hep := Job.Renders.unique (stage_serve hstage').2 hrenders
      refine ⟨k, c, hk, hid, hhep, ?_⟩
      cases hc : c.pc with
      | started => exact absurd hc hpc
      | inserted => decide
      | published => decide
      | returned r => simp [CallPc.rank]
  · intro j job hj hplain
    cases hreg : job.registration with
    | none => rfl
    | some k =>
      obtain ⟨s, c, -, -, hstage⟩ := hsound.registered hj hreg
      exact absurd (stage_serve hstage).1 hplain

/-- A process in which nothing has been called. -/
def idleProcess : Process Unit Unit where
  server := none
  jobs := []
  opened := []

def someAddress : StartOutcome where
  bound := .ok (some (⟨ascii "127.0.0.1", by decide⟩, ⟨ascii "8080", by decide⟩))
  spawned := .ok ()
  now := 0

/-- A `url` call that starts the server, and a `spec` call beside it. -/
def visit : List (ProcessLabel Unit Unit) :=
  [.call distinct [] (ascii "url") [], .call distinct [] (ascii "spec") [], .dispatch 0, .enter 0,
    .dispatch 1, .start 0 someAddress, .register 0 somePlot, .server (.insert 0),
    .server (.publish 0), .server (.finish 0), .finish 0 true]

/-- The call has returned this text. -/
def Process.Returned (p : Process Unit Unit) (j : ℕ) (writer payload : Bytes) : Prop :=
  ∃ job, p.jobs[j]? = some job ∧ job.writer = writer ∧ job.pc = .ended (.ok payload)

theorem run_visit : ∃ p, (process Unit Unit).run idleProcess visit = some p ∧
    p.Returned 0 (ascii "url") (ascii "http://127.0.0.1:8080/#plot/a1-0f") :=
  ⟨_, rfl, _, rfl, rfl, rfl⟩

theorem reachable_visit {p : Process Unit Unit}
    (h : (process Unit Unit).run idleProcess visit = some p) : (process Unit Unit).Reachable p :=
  ⟨idleProcess, visit, ⟨rfl, rfl, rfl⟩, h⟩

theorem server_holds_renders_visit :
    ∃ p, (process Unit Unit).run idleProcess visit = some p ∧
      ∀ s, p.server = some s → ∀ name hep, s.state.plots name = some hep ↔
        ∃ (j k : ℕ) (job : Job Unit Unit) (c : Call), p.jobs[j]? = some job ∧
          job.registration = some k ∧ s.calls[k]? = some c ∧ c.id.text = name ∧
          c.pc ≠ .started ∧ job.Renders hep := by
  obtain ⟨p, hrun, -⟩ := run_visit
  exact ⟨p, hrun, (server_holds_renders (reachable_visit hrun)).2.2.1⟩

/-! ## §3 Links -/

/-- **A link answers with the document of the call that returned it**, at any later time and
whatever other calls and requests do; and no other call has returned it. -/
theorem link_keeps_answering (hp : (process Options Spec).Reachable p) {j : ℕ}
    {job : Job Options Spec} {link : Bytes} (hj : p.jobs[j]? = some job)
    (hurl : job.writer = ascii "url") (hend : job.pc = .ended (.ok link)) :
    (∃ (s : Registry) (id : PlotId) (hep : Bytes), p.server = some s ∧
      link = s.baseUrl ++ ascii "/#plot/" ++ id.text ∧ job.Renders hep ∧
      ∀ tr p', (process Options Spec).run p tr = some p' →
        ∃ s', p'.server = some s' ∧ s'.baseUrl = s.baseUrl ∧
          s'.state.plots id.text = some hep ∧
          ∀ (r : ℕ) (resp : Response), s.requests.length ≤ r →
            s'.requests[r]? = some ⟨ascii "/api/plot/" ++ id.text, .answered resp⟩ →
            resp = binaryResponse hep) ∧
    ∀ (i : ℕ) (other : Job Options Spec), p.jobs[i]? = some other →
      other.writer = ascii "url" → other.pc = .ended (.ok link) → i = j := by
  have hsound := Process.sound_of_reachable hp
  obtain ⟨s, k, c, hserver, hreg, hk, hrank, hlink, hstage⟩ := hsound.link hj hurl hend
  have hreachable := hsound.reachable s hserver
  refine ⟨?_, ?_⟩
  · refine ⟨s, c.id, c.hep, hserver, hlink, (stage_serve hstage).2, ?_⟩
    intro tr p' hrun
    obtain ⟨tr', s', hrun', hserver'⟩ := Process.run_registry hsound hserver hrun
    have hstart : Registry.Served k c s.requests.length s := by
      refine ⟨Registry.sound_of_reachable hreachable, ⟨c.pc, hk, hrank⟩, ?_⟩
      intro r resp hr hresp
      rw [List.getElem?_eq_none hr] at hresp
      cases hresp
    have hserved := Machine.run_invariant _ (fun _ _ _ h hstep => h.step hstep) hstart hrun'
    exact ⟨s', hserver', (Registry.later_of_run hrun').baseUrl, hserved.stored, hserved.served⟩
  · intro i other hi hurl' hend'
    obtain ⟨s', k', c', hserver', hreg', hk', -, hlink', -⟩ := hsound.link hi hurl' hend'
    obtain rfl : s = s' := Option.some.inj (hserver.symm.trans hserver')
    -- equal links name equal ids, and an id belongs to one registration
    have hid : c'.id = c.id :=
      PlotId.ext_text (List.append_cancel_left (hlink'.symm.trans hlink))
    have hkk : k' = k :=
      (Registry.sound_of_reachable hreachable).consistent.distinct k' k c' c hk' hk hid
    exact hsound.unique hi hj (hkk ▸ hreg') hreg

theorem link_keeps_answering_visit :
    ∃ p, (process Unit Unit).run idleProcess visit = some p ∧
      ∃ (s : Registry) (id : PlotId) (hep : Bytes), p.server = some s ∧
        ascii "http://127.0.0.1:8080/#plot/a1-0f" = s.baseUrl ++ ascii "/#plot/" ++ id.text ∧
        ∀ tr p', (process Unit Unit).run p tr = some p' →
          ∃ s', p'.server = some s' ∧ s'.state.plots id.text = some hep := by
  obtain ⟨p, hrun, job, hj, hurl, hend⟩ := run_visit
  obtain ⟨⟨s, id, hep, hserver, hlink, -, hlater⟩, -⟩ :=
    link_keeps_answering (reachable_visit hrun) hj hurl hend
  refine ⟨p, hrun, s, id, hep, hserver, hlink, ?_⟩
  intro tr p' hrun'
  obtain ⟨s', hserver', -, hstored, -⟩ := hlater tr p' hrun'
  exact ⟨s', hserver', hstored⟩

/-! ## §4 The sequential dispatcher -/

/-- **A call ends as `run` does on its own**, with its own registration as the answer of the
server; where it has none, the server is not asked or does not start. -/
theorem ended_as_run (hp : (process Options Spec).Reachable p) {j : ℕ} {job : Job Options Spec}
    {r : Except Fault Bytes} (hj : p.jobs[j]? = some job) (hend : job.pc = .ended r) :
    ∃ answer : Except CrateFault Registration,
      r = run (job.crates.withServer fun _ => answer) job.query job.writer job.options ∧
      match job.registration with
      | none => ∃ fault, answer = .error fault
      | some k => ∃ s c reg, p.server = some s ∧ s.calls[k]? = some c ∧ job.Renders c.hep ∧
          answer = .ok reg ∧ reg.id = c.id ∧ reg.baseUrl.bytes = s.baseUrl := by
  have hsound := Process.sound_of_reachable hp
  have hrun : ∀ answer : Except CrateFault Registration,
      run (job.crates.withServer fun _ => answer) job.query job.writer job.options =
        (job.stage >>= Stage.finish (job.crates.withServer fun _ => answer) job.writer) := by
    intro answer
    rw [run_eq_stage, stage_withServer]
    rfl
  cases hsound.ended hj hend with
  | plain hreg hstage =>
    rw [hreg]
    refine ⟨.error .panicked, ?_, _, rfl⟩
    rw [hrun, hstage]
    cases r with
    | ok b => rfl
    | error f => rfl
  | unserved hep text hr hreg hstage =>
    rw [hreg]
    refine ⟨.error (.error text), ?_, _, rfl⟩
    rw [hrun, hstage, hr]
    rfl
  | served s k c reg hr hserver hreg hk hc hstage =>
    rw [hreg]
    obtain ⟨now, st, hst⟩ :=
      (Registry.written_of_reachable (hsound.reachable s hserver)).returned k c reg hk hc
    -- the answer as the registration saw it
    let answer : Registration := ⟨⟨s.baseUrl, hsound.baseUrl s hserver⟩, now, st, c.id⟩
    refine ⟨.ok answer, ?_, s, c, answer, hserver, hk, (stage_serve hstage).2, rfl, rfl, rfl⟩
    have hserve : servePlot (job.crates.withServer fun _ => .ok answer) c.hep job.writer =
        served job.writer (Server.registered s.baseUrl now st c.id) :=
      servePlot_ok (r := answer) rfl
    rw [hrun, hstage, hr, hst]
    exact hserve.symm

theorem ended_as_run_visit :
    ∃ p, (process Unit Unit).run idleProcess visit = some p ∧
      ∃ answer : Except CrateFault Registration,
        run (distinct.withServer fun _ => answer) [] (ascii "url") [] =
          .ok (ascii "http://127.0.0.1:8080/#plot/a1-0f") := by
  obtain ⟨p, hrun, hreturned⟩ := run_visit
  have hp : (process Unit Unit).run idleProcess visit = some p := hrun
  cases hrun
  obtain ⟨answer, hanswer, -⟩ := ended_as_run (reachable_visit hp) (j := 0) rfl rfl
  exact ⟨_, hp, answer, hanswer.symm⟩

end Server

end GgsqlDuckdb
