import GgsqlDuckdb.Bridge.Invocation
import GgsqlDuckdb.Library.Machine

/-!
# Forwarding of interrupts

One invocation against the outer flag of its connection, which is set at any moment and stays
set.  The forwarder keeps the inner flag behind the outer one; starting a statement clears it
again, and the next turn of the forwarder's loop restores it.

## Main results

- `Coherent`: the invariant that ties the inner flag and the thread to the outer flag.
- `mainStep_credit`: behind a set outer flag no check lets another query through.
- `interrupt_forwarding`: forwarding is neither spurious nor lost.
-/

namespace GgsqlDuckdb

open Library

namespace Invocation

/-! ## §1 What a step changes -/

section Effects

variable {outer : Bool} {v v' : Invocation} {l : MainLabel} {t : ThreadLabel}

theorem mainStep_inner (h : mainStep outer v l = some v') :
    v'.inner = v.inner ∨ (v.pc = .opening ∧ v'.inner = some false) ∨
      (l = .startStatement ∧ v'.inner = v.inner.map fun _ => false) ∨
      (v'.inner = none ∧ ∃ o, v'.pc = .ended o) := by
  unfold mainStep at h
  split at h <;> grind [answer]

theorem mainStep_thread (h : mainStep outer v l = some v') :
    v'.thread = v.thread ∨ (v.pc = .attaching ∧ v'.thread = .starting ∧ v'.pc = .querying) := by
  unfold mainStep at h
  split at h <;> grind [answer]

/-- The bridge opens a connection only where it has none, and attaches a forwarder only to a
connection it has just opened. -/
theorem mainStep_opening (h : mainStep outer v l = some v') :
    (v'.pc = .opening → v.inner = none ∧ v'.inner = none) ∧
    (v'.pc = .attaching → v.pc = .opening ∧ v'.inner.isSome) := by
  unfold mainStep at h
  split at h <;> grind [answer, Option.isNone_iff_eq_none]

theorem mainStep_ended {o : Outcome} (hpc : v.pc = .ended o) : mainStep outer v l = none := by
  unfold mainStep
  rw [hpc]

theorem threadStep_pc (h : threadStep outer v t = some v') : v'.pc = v.pc := by
  unfold threadStep at h
  split at h <;> grind [withForwarder]

theorem threadStep_inner (h : threadStep outer v t = some v') :
    v'.inner = v.inner ∨ (v.thread = .forwarding ∧ v.inner.isSome ∧ v'.inner = some true) := by
  unfold threadStep at h
  split at h <;> grind [withForwarder]

theorem threadStep_thread (h : threadStep outer v t = some v') :
    v.thread ≠ .notStarted ∧ v'.thread ≠ .notStarted ∧
      (v'.thread = .forwarding → outer = true ∨ v.thread = .forwarding) := by
  unfold threadStep at h
  split at h <;> grind [withForwarder]

/-- The thread leaves the window between its look at the outer flag and its call of
`Interrupt` by that call only. -/
theorem threadStep_forwarding (h : threadStep outer v t = some v') (hpc : v.thread = .forwarding) :
    t = .interrupt ∧ (v'.inner = some true ∨ v.inner = none ∧ v'.inner = none) := by
  unfold threadStep at h
  split at h <;> grind

theorem threadStep_read (h : threadStep true v .read = some v') : v'.thread = .forwarding := by
  unfold threadStep at h
  split at h <;> grind

end Effects

/-! ## §2 The inner flag follows the outer flag -/

/-- What holds between the steps of an invocation while the outer flag is `outer`. -/
structure Coherent (outer : Bool) (v : Invocation) : Prop where
  /-- The inner flag is set only behind the outer flag. -/
  flag : v.inner = some true → outer = true
  /-- The thread is about to call `Interrupt` only behind the outer flag. -/
  pending : v.thread = .forwarding → outer = true
  opening : v.pc = .opening → v.inner = none
  attaching : v.pc = .attaching → v.inner.isSome ∧ v.thread = .notStarted
  /-- A started thread has a connection until the invocation ends. -/
  started : v.thread ≠ .notStarted → v.inner.isSome ∨ ∃ o, v.pc = .ended o

theorem Coherent.start (outer : Bool) : Coherent outer Invocation.start := by
  constructor <;> simp [Invocation.start]

theorem Coherent.set {outer : Bool} {v : Invocation} (h : Coherent outer v) : Coherent true v :=
  ⟨fun _ => rfl, fun _ => rfl, h.opening, h.attaching, h.started⟩

theorem Coherent.notStarted_of_opening {outer : Bool} {v : Invocation} (h : Coherent outer v)
    (hpc : v.pc = .opening) : v.thread = .notStarted := by
  by_contra hstarted
  rcases h.started hstarted with hsome | ⟨o, hended⟩
  · simp [h.opening hpc] at hsome
  · simp [hpc] at hended

theorem Coherent.mainStep {outer : Bool} {v v' : Invocation} {l : MainLabel}
    (hv : Coherent outer v) (h : v.mainStep outer l = some v') : Coherent outer v' := by
  have hinner := mainStep_inner h
  have hthread := mainStep_thread h
  obtain ⟨hopening, hattaching⟩ := mainStep_opening h
  -- an inner connection goes away only with the end of the invocation
  have halive : v.inner.isSome → v'.inner.isSome ∨ ∃ o, v'.pc = .ended o := by
    intro hsome
    rcases hinner with hsame | ⟨hpc, -⟩ | ⟨-, hclear⟩ | ⟨-, hended⟩
    · exact Or.inl (hsame ▸ hsome)
    · simp [hv.opening hpc] at hsome
    · exact Or.inl (by simpa [hclear] using hsome)
    · exact Or.inr hended
  constructor
  -- `flag`: the main thread never sets the inner flag
  · intro hset
    rcases hinner with hsame | ⟨-, hclear⟩ | ⟨-, hclear⟩ | ⟨hnone, -⟩
    · exact hv.flag (hsame ▸ hset)
    · simp [hclear] at hset
    · simp [hclear] at hset
    · simp [hnone] at hset
  -- `pending`: a thread it starts is not yet past its look at the outer flag
  · intro hfwd
    rcases hthread with hsame | ⟨-, hnew, -⟩
    · exact hv.pending (hsame ▸ hfwd)
    · simp [hnew] at hfwd
  -- `opening`
  · exact fun hpc => (hopening hpc).2
  -- `attaching`: the connection is new, so its forwarder is too
  · intro hpc
    obtain ⟨hfrom, hsome⟩ := hattaching hpc
    refine ⟨hsome, ?_⟩
    rcases hthread with hsame | ⟨-, -, hquerying⟩
    · rw [hsame, hv.notStarted_of_opening hfrom]
    · simp [hpc] at hquerying
  -- `started`: a thread is attached to a connection that exists
  · intro hstarted
    rcases hthread with hsame | ⟨hpc, -, -⟩
    · rcases hv.started (hsame ▸ hstarted) with hsome | ⟨o, hended⟩
      · exact halive hsome
      · simp [mainStep_ended hended] at h
    · exact halive (hv.attaching hpc).1

theorem Coherent.threadStep {outer : Bool} {v v' : Invocation} {t : ThreadLabel}
    (hv : Coherent outer v) (h : v.threadStep outer t = some v') : Coherent outer v' := by
  have hpc := threadStep_pc h
  have hinner := threadStep_inner h
  obtain ⟨hstarted, hstarted', hfwd⟩ := threadStep_thread h
  constructor
  -- `flag`: the thread sets it, but only when it is about to call `Interrupt`
  · intro hset
    rcases hinner with hsame | ⟨hpending, -, -⟩
    · exact hv.flag (hsame ▸ hset)
    · exact hv.pending hpending
  -- `pending`: it comes there by reading a set outer flag
  · intro hpending
    rcases hfwd hpending with houter | hbefore
    · exact houter
    · exact hv.pending hbefore
  -- a thread that takes steps is started, so the bridge is past both
  · intro hopening
    exact absurd (hv.notStarted_of_opening (hpc ▸ hopening)) hstarted
  · intro hattaching
    exact absurd (hv.attaching (hpc ▸ hattaching)).2 hstarted
  · intro _
    rcases hinner with hsame | ⟨-, -, hset⟩
    · rw [hsame, hpc]
      exact hv.started hstarted
    · exact Or.inl (by simp [hset])

/-! ## §3 Queries begun behind a set outer flag -/

/-- How many queries may still begin behind a set outer flag: the one whose check is past. -/
def credit (v : Invocation) : ℕ := if v.pc.pastCheck then 1 else 0

theorem mainStep_credit {v v' : Invocation} {l : MainLabel} (h : v.mainStep true l = some v') :
    (if l = .queryBegin then 1 else 0) + v'.credit ≤ v.credit := by
  unfold Invocation.mainStep at h
  split at h <;> grind [answer, credit, MainPc.pastCheck]

/-! ## §4 The inner flag behind a forwarded interrupt -/

theorem mainStep_inner_ne {outer : Bool} {v v' : Invocation} {l : MainLabel}
    (hv : Coherent outer v) (hstarted : v.thread ≠ .notStarted)
    (h : v.mainStep outer l = some v') (hl : l ≠ .startStatement) (hne : v.inner ≠ some false) :
    v'.inner ≠ some false := by
  rcases mainStep_inner h with hsame | ⟨hpc, -⟩ | ⟨hclear, -⟩ | ⟨hnone, -⟩
  · exact hsame ▸ hne
  · exact absurd (hv.notStarted_of_opening hpc) hstarted
  · exact absurd hclear hl
  · simp [hnone]

theorem threadStep_inner_ne {outer : Bool} {v v' : Invocation} {t : ThreadLabel}
    (h : v.threadStep outer t = some v') (hne : v.inner ≠ some false) :
    v'.inner ≠ some false := by
  rcases threadStep_inner h with hsame | ⟨-, -, hset⟩
  · exact hsame ▸ hne
  · simp [hset]

end Invocation

/-! ## §5 An invocation against its outer flag -/

/-- The outer connection's interrupt flag and the invocation that runs on the connection. -/
structure Bridge where
  outer : Bool
  inv : Invocation
  deriving DecidableEq, Repr

inductive BridgeLabel where
  | interrupt
  | main (l : Invocation.MainLabel)
  | thread (t : Invocation.ThreadLabel)
  deriving DecidableEq, Repr

def Bridge.step (s : Bridge) : BridgeLabel → Option Bridge
  | .interrupt => some { s with outer := true }
  | .main l => (s.inv.mainStep s.outer l).map fun v => { s with inv := v }
  | .thread t => (s.inv.threadStep s.outer t).map fun v => { s with inv := v }

/-- Every interleaving of the two threads and the interrupts of the outer connection.  The
flag may be set before the invocation starts. -/
def bridge : Machine Bridge BridgeLabel where
  init s := s.inv = .start
  step := Bridge.step

namespace Bridge

variable {s s' : Bridge}

theorem step_main {l : Invocation.MainLabel} (h : bridge.step s (.main l) = some s') :
    s'.outer = s.outer ∧ s.inv.mainStep s.outer l = some s'.inv := by
  obtain ⟨v, hv, rfl⟩ := Option.map_eq_some_iff.mp h
  exact ⟨rfl, hv⟩

theorem step_thread {t : Invocation.ThreadLabel} (h : bridge.step s (.thread t) = some s') :
    s'.outer = s.outer ∧ s.inv.threadStep s.outer t = some s'.inv := by
  obtain ⟨v, hv, rfl⟩ := Option.map_eq_some_iff.mp h
  exact ⟨rfl, hv⟩

theorem step_interrupt (h : bridge.step s .interrupt = some s') :
    s'.outer = true ∧ s'.inv = s.inv := by
  obtain rfl : { s with outer := true } = s' := Option.some.inj h
  exact ⟨rfl, rfl⟩

theorem coherent_step {l : BridgeLabel} (hs : s.inv.Coherent s.outer)
    (h : bridge.step s l = some s') : s'.inv.Coherent s'.outer := by
  cases l with
  -- setting the outer flag only weakens what the invariant asks
  | interrupt =>
    obtain ⟨houter, hinv⟩ := step_interrupt h
    rw [houter, hinv]
    exact hs.set
  | main l =>
    obtain ⟨houter, hstep⟩ := step_main h
    rw [houter]
    exact hs.mainStep hstep
  | thread t =>
    obtain ⟨houter, hstep⟩ := step_thread h
    rw [houter]
    exact hs.threadStep hstep

theorem coherent_of_reachable (h : bridge.Reachable s) : s.inv.Coherent s.outer := by
  refine h.invariant (fun s => s.inv.Coherent s.outer) ?_ fun _ _ _ hs hstep =>
    coherent_step hs hstep
  intro s₀ hinit
  show s₀.inv.Coherent s₀.outer
  rw [show s₀.inv = .start from hinit]
  exact .start s₀.outer

/-- A query that begins behind a set outer flag spends the credit of its check. -/
theorem credit_step {l : BridgeLabel} (houter : s.outer = true)
    (h : bridge.step s l = some s') :
    s'.outer = true ∧
      (if l == .main .queryBegin then 1 else 0) + s'.inv.credit ≤ s.inv.credit := by
  cases l with
  | interrupt =>
    obtain ⟨hset, hinv⟩ := step_interrupt h
    simp [hset, hinv]
  | main l =>
    obtain ⟨hsame, hstep⟩ := step_main h
    rw [houter] at hstep
    refine ⟨hsame.trans houter, ?_⟩
    simpa using Invocation.mainStep_credit hstep
  | thread t =>
    obtain ⟨hsame, hstep⟩ := step_thread h
    refine ⟨hsame.trans houter, ?_⟩
    simp [Invocation.credit, Invocation.threadStep_pc hstep]

/-- An interrupt that was read behind the outer flag stays on its way or has arrived. -/
structure Forwarded (past : List BridgeLabel) (s : Bridge) : Prop where
  coherent : s.inv.Coherent s.outer
  started : s.inv.thread ≠ .notStarted
  arrived : .main .startStatement ∉ past →
    s.inv.inner ≠ some false ∨ (s.inv.thread = .forwarding ∧ .thread .interrupt ∉ past)

theorem Forwarded.step {past : List BridgeLabel} {l : BridgeLabel} (hs : Forwarded past s)
    (h : bridge.step s l = some s') : Forwarded (past ++ [l]) s' := by
  refine ⟨coherent_step hs.coherent h, ?_, ?_⟩
  · cases l with
    | interrupt => exact (step_interrupt h).2 ▸ hs.started
    | main l =>
      -- a thread once started is never reset
      rcases Invocation.mainStep_thread (step_main h).2 with hsame | ⟨-, hnew, -⟩
      · exact hsame ▸ hs.started
      · simp [hnew]
    | thread t => exact (Invocation.threadStep_thread (step_thread h).2).2.1
  -- no step but `startStatement` clears an inner flag that has arrived
  · intro hclear
    rw [List.mem_append, not_or, List.mem_singleton] at hclear
    obtain ⟨hpast, hl⟩ := hclear
    cases l with
    | interrupt =>
      rw [(step_interrupt h).2]
      rcases hs.arrived hpast with harrived | ⟨hfwd, hnone⟩
      · exact Or.inl harrived
      · exact Or.inr ⟨hfwd, by simp [hnone]⟩
    | main l =>
      have hstep := (step_main h).2
      rcases hs.arrived hpast with harrived | ⟨hfwd, hnone⟩
      · left
        refine Invocation.mainStep_inner_ne hs.coherent hs.started hstep ?_ harrived
        rintro rfl
        exact hl rfl
      · right
        -- the main thread cannot replace a thread that is at work
        refine ⟨?_, by simp [hnone]⟩
        rcases Invocation.mainStep_thread hstep with hsame | ⟨hpc, -⟩
        · rw [hsame, hfwd]
        · simp [(hs.coherent.attaching hpc).2] at hfwd
    | thread t =>
      -- the thread moves on from `forwarding` only by the call that sets the flag
      have hstep := (step_thread h).2
      left
      rcases hs.arrived hpast with harrived | ⟨hfwd, -⟩
      · exact Invocation.threadStep_inner_ne hstep harrived
      · rcases (Invocation.threadStep_forwarding hstep hfwd).2 with hset | ⟨-, hnone⟩
        · simp [hset]
        · simp [hnone]

end Bridge

/-- **Forwarding is neither spurious nor lost**: the inner flag is set only behind the outer
flag; behind a set outer flag at most one more query begins, and only if its check is already
past; once the forwarder has looked at a set outer flag and no statement starts any more, the
inner flag is set from that turn's `Interrupt` until the bridge is torn down. -/
theorem interrupt_forwarding {s : Bridge} (hs : bridge.Reachable s) :
    (s.inv.inner = some true → s.outer = true) ∧
    (s.outer = true → ∀ tr s', bridge.run s tr = some s' →
      tr.count (.main .queryBegin) ≤ 1 ∧
        (.main .queryBegin ∈ tr → s.inv.pc.pastCheck = true)) ∧
    (s.outer = true → ∀ s₁ tr s', bridge.step s (.thread .read) = some s₁ →
      bridge.run s₁ tr = some s' → .main .startStatement ∉ tr →
      s'.inv.inner = some true ∨ (∃ o, s'.inv.pc = .ended o) ∨
        (s'.inv.thread = .forwarding ∧ .thread .interrupt ∉ tr)) := by
  have hcoherent := Bridge.coherent_of_reachable hs
  refine ⟨hcoherent.flag, ?_, ?_⟩
  · intro houter tr s' hrun
    -- each query begun spends the credit of a check, and no check gives a new one
    have hcount : tr.countP (· == .main .queryBegin) + s'.inv.credit ≤ s.inv.credit :=
      Machine.run_countP_le _ (fun s => s.inv.credit) (fun s => s.outer = true)
        (fun _ _ _ h hstep => Bridge.credit_step h hstep) houter hrun
    rw [← List.count] at hcount
    have hcredit : s.inv.credit ≤ 1 := by
      unfold Invocation.credit
      split <;> omega
    refine ⟨by omega, ?_⟩
    intro hmem
    have hpos := List.count_pos_iff.mpr hmem
    -- with no check past there is no credit to spend
    by_contra hcheck
    have hnone : s.inv.credit = 0 := by simp [Invocation.credit, hcheck]
    omega
  · intro houter s₁ tr s' hread hrun hclear
    obtain ⟨-, hstep⟩ := Bridge.step_thread hread
    have hfwd : s₁.inv.thread = .forwarding := by
      rw [houter] at hstep
      exact Invocation.threadStep_read hstep
    -- the history starts at the turn that read the set outer flag
    have hstart : Bridge.Forwarded [] s₁ :=
      ⟨Bridge.coherent_step hcoherent hread, by simp [hfwd], fun _ => Or.inr ⟨hfwd, by simp⟩⟩
    have hend := Machine.run_history Bridge.Forwarded (fun _ _ _ _ h hstep => h.step hstep)
      hstart hrun
    rw [List.nil_append] at hend
    rcases hend.arrived hclear with harrived | hpending
    -- the connection still exists, with a flag that is not clear, or all has ended
    · rcases hend.coherent.started hend.started with hsome | hended
      · left
        obtain ⟨flag, hin⟩ := Option.isSome_iff_exists.mp hsome
        cases flag with
        | true => exact hin
        | false => exact absurd hin harrived
      · exact Or.inr (Or.inl hended)
    · exact Or.inr (Or.inr hpending)

/-- The main thread checks, the outer flag is set and forwarded, `Query` starts and clears the
forwarded flag, and the forwarder comes round again. -/
def windowRun : List BridgeLabel :=
  [.main .entryCheck, .main .callback, .main .getInner, .main (.openConnection none),
    .main (.startForwarder none), .interrupt, .thread .lock, .thread .test, .thread .read,
    .thread .interrupt, .main .queryBegin, .main .startStatement, .thread .pause,
    .thread (.wake true), .thread .test]

theorem interrupt_forwarding_window :
    ∃ s s₁ s', bridge.run ⟨false, .start⟩ windowRun = some s ∧
      s.inv.inner = some false ∧ s.outer = true ∧
      bridge.step s (.thread .read) = some s₁ ∧
      bridge.run s₁ [.thread .interrupt, .thread .pause] = some s' ∧
      (s'.inv.inner = some true ∨ (∃ o, s'.inv.pc = .ended o) ∨
        (s'.inv.thread = .forwarding ∧
          .thread .interrupt ∉ ([.thread .interrupt, .thread .pause] : List BridgeLabel))) := by
  -- the run and the two steps behind it are evaluated
  refine ⟨_, _, _, rfl, rfl, rfl, rfl, rfl, ?_⟩
  refine (interrupt_forwarding ⟨⟨false, .start⟩, windowRun, rfl, rfl⟩).2.2 rfl _ _ _ rfl rfl ?_
  decide

end GgsqlDuckdb
