import GgsqlDuckdb.Bridge.Forwarding

/-!
# The inner connection and its forwarder

`BridgeCtx::GetInnerConnection` makes the connection and then its `InterruptForwarder`, behind a
test on the connection only.  A forwarder that cannot be made leaves a connection without one,
and every later call returns that connection.

## Main results

- `Guarded`, `Unguarded`: the two kinds of invocation, with and without such a failure.
- `forwarder_attached_iff`: the forwarder is there if and only if its creation never failed.
-/

namespace GgsqlDuckdb

open Library

namespace Invocation

/-! ## §1 The two members -/

/-- `GetInnerConnection` is not at work, and the `BridgeCtx` is not being destroyed. -/
def betweenCalls (v : Invocation) : Bool :=
  v.pc.outcome.isNone && decide (v.pc ≠ .opening) && decide (v.pc ≠ .attaching)

/-- A forwarder is set, and its thread runs. -/
def Attended (v : Invocation) : Prop :=
  ∃ f, v.forwarder = some f ∧ f.stopped = false ∧ v.thread ≠ .notStarted ∧ v.thread ≠ .exited

/-- No forwarder has failed to start. -/
structure Guarded (v : Invocation) : Prop where
  opening : v.pc = .opening → v.inner = none ∧ v.forwarder = none
  attaching : v.pc = .attaching → v.inner.isSome = true ∧ v.forwarder = none
  paired : v.betweenCalls = true → v.inner.isSome = v.forwarder.isSome
  attended : v.pc.outcome = none → v.forwarder.isSome = true → v.Attended

/-- A forwarder has failed to start, and no call will try again. -/
structure Unguarded (v : Invocation) : Prop where
  idle : v.pc.outcome = none → v.betweenCalls = true
  alone : v.pc.outcome = none → v.inner.isSome = true ∧ v.forwarder = none

variable {outer : Bool} {v v' : Invocation} {l : MainLabel} {t : ThreadLabel}

theorem guarded_start : Guarded .start := by
  constructor <;> simp [Invocation.start, MainPc.outcome]

/-- What a step of the main thread does to the two members, until the destructor runs. -/
inductive MemberStep (v v' : Invocation) : MainLabel → Prop
  | keep {l : MainLabel} (hpc : v.pc ≠ .attaching) (hpc' : v'.betweenCalls = true)
      (hinner : v'.inner = none ↔ v.inner = none) (hforwarder : v'.forwarder = v.forwarder)
      (hthread : v'.thread = v.thread) (hl : l ≠ .openConnection none) : MemberStep v v' l
  | enter (hpc : v.betweenCalls = true) (hpc' : v'.pc = .opening) (hnone : v.inner = none)
      (hinner : v'.inner = none) (hforwarder : v'.forwarder = v.forwarder) :
      MemberStep v v' .getInner
  | opened (hpc : v.pc = .opening) (hpc' : v'.pc = .attaching) (hinner : v'.inner.isSome = true)
      (hforwarder : v'.forwarder = v.forwarder) : MemberStep v v' (.openConnection none)
  | attached (hpc : v.pc = .attaching) (hpc' : v'.pc = .querying) (hinner : v'.inner = v.inner)
      (hforwarder : v'.forwarder = some ⟨false, none⟩) (hthread : v'.thread = .starting) :
      MemberStep v v' (.startForwarder none)
  | failed {what : Bytes} (hpc : v.pc = .attaching) (hpc' : v'.betweenCalls = true)
      (hinner : v'.inner = v.inner) (hforwarder : v'.forwarder = v.forwarder) :
      MemberStep v v' (.startForwarder (some what))

theorem mainStep_members (h : mainStep outer v l = some v') (hpc : v'.pc.outcome = none) :
    v.pc.outcome = none ∧ MemberStep v v' l := by
  unfold mainStep at h
  split at h <;>
    grind [answer, MainPc.outcome, betweenCalls, Option.isNone_iff_eq_none,
      Option.map_eq_none_iff, MemberStep]

/-- A forwarder is started only behind a new connection. -/
theorem mainStep_startForwarder {failure : Option Bytes}
    (h : mainStep outer v (.startForwarder failure) = some v') : v.pc = .attaching := by
  unfold mainStep at h
  split at h <;> grind

theorem mainStep_openConnection {failure : Option Bytes}
    (h : mainStep outer v (.openConnection failure) = some v') : v.pc = .opening := by
  unfold mainStep at h
  split at h <;> grind

/-- `GetInnerConnection` returns a connection it has found or just attached to. -/
theorem mainStep_querying (h : mainStep outer v l = some v') (hpc : v'.pc = .querying) :
    v'.inner.isSome = true ∨ (v.pc = .attaching ∧ v'.inner = v.inner) := by
  unfold mainStep at h
  split at h <;> grind [answer, Option.isNone_iff_eq_none, Option.isSome_iff_ne_none]

/-- What the thread does to them. -/
theorem threadStep_members (h : threadStep outer v t = some v') :
    (v'.inner = none ↔ v.inner = none) ∧ (v'.forwarder = none ↔ v.forwarder = none) ∧
      (v.Attended → v'.Attended) := by
  unfold threadStep at h
  split at h <;> grind [withForwarder, Attended]

/-! ## §2 Invocations without a failure between the members -/

theorem Attended.congr (hv : v.Attended) (hforwarder : v'.forwarder = v.forwarder)
    (hthread : v'.thread = v.thread) : v'.Attended := by
  unfold Attended
  rw [hforwarder, hthread]
  exact hv

theorem Guarded.mainStep (hv : Guarded v) (h : v.mainStep outer l = some v')
    (hl : ∀ what, l ≠ .startForwarder (some what)) : Guarded v' := by
  by_cases hlive : v'.pc.outcome = none
  · obtain ⟨hpc₀, hmember⟩ := mainStep_members h hlive
    cases hmember with
    | keep hpc hpc' hinner hforwarder hthread =>
      refine ⟨by simp_all [betweenCalls], by simp_all [betweenCalls], fun _ => ?_, ?_⟩
      · rw [Option.isSome_eq_isSome.mpr hinner, hforwarder]
        -- a call that could not open a connection leaves neither member
        by_cases hopening : v.pc = .opening
        · simp [hv.opening hopening]
        · apply hv.paired
          simp [betweenCalls, hpc₀, hpc, hopening]
      · intro _ hsome
        rw [hforwarder] at hsome
        exact (hv.attended hpc₀ hsome).congr hforwarder hthread
    | enter hpc hpc' hnone hinner hforwarder =>
      have hempty : v.forwarder = none := by
        have hpair := hv.paired hpc
        rw [hnone] at hpair
        simpa using hpair.symm
      refine ⟨fun _ => ⟨hinner, by rw [hforwarder, hempty]⟩, ?_, ?_, ?_⟩
      · simp [hpc']
      · simp [betweenCalls, hpc']
      · simp [hforwarder, hempty]
    | opened hpc hpc' hinner hforwarder =>
      have hempty := (hv.opening hpc).2
      refine ⟨?_, fun _ => ⟨hinner, by rw [hforwarder, hempty]⟩, ?_, ?_⟩
      · simp [hpc']
      · simp [betweenCalls, hpc']
      · simp [hforwarder, hempty]
    | attached hpc hpc' hinner hforwarder hthread =>
      refine ⟨?_, ?_, fun _ => ?_, fun _ _ => ?_⟩
      · simp [hpc']
      · simp [hpc']
      · rw [hinner, hforwarder, (hv.attaching hpc).1]
        rfl
      · exact ⟨_, hforwarder, rfl, by simp [hthread], by simp [hthread]⟩
    | failed => exact absurd rfl (hl _)
  -- once the destructor runs, nothing is asked
  · constructor
    · intro hpc
      simp [hpc, MainPc.outcome] at hlive
    · intro hpc
      simp [hpc, MainPc.outcome] at hlive
    · intro hpc
      simp_all [betweenCalls]
    · intro hpc
      exact absurd hpc hlive

theorem Guarded.threadStep (hv : Guarded v) (h : v.threadStep outer t = some v') :
    Guarded v' := by
  have hpc := threadStep_pc h
  obtain ⟨hinner, hforwarder, hattended⟩ := threadStep_members h
  have hinner' := Option.isSome_eq_isSome.mpr hinner
  have hforwarder' := Option.isSome_eq_isSome.mpr hforwarder
  constructor
  · rw [hpc, hinner, hforwarder]
    exact hv.opening
  · rw [hpc, hinner', hforwarder]
    exact hv.attaching
  · unfold betweenCalls
    rw [hpc, hinner', hforwarder']
    exact hv.paired
  · intro hlive hsome
    rw [hpc] at hlive
    rw [hforwarder'] at hsome
    exact hattended (hv.attended hlive hsome)

/-! ## §3 Invocations with such a failure -/

/-- The failed call leaves the connection it made, and no forwarder. -/
theorem Guarded.fail (hv : Guarded v) {what : Bytes}
    (h : v.mainStep outer (.startForwarder (some what)) = some v') : Unguarded v' := by
  by_cases hlive : v'.pc.outcome = none
  · obtain ⟨-, hmember⟩ := mainStep_members h hlive
    cases hmember with
    | keep hpc => exact absurd (mainStep_startForwarder h) hpc
    | failed hpc hpc' hinner hforwarder =>
      obtain ⟨hsome, hempty⟩ := hv.attaching hpc
      exact ⟨fun _ => hpc', fun _ => ⟨hinner ▸ hsome, hforwarder ▸ hempty⟩⟩
  · exact ⟨fun hpc => absurd hpc hlive, fun hpc => absurd hpc hlive⟩

theorem Unguarded.mainStep (hv : Unguarded v) (h : v.mainStep outer l = some v') :
    Unguarded v' := by
  by_cases hlive : v'.pc.outcome = none
  · obtain ⟨hpc₀, hmember⟩ := mainStep_members h hlive
    have hidle := hv.idle hpc₀
    obtain ⟨hsome, hempty⟩ := hv.alone hpc₀
    cases hmember with
    | keep _ hpc' hinner hforwarder =>
      have hsome' := Option.isSome_eq_isSome.mpr hinner
      exact ⟨fun _ => hpc', fun _ => ⟨hsome' ▸ hsome, hforwarder ▸ hempty⟩⟩
    -- the test on the connection finds it, so no other branch is taken
    | enter _ _ hnone => simp [hnone] at hsome
    | opened hpc => simp [betweenCalls, hpc] at hidle
    | attached hpc => simp [betweenCalls, hpc] at hidle
    | failed hpc => simp [betweenCalls, hpc] at hidle
  · exact ⟨fun hpc => absurd hpc hlive, fun hpc => absurd hpc hlive⟩

theorem Unguarded.threadStep (hv : Unguarded v) (h : v.threadStep outer t = some v') :
    Unguarded v' := by
  have hpc := threadStep_pc h
  obtain ⟨hinner, hforwarder, -⟩ := threadStep_members h
  constructor
  · unfold betweenCalls
    rw [hpc]
    exact hv.idle
  · rw [hpc, Option.isSome_eq_isSome.mpr hinner, hforwarder]
    exact hv.alone

end Invocation

/-! ## §4 Runs of an invocation -/

namespace Bridge

/-- Some call has made a connection and then failed to make its forwarder. -/
def LostForwarder (tr : List BridgeLabel) : Prop :=
  ∃ what, .main (.startForwarder (some what)) ∈ tr

/-- How often a connection has been made. -/
def connections (tr : List BridgeLabel) : ℕ := tr.count (.main (.openConnection none))

/-- The labels so far tell which kind of invocation it is and whether it has its connection. -/
structure Tracked (past : List BridgeLabel) (s : Bridge) : Prop where
  guarded : ¬ LostForwarder past → s.inv.Guarded
  unguarded : LostForwarder past → s.inv.Unguarded
  once : connections past ≤ 1
  opened : s.inv.pc.outcome = none → connections past = if s.inv.inner = none then 0 else 1
  returned : s.inv.pc = .querying → s.inv.inner.isSome = true

theorem lostForwarder_append {past : List BridgeLabel} {l : BridgeLabel} :
    LostForwarder (past ++ [l]) ↔
      LostForwarder past ∨ ∃ what, l = .main (.startForwarder (some what)) := by
  simp [LostForwarder, exists_or, eq_comm]

theorem connections_append {past : List BridgeLabel} {l : BridgeLabel} :
    connections (past ++ [l]) =
      connections past + if l = .main (.openConnection none) then 1 else 0 := by
  simp [connections, List.count_singleton, beq_iff_eq]

theorem Tracked.start (outer : Bool) : Tracked [] ⟨outer, .start⟩ := by
  refine ⟨fun _ => Invocation.guarded_start, ?_, ?_, ?_, ?_⟩
  · simp [LostForwarder]
  · simp [connections]
  · simp [connections, Invocation.start]
  · simp [Invocation.start]

/-- A call that is still at work finds no failure behind it. -/
theorem Tracked.guarded_of_busy {past : List BridgeLabel} {s : Bridge} (hs : Tracked past s)
    (hbusy : s.inv.pc = .opening ∨ s.inv.pc = .attaching) : s.inv.Guarded := by
  apply hs.guarded
  intro hlost
  have hidle := (hs.unguarded hlost).idle (by rcases hbusy with h | h <;> simp [h, MainPc.outcome])
  rcases hbusy with h | h <;> simp [Invocation.betweenCalls, h] at hidle

theorem Tracked.main {past : List BridgeLabel} {s s' : Bridge} {l : Invocation.MainLabel}
    (hs : Tracked past s) (h : s.inv.mainStep s.outer l = some s'.inv) :
    Tracked (past ++ [.main l]) s' := by
  constructor
  · rw [lostForwarder_append, not_or]
    rintro ⟨hkept, hl⟩
    apply (hs.guarded hkept).mainStep h
    intro what hfail
    exact hl ⟨what, by rw [hfail]⟩
  · rw [lostForwarder_append]
    intro hlost
    by_cases hbefore : LostForwarder past
    · exact (hs.unguarded hbefore).mainStep h
    -- this step is the failure
    · obtain ⟨what, hl⟩ := hlost.resolve_left hbefore
      cases hl
      exact (hs.guarded hbefore).fail h
  · rw [connections_append]
    split
    · rename_i hl
      cases hl
      have hpc := Invocation.mainStep_openConnection h
      have hcount := hs.opened (by simp [hpc, MainPc.outcome])
      have hnone := ((hs.guarded_of_busy (Or.inl hpc)).opening hpc).1
      simp [hcount, hnone]
    · exact hs.once
  · intro hlive'
    obtain ⟨hlive, hmember⟩ := Invocation.mainStep_members h hlive'
    rw [connections_append, hs.opened hlive]
    cases hmember with
    | keep _ _ hinner _ _ hl => simp [hinner, hl]
    | enter _ _ hnone hinner => simp [hnone, hinner]
    | opened hpc _ hinner =>
      have hnone := ((hs.guarded_of_busy (Or.inl hpc)).opening hpc).1
      simp [hnone, Option.isSome_iff_ne_none.mp hinner]
    | attached _ _ hinner => simp [hinner]
    | failed _ _ hinner => simp [hinner]
  · intro hpc
    rcases Invocation.mainStep_querying h hpc with hsome | ⟨hattaching, hinner⟩
    · exact hsome
    · rw [hinner]
      exact ((hs.guarded_of_busy (Or.inr hattaching)).attaching hattaching).1

/-- Only the main thread opens connections and starts forwarders. -/
theorem Tracked.other {past : List BridgeLabel} {s s' : Bridge} {l : BridgeLabel}
    (hs : Tracked past s) (hl : ∀ m, l ≠ .main m)
    (hguarded : s.inv.Guarded → s'.inv.Guarded) (hunguarded : s.inv.Unguarded → s'.inv.Unguarded)
    (hpc : s'.inv.pc = s.inv.pc) (hinner : s'.inv.inner = none ↔ s.inv.inner = none) :
    Tracked (past ++ [l]) s' := by
  have hlost : LostForwarder (past ++ [l]) ↔ LostForwarder past := by
    rw [lostForwarder_append, or_iff_left]
    rintro ⟨what, hfail⟩
    exact hl _ hfail
  have hcount : connections (past ++ [l]) = connections past := by
    rw [connections_append, if_neg (hl _), Nat.add_zero]
  refine ⟨?_, ?_, ?_, ?_, ?_⟩
  · rw [hlost]
    exact fun hkept => hguarded (hs.guarded hkept)
  · rw [hlost]
    exact fun hbefore => hunguarded (hs.unguarded hbefore)
  · rw [hcount]
    exact hs.once
  · simp only [hpc, hcount, hinner]
    exact hs.opened
  · rw [hpc, Option.isSome_eq_isSome.mpr hinner]
    exact hs.returned

theorem Tracked.step {past : List BridgeLabel} {s s' : Bridge} {l : BridgeLabel}
    (hs : Tracked past s) (h : bridge.step s l = some s') : Tracked (past ++ [l]) s' := by
  cases l with
  | main l => exact hs.main (step_main h).2
  | thread t =>
    have hstep := (step_thread h).2
    apply hs.other
    · simp
    · exact fun hv => hv.threadStep hstep
    · exact fun hv => hv.threadStep hstep
    · exact Invocation.threadStep_pc hstep
    · exact (Invocation.threadStep_members hstep).1
  | interrupt =>
    have hinv := (step_interrupt h).2
    apply hs.other
    · simp
    all_goals simp [hinv]

theorem tracked_of_run {outer : Bool} {tr : List BridgeLabel} {s : Bridge}
    (h : bridge.run ⟨outer, .start⟩ tr = some s) : Tracked tr s :=
  Machine.run_history Tracked (fun _ _ _ _ hs hstep => hs.step hstep) (.start outer) h

variable {tr : List BridgeLabel} {s : Bridge}

theorem Tracked.paired_iff (hs : Tracked tr s) (hbetween : s.inv.betweenCalls = true) :
    s.inv.inner.isSome = s.inv.forwarder.isSome ↔ ¬ LostForwarder tr := by
  constructor
  · intro hpaired hlost
    have hlive : s.inv.pc.outcome = none := by simp_all [Invocation.betweenCalls]
    obtain ⟨hsome, hempty⟩ := (hs.unguarded hlost).alone hlive
    rw [hsome, hempty] at hpaired
    cases hpaired
  · exact fun hkept => (hs.guarded hkept).paired hbetween

theorem Tracked.attended_iff (hs : Tracked tr s) (hpc : s.inv.pc = .querying) :
    s.inv.Attended ↔ ¬ LostForwarder tr := by
  have hlive : s.inv.pc.outcome = none := by simp [hpc, MainPc.outcome]
  have hbetween : s.inv.betweenCalls = true := by
    simp [Invocation.betweenCalls, hpc, MainPc.outcome]
  rw [← hs.paired_iff hbetween, hs.returned hpc]
  constructor
  · rintro ⟨f, hforwarder, -⟩
    rw [hforwarder]
    rfl
  · intro hsome
    have hkept := (hs.paired_iff hbetween).mp ((hs.returned hpc).trans hsome)
    exact (hs.guarded hkept).attended hlive hsome.symm

end Bridge

/-- **A connection has its forwarder unless starting one has failed**: between two calls the two
members are set together, and a call returns a connection whose forwarder runs, exactly in the
runs in which no forwarder failed to start behind a new connection.  In every run all calls
return one and the same connection. -/
theorem forwarder_attached_iff {outer : Bool} {tr : List BridgeLabel} {s : Bridge}
    (h : bridge.run ⟨outer, .start⟩ tr = some s) :
    (s.inv.betweenCalls = true →
      (s.inv.inner.isSome = s.inv.forwarder.isSome ↔ ¬ Bridge.LostForwarder tr)) ∧
    (s.inv.pc = .querying →
      (s.inv.Attended ↔ ¬ Bridge.LostForwarder tr) ∧ s.inv.inner.isSome = true) ∧
    Bridge.connections tr ≤ 1 := by
  have htracked := Bridge.tracked_of_run h
  refine ⟨htracked.paired_iff, fun hpc => ⟨?_, ?_⟩, htracked.once⟩
  · exact htracked.attended_iff hpc
  · exact htracked.returned hpc

/-- The engine is called back after the thread of the first forwarder could not be created. -/
def lostForwarderRun : List BridgeLabel :=
  [.main .entryCheck, .main .callback, .main .getInner, .main (.openConnection none),
    .main (.startForwarder (some (ascii "Resource temporarily unavailable"))), .main .callback,
    .main .getInner]

theorem forwarder_attached_iff_lost :
    ∃ s, bridge.run ⟨false, .start⟩ lostForwarderRun = some s ∧ s.inv.pc = .querying ∧
      (s.inv.Attended ↔ ¬ Bridge.LostForwarder lostForwarderRun) := by
  have hrun : bridge.run ⟨false, .start⟩ lostForwarderRun = some _ := rfl
  exact ⟨_, hrun, rfl, ((forwarder_attached_iff hrun).2.1 rfl).1⟩

/-- `Query` is called on a connection that no thread can interrupt. -/
theorem forwarder_missing :
    ∃ s, bridge.run ⟨false, .start⟩ lostForwarderRun = some s ∧ s.inv.betweenCalls = true ∧
      s.inv.pc = .querying ∧ s.inv.inner.isSome = true ∧ s.inv.forwarder = none := by
  apply Machine.run_decided
  decide

end GgsqlDuckdb
