import GgsqlDuckdb.Bridge.Lifetimes
import GgsqlDuckdb.Bridge.Outcomes
import GgsqlDuckdb.Bridge.Shutdown

/-!
# An invocation can always go on to its end

The main thread of an invocation waits twice, for the mutex of its forwarder and in
`worker.join`; everywhere else DuckDB or the Rust side has an answer for it.  Neither wait holds
it up for ever, and no invocation waits for another one.

## Main results

- `Attached`: the invariant of an invocation and its forwarder.
- `Attached.progress`: until the end, one of the two threads can take a step that leaves less to
  do.
- `invocation_ends`: so the two threads of an invocation can take it to its end.
-/

namespace GgsqlDuckdb

open Library

namespace Invocation

variable {outer : Bool} {v v' : Invocation} {l : MainLabel} {t : ThreadLabel}

/-! ## §1 A forwarder and its thread -/

/-- The forwarder of an invocation, its mutex and its thread. -/
structure Attached (v : Invocation) : Prop where
  placed : Placed v
  started : v.forwarder.isSome → v.thread ≠ .notStarted
  worker : ∀ f, v.forwarder = some f → (f.holder = some .worker ↔ v.thread.holds = true)
  main : ∀ f, v.forwarder = some f → f.holder = some .main → ∃ o, v.pc = .stopping o
  stopping : ∀ o, v.pc = .stopping o → ∃ f, v.forwarder = some f ∧ f.holder = some .main
  told : ∀ o, v.pc = .notifying o ∨ v.pc = .joining o →
    ∃ f, v.forwarder = some f ∧ f.stopped = true
  /-- A thread that has found `stopped` clear holds the mutex that guards it. -/
  past : ∀ f, v.forwarder = some f → f.stopped = true → v.thread.pastTest = false

/-- Without a forwarder there is nothing to stop. -/
theorem Attached.of_none (hplaced : Placed v) (hnone : v.forwarder = none) : Attached v := by
  have hstops : v.pc.stops ≠ true := by
    intro hstops
    have hsome := hplaced.stops hstops
    rw [hnone] at hsome
    cases hsome
  have hgone : ∀ f, v.forwarder ≠ some f := by simp [hnone]
  refine ⟨hplaced, by simp [hnone], fun f hf => absurd hf (hgone f),
    fun f hf => absurd hf (hgone f), ?_, ?_, fun f hf => absurd hf (hgone f)⟩
  · intro o hpc
    exact absurd (hpc ▸ rfl) hstops
  · rintro o (hpc | hpc)
    · exact absurd (hpc ▸ rfl) hstops
    · exact absurd (hpc ▸ rfl) hstops

theorem Attached.start : Attached Invocation.start :=
  .of_none ⟨fun _ => rfl, nofun, nofun, nofun, nofun, nofun⟩ rfl

/-- Between two living places the forwarder stays as it is. -/
theorem Attached.of_living (hv : Attached v) (hpc : v.pc.living = true)
    (hliving : v'.pc.living = true) (hinner : v'.inner.isSome = v.inner.isSome)
    (hforwarder : v'.forwarder = v.forwarder) (hthread : v'.thread = v.thread) : Attached v' := by
  have hstops := MainPc.living_stops hliving
  refine ⟨.living hliving ?_, ?_, ?_, ?_, ?_, ?_, ?_⟩
  · rw [hinner, hforwarder]
    exact hv.placed.inner
  · rw [hforwarder, hthread]
    exact hv.started
  · rw [hforwarder, hthread]
    exact hv.worker
  · rw [hforwarder]
    intro f hf hmain
    obtain ⟨o, hstopping⟩ := hv.main f hf hmain
    rw [hstopping] at hpc
    cases hpc
  · intro o hstopping
    rw [hstopping] at hliving
    cases hliving
  · rintro o (hplace | hplace)
    · rw [hplace] at hliving
      cases hliving
    · rw [hplace] at hliving
      cases hliving
  · rw [hforwarder, hthread]
    exact hv.past

/-! ## §2 Steps of the main thread -/

theorem Attached.entryCheck (hv : Attached v) (h : mainStep outer v .entryCheck = some v') :
    Attached v' := by
  obtain ⟨hpc, rfl⟩ := entryCheck_eq h
  have hnone := hv.placed.forwarder_eq_none (hv.placed.entry hpc)
  cases outer with
  | true => exact .of_none (.ended rfl hnone) hnone
  | false => exact .of_none (.living rfl (by simp [hnone])) hnone

theorem Attached.getInner (hv : Attached v) (h : mainStep outer v .getInner = some v') :
    Attached v' := by
  obtain ⟨hpc, hv'⟩ := getInner_eq h
  have hliving : v.pc.living = true := by
    rw [hpc]
    rfl
  rcases hv' with rfl | rfl
  · exact hv.of_living hliving rfl rfl rfl rfl
  · cases hinner : v.inner with
    | none =>
      have hnone : v.forwarder = none := hv.placed.forwarder_eq_none hinner
      refine .of_none ⟨nofun, fun _ => rfl, nofun, nofun, nofun, ?_⟩ hnone
      simp [hnone]
    | some flag => exact hv.of_living hliving rfl (by rw [hinner]) rfl rfl

theorem Attached.openConnection (hv : Attached v) {failure : Option Bytes}
    (h : mainStep outer v (.openConnection failure) = some v') : Attached v' := by
  obtain ⟨hpc, hv'⟩ := openConnection_eq h
  have hnone := hv.placed.forwarder_eq_none (hv.placed.opening hpc)
  rcases hv' with ⟨-, rfl⟩ | ⟨what, rfl⟩
  · exact .of_none ⟨nofun, nofun, fun _ => ⟨hnone, rfl⟩, nofun, nofun, fun _ => rfl⟩ hnone
  · exact .of_none (.living rfl (by simp [answer, hnone])) hnone

theorem Attached.startForwarder (hv : Attached v) {failure : Option Bytes}
    (h : mainStep outer v (.startForwarder failure) = some v') : Attached v' := by
  obtain ⟨hpc, hv'⟩ := startForwarder_eq h
  obtain ⟨hnone, hinner⟩ := hv.placed.attaching hpc
  rcases hv' with ⟨-, rfl⟩ | ⟨what, rfl⟩
  · refine ⟨.living rfl fun _ => hinner, nofun, ?_, ?_, nofun, nofun, ?_⟩
    · rintro f ⟨⟩
      exact ⟨nofun, nofun⟩
    · rintro f ⟨⟩ ⟨⟩
    · rintro f ⟨⟩ ⟨⟩
  · refine .of_none (.living rfl ?_) hnone
    simp [answer, hnone]

theorem Attached.lockStop (hv : Attached v) (h : mainStep outer v .lockStop = some v') :
    Attached v' := by
  obtain ⟨o, hpc, ⟨hnone, rfl⟩ | ⟨f, hforwarder, hfree, rfl⟩⟩ := lockStop_eq h
  · refine .of_none ⟨nofun, nofun, nofun, nofun, fun _ _ => hnone, ?_⟩ hnone
    simp [hnone]
  · have hinner := hv.placed.inner (hforwarder ▸ rfl)
    refine ⟨.stopping rfl rfl hinner, fun _ => hv.started (hforwarder ▸ rfl), ?_, ?_, ?_, nofun, ?_⟩
    · rintro g ⟨⟩
      refine ⟨nofun, ?_⟩
      intro hholds
      have hworker := (hv.worker f hforwarder).mpr hholds
      rw [hfree] at hworker
      cases hworker
    · intro g hg hmain
      exact ⟨o, rfl⟩
    · intro o' hstopping
      exact ⟨_, rfl, rfl⟩
    · rintro g ⟨⟩
      exact hv.past f hforwarder

theorem Attached.setStop (hv : Attached v) (h : mainStep outer v .setStop = some v') :
    Attached v' := by
  obtain ⟨o, hpc, rfl⟩ := setStop_eq h
  obtain ⟨f, hforwarder, hmain⟩ := hv.stopping o hpc
  have hinner := hv.placed.inner (hforwarder ▸ rfl)
  -- the main thread has the mutex, so the thread does not
  have hholds : v.thread.holds = false := by
    rw [Bool.eq_false_iff]
    intro hholds
    have hworker := (hv.worker f hforwarder).mpr hholds
    rw [hmain] at hworker
    cases hworker
  have hpast : v.thread.pastTest = false := by
    rw [Bool.eq_false_iff]
    intro hpast
    rw [Teardown.holds_of_pastTest hpast] at hholds
    cases hholds
  simp only [hforwarder, Option.map_some]
  refine ⟨.stopping rfl rfl hinner, fun _ => hv.started (hforwarder ▸ rfl), ?_, ?_, nofun, ?_, ?_⟩
  · rintro g ⟨⟩
    exact ⟨nofun, fun hset => absurd (hset.symm.trans hholds) nofun⟩
  · rintro g ⟨⟩ ⟨⟩
  · intro o' hplace
    exact ⟨_, rfl, rfl⟩
  · exact fun _ _ _ => hpast

/-- Behind `setStop` the main thread is told to wait, and changes nothing. -/
theorem Attached.of_told (hv : Attached v) {o : Outcome}
    (hpc : v.pc = .notifying o ∨ v.pc = .joining o) {pc : MainPc}
    (hstops : pc.stops = true) (hlater : ∀ o, pc ≠ .stopping o) :
    Attached { v with pc := pc } := by
  obtain ⟨f, hforwarder, hset⟩ := hv.told o hpc
  refine ⟨.stopping hstops (hforwarder ▸ rfl) (hv.placed.inner (hforwarder ▸ rfl)), hv.started,
    hv.worker, ?_, fun o' hstopping => absurd hstopping (hlater o'),
    fun _ _ => ⟨f, hforwarder, hset⟩, hv.past⟩
  intro g hg hmain
  obtain ⟨o', hstopping⟩ := hv.main g hg hmain
  rcases hpc with hpc | hpc
  · rw [hstopping] at hpc
    cases hpc
  · rw [hstopping] at hpc
    cases hpc

theorem Attached.notify (hv : Attached v) (h : mainStep outer v .notify = some v') :
    Attached v' := by
  obtain ⟨o, hpc, rfl⟩ := notify_eq h
  exact hv.of_told (Or.inl hpc) rfl fun _ hstopping => by cases hstopping

theorem Attached.join (hv : Attached v) (h : mainStep outer v .join = some v') : Attached v' := by
  obtain ⟨o, hpc, -, rfl⟩ := join_eq h
  exact hv.of_told (Or.inr hpc) rfl fun _ hstopping => by cases hstopping

theorem freeForwarder_attached (h : mainStep outer v .freeForwarder = some v') :
    Attached v' := by
  obtain ⟨o, -, rfl⟩ := freeForwarder_eq h
  exact .of_none ⟨nofun, nofun, nofun, nofun, fun _ _ => rfl, nofun⟩ rfl

theorem Attached.freeInner (hv : Attached v) (h : mainStep outer v .freeInner = some v') :
    Attached v' := by
  obtain ⟨o, hpc, rfl⟩ := freeInner_eq h
  have hnone := hv.placed.closing o hpc
  exact .of_none (.ended rfl hnone) hnone

theorem mainStep_attached (hv : Attached v) (h : mainStep outer v l = some v') : Attached v' := by
  cases hl : l.idle with
  | true =>
    obtain ⟨hpc, hliving, hinner, hforwarder⟩ := mainStep_idle hl h
    have hthread : v'.thread = v.thread := by
      rcases mainStep_thread h with hsame | ⟨hattaching, -⟩
      · exact hsame
      · rw [hattaching] at hpc
        cases hpc
    exact hv.of_living hpc hliving hinner hforwarder hthread
  | false =>
    cases l with
    | entryCheck => exact hv.entryCheck h
    | getInner => exact hv.getInner h
    | openConnection failure => exact hv.openConnection h
    | startForwarder failure => exact hv.startForwarder h
    | lockStop => exact hv.lockStop h
    | setStop => exact hv.setStop h
    | notify => exact hv.notify h
    | join => exact hv.join h
    | freeForwarder => exact freeForwarder_attached h
    | freeInner => exact hv.freeInner h
    | _ => cases hl

/-! ## §3 Steps of the thread -/

/-- What a step of the thread does to its forwarder. -/
theorem threadStep_forwarder {f : InterruptForwarder} (hforwarder : v.forwarder = some f)
    (h : threadStep outer v t = some v') :
    ∃ f', v'.forwarder = some f' ∧ f'.stopped = f.stopped ∧
      ((f'.holder = f.holder ∧ v'.thread.holds = v.thread.holds) ∨
        (f.holder = none ∧ f'.holder = some .worker ∧ v'.thread.holds = true) ∨
        (v.thread.holds = true ∧ f'.holder = none ∧ v'.thread.holds = false)) ∧
      (v'.thread.pastTest = true → v.thread.pastTest = true ∨ f.stopped = false) := by
  unfold threadStep at h
  split at h <;> grind [withForwarder, ThreadPc.holds, ThreadPc.pastTest]

theorem threadStep_frame (h : threadStep outer v t = some v') :
    v'.inner.isSome = v.inner.isSome ∧ v'.forwarder.isSome = v.forwarder.isSome := by
  unfold threadStep at h
  split at h <;> grind [withForwarder]

theorem threadStep_attached (hv : Attached v) (h : threadStep outer v t = some v') :
    Attached v' := by
  have hpc := threadStep_pc h
  obtain ⟨hinner, hthere⟩ := threadStep_frame h
  have hplaced := Placed.of_thread hv.placed hpc hinner hthere
  cases hforwarder : v.forwarder with
  | none =>
    rw [hforwarder] at hthere
    exact .of_none hplaced (Option.not_isSome_iff_eq_none.mp (by simp [hthere]))
  | some f =>
    obtain ⟨f', hf', hstopped, hholder, hpast⟩ := threadStep_forwarder hforwarder h
    have hworker := hv.worker f hforwarder
    have hmain : f'.holder = some .main ↔ f.holder = some .main := by
      rcases hholder with ⟨hsame, -⟩ | ⟨hfree, hheld, -⟩ | ⟨hholds, hfree, -⟩
      · rw [hsame]
      · simp [hfree, hheld]
      · simp [hfree, hworker.mpr hholds]
    refine ⟨hplaced, fun _ => (threadStep_thread h).2.1, ?_, ?_, ?_, ?_, ?_⟩
    · intro g hg
      obtain rfl : f' = g := Option.some.inj (hf'.symm.trans hg)
      rcases hholder with ⟨hsame, hholds⟩ | ⟨-, hheld, hholds⟩ | ⟨-, hfree, hholds⟩
      · rw [hsame, hholds]
        exact hworker
      · simp [hheld, hholds]
      · simp [hfree, hholds]
    · intro g hg hheld
      obtain rfl : f' = g := Option.some.inj (hf'.symm.trans hg)
      rw [hpc]
      exact hv.main f hforwarder (hmain.mp hheld)
    · intro o hstopping
      obtain ⟨g, hg, hheld⟩ := hv.stopping o (hpc ▸ hstopping)
      obtain rfl : f = g := Option.some.inj (hforwarder.symm.trans hg)
      exact ⟨f', hf', hmain.mpr hheld⟩
    · intro o hplace
      obtain ⟨g, hg, hset⟩ := hv.told o (hpc ▸ hplace)
      obtain rfl : f = g := Option.some.inj (hforwarder.symm.trans hg)
      exact ⟨f', hf', hstopped.trans hset⟩
    · intro g hg hset
      obtain rfl : f' = g := Option.some.inj (hf'.symm.trans hg)
      have hbefore := hv.past f hforwarder (hstopped ▸ hset)
      -- a thread that is told to stop does not get past its test
      rw [Bool.eq_false_iff]
      intro hget
      rcases hpast hget with hold | hclear
      · rw [hbefore] at hold
        cases hold
      · rw [hstopped, hclear] at hset
        cases hset

end Invocation

/-! ## §4 What is left to do -/

/-- How far the main thread is from its end. -/
def MainPc.ahead : MainPc → ℕ
  | .getInner => 15
  | .opening => 14
  | .attaching => 13
  | .querying => 12
  | .running => 11
  | .checking _ => 10
  | .reading _ _ => 10
  | .wrapping => 9
  | .delegating _ _ => 9
  | .entry => 9
  | .rust => 8
  | .returned _ _ => 7
  | .teardown _ => 6
  | .stopping _ => 5
  | .notifying _ => 4
  | .joining _ => 3
  | .freeing _ => 2
  | .closing _ => 1
  | .ended _ => 0

namespace Invocation

/-- `stopped`, which is clear while there is no forwarder. -/
def stopped (v : Invocation) : Bool := v.forwarder.any fun f => f.stopped

/-- How far the thread is from its end, or from its wait. -/
def distance (v : Invocation) : ℕ := Teardown.distance v.stopped v.thread

def remaining (v : Invocation) : ℕ := 5 * v.pc.ahead + v.distance

/-- The main thread is at one of its two waits. -/
def Waits (v : Invocation) : Prop :=
  (∃ o f, v.pc = .teardown o ∧ v.forwarder = some f ∧ f.holder ≠ none) ∨
    ∃ o, v.pc = .joining o ∧ v.thread ≠ .exited

/-- Where it does not wait, the main thread has a step that takes it nearer to its end. -/
theorem main_progress (hopen : v.finished = false) (hwaits : ¬ v.Waits) (outer : Bool) :
    ∃ l v', mainStep outer v l = some v' ∧ v'.pc.ahead < v.pc.ahead := by
  obtain ⟨pc, inner, forwarder, thread, streams, answers, fault⟩ := v
  cases pc with
  | entry =>
    cases outer with
    | true => exact ⟨.entryCheck, _, rfl, (by decide : 0 < 9)⟩
    | false => exact ⟨.entryCheck, _, rfl, (by decide : 8 < 9)⟩
  | rust => exact ⟨.rustReturn .panic, _, rfl, (by decide : 7 < 8)⟩
  | getInner =>
    cases outer with
    | true => exact ⟨.getInner, _, rfl, (by decide : 8 < 15)⟩
    | false =>
      cases inner with
      | none => exact ⟨.getInner, _, rfl, (by decide : 14 < 15)⟩
      | some flag => exact ⟨.getInner, _, rfl, (by decide : 12 < 15)⟩
  | opening => exact ⟨.openConnection none, _, rfl, (by decide : 13 < 14)⟩
  | attaching => exact ⟨.startForwarder none, _, rfl, (by decide : 12 < 13)⟩
  | querying => exact ⟨.queryBegin, _, rfl, (by decide : 11 < 12)⟩
  | running => exact ⟨.queryReturns .answered, _, rfl, (by decide : 10 < 11)⟩
  | checking r =>
    cases outer with
    | true => exact ⟨.queryCheck, _, rfl, (by decide : 8 < 10)⟩
    | false =>
      cases r with
      | null => exact ⟨.queryCheck, _, rfl, (by decide : 8 < 10)⟩
      | error e => exact ⟨.queryCheck, _, rfl, (by decide : 8 < 10)⟩
      | answered => exact ⟨.queryCheck, _, rfl, (by decide : 9 < 10)⟩
  | wrapping => exact ⟨.wrap none, _, rfl, (by decide : 8 < 9)⟩
  | reading call i =>
    cases outer with
    | true => exact ⟨.streamCheck, _, rfl, (by decide : 8 < 10)⟩
    | false => exact ⟨.streamCheck, _, rfl, (by decide : 9 < 10)⟩
  | delegating call i => exact ⟨.streamEnd none, _, rfl, (by decide : 8 < 9)⟩
  | returned rc payload => exact ⟨.finalCheck, _, rfl, (by decide : 6 < 7)⟩
  | teardown o =>
    cases forwarder with
    | none => exact ⟨.lockStop, _, rfl, (by decide : 1 < 6)⟩
    | some f =>
      have hfree : f.holder = none := by
        by_contra hheld
        exact hwaits (Or.inl ⟨o, f, rfl, rfl, hheld⟩)
      exact ⟨.lockStop, _, if_pos hfree, (by decide : 5 < 6)⟩
  | stopping o => exact ⟨.setStop, _, rfl, (by decide : 4 < 5)⟩
  | notifying o => exact ⟨.notify, _, rfl, (by decide : 3 < 4)⟩
  | joining o =>
    have hexited : thread = .exited := by
      by_contra hrunning
      exact hwaits (Or.inr ⟨o, rfl, hrunning⟩)
    exact ⟨.join, _, if_pos hexited, (by decide : 2 < 3)⟩
  | freeing o => exact ⟨.freeForwarder, _, rfl, (by decide : 1 < 2)⟩
  | closing o => exact ⟨.freeInner, _, rfl, (by decide : 0 < 1)⟩
  | ended o => cases hopen

/-- A step of the thread that brings it nearer to its end, or to its wait. -/
def Nearer (outer : Bool) (v : Invocation) : Prop :=
  ∃ t v', threadStep outer v t = some v' ∧ v'.pc = v.pc ∧ v'.distance < v.distance

/-- A thread that holds the mutex goes on to its wait, or to its end. -/
theorem Attached.nearer_of_holds (hv : Attached v) {f : InterruptForwarder}
    (hforwarder : v.forwarder = some f) (h : v.thread.holds = true) (outer : Bool) :
    Nearer outer v := by
  have hpast := hv.past f hforwarder
  obtain ⟨flag, hinner⟩ := Option.isSome_iff_exists.mp (hv.placed.inner (hforwarder ▸ rfl))
  obtain ⟨pc, inner, forwarder, thread, streams, answers, fault⟩ := v
  obtain ⟨stopped, holder⟩ := f
  obtain rfl : forwarder = some ⟨stopped, holder⟩ := hforwarder
  obtain rfl : inner = some flag := hinner
  cases thread with
  | testing =>
    cases stopped with
    | true => exact ⟨.test, _, rfl, rfl, (by decide : 0 < 1)⟩
    | false => exact ⟨.test, _, rfl, rfl, (by decide : 3 < 4)⟩
  | reading =>
    cases outer with
    | true => exact ⟨.read, _, rfl, rfl, (by decide : 2 < 3)⟩
    | false => exact ⟨.read, _, rfl, rfl, (by decide : 1 < 3)⟩
  | forwarding => exact ⟨.interrupt, _, rfl, rfl, (by decide : 1 < 2)⟩
  | pausing =>
    cases stopped with
    | true => cases hpast rfl
    | false => exact ⟨.pause, _, rfl, rfl, (by decide : 0 < 1)⟩
  | notStarted => cases h
  | starting => cases h
  | waiting => cases h
  | exited => cases h

/-- A thread that has been told to stop goes on to its end. -/
theorem Attached.nearer_of_stopped (hv : Attached v) {f : InterruptForwarder}
    (hforwarder : v.forwarder = some f) (hstop : f.stopped = true)
    (hlock : f.holder ≠ some .main) (hrunning : v.thread ≠ .exited) (outer : Bool) :
    Nearer outer v := by
  cases hholds : v.thread.holds with
  | true => exact hv.nearer_of_holds hforwarder hholds outer
  | false =>
    -- the mutex is free
    have hfree : f.holder = none := by
      have hworker := hv.worker f hforwarder
      rw [hholds] at hworker
      cases hholder : f.holder with
      | none => rfl
      | some party =>
        cases party with
        | main => exact absurd hholder hlock
        | worker => cases hworker.mp hholder
    have hstarted := hv.started (hforwarder ▸ rfl)
    obtain ⟨pc, inner, forwarder, thread, streams, answers, fault⟩ := v
    obtain ⟨stopped, holder⟩ := f
    obtain rfl : forwarder = some ⟨stopped, holder⟩ := hforwarder
    obtain rfl : stopped = true := hstop
    obtain rfl : holder = none := hfree
    cases thread with
    | notStarted => exact absurd rfl hstarted
    | exited => exact absurd rfl hrunning
    | starting => exact ⟨.lock, _, rfl, rfl, (by decide : 1 < 2)⟩
    | waiting => exact ⟨.wake true, _, rfl, rfl, (by decide : 1 < 2)⟩
    | testing => cases hholds
    | reading => cases hholds
    | forwarding => cases hholds
    | pausing => cases hholds

/-- Where the main thread waits, the thread brings the wait nearer to its end. -/
theorem Attached.nearer_of_waits (hv : Attached v) (h : v.Waits) (outer : Bool) :
    Nearer outer v := by
  rcases h with ⟨o, f, hpc, hforwarder, hheld⟩ | ⟨o, hpc, hrunning⟩
  · -- the mutex is the thread's
    refine hv.nearer_of_holds hforwarder ?_ outer
    cases hholder : f.holder with
    | none => exact absurd hholder hheld
    | some party =>
      cases party with
      | worker => exact (hv.worker f hforwarder).mp hholder
      | main =>
        obtain ⟨o', hstopping⟩ := hv.main f hforwarder hholder
        rw [hpc] at hstopping
        cases hstopping
  · obtain ⟨f, hforwarder, hstop⟩ := hv.told o (Or.inr hpc)
    refine hv.nearer_of_stopped hforwarder hstop ?_ hrunning outer
    intro hmain
    obtain ⟨o', hstopping⟩ := hv.main f hforwarder hmain
    rw [hpc] at hstopping
    cases hstopping

/-- **Until an invocation has ended, one of its threads has a step that leaves less to do.** -/
theorem Attached.progress (hv : Attached v) (hopen : v.finished = false) (outer : Bool) :
    ∃ v', ((∃ l, mainStep outer v l = some v') ∨ ∃ t, threadStep outer v t = some v') ∧
      v'.remaining < v.remaining := by
  by_cases hwaits : v.Waits
  · obtain ⟨t, v', hstep, hpc, hless⟩ := hv.nearer_of_waits hwaits outer
    refine ⟨v', Or.inr ⟨t, hstep⟩, ?_⟩
    rw [remaining, remaining, hpc]
    omega
  · obtain ⟨l, v', hstep, hless⟩ := main_progress hopen hwaits outer
    refine ⟨v', Or.inl ⟨l, hstep⟩, ?_⟩
    have hle := Teardown.distance_le v'.stopped v'.thread
    simp only [remaining, distance]
    omega

end Invocation

/-! ## §5 Runs of the system -/

/-- A step of the two threads of the invocation `k`. -/
def SystemLabel.isOf {Conn : Type} (k : ℕ) : SystemLabel Conn → Bool
  | .main j _ => j == k
  | .thread j _ => j == k
  | _ => false

namespace System

variable {Conn : Type} [DecidableEq Conn] {s s' : System Conn}

/-- Every invocation of the system is as the steps of its two threads leave it. -/
def Orderly (s : System Conn) : Prop := ∀ p ∈ s.invs, p.2.Attached

omit [DecidableEq Conn] in
theorem Orderly.stepAt {f : Bool → Invocation → Option Invocation} {k : ℕ} (hs : Orderly s)
    (hf : ∀ outer v v', v.Attached → f outer v = some v' → v'.Attached)
    (h : s.stepAt k f = some s') : Orderly s' := by
  unfold System.stepAt at h
  split at h
  · cases h
  · rename_i c v hk
    obtain ⟨v', hv', rfl⟩ := Option.map_eq_some_iff.mp h
    intro p hp
    rcases List.mem_or_eq_of_mem_set hp with hold | rfl
    · exact hs p hold
    · exact hf _ _ _ (hs (c, v) (List.mem_of_getElem? hk)) hv'

theorem Orderly.step {l : SystemLabel Conn} (hs : Orderly s)
    (h : (system Conn).step s l = some s') : Orderly s' := by
  cases l with
  | interrupt c =>
    obtain rfl : { s with flag := Function.update s.flag c true } = s' := Option.some.inj h
    exact hs
  | clear c =>
    obtain ⟨-, ⟨⟩⟩ := Option.ite_none_left_eq_some.mp h
    exact hs
  | begin c =>
    obtain ⟨-, ⟨⟩⟩ := Option.ite_none_left_eq_some.mp h
    intro p hp
    rcases List.mem_append.mp hp with hold | hnew
    · exact hs p hold
    · rw [List.mem_singleton.mp hnew]
      exact .start
  | main k l =>
    have hstep : s.stepAt k (fun outer v => v.mainStep outer l) = some s' := h
    exact hs.stepAt (fun _ _ _ hv hv' => Invocation.mainStep_attached hv hv') hstep
  | thread k t =>
    have hstep : s.stepAt k (fun outer v => v.threadStep outer t) = some s' := h
    exact hs.stepAt (fun _ _ _ hv hv' => Invocation.threadStep_attached hv hv') hstep

theorem orderly_of_reachable (h : (system Conn).Reachable s) : Orderly s := by
  refine h.invariant Orderly ?_ fun _ _ _ hs hstep => hs.step hstep
  intro s₀ hinit p hp
  rw [show s₀.invs = [] from hinit] at hp
  cases hp

/-- The steps left of the invocation `k`. -/
def remainingOf (s : System Conn) (k : ℕ) : ℕ := (s.invs[k]?).elim 0 fun p => p.2.remaining

omit [DecidableEq Conn] in
theorem stepAt_own {f : Bool → Invocation → Option Invocation} {k : ℕ} {c : Conn}
    {v v' : Invocation} (hk : s.invs[k]? = some (c, v)) (hv' : f (s.flag c) v = some v') :
    ∃ s', s.stepAt k f = some s' ∧ s'.invs[k]? = some (c, v') := by
  have hlt : k < s.invs.length := (List.getElem?_eq_some_iff.mp hk).1
  refine ⟨{ s with invs := s.invs.set k (c, v') }, ?_, List.getElem?_set_self hlt⟩
  simp only [stepAt, hk, hv', Option.map_some]

/-- A step of an invocation is a step of the system. -/
theorem own_step {k : ℕ} {c : Conn} {v v' : Invocation} (hk : s.invs[k]? = some (c, v))
    (h : (∃ l, v.mainStep (s.flag c) l = some v') ∨ ∃ t, v.threadStep (s.flag c) t = some v') :
    ∃ l s', l.isOf k = true ∧ (system Conn).step s l = some s' ∧ s'.invs[k]? = some (c, v') := by
  rcases h with ⟨l, hl⟩ | ⟨t, ht⟩
  · obtain ⟨s', hstep, hk'⟩ :=
      stepAt_own (f := fun outer v => v.mainStep outer l) hk hl
    exact ⟨.main k l, s', beq_self_eq_true k, hstep, hk'⟩
  · obtain ⟨s', hstep, hk'⟩ :=
      stepAt_own (f := fun outer v => v.threadStep outer t) hk ht
    exact ⟨.thread k t, s', beq_self_eq_true k, hstep, hk'⟩

/-- The invocation `k` on `c` has ended. -/
def Ended (k : ℕ) (c : Conn) (s : System Conn) : Prop :=
  ∃ v, s.invs[k]? = some (c, v) ∧ v.finished = true

/-- The invocation `k` has begun on `c`. -/
structure Begun (k : ℕ) (c : Conn) (s : System Conn) : Prop where
  orderly : Orderly s
  there : ∃ v, s.invs[k]? = some (c, v)

/-- Until it has ended, its own threads have a step for it. -/
theorem Begun.progress {k : ℕ} {c : Conn} (hs : Begun k c s) (hopen : ¬ Ended k c s) :
    ∃ l s', l.isOf k = true ∧ (system Conn).step s l = some s' ∧ Begun k c s' ∧
      s'.remainingOf k < s.remainingOf k := by
  obtain ⟨v, hk⟩ := hs.there
  have hunfinished : v.finished = false := by
    rw [Bool.eq_false_iff]
    exact fun hfinished => hopen ⟨v, hk, hfinished⟩
  have hv := hs.orderly (c, v) (List.mem_of_getElem? hk)
  obtain ⟨v', hown, hless⟩ := hv.progress hunfinished (s.flag c)
  obtain ⟨l, s', hl, hstep, hk'⟩ := own_step hk hown
  refine ⟨l, s', hl, hstep, ⟨hs.orderly.step hstep, v', hk'⟩, ?_⟩
  simpa [remainingOf, hk, hk'] using hless

end System

/-- **The main thread of an invocation can always go on to its end.**  In every state of the
system, whatever has been interrupted and at whichever of its waits it is, steps of its own two
threads take an invocation to its end. -/
theorem invocation_ends {Conn : Type} [DecidableEq Conn] {s : System Conn} {k : ℕ} {c : Conn}
    {v : Invocation} (hs : (system Conn).Reachable s) (hk : s.invs[k]? = some (c, v)) :
    ∃ tr s' v' o, (∀ l ∈ tr, l.isOf k = true) ∧ (system Conn).run s tr = some s' ∧
      s'.invs[k]? = some (c, v') ∧ v'.pc = .ended o := by
  obtain ⟨tr, s', htr, hrun, -, v', hk', hfinished⟩ := (system Conn).exists_run_to
    (SystemLabel.isOf k) (fun s => s.remainingOf k) (fun _ h hopen => System.Begun.progress h hopen)
    ⟨System.orderly_of_reachable hs, v, hk⟩
  obtain ⟨o, hpc⟩ : ∃ o, v'.pc = .ended o := by
    unfold Invocation.finished at hfinished
    split at hfinished
    · exact ⟨_, by assumption⟩
    · cases hfinished
  exact ⟨tr, s', v', o, htr, hrun, hk', hpc⟩

end GgsqlDuckdb
