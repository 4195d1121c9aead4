import GgsqlDuckdb.Bridge.Teardown

/-!
# The teardown comes to an end

`~BridgeCtx` waits twice: for the mutex, which the forwarder's thread holds outside of its wait,
and in `worker.join`.  Neither wait is for ever: a thread that holds the mutex comes to its wait,
and behind a set `stopped` it has at most two steps left.

## Main results

- `Winding`: the invariant of a teardown at work.
- `Winding.progress`: some step is always possible until everything is destroyed.
- `teardown_ends`: no deadlock, and no thread that goes on behind a set `stopped`.
-/

namespace GgsqlDuckdb

open Library

namespace Teardown

open Invocation (ThreadLabel)

/-! ## §1 What is left of a teardown -/

/-- The whole of `~BridgeCtx`. -/
def wholeDestructor : List Action := bridgeDestructor fun _ => true

/-- The member that an action destroys. -/
def target : Action → Option Member
  | .destroy m => some m
  | _ => none

/-- A teardown at work, or through. -/
structure Winding (s : Teardown) : Prop where
  /-- The script is an end of the destructor. -/
  rest : s.script <:+ wholeDestructor
  /-- It destroys what is alive, and nothing else. -/
  targets : s.script.filterMap target = s.alive
  /-- No thread is joined that has not been told to stop. -/
  told : .join ∈ s.script → .setStopped ∈ s.script ∨ s.stopped = true

/-- What holds of every state that can be reached. -/
structure Orderly (s : Teardown) : Prop where
  sound : Sound s
  started : .worker ∈ s.alive → s.thread ≠ .notStarted
  exited : s.thread = .exited → s.stopped = true
  winding : s.destroying = true → Winding s

variable {s s' : Teardown}

theorem Winding.start (hs : Sound s) (hscript : s.script = []) :
    Winding { s with script := bridgeDestructor (owns s.alive), destroying := true } := by
  have hend := hs.audited
  rw [hscript] at hend
  have hsettled : settled s.alive = true := ((Bool.and_eq_true _ _).mp hend).2
  unfold settled at hsettled
  rw [Bool.or_eq_true, Bool.or_eq_true, beq_iff_eq, beq_iff_eq, beq_iff_eq] at hsettled
  -- nothing has been made, or the connection only, or all
  rcases hsettled with (hnone | hconnection) | hall
  · refine ⟨?_, ?_, fun hjoin => absurd hjoin ?_⟩ <;> simp only [hnone] <;> decide
  · refine ⟨?_, ?_, fun hjoin => absurd hjoin ?_⟩ <;> simp only [hconnection] <;> decide
  · refine ⟨?_, ?_, fun _ => Or.inl ?_⟩ <;> simp only [hall] <;> decide

/-- The actions of a teardown construct nothing. -/
theorem Winding.not_construct (h : Winding s) (m : Member) : .construct m ∉ s.script := by
  intro hmem
  exact construct_notMem_destructor _ m (h.rest.subset hmem)

theorem Winding.perform {a : Action} {rest : List Action} (h : Winding s) (hs : Sound s)
    (hscript : s.script = a :: rest)
    (hperform : Teardown.perform { s with script := rest } a = some s') : Winding s' := by
  have haudit := hs.audited
  rw [hscript] at haudit
  obtain ⟨w, hpass, -⟩ := Work.audit_cons.mp haudit
  have hscript' : s'.script = rest := (perform_frame hperform).1
  have htargets := h.targets
  rw [hscript] at htargets
  have hnot : ∀ m, a ≠ .construct m := by
    intro m ha
    apply h.not_construct m
    rw [hscript, ha]
    exact List.mem_cons_self
  refine ⟨?_, ?_, ?_⟩
  · rw [hscript']
    have hrest := h.rest
    rw [hscript] at hrest
    exact (List.suffix_cons a rest).trans hrest
  · rw [hscript']
    cases a with
    | construct m => exact absurd rfl (hnot m)
    | destroy m =>
      -- what is destroyed was the last one constructed
      obtain rfl := Option.some.inj hperform
      obtain ⟨⟨-, hhead⟩, -⟩ := Option.ite_none_right_eq_some.mp hpass
      have htail : m :: rest.filterMap target = s.alive := htargets
      show rest.filterMap target = s.alive.erase m
      rw [← htail, List.erase_cons_head]
    | lock =>
      obtain ⟨-, ⟨⟩⟩ := Option.ite_none_right_eq_some.mp hperform
      exact htargets
    | join =>
      obtain ⟨-, ⟨⟩⟩ := Option.ite_none_right_eq_some.mp hperform
      exact htargets
    | setStopped => obtain rfl := Option.some.inj hperform; exact htargets
    | unlock => obtain rfl := Option.some.inj hperform; exact htargets
    | notify => obtain rfl := Option.some.inj hperform; exact htargets
  · intro hjoin
    rw [hscript'] at hjoin ⊢
    have hbefore := h.told (hscript ▸ List.mem_cons_of_mem a hjoin)
    rw [hscript, List.mem_cons] at hbefore
    rcases hbefore with (ha | hlater) | hstop
    · subst ha
      obtain rfl := Option.some.inj hperform
      exact Or.inr rfl
    · exact Or.inl hlater
    · rcases perform_stopped hperform with hsame | ⟨ha, -⟩ | ⟨-, hset⟩
      · exact Or.inr (hsame.trans hstop)
      · exact absurd ha (hnot _)
      · exact Or.inr hset

theorem Winding.move {t : ThreadLabel} (h : Winding s) (hmove : s.move t = some s') :
    Winding s' := by
  obtain ⟨hscript, -, halive, hstop, -, -⟩ := move_frame hmove
  refine ⟨hscript ▸ h.rest, ?_, ?_⟩
  · rw [hscript, halive]
    exact h.targets
  · rw [hscript, hstop]
    exact h.told

/-! ## §2 The invariant of all states -/

/-- Only the construction of `worker` brings it to life. -/
theorem perform_worker {a : Action} (h : s.perform a = some s') (hworker : .worker ∈ s'.alive) :
    .worker ∈ s.alive ∨ (a = .construct .worker ∧ s'.thread = .starting) := by
  unfold Teardown.perform at h
  split at h <;> grind [List.mem_of_mem_erase]

/-- A set `stopped` is that of a teardown at work. -/
theorem Sound.destroying_of_stopped (hs : Sound s) (hstop : s.stopped = true) :
    s.destroying = true := by
  by_contra hliving
  rw [(hs.living (Bool.eq_false_iff.mpr hliving)).1] at hstop
  cases hstop

theorem Orderly.act (h : Orderly s) (hstep : s.act = some s') : Orderly s' := by
  obtain ⟨a, rest, hscript, hperform⟩ := h.sound.act_cases hstep
  have hthread := perform_thread hperform
  refine ⟨h.sound.perform hscript hperform, ?_, ?_, ?_⟩
  · intro hworker
    rcases perform_worker hperform hworker with hold | ⟨-, hnew⟩
    · rcases hthread with ⟨hsame, -⟩ | ⟨-, hnew, -⟩
      · rw [hsame]
        exact h.started hold
      · rw [hnew]
        decide
    · rw [hnew]
      decide
  · intro hexited
    rcases hthread with ⟨hsame, -⟩ | ⟨-, hnew, -⟩
    · have hstop : s.stopped = true := h.exited (hsame.symm.trans hexited)
      rcases perform_stopped hperform with hkept | ⟨ha, -⟩ | ⟨-, hset⟩
      · exact hkept.trans hstop
      · -- a thread has left, so nothing is constructed any more
        apply absurd _ ((h.winding (h.sound.destroying_of_stopped hstop)).not_construct .stopped)
        rw [hscript, ha]
        exact List.mem_cons_self
      · exact hset
    · rw [hnew] at hexited
      cases hexited
  · intro hd
    obtain ⟨-, hdestroying, -⟩ := perform_frame hperform
    exact (h.winding (hdestroying.symm.trans hd)).perform h.sound hscript hperform

/-- The thread leaves only behind a set `stopped`. -/
theorem move_exited {t : ThreadLabel} (hoffer : offers s.thread t = true)
    (hmove : s.move t = some s') (h : s'.thread = .exited) : s.stopped = true := by
  unfold Teardown.move at hmove
  unfold offers at hoffer
  split at hmove <;> grind

theorem Orderly.threadStep {t : ThreadLabel} (h : Orderly s) (hstep : s.threadStep t = some s') :
    Orderly s' := by
  obtain ⟨hoffer, hmove⟩ := Option.ite_none_right_eq_some.mp hstep
  rw [if_pos fun m _ => h.sound.all_alive hoffer m] at hmove
  obtain ⟨-, hdestroying, -, hstop, -, -⟩ := move_frame hmove
  refine ⟨h.sound.threadStep hstep, ?_, ?_, ?_⟩
  · intro _
    exact (move_thread hoffer hmove h.sound.holder h.sound.stopped).1
  · intro hexited
    exact hstop.trans (move_exited hoffer hmove hexited)
  · intro hd
    exact (h.winding (hdestroying.symm.trans hd)).move hmove

theorem Orderly.step {l : TeardownLabel} (h : Orderly s) (hstep : teardown.step s l = some s') :
    Orderly s' := by
  have hsound := sound_step h.sound hstep
  cases l with
  | interrupt =>
    obtain rfl := Option.some.inj hstep
    refine ⟨hsound, h.started, h.exited, ?_⟩
    intro hd
    exact ⟨(h.winding hd).rest, (h.winding hd).targets, (h.winding hd).told⟩
  | getInner =>
    obtain ⟨⟨-, hliving, -⟩, ⟨⟩⟩ := Option.ite_none_right_eq_some.mp hstep
    refine ⟨hsound, h.started, h.exited, ?_⟩
    intro hd
    exact absurd (hliving.symm.trans hd) Bool.false_ne_true
  | act => exact h.act hstep
  | fail =>
    simp only [teardown, Teardown.step] at hstep
    split at hstep
    · rename_i m rest hscript
      obtain rfl := Option.some.inj hstep
      refine ⟨hsound, h.started, h.exited, ?_⟩
      intro hd
      -- a teardown has no constructor that could throw
      apply absurd _ ((h.winding hd).not_construct m)
      rw [hscript]
      exact List.mem_cons_self
    · cases hstep
  | destroy =>
    obtain ⟨⟨hscript, -⟩, ⟨⟩⟩ := Option.ite_none_right_eq_some.mp hstep
    exact ⟨hsound, h.started, h.exited, fun _ => .start h.sound hscript⟩
  | thread t => exact h.threadStep hstep

theorem orderly_of_reachable (h : teardown.Reachable s) : Orderly s := by
  refine h.invariant Orderly ?_ fun _ _ _ hs hstep => hs.step hstep
  rintro s₀ ⟨outerFlag, rfl⟩
  exact ⟨.start outerFlag, nofun, nofun, nofun⟩

/-! ## §3 Progress -/

/-- The steps of the main thread and of the forwarder's thread. -/
def isOwn : TeardownLabel → Bool
  | .act => true
  | .thread _ => true
  | _ => false

/-- How far the thread is from its end behind a set `stopped`, and from its wait before. -/
def distance (stopped : Bool) : ThreadPc → ℕ
  | .notStarted => 0
  | .starting => 2
  | .testing => if stopped then 1 else 4
  | .reading => 3
  | .forwarding => 2
  | .pausing => 1
  | .waiting => if stopped then 2 else 0
  | .exited => 0

/-- What is left to do. -/
def remaining (s : Teardown) : ℕ := 10 * s.script.length + distance s.stopped s.thread

theorem distance_le (stopped : Bool) (pc : ThreadPc) : distance stopped pc ≤ 4 := by
  cases stopped <;> cases pc <;> decide

/-- An action that can be done is done with less left. -/
theorem Sound.act_progress (hs : Sound s) {a : Action} {rest : List Action}
    (hscript : s.script = a :: rest)
    (hcan : (Teardown.perform { s with script := rest } a).isSome = true) :
    ∃ s', s.act = some s' ∧ remaining s' < remaining s := by
  have haudit := hs.audited
  rw [hscript] at haudit
  obtain ⟨w, hpass, -⟩ := Work.audit_cons.mp haudit
  obtain ⟨s', hperform⟩ := Option.isSome_iff_exists.mp hcan
  have halive : ∀ m ∈ a.touches, m ∈ s.alive := Work.pass_touches hpass
  refine ⟨s', ?_, ?_⟩
  · unfold Teardown.act
    rw [hscript]
    simp only
    rw [if_pos halive]
    exact hperform
  · have hrest : s'.script = rest := (perform_frame hperform).1
    have hle := distance_le s'.stopped s'.thread
    unfold remaining
    rw [hrest, hscript, List.length_cons]
    omega

/-- A thread that can move comes nearer to its end, or to its wait. -/
theorem Sound.move_progress (hs : Sound s) {t : ThreadLabel} (hoffer : offers s.thread t = true)
    (hmove : s.move t = some s') (hnearer : distance s'.stopped s'.thread <
      distance s.stopped s.thread) :
    teardown.step s (.thread t) = some s' ∧ remaining s' < remaining s := by
  refine ⟨?_, ?_⟩
  · show s.threadStep t = some s'
    unfold Teardown.threadStep
    rw [if_pos hoffer, if_pos fun m _ => hs.all_alive hoffer m]
    exact hmove
  · unfold remaining
    rw [(move_frame hmove).1]
    omega

/-- A step of the thread that brings it nearer to its end, or to its wait. -/
def Nearer (s : Teardown) : Prop :=
  ∃ t s', teardown.step s (.thread t) = some s' ∧ remaining s' < remaining s

/-- A thread that holds the mutex goes on to its wait, or to its end. -/
theorem Sound.nearer_of_holds (hs : Sound s) (h : s.thread.holds = true) : Nearer s := by
  cases hthread : s.thread with
  | testing =>
    have hoffer : offers s.thread .test = true := by rw [hthread]; rfl
    cases hstop : s.stopped with
    | true =>
      have hmove : s.move .test = some { s with holder := none, thread := .exited } := by
        simp [Teardown.move, hstop]
      refine ⟨_, _, hs.move_progress hoffer hmove ?_⟩
      rw [hthread, hstop]
      exact (by decide : 0 < 1)
    | false =>
      have hmove : s.move .test = some { s with thread := .reading } := by
        simp [Teardown.move, hstop]
      refine ⟨_, _, hs.move_progress hoffer hmove ?_⟩
      rw [hthread, hstop]
      exact (by decide : 3 < 4)
  | reading =>
    have hoffer : offers s.thread .read = true := by rw [hthread]; rfl
    refine ⟨_, _, hs.move_progress hoffer rfl ?_⟩
    rw [hthread]
    cases s.outerFlag with
    | true => exact (by decide : 2 < 3)
    | false => exact (by decide : 1 < 3)
  | forwarding =>
    have hoffer : offers s.thread .interrupt = true := by rw [hthread]; rfl
    refine ⟨_, _, hs.move_progress hoffer rfl ?_⟩
    rw [hthread]
    exact (by decide : 1 < 2)
  | pausing =>
    -- it has found `stopped` clear, and nobody has had the mutex since
    have hstop : s.stopped = false := by
      cases hstop : s.stopped with
      | false => rfl
      | true =>
        have hpast := hs.stopped hstop
        rw [hthread] at hpast
        cases hpast
    have hoffer : offers s.thread .pause = true := by rw [hthread]; rfl
    have hmove : s.move .pause = some { s with holder := none, thread := .waiting } := by
      simp [Teardown.move, hstop]
    refine ⟨_, _, hs.move_progress hoffer hmove ?_⟩
    rw [hthread, hstop]
    exact (by decide : 0 < 1)
  | notStarted => rw [hthread] at h; cases h
  | starting => rw [hthread] at h; cases h
  | waiting => rw [hthread] at h; cases h
  | exited => rw [hthread] at h; cases h

/-- A thread that has been told to stop goes on to its end. -/
theorem Orderly.nearer_of_stopped (h : Orderly s) (hstop : s.stopped = true)
    (hworker : .worker ∈ s.alive) (hlock : s.holder ≠ some .main) (hrun : s.thread ≠ .exited) :
    Nearer s := by
  have hfree : s.thread.holds = false → s.holder = none := by
    intro hholds
    cases hholder : s.holder with
    | none => rfl
    | some party =>
      cases party with
      | main => exact absurd hholder hlock
      | worker =>
        rw [h.sound.holder.mp hholder] at hholds
        cases hholds
  cases hthread : s.thread with
  | notStarted => exact absurd hthread (h.started hworker)
  | exited => exact absurd hthread hrun
  | starting =>
    have hnone := hfree (by rw [hthread]; rfl)
    have hoffer : offers s.thread .lock = true := by rw [hthread]; rfl
    have hmove : s.move .lock = some { s with holder := some .worker, thread := .testing } := by
      simp [Teardown.move, hnone]
    refine ⟨_, _, h.sound.move_progress hoffer hmove ?_⟩
    rw [hthread, hstop]
    exact (by decide : 1 < 2)
  | waiting =>
    have hnone := hfree (by rw [hthread]; rfl)
    have hoffer : offers s.thread (.wake true) = true := by rw [hthread]; rfl
    have hmove : s.move (.wake true) =
        some { s with holder := some .worker, thread := .testing } := by
      simp [Teardown.move, hnone]
    refine ⟨_, _, h.sound.move_progress hoffer hmove ?_⟩
    rw [hthread, hstop]
    exact (by decide : 1 < 2)
  | testing => exact h.sound.nearer_of_holds (by rw [hthread]; rfl)
  | reading => exact h.sound.nearer_of_holds (by rw [hthread]; rfl)
  | forwarding => exact h.sound.nearer_of_holds (by rw [hthread]; rfl)
  | pausing => exact h.sound.nearer_of_holds (by rw [hthread]; rfl)

/-- The script behind `worker.join` sets nothing. -/
theorem not_setStopped_behind_join {rest : List Action}
    (h : Action.join :: rest <:+ wholeDestructor) : .setStopped ∉ Action.join :: rest := by
  have hall : wholeDestructor.tails.all (fun q =>
      q.head? != some Action.join || !q.contains Action.setStopped) = true := by decide
  have htail := List.all_eq_true.mp hall _ ((List.mem_tails _ _).mpr h)
  simpa using htail

/-- **Until everything is destroyed, some step is possible that leaves less to do.** -/
theorem Orderly.progress (h : Orderly s) (hd : s.destroying = true) (hopen : s.script ≠ []) :
    ∃ l s', isOwn l = true ∧ teardown.step s l = some s' ∧ remaining s' < remaining s := by
  obtain ⟨a, rest, hscript⟩ := List.exists_cons_of_ne_nil hopen
  have hwinding := h.winding hd
  have haudit := h.sound.audited
  rw [hscript] at haudit
  obtain ⟨w, hpass, -⟩ := Work.audit_cons.mp haudit
  have hact : (Teardown.perform { s with script := rest } a).isSome = true →
      ∃ l s', isOwn l = true ∧ teardown.step s l = some s' ∧ remaining s' < remaining s := by
    intro hcan
    obtain ⟨s', hstep, hless⟩ := h.sound.act_progress hscript hcan
    exact ⟨.act, s', rfl, hstep, hless⟩
  have hthread : Nearer s →
      ∃ l s', isOwn l = true ∧ teardown.step s l = some s' ∧ remaining s' < remaining s := by
    rintro ⟨t, s', hstep, hless⟩
    exact ⟨.thread t, s', rfl, hstep, hless⟩
  cases a with
  | lock =>
    -- the thread holds the mutex, or nobody does
    obtain ⟨⟨hunlocked, -⟩, -⟩ := Option.ite_none_right_eq_some.mp hpass
    cases hholder : s.holder with
    | none => exact hact (by simp [Teardown.perform, hholder])
    | some party =>
      cases party with
      | main =>
        have hmain : (s.holder == some Party.main) = false := hunlocked
        rw [hholder] at hmain
        cases hmain
      | worker => exact hthread (h.sound.nearer_of_holds (h.sound.holder.mp hholder))
  | join =>
    obtain ⟨⟨hunlocked, hworker⟩, -⟩ := Option.ite_none_right_eq_some.mp hpass
    by_cases hexited : s.thread = .exited
    · exact hact (by simp [Teardown.perform, hexited])
    · have hrest := hwinding.rest
      have htold := hwinding.told
      rw [hscript] at hrest htold
      have hstop : s.stopped = true :=
        (htold List.mem_cons_self).resolve_left (not_setStopped_behind_join hrest)
      have hlock : s.holder ≠ some .main := by
        intro hmain
        have hfree : (s.holder == some Party.main) = false := hunlocked
        rw [hmain] at hfree
        cases hfree
      exact hthread (h.nearer_of_stopped hstop hworker hlock hexited)
  | construct m =>
    apply absurd _ (hwinding.not_construct m)
    rw [hscript]
    exact List.mem_cons_self
  | setStopped => exact hact rfl
  | unlock => exact hact rfl
  | notify => exact hact rfl
  | destroy m => exact hact rfl

/-! ## §4 Behind a set `stopped` -/

/-- The steps left behind a set `stopped`. -/
def left (s : Teardown) : ℕ := s.script.length + distance true s.thread

/-- Behind a set `stopped` every step of either thread leaves one less. -/
theorem left_step {l : TeardownLabel} (h : Orderly s) (hstop : s.stopped = true)
    (hstep : teardown.step s l = some s') : (if isOwn l then 1 else 0) + left s' ≤ left s := by
  have hd := h.sound.destroying_of_stopped hstop
  cases l with
  | interrupt =>
    obtain rfl := Option.some.inj hstep
    exact (Nat.zero_add _).le
  | getInner =>
    obtain ⟨⟨-, hliving, -⟩, -⟩ := Option.ite_none_right_eq_some.mp hstep
    exact absurd (hliving.symm.trans hd) Bool.false_ne_true
  | destroy =>
    obtain ⟨⟨-, hliving⟩, -⟩ := Option.ite_none_right_eq_some.mp hstep
    exact absurd (hliving.symm.trans hd) Bool.false_ne_true
  | fail =>
    simp only [teardown, Teardown.step] at hstep
    split at hstep
    · rename_i m rest hscript
      apply absurd _ ((h.winding hd).not_construct m)
      rw [hscript]
      exact List.mem_cons_self
    · cases hstep
  | act =>
    obtain ⟨a, rest, hscript, hperform⟩ := h.sound.act_cases hstep
    have hrest : s'.script = rest := (perform_frame hperform).1
    have hthread : s'.thread = s.thread := by
      rcases perform_thread hperform with ⟨hsame, -⟩ | ⟨ha, -⟩
      · exact hsame
      · apply absurd _ ((h.winding hd).not_construct .worker)
        rw [hscript, ha]
        exact List.mem_cons_self
    show 1 + left s' ≤ left s
    unfold left
    rw [hrest, hthread, hscript, List.length_cons]
    omega
  | thread t =>
    obtain ⟨hoffer, hmove⟩ := Option.ite_none_right_eq_some.mp hstep
    rw [if_pos fun m _ => h.sound.all_alive hoffer m] at hmove
    have hpast := h.sound.stopped hstop
    have hscript : s'.script = s.script := (move_frame hmove).1
    have hnearer : 1 + distance true s'.thread ≤ distance true s.thread := by
      unfold Teardown.move at hmove
      unfold offers at hoffer
      split at hmove <;> grind [distance, ThreadPc.pastTest]
    show 1 + left s' ≤ left s
    unfold left
    rw [hscript]
    omega

/-! ## §5 Runs -/

/-- A teardown at work. -/
structure Closing (s : Teardown) : Prop where
  orderly : Orderly s
  destroying : s.destroying = true

theorem Closing.of_reachable (h : teardown.Reachable s) (hd : s.destroying = true) : Closing s :=
  ⟨orderly_of_reachable h, hd⟩

/-- A teardown is not left again. -/
theorem Closing.step {l : TeardownLabel} (h : Closing s) (hstep : teardown.step s l = some s') :
    Closing s' := by
  refine ⟨h.orderly.step hstep, ?_⟩
  cases l with
  | interrupt => obtain rfl := Option.some.inj hstep; exact h.destroying
  | getInner =>
    obtain ⟨-, ⟨⟩⟩ := Option.ite_none_right_eq_some.mp hstep
    exact h.destroying
  | act =>
    obtain ⟨a, rest, -, hperform⟩ := h.orderly.sound.act_cases hstep
    exact (perform_frame hperform).2.1.trans h.destroying
  | fail =>
    simp only [teardown, Teardown.step] at hstep
    split at hstep
    · obtain rfl := Option.some.inj hstep
      exact h.destroying
    · cases hstep
  | destroy =>
    obtain ⟨-, ⟨⟩⟩ := Option.ite_none_right_eq_some.mp hstep
    rfl
  | thread t =>
    obtain ⟨hoffer, hmove⟩ := Option.ite_none_right_eq_some.mp hstep
    rw [if_pos fun m _ => h.orderly.sound.all_alive hoffer m] at hmove
    exact (move_frame hmove).2.1.trans h.destroying

theorem Closing.progress (h : Closing s) (hopen : s.script ≠ []) :
    ∃ l s', isOwn l = true ∧ teardown.step s l = some s' ∧ Closing s' ∧
      remaining s' < remaining s := by
  obtain ⟨l, s', hown, hstep, hless⟩ := h.orderly.progress h.destroying hopen
  exact ⟨l, s', hown, hstep, h.step hstep, hless⟩

/-- At the end of the script nothing is alive, and no thread runs. -/
theorem Closing.ended (h : Closing s) (hscript : s.script = []) :
    s.alive = [] ∧ (s.thread = .notStarted ∨ s.thread = .exited) := by
  have halive : s.alive = [] := by
    rw [← (h.orderly.winding h.destroying).targets, hscript]
    rfl
  have hquiet : s.quiet = true := by
    by_contra hrunning
    have hall := h.orderly.sound.unquiet (Bool.eq_false_iff.mpr hrunning)
    rw [halive] at hall
    cases hall
  refine ⟨halive, ?_⟩
  unfold quiet at hquiet
  rcases (Bool.or_eq_true _ _).mp hquiet with hnew | hjoined
  · exact Or.inl (eq_of_beq hnew)
  · exact Or.inr (h.orderly.sound.joined hjoined)

/-- A set `stopped` stays set. -/
theorem Closing.step_stopped {l : TeardownLabel} (h : Closing s) (hstop : s.stopped = true)
    (hstep : teardown.step s l = some s') : s'.stopped = true := by
  have hnext := h.step hstep
  cases l with
  | interrupt => obtain rfl := Option.some.inj hstep; exact hstop
  | getInner =>
    obtain ⟨-, ⟨⟩⟩ := Option.ite_none_right_eq_some.mp hstep
    exact hstop
  | act =>
    obtain ⟨a, rest, hscript, hperform⟩ := h.orderly.sound.act_cases hstep
    rcases perform_stopped hperform with hsame | ⟨ha, -⟩ | ⟨-, hset⟩
    · exact hsame.trans hstop
    · apply absurd _ ((h.orderly.winding h.destroying).not_construct .stopped)
      rw [hscript, ha]
      exact List.mem_cons_self
    · exact hset
  | fail =>
    simp only [teardown, Teardown.step] at hstep
    split at hstep
    · obtain rfl := Option.some.inj hstep
      exact hstop
    · cases hstep
  | destroy =>
    obtain ⟨-, ⟨⟩⟩ := Option.ite_none_right_eq_some.mp hstep
    exact hstop
  | thread t =>
    obtain ⟨hoffer, hmove⟩ := Option.ite_none_right_eq_some.mp hstep
    rw [if_pos fun m _ => h.orderly.sound.all_alive hoffer m] at hmove
    exact (move_frame hmove).2.2.2.1.trans hstop

/-- Behind a set `stopped` the thread is two steps from its end at most. -/
theorem left_le (hs : Sound s) (hstop : s.stopped = true) : left s ≤ s.script.length + 2 := by
  have hpast := hs.stopped hstop
  have hdistance : distance true s.thread ≤ 2 := by
    cases hthread : s.thread <;> rw [hthread] at hpast <;>
      first | exact (by decide : 2 ≤ 2) | exact (by decide : 1 ≤ 2) | exact (by decide : 0 ≤ 2) |
        cases hpast
  unfold left
  omega

end Teardown

open Teardown in
/-- **The teardown comes to an end.**  From every state in which `~BridgeCtx` is at work, steps of
the two threads lead to one in which all of its objects are destroyed; and behind a set `stopped`
no more of them can be taken than the script has actions left, and two of the thread, whatever
the interrupts of the outer connection, the wake-ups and the scheduler do. -/
theorem teardown_ends {s : Teardown} (hs : teardown.Reachable s) (hd : s.destroying = true) :
    (∃ tr s', (∀ l ∈ tr, Teardown.isOwn l = true) ∧ teardown.run s tr = some s' ∧
      s'.script = [] ∧ s'.alive = [] ∧ (s'.thread = .notStarted ∨ s'.thread = .exited)) ∧
    (s.stopped = true → ∀ tr s', teardown.run s tr = some s' →
      tr.countP Teardown.isOwn ≤ s.script.length + 2) := by
  have hclosing := Closing.of_reachable hs hd
  constructor
  -- each step that is possible leaves less to do
  · have hprogress : ∀ s, Closing s → ¬ s.script = [] → ∃ l s', isOwn l = true ∧
        teardown.step s l = some s' ∧ Closing s' ∧ remaining s' < remaining s :=
      fun _ h hopen => h.progress hopen
    obtain ⟨tr, s', hown, hrun, hend, hscript⟩ :=
      teardown.exists_run_to isOwn remaining hprogress hclosing
    obtain ⟨halive, hthread⟩ := hend.ended hscript
    exact ⟨tr, s', hown, hrun, hscript, halive, hthread⟩
  -- and behind a set `stopped` each step that is taken does
  · intro hstop tr s' hrun
    have hcount := teardown.run_countP_le isOwn left (fun s => Closing s ∧ s.stopped = true)
      (fun _ _ _ h hstep => ⟨⟨h.1.step hstep, h.1.step_stopped h.2 hstep⟩,
        left_step h.1.orderly h.2 hstep⟩) ⟨hclosing, hstop⟩ hrun
    have hle := left_le hclosing.orderly.sound hstop
    omega

/-- The destructor is entered while the thread waits, and has set `stopped`. -/
def closingRun : List TeardownLabel :=
  .getInner :: List.replicate 7 .act ++
    [.thread .lock, .thread .test, .thread .read, .thread .pause, .destroy, .act, .act]

theorem teardown_ends_closing :
    ∃ s, teardown.run (.start false) closingRun = some s ∧
      s.stopped = true ∧ s.holder = some .main ∧
      (∃ tr s', (∀ l ∈ tr, Teardown.isOwn l = true) ∧ teardown.run s tr = some s' ∧
        s'.script = [] ∧ s'.alive = [] ∧ (s'.thread = .notStarted ∨ s'.thread = .exited)) ∧
      (s.stopped = true → ∀ tr s', teardown.run s tr = some s' →
        tr.countP Teardown.isOwn ≤ s.script.length + 2) := by
  obtain ⟨s, hrun, hd, hstop, hholder⟩ := Machine.run_decided
    (fun s : Teardown => s.destroying = true ∧ s.stopped = true ∧ s.holder = some .main)
    (show ((teardown.run (.start false) closingRun).any _) = true by decide +kernel)
  exact ⟨s, hrun, hstop, hholder,
    teardown_ends ⟨.start false, closingRun, ⟨false, rfl⟩, hrun⟩ hd⟩

end GgsqlDuckdb
