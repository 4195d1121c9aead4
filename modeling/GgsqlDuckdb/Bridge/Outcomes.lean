import GgsqlDuckdb.Bridge.Forwarding
import Mathlib.Logic.Function.Basic

/-!
# Outcomes of whole runs

Any number of invocations, one after the other on a connection or side by side on several,
with the interrupts of the outer connections in between.  A connection runs one invocation
at a time; its flag stays set at least until that invocation has ended.

## Main results

- `System.step_view`: what one step of the system is for one invocation.
- `System.Doomed.step`: an invocation whose flag is set before its final check can end only
  interrupted.
- `System.Spared.step`: an invocation whose flag is never set is nowhere interrupted.
- `run_outcomes`: both, for every invocation of every run.
-/

namespace GgsqlDuckdb

open Library

namespace Invocation

/-! ## §1 What a step decides and reports -/

section Effects

variable {outer : Bool} {v v' : Invocation} {l : MainLabel} {t : ThreadLabel}

def finished (v : Invocation) : Bool :=
  match v.pc with
  | .ended _ => true
  | _ => false

/-- The outcome is decided once, as an interruption exactly when the outer flag is set. -/
theorem mainStep_outcome (h : mainStep outer v l = some v') :
    v'.pc.outcome = v.pc.outcome ∨
      ∃ o, v'.pc.outcome = some o ∧ (o = .interrupted ↔ outer = true) := by
  unfold mainStep at h
  split at h <;> grind [answer, MainPc.outcome, finish]

/-- An exception that crosses a `catch` clause as an interruption found the inner flag set. -/
theorem caught_admitted {text : Bytes} {e : Thrown} (hadmitted : Thrown.admitted v e = true)
    (h : (caught text e).interruption = true) : v.inner = some true := by
  cases e with
  | exception e =>
    have hint : e.interruption = true := h
    simpa [Thrown.admitted, admits, hint] using hadmitted
  | unknown => cases h

theorem mainStep_answers (h : mainStep outer v l = some v') :
    v'.answers = v.answers ∨ ∃ a, v'.answers = v.answers ++ [a] ∧
      (a.interruption = true → outer = true ∨ v.inner = some true ∨
        ∃ e, v.pc = .checking (.error e) ∧ e.interruption = true) := by
  unfold mainStep at h
  split at h <;> grind [answer, Answer.interruption, Failure.interruption, caught_admitted,
    admits]

theorem mainStep_checking (h : mainStep outer v l = some v') {e : EngineError}
    (hpc : v'.pc = .checking (.error e)) (he : e.interruption = true) :
    v.inner = some true ∨ v.pc = .checking (.error e) := by
  unfold mainStep at h
  split at h <;> grind [answer, QueryResult.admitted, admits]

theorem mainStep_finished (hv : v.finished = true) : mainStep outer v l = none := by
  unfold finished at hv
  split at hv
  · rename_i hpc
    exact mainStep_ended hpc
  · simp at hv

theorem threadStep_answers (h : threadStep outer v t = some v') : v'.answers = v.answers := by
  unfold threadStep at h
  split at h <;> grind [withForwarder]

/-! ## §2 The thread is joined before the end -/

/-- The thread runs only while its forwarder exists, and the destructor waits for it. -/
structure Joined (v : Invocation) : Prop where
  entry : v.pc = .entry → v.thread = .notStarted
  orphan : v.forwarder = none → v.thread = .notStarted ∨ v.thread = .exited
  joined : ∀ o, v.pc = .freeing o ∨ v.pc = .closing o ∨ v.pc = .ended o →
    v.thread = .notStarted ∨ v.thread = .exited

theorem Joined.start : Joined Invocation.start := by
  constructor <;> simp [Invocation.start]

theorem mainStep_joined (hv : Joined v) (h : mainStep outer v l = some v') : Joined v' := by
  obtain ⟨hentry, horphan, hjoined⟩ := hv
  unfold mainStep at h
  split at h <;> constructor <;> grind [answer, Option.map_eq_none_iff]

theorem threadStep_joined (hv : Joined v) (h : threadStep outer v t = some v') : Joined v' := by
  obtain ⟨hentry, horphan, hjoined⟩ := hv
  unfold threadStep at h
  split at h <;> constructor <;> grind [withForwarder]

theorem threadStep_finished (hv : Joined v) (hfinished : v.finished = true) :
    threadStep outer v t = none := by
  unfold finished at hfinished
  split at hfinished
  · rename_i o hpc
    -- the destructor has joined the thread
    unfold threadStep
    rcases hv.joined o (Or.inr (Or.inr hpc)) with hthread | hthread <;> simp [hthread]
  · cases hfinished

end Effects

/-! ## §3 An invocation that nothing interrupts -/

/-- No interruption has reached the invocation, nor is one on its way. -/
structure Undisturbed (v : Invocation) : Prop where
  inner : v.inner ≠ some true
  thread : v.thread ≠ .forwarding
  pending : ∀ e, v.pc = .checking (.error e) → e.interruption = false
  answers : ∀ a ∈ v.answers, a.interruption = false
  outcome : v.pc.outcome ≠ some .interrupted

theorem Undisturbed.start : Undisturbed Invocation.start := by
  constructor <;> simp [Invocation.start, MainPc.outcome]

theorem Undisturbed.mainStep {v v' : Invocation} {l : MainLabel} (hv : Undisturbed v)
    (h : v.mainStep false l = some v') : Undisturbed v' := by
  constructor
  -- no step of the main thread sets the inner flag
  · rcases mainStep_inner h with hsame | ⟨-, hclear⟩ | ⟨-, hclear⟩ | ⟨hnone, -⟩
    · exact hsame ▸ hv.inner
    · simp [hclear]
    · simp [hclear]
    · simp [hnone]
  -- a new thread has not read the outer flag yet
  · rcases mainStep_thread h with hsame | ⟨-, hnew, -⟩
    · exact hsame ▸ hv.thread
    · simp [hnew]
  -- DuckDB reports an interruption only behind a set inner flag
  · intro e hpc
    rw [Bool.eq_false_iff]
    intro he
    rcases mainStep_checking h hpc he with hinner | hbefore
    · exact hv.inner hinner
    · simp [hv.pending e hbefore] at he
  -- what is answered comes from a check, the inner flag or a pending error
  · rcases mainStep_answers h with hsame | ⟨a, hnew, ha⟩
    · exact hsame ▸ hv.answers
    · have hclean : a.interruption = false := by
        rw [Bool.eq_false_iff]
        intro hinterruption
        rcases ha hinterruption with houter | hinner | ⟨e, hpc, he⟩
        · cases houter
        · exact hv.inner hinner
        · simp [hv.pending e hpc] at he
      simpa [hnew, or_imp, forall_and, hclean] using hv.answers
  -- the final check reads a clear outer flag
  · rcases mainStep_outcome h with hsame | ⟨o, hnew, ho⟩
    · exact hsame ▸ hv.outcome
    · simpa [hnew] using ho

theorem Undisturbed.threadStep {v v' : Invocation} {t : ThreadLabel} (hv : Undisturbed v)
    (h : v.threadStep false t = some v') : Undisturbed v' := by
  have hpc := threadStep_pc h
  constructor
  -- only a thread past a set outer flag interrupts the inner connection
  · rcases threadStep_inner h with hsame | ⟨hfwd, -⟩
    · exact hsame ▸ hv.inner
    · exact absurd hfwd hv.thread
  · intro hfwd
    rcases (threadStep_thread h).2.2 hfwd with houter | hbefore
    · cases houter
    · exact hv.thread hbefore
  · exact hpc ▸ hv.pending
  · exact threadStep_answers h ▸ hv.answers
  · exact hpc ▸ hv.outcome

end Invocation

/-! ## §4 Many invocations on many connections -/

/-- The interrupt flags of the outer connections and the invocations begun so far, each with
its connection. -/
structure System (Conn : Type) where
  flag : Conn → Bool
  invs : List (Conn × Invocation)

inductive SystemLabel (Conn : Type) where
  | interrupt (c : Conn)
  | clear (c : Conn)
  | begin (c : Conn)
  | main (k : ℕ) (l : Invocation.MainLabel)
  | thread (k : ℕ) (t : Invocation.ThreadLabel)
  deriving DecidableEq, Repr

namespace System

variable {Conn : Type} [DecidableEq Conn]

/-- An invocation on `c` has begun and not ended. -/
def busy (s : System Conn) (c : Conn) : Bool :=
  s.invs.any fun p => decide (p.1 = c) && !p.2.finished

/-- A step of the invocation `k` while the flag of its connection is as it is. -/
def stepAt (s : System Conn) (k : ℕ) (f : Bool → Invocation → Option Invocation) :
    Option (System Conn) :=
  match s.invs[k]? with
  | none => none
  | some (c, v) => (f (s.flag c) v).map fun v' => { s with invs := s.invs.set k (c, v') }

def step (s : System Conn) : SystemLabel Conn → Option (System Conn)
  | .interrupt c => some { s with flag := Function.update s.flag c true }
  | .clear c =>
    if s.busy c then none else some { s with flag := Function.update s.flag c false }
  | .begin c => if s.busy c then none else some { s with invs := s.invs ++ [(c, .start)] }
  | .main k l => s.stepAt k fun outer v => v.mainStep outer l
  | .thread k t => s.stepAt k fun outer v => v.threadStep outer t

end System

/-- Every interleaving of invocations, forwarder threads and interrupts. -/
def system (Conn : Type) [DecidableEq Conn] : Machine (System Conn) (SystemLabel Conn) where
  init s := s.invs = []
  step := System.step

namespace System

variable {Conn : Type} [DecidableEq Conn] {s s' : System Conn}

omit [DecidableEq Conn] in
theorem stepAt_view {f : Bool → Invocation → Option Invocation} {j k : ℕ} {c : Conn}
    {v : Invocation} (h : s.stepAt j f = some s') (hk : s.invs[k]? = some (c, v)) :
    s'.flag = s.flag ∧ ∃ v', s'.invs[k]? = some (c, v') ∧
      (v' = v ∨ j = k ∧ f (s.flag c) v = some v') := by
  unfold stepAt at h
  split at h
  · cases h
  · rename_i d w hj
    obtain ⟨w', hw', rfl⟩ := Option.map_eq_some_iff.mp h
    refine ⟨rfl, ?_⟩
    -- a step of invocation `j` is one of `k` or leaves `k` alone
    by_cases hjk : j = k
    · subst hjk
      obtain ⟨rfl, rfl⟩ : d = c ∧ w = v := by simpa [hj] using hk
      have hlt : j < s.invs.length := (List.getElem?_eq_some_iff.mp hk).1
      exact ⟨w', by simp [hlt], Or.inr ⟨rfl, hw'⟩⟩
    · exact ⟨v, by simpa [List.getElem?_set_ne hjk] using hk, Or.inl rfl⟩

theorem finished_of_not_busy {k : ℕ} {c : Conn} {v : Invocation} (h : ¬ s.busy c = true)
    (hk : s.invs[k]? = some (c, v)) : v.finished = true := by
  by_contra hfinished
  refine h (List.any_eq_true.mpr ⟨(c, v), List.mem_of_getElem? hk, ?_⟩)
  -- an unfinished invocation on `c` would make it busy
  simpa using hfinished

/-- What one step of the system is for the invocation `k` on the connection `c`: a step of
its own, or a step that leaves it alone and changes its flag only by an interrupt or behind
its end. -/
theorem step_view {l : SystemLabel Conn} {k : ℕ} {c : Conn} {v : Invocation}
    (h : (system Conn).step s l = some s') (hk : s.invs[k]? = some (c, v)) :
    ∃ v', s'.invs[k]? = some (c, v') ∧
      ((v' = v ∧ (s'.flag c = s.flag c ∨ (l = .interrupt c ∧ s'.flag c = true) ∨
          v.finished = true)) ∨
        (s'.flag c = s.flag c ∧ ((∃ m, v.mainStep (s.flag c) m = some v') ∨
          ∃ t, v.threadStep (s.flag c) t = some v'))) := by
  cases l with
  | interrupt d =>
    -- an interrupt sets the flag of its own connection
    obtain rfl : { s with flag := Function.update s.flag d true } = s' := Option.some.inj h
    refine ⟨v, hk, Or.inl ⟨rfl, ?_⟩⟩
    by_cases hdc : d = c
    · subst hdc
      exact Or.inr (Or.inl ⟨rfl, by simp⟩)
    · exact Or.inl (by simp [Function.update_of_ne (Ne.symm hdc)])
  | clear d =>
    -- a connection is cleared between its invocations
    obtain ⟨hbusy, hs'⟩ := Option.ite_none_left_eq_some.mp h
    obtain rfl : { s with flag := Function.update s.flag d false } = s' := Option.some.inj hs'
    refine ⟨v, hk, Or.inl ⟨rfl, ?_⟩⟩
    by_cases hdc : d = c
    · subst hdc
      exact Or.inr (Or.inr (finished_of_not_busy hbusy hk))
    · exact Or.inl (by simp [Function.update_of_ne (Ne.symm hdc)])
  | begin d =>
    -- a new invocation goes behind those begun so far
    obtain ⟨-, hs'⟩ := Option.ite_none_left_eq_some.mp h
    obtain rfl : { s with invs := s.invs ++ [(d, .start)] } = s' := Option.some.inj hs'
    have hlt : k < s.invs.length := (List.getElem?_eq_some_iff.mp hk).1
    exact ⟨v, by simpa [List.getElem?_append_left hlt] using hk, Or.inl ⟨rfl, Or.inl rfl⟩⟩
  | main j m =>
    have hstep : s.stepAt j (fun outer v => v.mainStep outer m) = some s' := h
    obtain ⟨hflag, v', hv', hown⟩ := stepAt_view hstep hk
    refine ⟨v', hv', ?_⟩
    rcases hown with rfl | ⟨-, hstep⟩
    · exact Or.inl ⟨rfl, Or.inl (by rw [hflag])⟩
    · exact Or.inr ⟨by rw [hflag], Or.inl ⟨m, hstep⟩⟩
  | thread j t =>
    have hstep : s.stepAt j (fun outer v => v.threadStep outer t) = some s' := h
    obtain ⟨hflag, v', hv', hown⟩ := stepAt_view hstep hk
    refine ⟨v', hv', ?_⟩
    rcases hown with rfl | ⟨-, hstep⟩
    · exact Or.inl ⟨rfl, Or.inl (by rw [hflag])⟩
    · exact Or.inr ⟨by rw [hflag], Or.inr ⟨t, hstep⟩⟩

/-! ## §5 Outcomes -/

/-- The invocation `k` on `c` can only end interrupted. -/
def Doomed (k : ℕ) (c : Conn) (s : System Conn) : Prop :=
  ∃ v, s.invs[k]? = some (c, v) ∧ (∀ o, v.pc.outcome = some o → o = .interrupted) ∧
    (s.flag c = true ∨ v.finished = true)

theorem Doomed.step {l : SystemLabel Conn} {k : ℕ} {c : Conn} (hs : Doomed k c s)
    (h : (system Conn).step s l = some s') : Doomed k c s' := by
  obtain ⟨v, hk, houtcome, hflag⟩ := hs
  obtain ⟨v', hk', hstep⟩ := step_view h hk
  refine ⟨v', hk', ?_⟩
  rcases hstep with ⟨rfl, hsame | ⟨-, hset⟩ | hfinished⟩ | ⟨hsame, ⟨m, hmain⟩ | ⟨t, hthread⟩⟩
  -- not a step of `k`: its flag stays, is set again, or comes behind its end
  · exact ⟨houtcome, hsame ▸ hflag⟩
  · exact ⟨houtcome, Or.inl hset⟩
  · exact ⟨houtcome, Or.inr hfinished⟩
  -- a step of the main thread of `k`, whose final check reads the set flag
  · have hunfinished : ¬ v.finished = true := by
      intro hfinished
      rw [Invocation.mainStep_finished hfinished] at hmain
      cases hmain
    have hset : s.flag c = true := hflag.resolve_right hunfinished
    refine ⟨?_, Or.inl (hsame.trans hset)⟩
    intro o ho
    rcases Invocation.mainStep_outcome hmain with hbefore | ⟨o', hnew, ho'⟩
    · exact houtcome o (hbefore ▸ ho)
    · obtain rfl : o' = o := Option.some.inj (hnew.symm.trans ho)
      exact ho'.mpr hset
  -- a step of its forwarder decides nothing
  · have hpc := Invocation.threadStep_pc hthread
    rw [hsame, Invocation.finished, hpc]
    exact ⟨houtcome, hflag⟩

/-- No interruption has reached the invocation `k` on `c`. -/
def Spared (k : ℕ) (c : Conn) (s : System Conn) : Prop :=
  ∃ v, s.invs[k]? = some (c, v) ∧ v.Undisturbed ∧ v.Joined ∧
    (s.flag c = false ∨ v.finished = true)

/-- An interrupt of the connection of `k` comes only behind the end of `k`. -/
def SparedStep (k : ℕ) (c : Conn) (s : System Conn) (l : SystemLabel Conn) : Prop :=
  l = .interrupt c → ∃ v, s.invs[k]? = some (c, v) ∧ v.finished = true

theorem Spared.step {l : SystemLabel Conn} {k : ℕ} {c : Conn} (hs : Spared k c s)
    (hl : SparedStep k c s l) (h : (system Conn).step s l = some s') : Spared k c s' := by
  obtain ⟨v, hk, hclean, hjoined, hflag⟩ := hs
  obtain ⟨v', hk', hstep⟩ := step_view h hk
  refine ⟨v', hk', ?_⟩
  rcases hstep with ⟨rfl, hsame | ⟨hint, -⟩ | hfinished⟩ | ⟨hsame, ⟨m, hmain⟩ | ⟨t, hthread⟩⟩
  -- not a step of `k`: an interrupt comes only behind its end
  · exact ⟨hclean, hjoined, hsame ▸ hflag⟩
  · obtain ⟨w, hw, hfinished⟩ := hl hint
    obtain rfl : v' = w := by simpa [hk] using hw
    exact ⟨hclean, hjoined, Or.inr hfinished⟩
  · exact ⟨hclean, hjoined, Or.inr hfinished⟩
  -- a step of the main thread of `k` under a clear flag
  · have hunfinished : ¬ v.finished = true := by
      intro hfinished
      rw [Invocation.mainStep_finished hfinished] at hmain
      cases hmain
    have hunset : s.flag c = false := hflag.resolve_right hunfinished
    have hjoined' := Invocation.mainStep_joined hjoined hmain
    rw [hunset] at hmain
    exact ⟨hclean.mainStep hmain, hjoined', Or.inl (hsame.trans hunset)⟩
  · -- a finished invocation has no thread left to take a step
    have hunfinished : ¬ v.finished = true := by
      intro hfinished
      rw [Invocation.threadStep_finished hjoined hfinished] at hthread
      cases hthread
    have hunset : s.flag c = false := hflag.resolve_right hunfinished
    have hjoined' := Invocation.threadStep_joined hjoined hthread
    rw [hunset] at hthread
    exact ⟨hclean.threadStep hthread, hjoined', Or.inl (hsame.trans hunset)⟩

end System

/-- **Outcomes of whole runs.**  An invocation whose outer flag is set before its final check
can end only in an interruption, whatever the Rust side returns.  An invocation whose outer
flag is never set while it runs is never reported as interrupted, and no query, callback or
stream read of it fails with an interruption. -/
theorem run_outcomes {Conn : Type} [DecidableEq Conn] (s : System Conn) :
    (∀ (k : ℕ) (c : Conn) (v : Invocation), s.invs[k]? = some (c, v) → s.flag c = true →
      v.pc.outcome = none → ∀ tr s', (system Conn).run s tr = some s' →
        ∃ v', s'.invs[k]? = some (c, v') ∧ ∀ o, v'.pc.outcome = some o → o = .interrupted) ∧
    (∀ (c : Conn) (s₁ : System Conn), s.flag c = false →
      (system Conn).step s (.begin c) = some s₁ →
      ∀ tr s', (system Conn).run s₁ tr = some s' →
        (system Conn).Along (System.SparedStep s.invs.length c) s₁ tr →
        ∃ v', s'.invs[s.invs.length]? = some (c, v') ∧ v'.pc.outcome ≠ some .interrupted ∧
          ∀ a ∈ v'.answers, a.interruption = false) := by
  constructor
  · intro k c v hk hflag hbefore tr s' hrun
    -- the flag stays set until the invocation has ended
    have hstart : System.Doomed k c s := ⟨v, hk, by simp [hbefore], Or.inl hflag⟩
    obtain ⟨v', hk', houtcome, -⟩ :=
      Machine.run_invariant (System.Doomed k c) (fun _ _ _ hs hstep => hs.step hstep) hstart hrun
    exact ⟨v', hk', houtcome⟩
  · intro c s₁ hflag hbegin tr s' hrun halong
    -- the new invocation starts undisturbed, under a clear flag
    obtain ⟨-, hs₁⟩ := Option.ite_none_left_eq_some.mp hbegin
    obtain rfl : { s with invs := s.invs ++ [(c, .start)] } = s₁ := Option.some.inj hs₁
    have hstart : System.Spared s.invs.length c { s with invs := s.invs ++ [(c, .start)] } :=
      ⟨.start, by simp, .start, .start, Or.inl hflag⟩
    obtain ⟨v', hk', hclean, -, -⟩ :=
      Machine.run_invariant_along (System.Spared s.invs.length c)
        (System.SparedStep s.invs.length c) (fun _ _ _ hs hl hstep => hs.step hl hstep)
        hstart halong hrun
    exact ⟨v', hk', hclean.outcome, hclean.answers⟩

/-- An invocation of the first of two connections is about to read its stream when that
connection is interrupted. -/
def readInterrupted : List (SystemLabel Bool) :=
  [.begin false, .main 0 .entryCheck, .main 0 .callback, .main 0 .getInner,
    .main 0 (.openConnection none), .main 0 (.startForwarder none), .main 0 .queryBegin,
    .main 0 .startStatement, .main 0 (.queryReturns .answered), .main 0 .queryCheck,
    .main 0 (.wrap none), .main 0 (.readStream .getNext 0), .interrupt false]

/-- It reads, answers regardless and is torn down, while an invocation of the second connection
queries and reads. -/
def bothReturn : List (SystemLabel Bool) :=
  [.main 1 .entryCheck, .main 1 .callback, .main 0 .streamCheck, .main 1 .getInner,
    .main 1 (.openConnection none), .main 0 (.rustReturn (.ok [1])),
    .main 1 (.startForwarder none), .main 1 .queryBegin, .main 0 .finalCheck,
    .main 1 .startStatement, .main 0 .lockStop, .main 0 .setStop, .thread 0 .lock,
    .thread 0 .test, .main 1 (.queryReturns .answered), .main 0 .notify, .main 0 .join,
    .main 0 .freeForwarder, .main 0 .freeInner, .main 1 .queryCheck, .main 1 (.wrap none),
    .main 1 (.readStream .getNext 0), .main 1 .streamCheck, .main 1 (.streamEnd none),
    .main 1 (.rustReturn (.ok [2])), .main 1 .finalCheck]

/-- How the invocation `k` stands: its outcome and what it has answered. -/
def System.report (s : System Bool) (k : ℕ) : Option (Bool × Option Outcome × List Answer) :=
  (s.invs[k]?).map fun p => (p.1, p.2.pc.outcome, p.2.answers)

theorem System.report_eq_some {s : System Bool} {k : ℕ} {c : Bool} {o : Option Outcome}
    {answers : List Answer} (h : s.report k = some (c, o, answers)) :
    ∃ v, s.invs[k]? = some (c, v) ∧ v.pc.outcome = o ∧ v.answers = answers := by
  obtain ⟨⟨d, v⟩, hv, hreport⟩ := Option.map_eq_some_iff.mp h
  cases hreport
  exact ⟨v, hv, rfl, rfl⟩

theorem run_outcomes_isolated :
    ∃ s s₁ s', (system Bool).run ⟨fun _ => false, []⟩ readInterrupted = some s ∧
      (system Bool).step s (.begin true) = some s₁ ∧
      (system Bool).run s₁ bothReturn = some s' ∧
      (∃ v, s'.invs[0]? = some (false, v) ∧ v.pc.outcome = some .interrupted ∧
        v.answers = [.stream 0, .readFailed .getNext 0 .interrupted]) ∧
      ∃ v, s'.invs[1]? = some (true, v) ∧ v.pc.outcome = some (.payload [2]) ∧
        v.answers = [.stream 0, .read .getNext 0] ∧ ∀ a ∈ v.answers, a.interruption = false := by
  obtain ⟨s, hrun, hset, hclear, hlength, hbefore, hlater⟩ := Machine.run_decided
    (fun s : System Bool => s.flag false = true ∧ s.flag true = false ∧ s.invs.length = 1 ∧
      s.report 0 = some (false, none, [.stream 0]) ∧
      ((system Bool).run s (.begin true :: bothReturn)).any (fun s' =>
        decide ((s'.report 0).map (fun r => (r.1, r.2.1.isSome, r.2.2)) =
            some (false, true, [.stream 0, .readFailed .getNext 0 .interrupted]) ∧
          s'.report 1 = some (true, some (.payload [2]), [.stream 0, .read .getNext 0]))) = true)
    (show ((system Bool).run ⟨fun _ => false, []⟩ readInterrupted).any _ = true by
      decide +kernel)
  obtain ⟨s', hrest, hfirst, hsecond⟩ := Machine.run_decided _ hlater
  obtain ⟨s₁, hbegin, hrun'⟩ := Machine.run_cons_eq_some.mp hrest
  refine ⟨s, s₁, s', hrun, hbegin, hrun', ?_, ?_⟩
  · -- interrupted while it reads, the first one cannot end otherwise
    obtain ⟨v, hv, hundecided, -⟩ := System.report_eq_some hbefore
    obtain ⟨v', hv', houtcome⟩ := (run_outcomes s).1 0 false v hv hset hundecided _ s' hrest
    obtain ⟨⟨c, o, answers⟩, hreport, hends⟩ := Option.map_eq_some_iff.mp hfirst
    obtain ⟨w, hw, ho, hanswers⟩ := System.report_eq_some hreport
    obtain ⟨rfl, hsome, rfl⟩ : c = false ∧ o.isSome = true ∧
        answers = [.stream 0, .readFailed .getNext 0 .interrupted] := by simpa using hends
    obtain rfl : v' = w := by simpa [hv'] using hw
    obtain ⟨o', ho'⟩ := Option.isSome_iff_exists.mp hsome
    have hend : v'.pc.outcome = some o' := ho.trans ho'
    exact ⟨v', hv', by rw [hend, houtcome o' hend], hanswers⟩
  · -- the second one is nowhere interrupted
    obtain ⟨v, hv, hpayload, hanswers⟩ := System.report_eq_some hsecond
    have halong : (system Bool).Along (System.SparedStep s.invs.length true) s₁ bothReturn := by
      refine Machine.along_of_forall (fun l hl _ hint => ?_) s₁
      rw [hint] at hl
      exact absurd hl (by decide)
    obtain ⟨v', hv', -, hclean⟩ := (run_outcomes s).2 true s₁ hclear hbegin _ s' hrun' halong
    rw [hlength] at hv'
    obtain rfl : v = v' := by simpa [hv] using hv'
    exact ⟨v, hv, hpayload, hanswers, hclean⟩

end GgsqlDuckdb
