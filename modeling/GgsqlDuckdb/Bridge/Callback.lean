import GgsqlDuckdb.Bridge.Forwarding
import GgsqlDuckdb.Reader.ExecSql

/-!
# One callback in the machine

`ExecSqlCallback` appears twice: as a function, with what it hands over, and cut into the steps
of the main thread, between which interrupts arrive.  What the function fails on is what a run
of the steps answers.

## Main results

- `callback_runs`: a callback of the function is a run of the machine with the same answer.
-/

namespace GgsqlDuckdb

open Library Reader

namespace Invocation

variable {V : Type}

/-- What the function fails on, or else the stream it hands over. -/
def answerOf (env : Encounter V) (sql : Bytes) (v : Invocation) : Answer :=
  match failureOf env sql with
  | some f => .failed f
  | none => .stream v.streams.length

/-- Some run takes `w` back to the Rust side, with the answer of the callback begun in `v`. -/
def Answers (env : Encounter V) (sql : Bytes) (v : Invocation) (outer : Bool) (w : Invocation) :
    Prop :=
  ∃ tr s, bridge.run ⟨outer, w⟩ tr = some s ∧ s.inv.pc = .rust ∧
    s.inv.answers = v.answers ++ [answerOf env sql v]

/-- An encounter the machine can have with an invocation: no error of DuckDB's is an
interruption of its own, and a connection is made only where there is none. -/
structure Meets (env : Encounter V) (sql : Bytes) (v : Invocation) : Prop where
  connection : ∀ t, env.connection = some t →
    v.inner = none ∧ ∃ what, t = .exception ⟨false, what⟩
  thrown : ∀ e, env.query sql = .error (.exception e) → e.interruption = false
  error : ∀ e, env.query sql = .ok (.error e) → e.interruption = false
  wrap : ∀ e, env.wrap = some (.exception e) → e.interruption = false

variable {env : Encounter V} {sql : Bytes} {v w w' : Invocation} {outer : Bool}

/-! ## §1 Runs step by step -/

theorem answers_now {f : Answer} (hanswer : answerOf env sql v = f)
    (hanswers : w.answers = v.answers) : Answers env sql v outer (w.answer f) :=
  ⟨[], _, rfl, rfl, by simp [answer, hanswers, hanswer]⟩

theorem answers_step {l : MainLabel} (h : mainStep outer w l = some w')
    (hrest : Answers env sql v outer w') : Answers env sql v outer w := by
  obtain ⟨tr, s, hrun, hs⟩ := hrest
  refine ⟨.main l :: tr, s, Machine.run_cons_eq_some.mpr ⟨⟨outer, w'⟩, ?_, hrun⟩, hs⟩
  simp [bridge, Bridge.step, h]

theorem answers_interrupt (hrest : Answers env sql v true w) : Answers env sql v outer w := by
  obtain ⟨tr, s, hrun, hs⟩ := hrest
  exact ⟨.interrupt :: tr, s, Machine.run_cons_eq_some.mpr ⟨⟨true, w⟩, rfl, hrun⟩, hs⟩

theorem admitted_of_not {t : Thrown} (h : ∀ e, t = .exception e → e.interruption = false)
    (w : Invocation) : Thrown.admitted w t = true := by
  cases t with
  | exception e => simp [Thrown.admitted, admits, h e rfl]
  | unknown => rfl

theorem admitted_result {r : QueryResult} (h : ∀ e, r = .error e → e.interruption = false)
    (w : Invocation) : QueryResult.admitted w r = true := by
  cases r with
  | error e => simp [QueryResult.admitted, admits, h e rfl]
  | null => rfl
  | answered => rfl

/-! ## §2 The steps behind the connection -/

/-- From a wrapper that is about to be built. -/
theorem wrapping_answers (h : Meets env sql v) (hquery : runQuery env sql = .ok .answered)
    (hpc : w.pc = .wrapping) (hanswers : w.answers = v.answers)
    (hstreams : w.streams = v.streams) : Answers env sql v outer w := by
  cases hwrap : env.wrap with
  | none =>
    have hstep : mainStep outer w (.wrap none) =
        some { w.answer (.stream w.streams.length) with
          streams := w.streams ++ [{ interrupted := false, released := false }] } := by
      simp only [mainStep, hpc]
    apply answers_step hstep
    refine ⟨[], _, rfl, rfl, ?_⟩
    simp [answer, answerOf, failureOf, hquery, hwrap, hanswers, hstreams]
  | some t =>
    have hadmitted := admitted_of_not (fun e he => h.wrap e (hwrap.trans (congrArg some he))) w
    have hstep : mainStep outer w (.wrap (some t)) = some (w.answer (.failed
        (caught (ascii "ggsql bridge: unknown exception building arrow stream") t))) := by
      simp only [mainStep, hpc, hadmitted, ↓reduceIte]
    apply answers_step hstep
    apply answers_now _ hanswers
    simp [answerOf, failureOf, hquery, hwrap]

/-- From a result that is about to be checked. -/
theorem checking_answers (h : Meets env sql v) {r : QueryResult} (hbefore : env.before = false)
    (hconnection : env.connection = none) (hresult : env.query sql = .ok r)
    (hpc : w.pc = .checking r) (hanswers : w.answers = v.answers)
    (hstreams : w.streams = v.streams) : Answers env sql v false w := by
  cases hbehind : env.behind with
  -- the interrupt has arrived while the query was running
  | true =>
    apply answers_interrupt
    have hstep : mainStep true w .queryCheck = some (w.answer (.failed .interrupted)) := by
      simp only [mainStep, hpc, ↓reduceIte]
    apply answers_step hstep
    apply answers_now _ hanswers
    simp [answerOf, failureOf, runQuery, hbefore, hconnection, hresult, hbehind]
  | false =>
    have hquery : runQuery env sql = .ok r := by
      simp [runQuery, hbefore, hconnection, hresult, hbehind]
    cases r with
    | null =>
      have hstep : mainStep false w .queryCheck = some (w.answer
          (.failed (.bridge (ascii "ggsql bridge: Query returned null")))) := by
        simp [mainStep, hpc]
      apply answers_step hstep
      apply answers_now _ hanswers
      simp [answerOf, failureOf, hquery]
    | error e =>
      have hstep : mainStep false w .queryCheck = some (w.answer (.failed (.engine e))) := by
        simp [mainStep, hpc]
      apply answers_step hstep
      apply answers_now _ hanswers
      simp [answerOf, failureOf, hquery]
    | answered =>
      have hstep : mainStep false w .queryCheck = some { w with pc := .wrapping } := by
        simp [mainStep, hpc]
      apply answers_step hstep
      exact wrapping_answers h hquery rfl hanswers hstreams

/-- From a connection that has been returned. -/
theorem querying_answers (h : Meets env sql v) (hbefore : env.before = false)
    (hconnection : env.connection = none) (hpc : w.pc = .querying)
    (hanswers : w.answers = v.answers) (hstreams : w.streams = v.streams) :
    Answers env sql v false w := by
  have hbegin : mainStep false w .queryBegin = some { w with pc := .running } := by
    simp only [mainStep, hpc]
  apply answers_step hbegin
  cases hresult : env.query sql with
  | error t =>
    have hadmitted := admitted_of_not
      (fun e he => h.thrown e (hresult.trans (congrArg Except.error he))) { w with pc := .running }
    have hstep : mainStep false { w with pc := .running } (.queryThrows t) =
        some (answer { w with pc := .running } (.failed
          (caught (ascii "ggsql bridge: unknown exception running SQL") t))) := by
      simp only [mainStep, hadmitted, ↓reduceIte]
    apply answers_step hstep
    apply answers_now _ hanswers
    simp [answerOf, failureOf, runQuery, hbefore, hconnection, hresult]
  | ok r =>
    have hadmitted := admitted_result
      (fun e he => h.error e (hresult.trans (congrArg Except.ok he))) { w with pc := .running }
    have hstep : mainStep false { w with pc := .running } (.queryReturns r) =
        some { w with pc := .checking r } := by
      simp only [mainStep, hadmitted, ↓reduceIte]
    apply answers_step hstep
    exact checking_answers h hbefore hconnection hresult rfl hanswers hstreams

/-! ## §3 The whole callback -/

/-- **A callback of the function is a run of the machine with the same answer.** -/
theorem callback_runs (h : Meets env sql v) (hpc : v.pc = .rust) :
    Answers env sql v env.before v := by
  have hcall : mainStep env.before v .callback = some { v with pc := .getInner } := by
    simp only [mainStep, hpc]
  apply answers_step hcall
  cases hbefore : env.before with
  | true =>
    have hstep : mainStep true { v with pc := .getInner } .getInner =
        some (answer _ (.failed .interrupted)) := rfl
    apply answers_step hstep
    apply answers_now _ rfl
    simp [answerOf, failureOf, runQuery, hbefore]
  | false =>
    obtain hinner | ⟨flag, hinner⟩ := Option.eq_none_or_eq_some v.inner
    · have hstep : mainStep false { v with pc := .getInner } .getInner =
          some { v with pc := .opening } := by
        simp [mainStep, hinner]
      apply answers_step hstep
      cases hconnection : env.connection with
      | some t =>
        obtain ⟨-, what, rfl⟩ := h.connection t hconnection
        have hopen : mainStep false { v with pc := .opening } (.openConnection (some what)) =
            some (answer _ (.failed (.engine ⟨false, what⟩))) := rfl
        apply answers_step hopen
        apply answers_now _ rfl
        simp [answerOf, failureOf, runQuery, hbefore, hconnection, caught]
      -- the first call makes the connection and its forwarder
      | none =>
        have hopen : mainStep false { v with pc := .opening } (.openConnection none) =
            some { v with inner := some false, pc := .attaching } := rfl
        apply answers_step hopen
        have hattach : mainStep false { v with inner := some false, pc := .attaching }
            (.startForwarder none) = some { v with
              pc := .querying
              inner := some false
              forwarder := some ⟨false, none⟩
              thread := .starting } := rfl
        apply answers_step hattach
        exact querying_answers h hbefore hconnection rfl rfl rfl
    · have hstep : mainStep false { v with pc := .getInner } .getInner =
          some { v with pc := .querying } := by
        simp [mainStep, hinner]
      apply answers_step hstep
      have hconnection : env.connection = none := by
        rw [Option.eq_none_iff_forall_ne_some]
        intro t ht
        have hnone := (h.connection t ht).1
        rw [hinner] at hnone
        cases hnone
      exact querying_answers h hbefore hconnection rfl rfl rfl

end Invocation

end GgsqlDuckdb
