import Mathlib.Data.Nat.Basic
import Mathlib.Tactic.Basic

/-!
# Loops with a fuel budget

A `while` loop whose body may fault is run by `loop`: each pass of the body either goes
around again from a new state or leaves with a result, and `none` stands for a fault of the
body or for a budget that was too small.

`loop_computes` is the total-correctness rule.  The invariant carries an *answer function*
`f`: a pass that goes around again must not change the answer, and a pass that leaves must
deliver it.  A loop is then proved to compute a recursive function over its data, and the
budget is shown to suffice by a measure that every repeated pass decreases.
-/

namespace Library

universe u v

variable {σ : Type u} {β : Type v}

/-- The outcome of one pass through a loop body. -/
inductive Pass (σ : Type u) (β : Type v) where
  /-- Go around again from the state `s`. -/
  | again (s : σ)
  /-- Leave the loop with the result `b`. -/
  | leave (b : β)
  deriving DecidableEq, Repr

/-- Run `body` at most `fuel` times. -/
def loop (body : σ → Option (Pass σ β)) : ℕ → σ → Option β
  | 0, _ => none
  | fuel + 1, s =>
    match body s with
    | none => none
    | some (.again s') => loop body fuel s'
    | some (.leave b) => some b

theorem loop_again {body : σ → Option (Pass σ β)} {fuel : ℕ} {s s' : σ}
    (h : body s = some (.again s')) : loop body (fuel + 1) s = loop body fuel s' := by
  simp [loop, h]

theorem loop_leave {body : σ → Option (Pass σ β)} {fuel : ℕ} {s : σ} {b : β}
    (h : body s = some (.leave b)) : loop body (fuel + 1) s = some b := by
  simp [loop, h]

/-- **Total correctness of a loop**: if from every state satisfying `I` the body either
leaves with the answer `f s` or goes around again from a state that satisfies `I`, has a
smaller measure and the same answer, then the loop computes `f`. -/
theorem loop_computes {body : σ → Option (Pass σ β)} (I : σ → Prop) (f : σ → β) (μ : σ → ℕ)
    (hbody : ∀ s, I s → body s = some (.leave (f s)) ∨
      ∃ s', body s = some (.again s') ∧ I s' ∧ μ s' < μ s ∧ f s' = f s)
    (fuel : ℕ) (s : σ) (hs : I s) (hfuel : μ s < fuel) :
    loop body fuel s = some (f s) := by
  -- the measure stays below the budget: both drop by at least one a pass
  induction fuel generalizing s with
  | zero => exact absurd hfuel (Nat.not_lt_zero _)
  | succ fuel ih =>
    rcases hbody s hs with hleave | ⟨s', hagain, hs', hlt, hf⟩
    · exact loop_leave hleave
    · rw [loop_again hagain, ← hf]
      exact ih s' hs' (by omega)

end Library
