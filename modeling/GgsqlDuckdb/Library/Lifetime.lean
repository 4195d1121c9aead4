import Mathlib.Data.List.Basic
import Mathlib.Data.List.Infix
import Mathlib.Tactic.Basic

/-!
# Scoped lifetimes

The members of an object are constructed in the order of their declaration and destroyed in
the reverse order.  The live members, the last constructed in front, are then always a
reversed prefix of the declarations.

## Main results

- `Scoped.of_destroy`: destroying the last constructed member keeps the order.
- `Scoped.eq_nil`: while the first declared member is not alive, none is.
- `Scoped.complete`: when the last declared member is constructed, all are alive.
-/

namespace Library

universe u

variable {μ : Type u} {decl alive pre : List μ} {m : μ}

/-- The live members follow the order of the declarations. -/
def Scoped (decl alive : List μ) : Prop := alive.reverse <+: decl

instance [DecidableEq μ] : Decidable (Scoped decl alive) :=
  inferInstanceAs (Decidable (alive.reverse <+: decl))

namespace Scoped

theorem nil : Scoped decl ([] : List μ) := List.nil_prefix

theorem of_destroy (h : Scoped decl (m :: alive)) : Scoped decl alive := by
  unfold Scoped at h
  rw [List.reverse_cons] at h
  exact (List.prefix_append _ _).trans h

theorem eq_take (h : Scoped decl alive) : alive = (decl.take alive.length).reverse := by
  have htake := List.prefix_iff_eq_take.mp h
  rw [List.length_reverse] at htake
  rw [← htake, List.reverse_reverse]

theorem length_le (h : Scoped decl alive) : alive.length ≤ decl.length := by
  have hle := List.IsPrefix.length_le h
  rwa [List.length_reverse] at hle

theorem eq_nil {post : List μ} (h : Scoped (m :: post) alive) (hm : m ∉ alive) : alive = [] := by
  by_contra hne
  obtain ⟨rest, hrest⟩ := h
  -- the first one constructed is the first one declared
  cases hrev : alive.reverse with
  | nil => exact hne (List.reverse_eq_nil_iff.mp hrev)
  | cons first others =>
    rw [hrev, List.cons_append] at hrest
    obtain rfl : first = m := (List.cons.inj hrest).1
    apply hm
    rw [← List.mem_reverse, hrev]
    exact List.mem_cons_self

theorem complete (h : Scoped (pre ++ [m]) (m :: alive)) (hm : m ∉ pre) :
    m :: alive = (pre ++ [m]).reverse := by
  unfold Scoped at h
  rw [List.reverse_cons] at h
  -- the member stands at the end of the prefix, and only there in the declarations
  rcases List.prefix_concat_iff.mp h with heq | hpre
  · rw [← heq, List.reverse_append, List.reverse_reverse]
    rfl
  · exact absurd (hpre.subset (by simp)) hm

end Scoped

end Library
