import Mathlib.Data.List.Basic
import Mathlib.Data.List.Nodup
import Mathlib.Tactic.Basic

/-!
# Append-only logs

A log without duplicates orders its entries by their first appearance.  Appending to the log
never changes the order of the entries it has, and puts the new ones last.

## Main results

- `NotAfter.append`: the order is stable.
- `notAfter_getLast?`: the last entry is not before any other.
- `NotAfter.antisymm`: entries at the same place are the same.
-/

namespace Library

universe u

variable {α : Type u} [BEq α] {log : List α} {a b c : α}

/-- Both are in the log, and `a` does not appear later than `b`. -/
def NotAfter (log : List α) (a b : α) : Prop :=
  a ∈ log ∧ b ∈ log ∧ log.idxOf a ≤ log.idxOf b

variable [LawfulBEq α]

namespace NotAfter

omit [LawfulBEq α] in
theorem refl (h : a ∈ log) : NotAfter log a a := ⟨h, h, Nat.le_refl _⟩

omit [LawfulBEq α] in
theorem trans (hab : NotAfter log a b) (hbc : NotAfter log b c) : NotAfter log a c :=
  ⟨hab.1, hbc.2.1, Nat.le_trans hab.2.2 hbc.2.2⟩

theorem antisymm (hab : NotAfter log a b) (hba : NotAfter log b a) : a = b :=
  (List.idxOf_inj hab.1).mp (Nat.le_antisymm hab.2.2 hba.2.2)

theorem append (h : NotAfter log a b) (new : List α) : NotAfter (log ++ new) a b := by
  obtain ⟨ha, hb, hle⟩ := h
  refine ⟨List.mem_append_left _ ha, List.mem_append_left _ hb, ?_⟩
  rw [List.idxOf_append_of_mem ha, List.idxOf_append_of_mem hb]
  exact hle

end NotAfter

/-- Nothing appears later than the last entry. -/
theorem notAfter_getLast? (hnodup : log.Nodup) (hb : log.getLast? = some b) (ha : a ∈ log) :
    NotAfter log a b := by
  obtain ⟨past, rfl⟩ := List.getLast?_eq_some_iff.mp hb
  refine ⟨ha, by simp, ?_⟩
  have hfresh : b ∉ past := by
    intro hmem
    exact (List.nodup_append.mp hnodup).2.2 b hmem b (by simp) rfl
  -- the last entry first appears at the end, since no earlier one equals it
  have hlast : (past ++ [b]).idxOf b = past.length := by
    rw [List.idxOf_append_of_notMem hfresh]
    simp
  have hlt := List.idxOf_lt_length_of_mem ha
  rw [List.length_append, List.length_singleton] at hlt
  rw [hlast]
  exact Nat.lt_succ_iff.mp hlt

end Library
