import Mathlib.Data.Set.Insert
import Mathlib.Data.List.Basic

/-!
# Ledgers of handed-over objects

A ledger keeps every object ever made, numbered in order, with the number of times it has been
released.  What one side owes at a point of a program is a set of numbers; an object released
twice, or never, shows at the end.

## Main results

- `Owes.make`, `Owes.release`, `Owes.update`: what each operation does to what is owed.
- `owes_empty_iff`: nothing is owed if and only if every object has been released once.
- `Holds.make`, `Holds.release`: the same where one object at a time is owed.
-/

namespace Library

/-- Objects in the order they were made, each with how often it has been released. -/
abbrev Ledger (α : Type) := List (α × ℕ)

namespace Ledger

variable {α : Type} {L : Ledger α} {owed : Set ℕ} {i : ℕ}

/-- Make an object; its number is the length of the ledger before. -/
def make (L : Ledger α) (a : α) : Ledger α := L ++ [(a, 0)]

def release (L : Ledger α) (i : ℕ) : Ledger α := L.modify i fun e => (e.1, e.2 + 1)

/-- Change an object. -/
def update (L : Ledger α) (i : ℕ) (f : α → α) : Ledger α := L.modify i fun e => (f e.1, e.2)

/-- The objects in `owed` have not been released, all others have been, once. -/
def Owes (L : Ledger α) (owed : Set ℕ) : Prop :=
  ∀ i e, L[i]? = some e → (i ∈ owed → e.2 = 0) ∧ (i ∉ owed → e.2 = 1)

theorem Owes.make (h : L.Owes owed) (a : α) : (L.make a).Owes (insert L.length owed) := by
  intro i e he
  rw [Ledger.make, List.getElem?_append] at he
  split at he
  · rename_i hlt
    obtain ⟨hin, hout⟩ := h i e he
    have hne : i ≠ L.length := by omega
    simpa [hne] using ⟨hin, hout⟩
  · rename_i hge
    -- the only number behind the old ones is the new one
    have hi : i = L.length := by
      have hlt := (List.getElem?_eq_some_iff.mp he).1
      simp at hlt
      omega
    subst hi
    obtain rfl : (a, 0) = e := by simpa using he
    simp

/-- An object that is owed is released. -/
theorem Owes.release (h : L.Owes (insert i owed)) (hi : i ∉ owed) : (L.release i).Owes owed := by
  intro j e he
  rw [Ledger.release, List.getElem?_modify] at he
  obtain ⟨e₀, he₀, rfl⟩ := Option.map_eq_some_iff.mp he
  obtain ⟨hin, hout⟩ := h j e₀ he₀
  by_cases hij : i = j
  · subst hij
    simp [hi, hin]
  · have hji : j ≠ i := fun heq => hij heq.symm
    simpa [hij, hji] using ⟨fun hj => hin (Or.inr hj), fun hj => hout (by simp [hji, hj])⟩

theorem Owes.update (h : L.Owes owed) (i : ℕ) (f : α → α) : (L.update i f).Owes owed := by
  intro j e he
  rw [Ledger.update, List.getElem?_modify] at he
  obtain ⟨e₀, he₀, rfl⟩ := Option.map_eq_some_iff.mp he
  obtain ⟨hin, hout⟩ := h j e₀ he₀
  by_cases hij : i = j
  · simpa [hij] using ⟨hin, hout⟩
  · simpa [hij] using ⟨hin, hout⟩

/-- **Nothing is owed if and only if every object has been released once.** -/
theorem owes_empty_iff : L.Owes ∅ ↔ ∀ e ∈ L, e.2 = 1 := by
  constructor
  · intro h e he
    obtain ⟨i, hi⟩ := List.mem_iff_getElem?.mp he
    exact (h i e hi).2 (Set.notMem_empty i)
  · intro h i e hi
    exact ⟨fun hin => absurd hin (Set.notMem_empty i), fun _ => h e (List.mem_of_getElem? hi)⟩

/-! ## One object at a time -/

/-- At most one object is owed. -/
def Holds (L : Ledger α) (object : Option ℕ) : Prop := L.Owes {i | object = some i}

theorem set_none : {i : ℕ | (none : Option ℕ) = some i} = ∅ := by simp

theorem set_some (i : ℕ) : {j : ℕ | some i = some j} = insert i ∅ := by
  ext j
  simp [eq_comm]

theorem holds_none_iff : L.Holds none ↔ ∀ e ∈ L, e.2 = 1 := by
  unfold Holds
  rw [set_none, owes_empty_iff]

theorem Holds.make (h : L.Holds none) (a : α) : (L.make a).Holds (some L.length) := by
  unfold Holds at h ⊢
  rw [set_none] at h
  rw [set_some]
  exact Owes.make h a

theorem Holds.release (h : L.Holds (some i)) : (L.release i).Holds none := by
  unfold Holds at h ⊢
  rw [set_some] at h
  rw [set_none]
  exact Owes.release h (Set.notMem_empty i)

theorem Holds.update {object : Option ℕ} (h : L.Holds object) (i : ℕ) (f : α → α) :
    (L.update i f).Holds object :=
  Owes.update h i f

end Ledger

end Library
