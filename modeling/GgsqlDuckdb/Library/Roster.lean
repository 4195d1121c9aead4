import Mathlib.Data.List.Nodup
import Mathlib.Data.List.Perm.Basic
import Mathlib.Algebra.BigOperators.Group.List.Basic
import Mathlib.Algebra.GroupWithZero.Nat
import Mathlib.Tactic.Basic

/-!
# Rosters

A list in which one entry at a time is changed, and the numbers that its entries hold.

## Main results

- `getElem?_modify_cases`: an entry behind a change.
- `filterMap_modify_of_eq`, `perm_filterMap_modify`, `perm_filterMap_release`: what a change does to
  the numbers held.
- `sum_map_modify`: what it does to the sum of a weight.
- `index_unique`: where every number is held once, it is held by one entry.
-/

namespace Library

variable {α β : Type*}

/-- An entry behind a change is the one changed, or was there before. -/
theorem getElem?_modify_cases {l : List α} {f : α → α} {i j : ℕ} {b : α}
    (h : (l.modify i f)[j]? = some b) :
    (i = j ∧ ∃ a, l[j]? = some a ∧ b = f a) ∨ (i ≠ j ∧ l[j]? = some b) := by
  rw [List.getElem?_modify] at h
  by_cases hij : i = j
  · simp only [hij, if_true] at h
    obtain ⟨a, ha, rfl⟩ := Option.map_eq_some_iff.mp h
    exact Or.inl ⟨hij, a, ha, rfl⟩
  · exact Or.inr ⟨hij, by simpa [hij] using h⟩

/-- An entry behind an addition is the new one, or was there before. -/
theorem getElem?_concat_cases {l : List α} {a b : α} {j : ℕ} (h : (l ++ [a])[j]? = some b) :
    l[j]? = some b ∨ (j = l.length ∧ b = a) := by
  rw [List.getElem?_append] at h
  split_ifs at h with hlt
  · exact Or.inl h
  · obtain ⟨hzero, rfl⟩ : j - l.length = 0 ∧ a = b := by
      simpa [List.getElem?_singleton] using h
    exact Or.inr ⟨by omega, rfl⟩

/-- A change cuts the list in three. -/
theorem modify_cut {l : List α} {i : ℕ} {a : α} (f : α → α) (h : l[i]? = some a) :
    ∃ front back, l = front ++ a :: back ∧ l.modify i f = front ++ f a :: back := by
  obtain ⟨hlt, ha⟩ := List.getElem?_eq_some_iff.mp h
  obtain ⟨front, b, back, hl, hlen, hmodify⟩ := List.exists_of_modify f hlt
  have hb : b = a := by
    subst hlen
    simpa [hl] using ha
  exact ⟨front, back, hb ▸ hl, hb ▸ hmodify⟩

variable {held : α → Option β}

theorem filterMap_modify_of_eq {l : List α} {i : ℕ} {f : α → α} (h : ∀ a, held (f a) = held a) :
    (l.modify i f).filterMap held = l.filterMap held := by
  cases ha : l[i]? with
  | none => rw [List.modify_eq_self (List.getElem?_eq_none_iff.mp ha)]
  | some a =>
    obtain ⟨front, back, hl, hmodify⟩ := modify_cut f ha
    rw [hmodify, hl]
    simp only [List.filterMap_append, List.filterMap_cons, h]

theorem filterMap_modify_at {l : List α} {i : ℕ} {f : α → α} {a : α} (ha : l[i]? = some a)
    (h : held (f a) = held a) : (l.modify i f).filterMap held = l.filterMap held := by
  obtain ⟨front, back, hl, hmodify⟩ := modify_cut f ha
  rw [hmodify, hl]
  simp only [List.filterMap_append, List.filterMap_cons, h]

/-- An entry that held nothing takes `b`. -/
theorem perm_filterMap_modify {l : List α} {i : ℕ} {f : α → α} {a : α} {b : β}
    (ha : l[i]? = some a) (hnone : held a = none) (hsome : held (f a) = some b) :
    ((l.modify i f).filterMap held).Perm (b :: l.filterMap held) := by
  obtain ⟨front, back, hl, hmodify⟩ := modify_cut f ha
  rw [hmodify, hl]
  simp only [List.filterMap_append, List.filterMap_cons, hnone, hsome]
  exact List.perm_middle

/-- An entry gives up the `b` that it held. -/
theorem perm_filterMap_release {l : List α} {i : ℕ} {f : α → α} {a : α} {b : β}
    (ha : l[i]? = some a) (hsome : held a = some b) (hnone : held (f a) = none) :
    (l.filterMap held).Perm (b :: (l.modify i f).filterMap held) := by
  obtain ⟨front, back, hl, hmodify⟩ := modify_cut f ha
  rw [hmodify, hl]
  simp only [List.filterMap_append, List.filterMap_cons, hnone, hsome]
  exact List.perm_middle

/-- A change moves the sum of a weight by what it does to the one entry. -/
theorem sum_map_modify {l : List α} {i : ℕ} {a : α} (f : α → α) (w : α → ℕ)
    (h : l[i]? = some a) : ((l.modify i f).map w).sum + w a = (l.map w).sum + w (f a) := by
  obtain ⟨front, back, hl, hmodify⟩ := modify_cut f h
  rw [hmodify, hl]
  simp only [List.map_append, List.map_cons, List.sum_append, List.sum_cons]
  omega

/-- **Where every number is held once, it is held by one entry.** -/
theorem index_unique {l : List α} (h : (l.filterMap held).Nodup) {i j : ℕ} {a a' : α} {b : β}
    (hi : l[i]? = some a) (hj : l[j]? = some a') (ha : held a = some b) (ha' : held a' = some b) :
    i = j := by
  induction l generalizing i j with
  | nil => cases hi
  | cons c l ih =>
    rw [List.filterMap_cons] at h
    -- the first entry does not share its number with one behind it
    have hfirst : ∀ {d : α} {k : ℕ}, held c = some b → l[k]? = some d → held d = some b →
        False := by
      intro d k hc hk hd
      rw [hc] at h
      have hmem : b ∈ l.filterMap held := List.mem_filterMap.mpr ⟨d, List.mem_of_getElem? hk, hd⟩
      exact (List.nodup_cons.mp h).1 hmem
    have hrest : (l.filterMap held).Nodup := by
      cases hc : held c with
      | none => simpa [hc] using h
      | some x => exact (List.nodup_cons.mp (by simpa [hc] using h)).2
    cases i with
    | zero =>
      cases j with
      | zero => rfl
      | succ j =>
        obtain rfl : c = a := Option.some.inj hi
        exact (hfirst ha hj ha').elim
    | succ i =>
      cases j with
      | zero =>
        obtain rfl : c = a' := Option.some.inj hj
        exact (hfirst ha' hi ha).elim
      | succ j => exact congrArg Nat.succ (ih hrest hi hj)

end Library
