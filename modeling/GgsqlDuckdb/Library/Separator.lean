import Mathlib.Data.List.Basic
import Mathlib.Tactic.Basic

/-!
# The last part of a list

A separator cuts a list into parts: the last part is what stands behind the last separator, or
the whole list where there is none.

## Main results

- `afterLast_eq_some_iff`: the text behind the last separator, as a decomposition.
- `afterLast_iff_lastPart`: a part without the one separator is behind the last of another in the
  list if and only if it is so in the last part.
- `behindLast_append`: the text behind the last place of a word.
-/

namespace Library

variable {α : Type*}

/-! ## §1 Behind the last separator -/

/-- `t` is what stands behind the last `sep` of `s`. -/
def AfterLast (sep : α) (s t : List α) : Prop :=
  sep ∉ t ∧ ∃ front, s = front ++ sep :: t

/-- There is one text behind the last separator. -/
theorem AfterLast.unique {sep : α} {s t t' : List α} (h : AfterLast sep s t)
    (h' : AfterLast sep s t') : t = t' := by
  obtain ⟨hfree, front, rfl⟩ := h
  obtain ⟨hfree', front', heq⟩ := h'
  rcases List.append_eq_append_iff.mp heq with ⟨mid, -, htail⟩ | ⟨mid, -, htail⟩
  · cases mid with
    | nil => exact (List.cons.inj htail).2
    | cons x mid =>
      -- a later separator would stand in the first text
      have hmem : sep ∈ t := (List.cons.inj htail).2 ▸ by simp
      exact absurd hmem hfree
  · cases mid with
    | nil => exact ((List.cons.inj htail).2).symm
    | cons x mid =>
      have hmem : sep ∈ t' := (List.cons.inj htail).2 ▸ by simp
      exact absurd hmem hfree'

theorem AfterLast.mem {sep : α} {s t : List α} (h : AfterLast sep s t) : sep ∈ s := by
  obtain ⟨-, front, rfl⟩ := h
  simp

/-- A list with the separator has a text behind the last one. -/
theorem exists_afterLast {sep : α} {s : List α} (h : sep ∈ s) : ∃ t, AfterLast sep s t := by
  induction s with
  | nil => simp at h
  | cons x s ih =>
    by_cases hrest : sep ∈ s
    · obtain ⟨t, hfree, front, rfl⟩ := ih hrest
      exact ⟨t, hfree, x :: front, rfl⟩
    · obtain rfl : sep = x := (List.mem_cons.mp h).resolve_right hrest
      exact ⟨s, hrest, [], rfl⟩

section Computed

variable [DecidableEq α]

/-- The text behind the last `sep` of `s`, computed from the end. -/
def afterLast (sep : α) (s : List α) : Option (List α) :=
  if sep ∈ s then some (s.reverse.takeWhile fun x => decide (x ≠ sep)).reverse else none

theorem AfterLast.afterLast_eq {sep : α} {s t : List α} (h : AfterLast sep s t) :
    afterLast sep s = some t := by
  unfold afterLast
  rw [if_pos h.mem]
  obtain ⟨hfree, front, rfl⟩ := h
  have hall : ∀ x ∈ t.reverse, decide (x ≠ sep) = true := by
    intro x hx
    have hmem : x ∈ t := List.mem_reverse.mp hx
    exact decide_eq_true fun heq => hfree (heq ▸ hmem)
  rw [List.reverse_append, List.reverse_cons, List.append_assoc, List.takeWhile_append_of_pos hall]
  simp

/-- **The computed text is the one behind the last separator.** -/
theorem afterLast_eq_some_iff {sep : α} {s t : List α} :
    afterLast sep s = some t ↔ AfterLast sep s t := by
  constructor
  · intro h
    have hmem : sep ∈ s := by
      by_contra hnone
      rw [afterLast, if_neg hnone] at h
      cases h
    obtain ⟨t', ht'⟩ := exists_afterLast hmem
    obtain rfl : t' = t := Option.some.inj (ht'.afterLast_eq.symm.trans h)
    exact ht'
  · exact AfterLast.afterLast_eq

theorem afterLast_eq_none_iff {sep : α} {s : List α} : afterLast sep s = none ↔ sep ∉ s := by
  unfold afterLast
  split_ifs with h
  · simp [h]
  · simp [h]

/-! ## §2 The last part -/

/-- The text behind the last `sep`, or the whole list. -/
def lastPart (sep : α) (s : List α) : List α := (afterLast sep s).getD s

/-- The list ends in its last part, in which there is no separator. -/
theorem lastPart_spec (sep : α) (s : List α) :
    sep ∉ lastPart sep s ∧
      (s = lastPart sep s ∨ ∃ front, s = front ++ sep :: lastPart sep s) := by
  unfold lastPart
  cases hlast : afterLast sep s with
  | none => exact ⟨afterLast_eq_none_iff.mp hlast, Or.inl rfl⟩
  | some t =>
    obtain ⟨hfree, front, hs⟩ := afterLast_eq_some_iff.mp hlast
    exact ⟨hfree, Or.inr ⟨front, hs⟩⟩

/-- **A text without `sep` is behind the last `mark` of the list if and only if it is behind the
last `mark` of its last part.** -/
theorem afterLast_iff_lastPart {sep mark : α} (hne : mark ≠ sep) {s t : List α} (hfree : sep ∉ t) :
    AfterLast mark s t ↔ AfterLast mark (lastPart sep s) t := by
  obtain ⟨-, hlast⟩ := lastPart_spec sep s
  generalize lastPart sep s = name at hlast ⊢
  rcases hlast with rfl | ⟨dir, rfl⟩
  · rfl
  constructor
  · rintro ⟨hmark, front, heq⟩
    refine ⟨hmark, ?_⟩
    rcases List.append_eq_append_iff.mp heq with ⟨mid, -, htail⟩ | ⟨mid, -, htail⟩
    · cases mid with
      | nil => exact absurd (List.cons.inj htail).1.symm hne
      | cons x mid => exact ⟨mid, (List.cons.inj htail).2⟩
    · -- else the separator stands behind the mark, in `t`
      cases mid with
      | nil => exact absurd (List.cons.inj htail).1 hne
      | cons x mid =>
        have hmem : sep ∈ t := (List.cons.inj htail).2 ▸ by simp
        exact absurd hmem hfree
  · rintro ⟨hmark, front, rfl⟩
    exact ⟨hmark, dir ++ sep :: front, by simp⟩

/-! ## §3 Words -/

/-- The text behind the last place of `word` in `s`. -/
def behindLast (word : List α) : List α → Option (List α)
  | [] => none
  | x :: s =>
    (behindLast word s).or (if word <+: x :: s then some ((x :: s).drop word.length) else none)

/-- A text in front does not move the last place of a word. -/
theorem behindLast_append_of_some {word s t : List α} (front : List α)
    (h : behindLast word s = some t) : behindLast word (front ++ s) = some t := by
  induction front with
  | nil => exact h
  | cons x front ih =>
    rw [List.cons_append, behindLast, ih]
    rfl

/-- A word does not begin in a text without its first letter. -/
theorem behindLast_append_of_notMem {x : α} {word front : List α} (s : List α) (h : x ∉ front) :
    behindLast (x :: word) (front ++ s) = behindLast (x :: word) s := by
  induction front with
  | nil => rfl
  | cons y front ih =>
    obtain ⟨hy, hfront⟩ := not_or.mp (mt List.mem_cons.mpr h)
    have hplace : ¬ x :: word <+: y :: (front ++ s) := by
      intro hstart
      exact hy (List.cons_prefix_cons.mp hstart).1
    rw [List.cons_append, behindLast, ih hfront, if_neg hplace, Option.or_none]

/-- **The text behind the last place of a word**, whose first letter comes once in it, when the
word has no place in that text. -/
theorem behindLast_append {x : α} {word : List α} (front : List α) {s : List α} (hword : x ∉ word)
    (hs : behindLast (x :: word) s = none) :
    behindLast (x :: word) (front ++ (x :: word) ++ s) = some s := by
  rw [List.append_assoc]
  apply behindLast_append_of_some
  have hplace : x :: word <+: x :: (word ++ s) := ⟨s, rfl⟩
  rw [List.cons_append, behindLast, behindLast_append_of_notMem s hword, hs, if_pos hplace]
  simp

end Computed

end Library
