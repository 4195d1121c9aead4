import Mathlib.Data.List.Basic
import Mathlib.Data.Option.Basic
import Mathlib.Tactic.Basic

/-!
# Columns and rows

A grid is kept by columns of one depth; its rows are what a reader of the grid sees.  The depth
is given apart, so that a grid without columns still has its (empty) rows.

## Main results

- `rows_append`: to lengthen every column is to append rows.
- `rows_map`: to map every column is to map every row.
- `rows_injective`: the rows determine the columns.
- `map_getElem?_rows`: a column read off the rows.
-/

namespace Library.Grid

variable {α β : Type*}

/-- Every column has `n` entries. -/
def Deep (n : ℕ) (columns : List (List α)) : Prop := ∀ c ∈ columns, c.length = n

theorem deep_cons {n : ℕ} {c : List α} {columns : List (List α)} :
    Deep n (c :: columns) ↔ c.length = n ∧ Deep n columns := by
  simp [Deep]

/-- The rows of columns of depth `n`. -/
def rows (n : ℕ) : List (List α) → List (List α)
  | [] => List.replicate n []
  | c :: columns => List.zipWith List.cons c (rows n columns)

theorem length_rows {n : ℕ} {columns : List (List α)} (h : Deep n columns) :
    (rows n columns).length = n := by
  induction columns with
  | nil => simp [rows]
  | cons c columns ih =>
    obtain ⟨hc, hcolumns⟩ := deep_cons.mp h
    simp [rows, hc, ih hcolumns]

/-! ## Longer columns -/

/-- Lengthen every column by the column at its place. -/
def append (columns columns' : List (List α)) : List (List α) :=
  List.zipWith (· ++ ·) columns columns'

/-- **To lengthen every column is to append rows.** -/
theorem rows_append {n m : ℕ} {columns columns' : List (List α)} (h : Deep n columns)
    (h' : Deep m columns') (hwidth : columns.length = columns'.length) :
    rows (n + m) (append columns columns') = rows n columns ++ rows m columns' := by
  induction columns generalizing columns' with
  | nil =>
    obtain rfl : columns' = [] := List.length_eq_zero_iff.mp hwidth.symm
    show List.replicate (n + m) [] = List.replicate n [] ++ List.replicate m []
    exact List.replicate_add ..
  | cons c columns ih =>
    cases columns' with
    | nil => cases hwidth
    | cons c' columns' =>
      obtain ⟨hc, hcolumns⟩ := deep_cons.mp h
      obtain ⟨hc', hcolumns'⟩ := deep_cons.mp h'
      have hrest := ih hcolumns hcolumns' (Nat.succ.inj hwidth)
      have hlength : c.length = (rows n columns).length := by rw [hc, length_rows hcolumns]
      simp only [append, List.zipWith_cons_cons, rows]
      rw [show List.zipWith (· ++ ·) columns columns' = append columns columns' from rfl, hrest,
        List.zipWith_append hlength]

/-! ## Other entries -/

/-- **To map every column is to map every row.** -/
theorem rows_map {n : ℕ} (fs : List (α → β)) (columns : List (List α))
    (hwidth : fs.length = columns.length) :
    rows n (List.zipWith (fun f c => c.map f) fs columns) =
      (rows n columns).map (List.zipWith (fun f x => f x) fs) := by
  induction columns generalizing fs with
  | nil =>
    obtain rfl : fs = [] := List.length_eq_zero_iff.mp hwidth
    simp [rows]
  | cons c columns ih =>
    cases fs with
    | nil => cases hwidth
    | cons f fs =>
      have hrest := ih fs (Nat.succ.inj hwidth)
      simp only [List.zipWith_cons_cons, rows, hrest, List.zipWith_map, List.map_zipWith]

/-! ## Columns from rows -/

theorem map_head?_zipWith {c : List α} {r : List (List α)} (h : c.length = r.length) :
    (List.zipWith List.cons c r).map List.head? = c.map some := by
  induction c generalizing r with
  | nil => rfl
  | cons x c ih =>
    cases r with
    | nil => cases h
    | cons y r => simp [ih (Nat.succ.inj h)]

theorem map_tail_zipWith {c : List α} {r : List (List α)} (h : c.length = r.length) :
    (List.zipWith List.cons c r).map List.tail = r := by
  induction c generalizing r with
  | nil => exact (List.length_eq_zero_iff.mp h.symm).symm
  | cons x c ih =>
    cases r with
    | nil => cases h
    | cons y r => simp [ih (Nat.succ.inj h)]

/-- **The rows determine the columns.** -/
theorem rows_injective {n : ℕ} {columns columns' : List (List α)} (h : Deep n columns)
    (h' : Deep n columns') (hwidth : columns.length = columns'.length)
    (heq : rows n columns = rows n columns') : columns = columns' := by
  induction columns generalizing columns' with
  | nil => exact (List.length_eq_zero_iff.mp hwidth.symm).symm
  | cons c columns ih =>
    cases columns' with
    | nil => cases hwidth
    | cons c' columns' =>
      obtain ⟨hc, hcolumns⟩ := deep_cons.mp h
      obtain ⟨hc', hcolumns'⟩ := deep_cons.mp h'
      have hlength : c.length = (rows n columns).length := by rw [hc, length_rows hcolumns]
      have hlength' : c'.length = (rows n columns').length := by rw [hc', length_rows hcolumns']
      have hhead : c.map some = c'.map some := by
        rw [← map_head?_zipWith hlength, ← map_head?_zipWith hlength']
        exact congrArg (List.map List.head?) heq
      have htail : rows n columns = rows n columns' := by
        rw [← map_tail_zipWith hlength, ← map_tail_zipWith hlength']
        exact congrArg (List.map List.tail) heq
      rw [List.map_injective_iff.mpr (Option.some_injective α) hhead,
        ih hcolumns hcolumns' (Nat.succ.inj hwidth) htail]

/-- A column is what the rows have at its place. -/
theorem map_getElem?_rows {n : ℕ} {columns : List (List α)} (h : Deep n columns) {i : ℕ}
    {c : List α} (hi : columns[i]? = some c) :
    (rows n columns).map (fun row => row[i]?) = c.map some := by
  induction columns generalizing i with
  | nil => cases hi
  | cons c' columns ih =>
    obtain ⟨hc', hcolumns⟩ := deep_cons.mp h
    have hlength : c'.length = (rows n columns).length := by rw [hc', length_rows hcolumns]
    cases i with
    | zero =>
      obtain rfl : c' = c := Option.some.inj hi
      rw [rows, ← map_head?_zipWith hlength]
      simp [List.head?_eq_getElem?]
    | succ i =>
      rw [rows, ← ih hcolumns hi]
      conv_rhs => rw [← map_tail_zipWith hlength]
      simp

end Library.Grid
