import Mathlib.Data.List.Forall2
import Mathlib.Tactic.Basic

/-!
# UTF-8

A leading byte tells the ranges of the bytes that follow it.  The check of a text reads it
sequence by sequence, and a text that passes can be kept as `Text`.  The lossy conversion copies the
sequences that are complete and writes U+FFFD for each longest beginning of one that is not.

## Main results

- `lossy_wellFormed`: well-formed text is copied.
- `valid_iff`: the check for well-formed text.
-/

namespace Library.Utf8

/-- The ranges of the bytes behind a leading byte; `none` for a byte that leads nothing. -/
def following (c : UInt8) : Option (List (UInt8 × UInt8)) :=
  if c ≤ 0x7f then some []
  else if c < 0xc2 then none
  else if c ≤ 0xdf then some [(0x80, 0xbf)]
  else if c = 0xe0 then some [(0xa0, 0xbf), (0x80, 0xbf)]
  -- the surrogates are left out
  else if c = 0xed then some [(0x80, 0x9f), (0x80, 0xbf)]
  else if c ≤ 0xef then some [(0x80, 0xbf), (0x80, 0xbf)]
  else if c = 0xf0 then some [(0x90, 0xbf), (0x80, 0xbf), (0x80, 0xbf)]
  else if c ≤ 0xf3 then some [(0x80, 0xbf), (0x80, 0xbf), (0x80, 0xbf)]
  else if c = 0xf4 then some [(0x80, 0x8f), (0x80, 0xbf), (0x80, 0xbf)]
  else none

/-- The byte lies in the range. -/
def Within (range : UInt8 × UInt8) (c : UInt8) : Prop := range.1 ≤ c ∧ c ≤ range.2

instance (range : UInt8 × UInt8) (c : UInt8) : Decidable (Within range c) :=
  inferInstanceAs (Decidable (_ ∧ _))

/-- Sequences of a leading byte and the bytes that follow it. -/
inductive WellFormed : List UInt8 → Prop
  | nil : WellFormed []
  | cons {c : UInt8} {ranges : List (UInt8 × UInt8)} {tail rest : List UInt8}
      (hlead : following c = some ranges) (htail : List.Forall₂ Within ranges tail)
      (hrest : WellFormed rest) : WellFormed (c :: (tail ++ rest))

/-- U+FFFD -/
def replacement : List UInt8 := [0xef, 0xbf, 0xbd]

/-- A byte where no sequence is open: what is written, and the sequence it opens. -/
def enter (c : UInt8) : List UInt8 × List UInt8 × List (UInt8 × UInt8) :=
  match following c with
  | none => (replacement, [], [])
  | some [] => ([c], [], [])
  | some ranges => ([], [c], ranges)

/-- The conversion with the sequence `pending` open, which asks for `ranges`. -/
def lossyFrom (pending : List UInt8) (ranges : List (UInt8 × UInt8)) :
    List UInt8 → List UInt8
  | [] => if ranges = [] then [] else replacement
  | c :: rest =>
    match ranges with
    | [] => (enter c).1 ++ lossyFrom (enter c).2.1 (enter c).2.2 rest
    | range :: ranges =>
      if Within range c then
        if ranges = [] then pending ++ [c] ++ lossyFrom [] [] rest
        else lossyFrom (pending ++ [c]) ranges rest
      else replacement ++ (enter c).1 ++ lossyFrom (enter c).2.1 (enter c).2.2 rest

/-- The lossy conversion of a whole text. -/
def lossy (text : List UInt8) : List UInt8 := lossyFrom [] [] text

theorem lossyFrom_tail {ranges : List (UInt8 × UInt8)} {tail : List UInt8}
    (h : List.Forall₂ Within ranges tail) (hopen : ranges ≠ []) (pending rest : List UInt8) :
    lossyFrom pending ranges (tail ++ rest) = pending ++ tail ++ lossyFrom [] [] rest := by
  induction h generalizing pending with
  | nil => exact absurd rfl hopen
  | @cons range c ranges tail hc htail ih =>
    by_cases hlast : ranges = []
    · subst hlast
      obtain rfl := List.forall₂_nil_left_iff.mp htail
      simp [lossyFrom, hc]
    · simp [lossyFrom, hc, hlast, ih hlast]

/-- **Well-formed text is copied.** -/
theorem lossy_wellFormed {text : List UInt8} (h : WellFormed text) : lossy text = text := by
  induction h with
  | nil => rfl
  | @cons c ranges tail rest hlead htail _ ih =>
    unfold lossy at ih
    by_cases hopen : ranges = []
    · subst hopen
      cases htail
      simp [lossy, lossyFrom, enter, hlead, ih]
    · have henter : enter c = ([], [c], ranges) := by
        cases ranges with
        | nil => exact absurd rfl hopen
        | cons range ranges => simp [enter, hlead]
      simp [lossy, lossyFrom, henter, lossyFrom_tail htail hopen, ih]

/-- A broken sequence gives one character, and the byte behind it is read again. -/
example : lossy [0xe2, 0x82, 0x41, 0xff] = [0xef, 0xbf, 0xbd, 0x41, 0xef, 0xbf, 0xbd] := by
  decide

/-! ## Valid text -/

/-- The check of a text in which a sequence is open that asks for `ranges`. -/
def validFrom : List (UInt8 × UInt8) → List UInt8 → Bool
  | ranges, [] => ranges.isEmpty
  | [], c :: rest =>
    match following c with
    | none => false
    | some ranges => validFrom ranges rest
  | range :: ranges, c :: rest => decide (Within range c) && validFrom ranges rest

def valid (text : List UInt8) : Bool := validFrom [] text

theorem validFrom_iff (ranges : List (UInt8 × UInt8)) (text : List UInt8) :
    validFrom ranges text = true ↔
      ∃ tail rest, text = tail ++ rest ∧ List.Forall₂ Within ranges tail ∧ WellFormed rest := by
  fun_induction validFrom ranges text with
  | case1 ranges =>
    rw [List.isEmpty_iff]
    constructor
    · rintro rfl
      exact ⟨[], [], rfl, .nil, .nil⟩
    · rintro ⟨tail, rest, heq, htail, -⟩
      obtain ⟨rfl, -⟩ := List.append_eq_nil_iff.mp heq.symm
      exact List.forall₂_nil_right_iff.mp htail
  | case2 c rest hlead =>
    refine iff_of_false (by simp) ?_
    rintro ⟨tail, rest', heq, htail, hrest⟩
    obtain rfl := List.forall₂_nil_left_iff.mp htail
    obtain rfl : c :: rest = rest' := heq
    cases hrest with
    | cons hsome =>
      rw [hlead] at hsome
      cases hsome
  | case3 c rest ranges hlead ih =>
    rw [ih]
    constructor
    · rintro ⟨tail, rest', rfl, htail, hrest⟩
      exact ⟨[], c :: (tail ++ rest'), rfl, .nil, .cons hlead htail hrest⟩
    · rintro ⟨tail, rest', heq, htail, hrest⟩
      obtain rfl := List.forall₂_nil_left_iff.mp htail
      obtain rfl : c :: rest = rest' := heq
      cases hrest with
      | @cons _ ranges' tail' rest'' hsome htail hrest =>
        obtain rfl := Option.some.inj (hlead.symm.trans hsome)
        exact ⟨tail', rest'', rfl, htail, hrest⟩
  | case4 range ranges c rest ih =>
    rw [Bool.and_eq_true, decide_eq_true_iff, ih]
    constructor
    · rintro ⟨hc, tail, rest', rfl, htail, hrest⟩
      exact ⟨c :: tail, rest', rfl, .cons hc htail, hrest⟩
    · rintro ⟨tail, rest', heq, htail, hrest⟩
      cases htail with
      | @cons _ c' _ tail' hc htail =>
        obtain ⟨rfl, rfl⟩ := List.cons.inj heq
        exact ⟨hc, tail', rest', rfl, htail, hrest⟩

/-- **The check passes the well-formed texts.** -/
theorem valid_iff {text : List UInt8} : valid text = true ↔ WellFormed text := by
  unfold valid
  rw [validFrom_iff]
  constructor
  · rintro ⟨tail, rest, rfl, htail, hrest⟩
    obtain rfl := List.forall₂_nil_left_iff.mp htail
    exact hrest
  · intro h
    exact ⟨[], text, rfl, .nil, h⟩

instance (text : List UInt8) : Decidable (WellFormed text) :=
  decidable_of_iff (valid text = true) valid_iff

theorem WellFormed.append {text text' : List UInt8} (h : WellFormed text)
    (h' : WellFormed text') : WellFormed (text ++ text') := by
  induction h with
  | nil => exact h'
  | cons hlead htail _ ih =>
    rw [List.cons_append, List.append_assoc]
    exact .cons hlead htail ih

theorem wellFormed_ascii {text : List UInt8} (h : ∀ c ∈ text, c ≤ 0x7f) : WellFormed text := by
  induction text with
  | nil => exact .nil
  | cons c text ih =>
    have hlead : following c = some [] := if_pos (h c List.mem_cons_self)
    have hrest := ih fun c' hc' => h c' (List.mem_cons_of_mem c hc')
    have hone : WellFormed (c :: ([] ++ text)) := .cons hlead .nil hrest
    exact hone

/-- A text that is known to be well-formed. -/
structure Text where
  bytes : List UInt8
  wellFormed : WellFormed bytes

/-! ## White space -/

/-- The characters of three bytes that are white space. -/
def wideSpace (c c' c'' : UInt8) : Bool :=
  (c == 0xe1 && c' == 0x9a && c'' == 0x80) ||
  (c == 0xe2 && c' == 0x80 && (c'' ≤ 0x8a || c'' == 0xa8 || c'' == 0xa9 || c'' == 0xaf)) ||
  (c == 0xe2 && c' == 0x81 && c'' == 0x9f) || (c == 0xe3 && c' == 0x80 && c'' == 0x80)

/-- A well-formed text in which there is nothing but white space. -/
def blank : List UInt8 → Bool
  | [] => true
  | c :: rest =>
    if c == 0x20 || (0x09 ≤ c && c ≤ 0x0d) then blank rest
    else
      match rest with
      | [] => false
      | c' :: rest' =>
        if c == 0xc2 && (c' == 0x85 || c' == 0xa0) then blank rest'
        else
          match rest' with
          | [] => false
          | c'' :: rest'' => wideSpace c c' c'' && blank rest''

end Library.Utf8
