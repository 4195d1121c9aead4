import Mathlib.Data.List.Basic
import Mathlib.Data.List.Infix
import Mathlib.Tactic.Basic

/-!
# Left-to-right lexers

A `Lexer` takes one token off the front of its input; the structure carries the facts that
make lexing well defined: a token is a nonempty prefix, and only the empty input has none.

`tokens` lexes a whole input.  `Lexes ts r` says that the tokens `ts` are what the lexer
takes in front of the remaining input `r`, so it describes a *boundary* of the lexing of
`text ts ++ r`.

## Main results

- `text_tokens`: nothing is lost or added.
- `tokens_append`: at a boundary the tokens of the whole are those of the two parts.
- `tokens_append_last`: what text at the end of an input can change.
- `mem_tokens_iff`: a token of the whole input is one the lexer takes at some boundary.
- `lexesAll_or_fault`: the first token of an input that does not meet a condition.
- `LexesAll.split`: a lexer that gets through every token of a coarser one splits its output.
-/

namespace Library

universe u v w

/-- A left-to-right lexer with token kinds `κ` over the alphabet `α`. -/
structure Lexer (κ : Type u) (α : Type v) where
  /-- The kind of the first token, its text and the input behind it. -/
  next : List α → Option (κ × List α × List α)
  next_append : ∀ {q k s r}, next q = some (k, s, r) → s ++ r = q
  next_ne_nil : ∀ {q k s r}, next q = some (k, s, r) → s ≠ []
  next_eq_none : ∀ {q}, next q = none → q = []

namespace Lexer

variable {κ : Type u} {α : Type v}

/-- The text of a token list. -/
def text (ts : List (κ × List α)) : List α := (ts.map Prod.snd).flatten

@[simp] theorem text_nil : text ([] : List (κ × List α)) = [] := rfl

@[simp] theorem text_cons (t : κ × List α) (ts : List (κ × List α)) :
    text (t :: ts) = t.2 ++ text ts := rfl

@[simp] theorem text_append (ts us : List (κ × List α)) :
    text (ts ++ us) = text ts ++ text us := by
  simp [text]

variable (L : Lexer κ α)

theorem next_nil : L.next [] = none := by
  cases h : L.next [] with
  | none => rfl
  | some t =>
    obtain ⟨k, s, r⟩ := t
    have hs : s = [] := (List.append_eq_nil_iff.mp (L.next_append h)).1
    exact absurd hs (L.next_ne_nil h)

theorem length_lt_of_next {q s r : List α} {k : κ} (h : L.next q = some (k, s, r)) :
    r.length < q.length := by
  have hs : 0 < s.length := List.length_pos_iff.mpr (L.next_ne_nil h)
  rw [← L.next_append h, List.length_append]
  omega

/-- Lex with a budget of `fuel` tokens. -/
def tokensFuel : ℕ → List α → List (κ × List α)
  | 0, _ => []
  | fuel + 1, q =>
    match L.next q with
    | none => []
    | some (k, s, r) => (k, s) :: tokensFuel fuel r

/-- The tokens of `q`.  Every token is nonempty, so `q.length` bounds their number. -/
def tokens (q : List α) : List (κ × List α) := L.tokensFuel q.length q

theorem tokensFuel_eq {fuel fuel' : ℕ} {q : List α} (h : q.length ≤ fuel)
    (h' : q.length ≤ fuel') : L.tokensFuel fuel q = L.tokensFuel fuel' q := by
  induction fuel generalizing fuel' q with
  | zero =>
    have hq : q = [] := List.length_eq_zero_iff.mp (Nat.le_zero.mp h)
    subst hq
    cases fuel' <;> simp [tokensFuel, L.next_nil]
  | succ fuel ih =>
    cases hn : L.next q with
    | none =>
      -- both budgets meet the end of the input
      have hq := L.next_eq_none hn
      subst hq
      cases fuel' <;> simp [tokensFuel, L.next_nil]
    | some t =>
      obtain ⟨k, s, r⟩ := t
      have hlt := L.length_lt_of_next hn
      cases fuel' with
      | zero => omega
      -- both budgets pay for the same first token
      | succ fuel' =>
        simp only [tokensFuel, hn]
        have hr : L.tokensFuel fuel r = L.tokensFuel fuel' r := ih (by omega) (by omega)
        rw [hr]

@[simp] theorem tokens_nil : L.tokens [] = [] := rfl

/-- The tokens of an input are its first token and the tokens of what is behind it. -/
theorem tokens_of_next {q s r : List α} {k : κ} (h : L.next q = some (k, s, r)) :
    L.tokens q = (k, s) :: L.tokens r := by
  have hlt := L.length_lt_of_next h
  -- the budget is spent on the first token and the rest still covers `r`
  obtain ⟨n, hn⟩ : ∃ n, q.length = n + 1 := ⟨q.length - 1, by omega⟩
  have hr : L.tokensFuel n r = L.tokens r := L.tokensFuel_eq (by omega) le_rfl
  rw [tokens, hn]
  simp only [tokensFuel, h, hr]

/-- Induction along the lexing of an input. -/
theorem lexing_induction {P : List α → Prop} (hnil : P [])
    (hnext : ∀ q k s r, L.next q = some (k, s, r) → P r → P q) (q : List α) : P q := by
  induction hlen : q.length using Nat.strong_induction_on generalizing q with
  | _ n ih =>
    cases h : L.next q with
    | none => exact L.next_eq_none h ▸ hnil
    | some t =>
      obtain ⟨k, s, r⟩ := t
      exact hnext q k s r h (ih r.length (hlen ▸ L.length_lt_of_next h) r rfl)

/-- Lexing loses nothing and adds nothing. -/
@[simp] theorem text_tokens (q : List α) : text (L.tokens q) = q := by
  induction q using L.lexing_induction with
  | hnil => simp
  | hnext q k s r h ih => rw [L.tokens_of_next h, text_cons, ih, L.next_append h]

/-! ## Boundaries -/

/-- In front of `r`, the lexer takes exactly the tokens `ts`. -/
inductive Lexes : List (κ × List α) → List α → Prop where
  | nil (r : List α) : Lexes [] r
  | cons {k : κ} {s : List α} {ts : List (κ × List α)} {r : List α}
      (hnext : L.next (s ++ (text ts ++ r)) = some (k, s, text ts ++ r)) (hrest : Lexes ts r) :
      Lexes ((k, s) :: ts) r

variable {L}

/-- At a boundary the tokens of the whole are the tokens in front and those behind. -/
theorem tokens_append {ts : List (κ × List α)} {r : List α} (h : L.Lexes ts r) :
    L.tokens (text ts ++ r) = ts ++ L.tokens r := by
  induction h with
  | nil r => simp
  | cons hnext _ ih =>
    rw [text_cons, List.append_assoc, L.tokens_of_next hnext, ih, List.cons_append]

theorem Lexes.append {ts us : List (κ × List α)} {r : List α} (h₁ : L.Lexes ts (text us ++ r))
    (h₂ : L.Lexes us r) : L.Lexes (ts ++ us) r := by
  induction ts with
  | nil => exact h₂
  | cons t ts ih =>
    cases h₁ with
    | cons hnext hrest =>
      have htext : text ts ++ (text us ++ r) = text (ts ++ us) ++ r := by simp
      rw [htext] at hnext
      exact .cons hnext (ih hrest)

theorem Lexes.split {ts us : List (κ × List α)} {r : List α} (h : L.Lexes (ts ++ us) r) :
    L.Lexes ts (text us ++ r) ∧ L.Lexes us r := by
  induction ts with
  | nil => exact ⟨.nil _, h⟩
  | cons t ts ih =>
    rw [List.cons_append] at h
    cases h with
    | cons hnext hrest =>
      obtain ⟨hts, hus⟩ := ih hrest
      have htext : text (ts ++ us) ++ r = text ts ++ (text us ++ r) := by simp
      rw [htext] at hnext
      exact ⟨.cons hnext hts, hus⟩

/-- Every way to cut the token list of an input is a boundary of its lexing. -/
theorem lexes_of_tokens_eq {q : List α} {ts us : List (κ × List α)}
    (h : L.tokens q = ts ++ us) : L.Lexes ts (text us) := by
  induction ts generalizing q with
  | nil => exact .nil _
  | cons t ts ih =>
    cases hn : L.next q with
    | none =>
      rw [L.next_eq_none hn, tokens_nil] at h
      exact absurd h.symm (List.cons_ne_nil _ _)
    | some u =>
      -- the first token of `q` is `t`, and the rest of the cut lies behind it
      obtain ⟨k, s, r⟩ := u
      rw [L.tokens_of_next hn, List.cons_append, List.cons.injEq] at h
      obtain ⟨rfl, hr⟩ := h
      have htext : text ts ++ text us = r := by rw [← text_append, ← hr, text_tokens]
      refine .cons ?_ (ih hr)
      rw [htext, L.next_append hn]
      exact hn

/-- A token of `q` is a token the lexer takes at some boundary of `q`. -/
theorem mem_tokens_iff {q s : List α} {k : κ} :
    (k, s) ∈ L.tokens q ↔ ∃ ts r, q = text ts ++ (s ++ r) ∧ L.Lexes ts (s ++ r) ∧
      L.next (s ++ r) = some (k, s, r) := by
  constructor
  · intro h
    -- cut the token list in front of the token and again behind it
    obtain ⟨ts, us, hsplit⟩ := List.append_of_mem h
    have hq : q = text ts ++ (s ++ text us) := by
      rw [← L.text_tokens q, hsplit, text_append, text_cons]
    have hts : L.Lexes ts (s ++ text us) := lexes_of_tokens_eq hsplit
    refine ⟨ts, text us, hq, hts, ?_⟩
    have htail : L.tokens (s ++ text us) = (k, s) :: us := by
      have := tokens_append hts
      rw [← hq, hsplit] at this
      exact (List.append_cancel_left this).symm
    have hone : L.Lexes [(k, s)] (text us) := lexes_of_tokens_eq htail
    cases hone with
    | cons hnext _ => simpa using hnext
  · rintro ⟨ts, r, rfl, hts, hnext⟩
    -- at the boundary the tokens of the whole go on with the token taken there
    rw [tokens_append hts, L.tokens_of_next hnext]
    simp

/-- Behind a lexer that sees no further than the next element, text added at the end of an input
touches its last token only. -/
theorem tokens_append_last {q x : List α}
    (hnext : ∀ k s r, r ≠ [] → L.next (s ++ r) = some (k, s, r) →
      L.next (s ++ (r ++ x)) = some (k, s, r ++ x)) (hq : q ≠ []) :
    ∃ ts k s, L.tokens q = ts ++ [(k, s)] ∧ L.next s = some (k, s, []) ∧
      L.tokens (q ++ x) = ts ++ L.tokens (s ++ x) := by
  induction q using L.lexing_induction with
  | hnil => exact absurd rfl hq
  | hnext q k s r h ih =>
    have happ := L.next_append h
    by_cases hr : r = []
    -- the first token is the last one
    · subst hr
      rw [List.append_nil] at happ
      subst happ
      exact ⟨[], k, s, by simp [L.tokens_of_next h], h, by simp⟩
    · obtain ⟨ts, k', s', htokens, hlast, hmore⟩ := ih hr
      have hfirst : L.next (q ++ x) = some (k, s, r ++ x) := by
        rw [← happ, List.append_assoc]
        exact hnext k s r hr (by rw [happ]; exact h)
      refine ⟨(k, s) :: ts, k', s', ?_, hlast, ?_⟩
      · rw [L.tokens_of_next h, htokens, List.cons_append]
      · rw [L.tokens_of_next hfirst, hmore, List.cons_append]

/-! ## Tokens that meet a condition -/

/-- In front of `r`, the lexer takes exactly the tokens `ts`, each of which meets the condition `P`
in front of what is behind it. -/
inductive LexesAll (L : Lexer κ α) (P : κ → List α → List α → Prop) :
    List (κ × List α) → List α → Prop where
  | nil (r : List α) : LexesAll L P [] r
  | cons {k : κ} {s : List α} {ts : List (κ × List α)} {r : List α}
      (hnext : L.next (s ++ (text ts ++ r)) = some (k, s, text ts ++ r))
      (hP : P k s (text ts ++ r)) (hrest : LexesAll L P ts r) : LexesAll L P ((k, s) :: ts) r

variable {P : κ → List α → List α → Prop}

theorem LexesAll.lexes {ts : List (κ × List α)} {r : List α} (h : L.LexesAll P ts r) :
    L.Lexes ts r := by
  induction h with
  | nil r => exact .nil r
  | cons hnext _ _ ih => exact .cons hnext ih

/-- All tokens of an input meet a condition, or there is a first one that does not. -/
theorem lexesAll_or_fault (L : Lexer κ α) (P : κ → List α → List α → Prop) (q : List α) :
    (∃ ts, q = text ts ∧ L.LexesAll P ts []) ∨
      ∃ ts k s r, q = text ts ++ (s ++ r) ∧ L.LexesAll P ts (s ++ r) ∧
        L.next (s ++ r) = some (k, s, r) ∧ ¬ P k s r := by
  induction q using L.lexing_induction with
  | hnil => exact Or.inl ⟨[], rfl, .nil []⟩
  | hnext q k s r h ih =>
    have hq := L.next_append h
    subst hq
    by_cases hP : P k s r
    · -- the first token meets it, and the fault is behind it if there is one
      rcases ih with ⟨ts, rfl, hts⟩ | ⟨ts, k', s', r', rfl, hts, hnext, hfault⟩
      · refine Or.inl ⟨(k, s) :: ts, rfl, .cons ?_ ?_ hts⟩
        · rwa [List.append_nil]
        · rwa [List.append_nil]
      · exact Or.inr ⟨(k, s) :: ts, k', s', r', (List.append_assoc ..).symm, .cons h hP hts, hnext,
          hfault⟩
    · exact Or.inr ⟨[], k, s, r, rfl, .nil _, h, hP⟩

/-- A lexer that gets through every token of a coarser one on its own splits what it takes. -/
theorem LexesAll.split {χ : Type w} {C : Lexer χ α} {P : χ → List α → List α → Prop}
    (hP : ∀ k s r, P k s r → L.Lexes (L.tokens s) r) {ts : List (χ × List α)} {r : List α}
    (h : C.LexesAll P ts r) :
    text (ts.flatMap fun t => L.tokens t.2) = text ts ∧
      L.Lexes (ts.flatMap fun t => L.tokens t.2) r := by
  induction h with
  | nil r => exact ⟨rfl, .nil r⟩
  | @cons k s ts r hnext hread _ ih =>
    obtain ⟨htext, hlexes⟩ := ih
    refine ⟨?_, ?_⟩
    · rw [List.flatMap_cons, text_append, htext, text_tokens, text_cons]
    · rw [List.flatMap_cons]
      refine Lexes.append ?_ hlexes
      rw [htext]
      exact hP k s _ hread

end Lexer

end Library
