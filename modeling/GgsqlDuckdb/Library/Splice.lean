import GgsqlDuckdb.Library.Lexer

/-!
# Texts put together from pieces

A generated text is made of pieces of its own and of pieces that are handed in.  Where a piece
ends in the middle of a token, or the next one begins inside it, the lexing of the whole is not
that of the pieces.  Here the pieces are held apart by *idle* elements, which are tokens of their
own and leave the token in front of them alone.

## Main results

- `Sealed.append`, `Firm.append`: the seams at which tokens stay what they are.
- `Spliced.between`: a joint of the text's own between two pieces.
- `Spliced.intercalate`: any number of pieces with a separator.
-/

namespace Library

universe u v

namespace Lexer

variable {κ : Type u} {α : Type v} (L : Lexer κ α) (idle : α → Prop)

/-! ## §1 Seams -/

/-- The tokens of `a` stay what they are in front of an idle element and at the end. -/
def Sealed (a : List α) : Prop :=
  ∀ r : List α, (∀ c ∈ r.head?, idle c) → L.Lexes (L.tokens a) r

/-- The tokens of `a` stay what they are in front of anything. -/
def Firm (a : List α) : Prop := ∀ r : List α, L.Lexes (L.tokens a) r

variable {L idle} {a b : List α}

theorem Firm.sealed (ha : L.Firm a) : L.Sealed idle a := fun r _ => ha r

theorem firm_nil : L.Firm [] := fun r => .nil r

theorem Firm.tokens (ha : L.Firm a) (b : List α) :
    L.tokens (a ++ b) = L.tokens a ++ L.tokens b := by
  have happ := tokens_append (ha b)
  rwa [text_tokens] at happ

theorem Sealed.tokens (ha : L.Sealed idle a) (hb : ∀ c ∈ b.head?, idle c) :
    L.tokens (a ++ b) = L.tokens a ++ L.tokens b := by
  have happ := tokens_append (ha b hb)
  rwa [text_tokens] at happ

theorem Firm.append (ha : L.Firm a) (hb : L.Sealed idle b) : L.Sealed idle (a ++ b) := by
  intro r hr
  rw [ha.tokens]
  apply (ha _).append
  exact hb r hr

theorem Sealed.append (ha : L.Sealed idle a) (hb : L.Sealed idle b)
    (hhead : ∀ c ∈ b.head?, idle c) : L.Sealed idle (a ++ b) := by
  intro r hr
  rw [ha.tokens hhead]
  refine Lexes.append (ha _ ?_) (hb r hr)
  -- the first element behind `a` is that of `b`, or that of `r`
  rw [text_tokens]
  cases b with
  | nil => exact hr
  | cons c b => exact hhead

/-- A joint of a text: it begins with an idle element, and nothing behind it changes it. -/
structure Joint (L : Lexer κ α) (idle : α → Prop) (a : List α) : Prop where
  ne_nil : a ≠ []
  head : ∀ c ∈ a.head?, idle c
  firm : L.Firm a

theorem Sealed.append_joint (ha : L.Sealed idle a) (hb : L.Joint idle b) : L.Firm (a ++ b) := by
  intro r
  rw [ha.tokens hb.head]
  refine Lexes.append (ha _ ?_) (hb.firm r)
  rw [text_tokens, List.head?_append_of_ne_nil _ hb.ne_nil]
  exact hb.head

/-! ## §2 Spliced texts -/

/-- A text that is sealed, with the tokens of it that satisfy `p`. -/
structure Spliced (L : Lexer κ α) (idle : α → Prop) (p : κ × List α → Bool)
    (marks : List (κ × List α)) (a : List α) : Prop where
  isSealed : L.Sealed idle a
  marks_eq : (L.tokens a).filter p = marks

variable {p : κ × List α → Bool} {m n : List (κ × List α)} {code : List α}

theorem Sealed.spliced (ha : L.Sealed idle a) :
    L.Spliced idle p ((L.tokens a).filter p) a := ⟨ha, rfl⟩

/-- A piece of the text's own in front. -/
theorem Spliced.behind (hb : L.Spliced idle p n b) (hcode : L.Firm code)
    (hquiet : (L.tokens code).filter p = []) : L.Spliced idle p n (code ++ b) where
  isSealed := hcode.append hb.isSealed
  marks_eq := by rw [hcode.tokens, List.filter_append, hquiet, List.nil_append, hb.marks_eq]

/-- A piece of the text's own at the end. -/
theorem Spliced.before (ha : L.Spliced idle p m a) (hcode : L.Sealed idle code)
    (hhead : ∀ c ∈ code.head?, idle c) (hquiet : (L.tokens code).filter p = []) :
    L.Spliced idle p m (a ++ code) where
  isSealed := ha.isSealed.append hcode hhead
  marks_eq := by
    rw [ha.isSealed.tokens hhead, List.filter_append, hquiet, List.append_nil, ha.marks_eq]

/-- **A joint of the text's own between two pieces.** -/
theorem Spliced.between (ha : L.Spliced idle p m a) (hcode : L.Joint idle code)
    (hquiet : (L.tokens code).filter p = []) (hb : L.Spliced idle p n b) :
    L.Spliced idle p (m ++ n) (a ++ (code ++ b)) where
  isSealed := by
    rw [← List.append_assoc]
    exact (ha.isSealed.append_joint hcode).append hb.isSealed
  marks_eq := by
    have hhead : ∀ c ∈ (code ++ b).head?, idle c := by
      rw [List.head?_append_of_ne_nil _ hcode.ne_nil]
      exact hcode.head
    rw [ha.isSealed.tokens hhead, hcode.firm.tokens, List.filter_append, List.filter_append,
      hquiet, List.nil_append, ha.marks_eq, hb.marks_eq]

/-- **Any number of pieces with a separator.** -/
theorem Spliced.intercalate {sep : List α} (hsep : L.Joint idle sep)
    (hquiet : (L.tokens sep).filter p = []) (parts : List (List (κ × List α) × List α))
    (hparts : ∀ x ∈ parts, L.Spliced idle p x.1 x.2) :
    L.Spliced idle p (parts.flatMap Prod.fst) (List.intercalate sep (parts.map Prod.snd)) := by
  induction parts with
  | nil => exact ⟨firm_nil.sealed, rfl⟩
  | cons x parts ih =>
    have hx := hparts x List.mem_cons_self
    have hrest := ih fun y hy => hparts y (List.mem_cons_of_mem x hy)
    cases parts with
    | nil =>
      simpa [List.intercalate] using hx
    | cons y parts =>
      have hjoin : List.intercalate sep ((x :: y :: parts).map Prod.snd) =
          x.2 ++ (sep ++ List.intercalate sep ((y :: parts).map Prod.snd)) := by
        simp [List.intercalate]
      rw [hjoin, List.flatMap_cons]
      exact hx.between hsep hquiet hrest

end Lexer

end Library
