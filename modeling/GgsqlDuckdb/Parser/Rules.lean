import GgsqlDuckdb.Library.Splice
import GgsqlDuckdb.Parser.Composition
import GgsqlDuckdb.Parser.HostLexer

/-!
# What the scanner and the host have in common

A text that is put together for the host is read by both lexers.  What they share is enough to
keep its pieces apart: spaces, parentheses and a few more bytes are tokens of their own, words run
over letters, digits and `_`, numbers over digits, and both forms of quotes end at the first quote
that is not doubled.

## Main results

- `SqlRules.plain_spliced`, `SqlRules.quoted_spliced`: the pieces that a text has of its own.
- `scannerRules`, `hostRules`: the two lexers follow the rules.
- `sealed_iff_complete`: what it means for the scanner that a piece is sealed.
-/

namespace GgsqlDuckdb

open Library

/-! ## §1 The rules -/

/-- A byte that keeps two pieces apart. -/
def isGap (c : UInt8) : Bool := (ascii " (),.:=").contains c

/-- A byte that is always a token of its own. -/
def isOwn (c : UInt8) : Bool := isGap c || c == star

/-- What holds of the bytes one by one holds of every byte that is a token of its own. -/
theorem own_all {p : UInt8 → Bool} (h : (ascii " (),.:=*").all p = true) {c : UInt8}
    (hc : isOwn c = true) : p c = true := by
  apply List.all_eq_true.mp h
  rcases (Bool.or_eq_true _ _).mp hc with hgap | hstar
  · have hmem : c ∈ ascii " (),.:=" := List.contains_iff_mem.mp hgap
    exact List.mem_append_left [star] hmem
  · rw [eq_of_beq hstar]
    decide

theorem own_of_gap {c : UInt8} (h : isGap c = true) : isOwn c = true := by simp [isOwn, h]

theorem ident_of_own {c : UInt8} (h : isOwn c = true) : isIdentChar c = false := by
  simpa using own_all (p := fun c => !isIdentChar c) (by decide) h

theorem not_own_of_ident {c : UInt8} (h : isIdentChar c = true) : isOwn c = false := by
  by_contra hown
  rw [ident_of_own (Bool.not_eq_false _ ▸ hown)] at h
  cases h

/-- A quoted text. -/
def enclosed (quote : Quote) (s : Bytes) : Bytes := quote.byte :: (s ++ [quote.byte])

/-- A lexer that reads gaps, words, numbers and quoted texts as SQL does. -/
structure SqlRules (κ : Type) where
  lexer : Lexer κ UInt8
  word : κ
  digits : κ
  other : κ
  quoted : Quote → κ
  own_next : ∀ {c : UInt8} (r : Bytes), isOwn c = true →
    lexer.next (c :: r) = some (other, [c], r)
  dash_next : ∀ {r : Bytes}, (∀ c ∈ r.head?, isGap c = true) →
    lexer.next (dash :: r) = some (other, [dash], r)
  word_next : ∀ {w r : Bytes}, w ≠ [] → (∀ c ∈ w, isIdentChar c = true) →
    (∀ c ∈ w.head?, isDigit c = false) → (∀ c ∈ r.head?, isOwn c = true) →
    lexer.next (w ++ r) = some (word, w, r)
  digits_next : ∀ {w r : Bytes}, w ≠ [] → (∀ c ∈ w, isDigit c = true) →
    (∀ c ∈ r.head?, isOwn c = true) → lexer.next (w ++ r) = some (digits, w, r)
  quoted_next : ∀ (quote : Quote) {s r : Bytes}, QuotedContent quote.byte s →
    (∀ c ∈ r.head?, isGap c = true) →
    lexer.next (enclosed quote s ++ r) = some (quoted quote, enclosed quote s, r)
  word_ne_other : word ≠ other
  digits_ne_other : digits ≠ other
  quoted_ne_word : ∀ quote, quoted quote ≠ word
  quoted_ne_other : ∀ quote, quoted quote ≠ other

namespace SqlRules

variable {κ : Type} (R : SqlRules κ)

/-- The text is read alike in front of a gap and at the end. -/
abbrev Sealed (a : Bytes) : Prop := R.lexer.Sealed (fun c => isGap c = true) a

variable [DecidableEq κ]

/-- The tokens that decide over a statement: the keywords of the extension, and the `;` between
statements. -/
def isMark (t : κ × Bytes) : Bool :=
  (decide (t.1 = R.word) && isKeyword t.2) || decide (t = (R.other, [semicolon]))

/-- The marks of a text. -/
def marks (q : Bytes) : List (κ × Bytes) := (R.lexer.tokens q).filter R.isMark

abbrev Spliced (m : List (κ × Bytes)) (a : Bytes) : Prop :=
  R.lexer.Spliced (fun c => isGap c = true) R.isMark m a

/-! ## §2 Pieces of a text's own -/

/-- Code with no quotes, no comments, no digits and no `;`, in which no word begins as a keyword
does. -/
def isPlain (code : Bytes) : Bool :=
  code.all fun c => (isIdentChar c && !isDigit c && tolower c != 0x76) || isOwn c

/-- Plain code that a piece may stand behind. -/
def isFront (code : Bytes) : Bool := isPlain code && code.getLast?.any isGap

/-- Plain code that may stand behind a piece. -/
def isBack (code : Bytes) : Bool := isPlain code && code.head?.any isGap

theorem isMark_own {c : UInt8} (hc : isOwn c = true) : R.isMark (R.other, [c]) = false := by
  have hne : c ≠ semicolon := by
    rintro rfl
    exact absurd hc (by decide)
  simp [isMark, R.word_ne_other.symm, hne]

theorem isMark_word {w : Bytes} (hw : isKeyword w = false) : R.isMark (R.word, w) = false := by
  simp [isMark, hw, R.word_ne_other]

theorem isMark_digits {w : Bytes} (hw : isKeyword w = false) : R.isMark (R.digits, w) = false := by
  simp [isMark, hw, R.digits_ne_other]

theorem isMark_quoted (quote : Quote) (s : Bytes) : R.isMark (R.quoted quote, s) = false := by
  simp [isMark, R.quoted_ne_word, R.quoted_ne_other]

variable {R}

/-- A token that has no mark, in front of a piece. -/
theorem cons_spliced {k : κ} {s b : Bytes} {n : List (κ × Bytes)} (hb : R.Spliced n b)
    (hnext : ∀ r, (∀ c ∈ r.head?, isGap c = true) →
      R.lexer.next (s ++ (b ++ r)) = some (k, s, b ++ r))
    (hmark : R.isMark (k, s) = false) : R.Spliced n (s ++ b) := by
  have htokens : R.lexer.tokens (s ++ b) = (k, s) :: R.lexer.tokens b := by
    apply R.lexer.tokens_of_next
    simpa using hnext [] nofun
  refine ⟨?_, ?_⟩
  · intro r hr
    rw [htokens]
    refine .cons ?_ (hb.isSealed r hr)
    rw [Lexer.text_tokens]
    exact hnext r hr
  · rw [htokens, List.filter_cons_of_neg (by simp [hmark]), hb.marks_eq]

/-- **Plain code** is sealed and has no marks; by induction on what is left of it. -/
theorem plain_spliced {code : Bytes} (h : isPlain code = true) : R.Spliced [] code := by
  induction hlen : code.length using Nat.strongRecOn generalizing code with
  | _ n ih =>
    cases code with
    | nil => exact ⟨Lexer.firm_nil.sealed, rfl⟩
    | cons c t =>
      have hall := List.all_eq_true.mp h
      by_cases hown : isOwn c = true
      · -- a byte of its own
        have ht : isPlain t = true :=
          List.all_eq_true.mpr fun d hd => hall d (List.mem_cons_of_mem c hd)
        have hrest : R.Spliced [] t := ih t.length (hlen ▸ Nat.lt_succ_self _) ht rfl
        exact cons_spliced (s := [c]) hrest (fun r _ => R.own_next (t ++ r) hown)
          (R.isMark_own hown)
      · -- a word, and what is behind it
        have hident : isIdentChar c = true := by
          have hc := hall c List.mem_cons_self
          rw [Bool.eq_false_iff.mpr hown, Bool.or_false, Bool.and_eq_true] at hc
          exact ((Bool.and_eq_true _ _).mp hc.1).1
        obtain ⟨w, rest, hsplit, hw, hrest⟩ := exists_run isIdentChar (c :: t)
        have hne : w ≠ [] := by
          rintro rfl
          have hhead := hrest c (by rw [← List.nil_append rest, hsplit]; rfl)
          rw [hident] at hhead
          cases hhead
        rw [← hsplit] at hall hlen ⊢
        have hlt : rest.length < n := by
          rw [← hlen, List.length_append]
          exact Nat.lt_add_of_pos_left (List.length_pos_iff.mpr hne)
        have hplain : isPlain rest = true :=
          List.all_eq_true.mpr fun d hd => hall d (List.mem_append_right w hd)
        have hletters : ∀ d ∈ w, isDigit d = false ∧ tolower d ≠ 0x76 := by
          intro d hd
          have hd' := hall d (List.mem_append_left rest hd)
          rw [not_own_of_ident (hw d hd), Bool.or_false, Bool.and_eq_true] at hd'
          have hdigit := ((Bool.and_eq_true _ _).mp hd'.1).2
          exact ⟨by simpa using hdigit, bne_iff_ne.mp hd'.2⟩
        have hkeyword : isKeyword w = false := by
          obtain ⟨d, w, rfl⟩ := List.exists_cons_of_ne_nil hne
          exact Bool.eq_false_iff.mpr fun hkw =>
            (hletters d List.mem_cons_self).2 (head_of_isKeyword hkw)
        refine cons_spliced (ih _ hlt hplain rfl) ?_ (R.isMark_word hkeyword)
        intro r hr
        apply R.word_next hne hw fun d hd => (hletters d (List.mem_of_mem_head? hd)).1
        intro d hd
        -- behind a word stands a byte of its own, or the gap behind the code
        cases rest with
        | nil => exact own_of_gap (hr d hd)
        | cons e rest =>
          obtain rfl : e = d := Option.some.inj hd
          have he := hall e (List.mem_append_right w List.mem_cons_self)
          rw [hrest e rfl, Bool.false_and, Bool.false_and, Bool.false_or] at he
          exact he

omit [DecidableEq κ] in
theorem own_firm {c : UInt8} (hc : isOwn c = true) : R.lexer.Firm [c] := by
  intro r
  rw [R.lexer.tokens_of_next (R.own_next [] hc), Lexer.tokens_nil]
  exact .cons (R.own_next r hc) (.nil r)

/-- Nothing behind it changes code that ends in a gap. -/
theorem front_firm {code : Bytes} (h : isFront code = true) : R.lexer.Firm code := by
  simp only [isFront, Bool.and_eq_true, Option.any_eq_true] at h
  obtain ⟨hplain, d, hlast, hd⟩ := h
  obtain ⟨front, rfl⟩ : ∃ front, code = front ++ [d] := List.getLast?_eq_some_iff.mp hlast
  have hall := List.all_eq_true.mp hplain
  have hfront : isPlain front = true :=
    List.all_eq_true.mpr fun e he => hall e (List.mem_append_left [d] he)
  have hend : R.lexer.Joint (fun c => isGap c = true) [d] := by
    refine ⟨List.cons_ne_nil d [], ?_, own_firm (own_of_gap hd)⟩
    rintro e ⟨⟩
    exact hd
  exact (plain_spliced hfront).isSealed.append_joint hend

theorem back_head {code : Bytes} (h : isBack code = true) :
    code ≠ [] ∧ ∀ c ∈ code.head?, isGap c = true := by
  simp only [isBack, Bool.and_eq_true, Option.any_eq_true] at h
  obtain ⟨-, c, hhead, hc⟩ := h
  refine ⟨?_, ?_⟩
  · rintro rfl
    cases hhead
  · intro d hd
    rw [hhead] at hd
    exact Option.some.inj hd ▸ hc

/-- **A quoted text** is sealed and has no marks, whatever it encloses. -/
theorem quoted_spliced (quote : Quote) {s : Bytes} (hs : QuotedContent quote.byte s) :
    R.Spliced [] (enclosed quote s) := by
  have hnil : R.Spliced [] [] := ⟨Lexer.firm_nil.sealed, rfl⟩
  have hcons := cons_spliced hnil (fun r hr => R.quoted_next quote hs (r := [] ++ r) hr)
    (R.isMark_quoted quote (enclosed quote s))
  rwa [List.append_nil] at hcons

/-- **A number** without an exponent is sealed and has no marks. -/
theorem digits_spliced {w : Bytes} (hne : w ≠ []) (hw : ∀ c ∈ w, isDigit c = true) :
    R.Spliced [] w := by
  have hnil : R.Spliced [] [] := ⟨Lexer.firm_nil.sealed, rfl⟩
  have hkeyword : isKeyword w = false := by
    obtain ⟨c, w, rfl⟩ := List.exists_cons_of_ne_nil hne
    exact not_isKeyword_of_digit (hw c List.mem_cons_self)
  have hcons := cons_spliced hnil (fun r hr => R.digits_next (r := [] ++ r) hne hw
    fun c hc => own_of_gap (hr c hc)) (R.isMark_digits hkeyword)
  rwa [List.append_nil] at hcons

/-- A minus between two gaps. -/
theorem dash_spliced : R.Spliced [] [dash] := by
  have hnil : R.Spliced [] [] := ⟨Lexer.firm_nil.sealed, rfl⟩
  have hmark : R.isMark (R.other, [dash]) = false := by
    have hne : ([dash] : Bytes) ≠ [semicolon] := by decide
    simp [isMark, R.word_ne_other.symm, hne]
  have hcons := cons_spliced (s := [dash]) hnil (fun r hr => R.dash_next (r := [] ++ r) hr) hmark
  rwa [List.append_nil] at hcons

variable {m n : List (κ × Bytes)} {a b code : Bytes}

theorem behind (code : Bytes) (hb : R.Spliced n b) (hcode : isFront code = true) :
    R.Spliced n (code ++ b) := by
  have hplain : isPlain code = true := ((Bool.and_eq_true _ _).mp hcode).1
  exact Lexer.Spliced.behind hb (front_firm hcode) (plain_spliced hplain).marks_eq

theorem before (code : Bytes) (ha : R.Spliced m a) (hcode : isBack code = true) :
    R.Spliced m (a ++ code) := by
  have hplain : isPlain code = true := ((Bool.and_eq_true _ _).mp hcode).1
  have hspliced : R.Spliced [] code := plain_spliced hplain
  exact Lexer.Spliced.before ha hspliced.isSealed (back_head hcode).2 hspliced.marks_eq

theorem joint (hback : isBack code = true) (hfront : isFront code = true) :
    R.lexer.Joint (fun c => isGap c = true) code :=
  ⟨(back_head hback).1, (back_head hback).2, front_firm hfront⟩

theorem between (code : Bytes) (ha : R.Spliced m a) (hback : isBack code = true)
    (hfront : isFront code = true) (hb : R.Spliced n b) : R.Spliced (m ++ n) (a ++ code ++ b) := by
  have hplain : isPlain code = true := ((Bool.and_eq_true _ _).mp hback).1
  rw [List.append_assoc]
  exact Lexer.Spliced.between ha (joint hback hfront) (plain_spliced hplain).marks_eq hb

theorem intercalate (sep : Bytes) (hback : isBack sep = true) (hfront : isFront sep = true)
    (parts : List (List (κ × Bytes) × Bytes)) (hparts : ∀ x ∈ parts, R.Spliced x.1 x.2) :
    R.Spliced (parts.flatMap Prod.fst) (List.intercalate sep (parts.map Prod.snd)) := by
  have hplain : isPlain sep = true := ((Bool.and_eq_true _ _).mp hback).1
  exact Lexer.Spliced.intercalate (joint hback hfront) (plain_spliced hplain).marks_eq parts hparts

end SqlRules

/-! ## §3 The scanner and the host -/

theorem SegmentKind.quoted_ne_word (quote : Quote) : SegmentKind.quoted quote ≠ .word := nofun

theorem SegmentKind.quoted_ne_other (quote : Quote) : SegmentKind.quoted quote ≠ .other := nofun

/-- The scanner follows the rules. -/
def scannerRules : SqlRules SegmentKind where
  lexer := scannerLexer
  word := .word
  digits := .word
  other := .other
  quoted := .quoted
  own_next := by
    intro c r hc
    have hne : ∀ d : UInt8, isOwn d = false → c ≠ d := by
      rintro d hd rfl
      rw [hc] at hd
      cases hd
    exact (Segment.other (ident_of_own hc) (hne _ (by decide)) (hne _ (by decide))
      (fun h => hne dash (by decide) h.1) fun h => hne slash (by decide) h.1).next
  dash_next := by
    intro r hr
    refine (Segment.other (by decide) (by decide) (by decide) ?_ (by simp [dash, slash])).next
    rintro ⟨-, hdash⟩
    exact absurd (hr dash hdash) (by decide)
  word_next := by
    intro w r hne hw _ hr
    exact (Segment.word hne hw fun c hc => ident_of_own (hr c hc)).next
  -- to the scanner a number is a word
  digits_next := by
    intro w r hne hw hr
    exact (Segment.word hne (fun c hc => ident_of_digit (hw c hc))
      fun c hc => ident_of_own (hr c hc)).next
  quoted_next := by
    intro quote s r hs hr
    have hhead : r.head? ≠ some quote.byte := by
      intro hquote
      have hgap := hr _ hquote
      cases quote <;> exact absurd hgap (by decide)
    exact (Segment.quotedClosed quote hs hhead).next
  word_ne_other := by decide
  digits_ne_other := by decide
  quoted_ne_word := SegmentKind.quoted_ne_word
  quoted_ne_other := SegmentKind.quoted_ne_other

theorem host_of_own {c : UInt8} (h : isOwn c = true) : isHostIdentChar c = false := by
  simpa using own_all (p := fun c => !isHostIdentChar c) (by decide) h

theorem digit_of_own {c : UInt8} (h : isOwn c = true) : isDigit c = false := by
  simpa using own_all (p := fun c => !isDigit c) (by decide) h

theorem hostNext_word {nests : Bool} {c : UInt8} {t r : Bytes}
    (hw : ∀ d ∈ c :: t, isIdentChar d = true) (hdigit : isDigit c = false)
    (hr : ∀ d ∈ r.head?, isOwn d = true) :
    hostNext nests (c :: t ++ r) = some (.word, c :: t, r) := by
  have hc := hw c List.mem_cons_self
  have htag : isTagChar c = true := by simp [isTagChar, hc]
  have hne : ∀ d : UInt8, isIdentChar d = false → c ≠ d := fun d hd => ne_of_isIdentChar hc hd
  have hquote : (t ++ r).head? ≠ some apostrophe := by
    cases t with
    | nil =>
      intro h
      exact absurd (hr apostrophe h) (by decide)
    | cons d t =>
      intro h
      have hd := hw d (List.mem_cons_of_mem c List.mem_cons_self)
      rw [Option.some.inj h] at hd
      exact absurd hd (by decide)
  have hhost : ∀ d ∈ c :: t, isHostIdentChar d = true := by
    intro d hd
    simp [isHostIdentChar, isTagChar, hw d hd]
  have hrun : (c :: t ++ r).takeWhile isHostIdentChar = c :: t ∧
      (c :: t ++ r).dropWhile isHostIdentChar = r := by
    rw [List.takeWhile_append_of_pos hhost, List.dropWhile_append_of_pos hhost]
    cases r with
    | nil => simp
    | cons d r => simp [host_of_own (hr d rfl)]
  rw [List.cons_append] at hrun ⊢
  rw [hostNext, if_neg fun h => hne dash (by decide) h.1, if_neg fun h => hne slash (by decide) h.1,
    if_neg (hne apostrophe (by decide)), if_neg (hne doubleQuote (by decide)),
    if_neg fun h => hquote h.2, if_neg (by simp [hdigit]), if_pos htag, hrun.1, hrun.2]

/-- In front of a byte of its own a number has no exponent. -/
theorem hostNext_digits {nests : Bool} {c : UInt8} {t r : Bytes}
    (hw : ∀ d ∈ c :: t, isDigit d = true) (hr : ∀ d ∈ r.head?, isOwn d = true) :
    hostNext nests (c :: t ++ r) = some (.number, c :: t, r) := by
  have hc := hw c List.mem_cons_self
  have hne : ∀ d : UInt8, isDigit d = false → c ≠ d := by
    rintro d hd rfl
    rw [hc] at hd
    cases hd
  have hletter : ¬ (c = 0x45 ∨ c = 0x65) := by
    rintro (rfl | rfl) <;> exact absurd hc (by decide)
  have ht : ∀ d ∈ t, isDigit d = true := fun d hd => hw d (List.mem_cons_of_mem c hd)
  have htail : numberTail (t ++ r) = (t, r) := by
    unfold numberTail
    rw [List.dropWhile_append_of_pos ht, List.takeWhile_append_of_pos ht]
    cases r with
    | nil => simp
    | cons d r =>
      have hown := hr d rfl
      have hexponent : ¬ ((d = 0x45 ∨ d = 0x65) ∧ r.head?.any isDigit = true) := by
        rintro ⟨rfl | rfl, -⟩ <;> exact absurd hown (by decide)
      simp [digit_of_own hown, hexponent]
  rw [List.cons_append, hostNext, if_neg fun h => hne dash (by decide) h.1,
    if_neg fun h => hne slash (by decide) h.1, if_neg (hne apostrophe (by decide)),
    if_neg (hne doubleQuote (by decide)), if_neg fun h => hletter h.1, if_pos hc, htail]

/-- The host follows the rules. -/
def hostRules (nests : Bool) : SqlRules HostKind where
  lexer := hostLexer nests
  word := .word
  digits := .number
  other := .other
  quoted
    | .single => .stringLiteral
    | .double => .quotedIdentifier
  own_next := by
    intro c r hc
    have hne : ∀ d : UInt8, isOwn d = false → c ≠ d := by
      rintro d hd rfl
      rw [hc] at hd
      cases hd
    have htag : ¬ isTagChar c = true := by
      have hhost := host_of_own hc
      simp only [isHostIdentChar, Bool.or_eq_false_iff] at hhost
      simp [hhost.1]
    have hescape : ¬ ((c = 0x45 ∨ c = 0x65) ∧ r.head? = some apostrophe) := by
      rintro ⟨rfl | rfl, -⟩
      · exact absurd hc (by decide)
      · exact absurd hc (by decide)
    show hostNext nests (c :: r) = some (.other, [c], r)
    rw [hostNext, if_neg fun h => hne dash (by decide) h.1,
      if_neg fun h => hne slash (by decide) h.1, if_neg (hne apostrophe (by decide)),
      if_neg (hne doubleQuote (by decide)), if_neg hescape, if_neg (by simp [digit_of_own hc]),
      if_neg htag, if_neg (hne dollar (by decide))]
  dash_next := by
    intro r hr
    have hdash : ¬ (dash = dash ∧ r.head? = some dash) := by
      rintro ⟨-, hhead⟩
      exact absurd (hr dash hhead) (by decide)
    show hostNext nests (dash :: r) = some (.other, [dash], r)
    rw [hostNext, if_neg hdash, if_neg fun h => absurd h.1 (by decide), if_neg (by decide),
      if_neg (by decide), if_neg fun h => absurd h.1 (by decide), if_neg (by decide),
      if_neg (by decide), if_neg (by decide)]
  word_next := by
    intro w r hne hw hdigit hr
    obtain ⟨c, t, rfl⟩ := List.exists_cons_of_ne_nil hne
    exact hostNext_word hw (hdigit c rfl) hr
  digits_next := by
    intro w r hne hw hr
    obtain ⟨c, t, rfl⟩ := List.exists_cons_of_ne_nil hne
    exact hostNext_digits hw hr
  quoted_next := by
    intro quote s r hs hr
    have hhead : r.head? ≠ some quote.byte := by
      intro hquote
      have hgap := hr _ hquote
      cases quote <;> exact absurd hgap (by decide)
    cases quote with
    | single =>
      have htail : quotedTail apostrophe (s ++ [apostrophe] ++ r) = (s ++ [apostrophe], r) := by
        rw [List.append_assoc]
        exact quotedTail_closed hs hhead
      show hostNext nests (apostrophe :: (s ++ [apostrophe] ++ r)) = _
      rw [hostNext, if_neg fun h => absurd h.1 (by decide), if_neg fun h => absurd h.1 (by decide),
        if_pos rfl, htail]
      rfl
    | double =>
      have htail : quotedTail doubleQuote (s ++ [doubleQuote] ++ r) = (s ++ [doubleQuote], r) := by
        rw [List.append_assoc]
        exact quotedTail_closed hs hhead
      show hostNext nests (doubleQuote :: (s ++ [doubleQuote] ++ r)) = _
      rw [hostNext, if_neg fun h => absurd h.1 (by decide), if_neg fun h => absurd h.1 (by decide),
        if_neg (by decide), if_pos rfl, htail]
      rfl
  word_ne_other := by decide
  digits_ne_other := by decide
  quoted_ne_word := by
    intro quote
    cases quote <;> decide
  quoted_ne_other := by
    intro quote
    cases quote <;> decide

/-! ## §4 Sealed texts -/

theorem idle_of_gap {c : UInt8} (h : isGap c = true) : Idle c := by
  have hne : ∀ d : UInt8, isGap d = false → c ≠ d := by
    rintro d hd rfl
    rw [h] at hd
    cases hd
  refine ⟨ident_of_own (own_of_gap h), ?_, hne _ (by decide), hne _ (by decide), hne _ (by decide)⟩
  intro quote
  cases quote <;> exact hne _ (by decide)

/-- A segment that something follows is closed. -/
theorem Segment.closed {k : SegmentKind} {s r : Bytes} (h : Segment k s r) (hr : r ≠ []) :
    Closed (k, s) := by
  cases h with
  | blockClosed => exact ⟨_, rfl⟩
  | blockOpen => exact absurd rfl hr
  | quotedClosed quote hs => exact ⟨_, hs, rfl⟩
  | quotedOpen => exact absurd rfl hr
  | lineComment => trivial
  | word => trivial
  | other => trivial

/-- **For the scanner a text is sealed if and only if it ends outside every literal, quoted
identifier and comment.** -/
theorem sealed_iff_complete (q : Bytes) : scannerRules.Sealed q ↔ Complete q := by
  constructor
  · intro h
    have hspace : ∀ c ∈ ([0x20] : Bytes).head?, isGap c = true := by
      rintro c ⟨⟩
      decide
    have hlexes : scannerLexer.Lexes (scannerLexer.tokens q) [0x20] := h [0x20] hspace
    -- every token of `q` stands in front of something
    have hsegment : ∀ {ts us : List (SegmentKind × Bytes)} {k : SegmentKind} {s : Bytes},
        scannerLexer.tokens q = ts ++ (k, s) :: us →
          Segment k s (Lexer.text us ++ [0x20]) := by
      intro ts us k s hsplit
      rw [hsplit] at hlexes
      cases hlexes.split.2 with
      | cons hnext _ => exact segment_iff_next.mpr hnext
    refine ⟨?_, ?_⟩
    · intro x hx
      obtain ⟨ts, us, hsplit⟩ := List.append_of_mem hx
      exact (hsegment hsplit).closed (List.append_ne_nil_of_right_ne_nil _ (List.cons_ne_nil _ _))
    · intro x hx hline
      obtain ⟨ts, hsplit⟩ := List.getLast?_eq_some_iff.mp hx
      obtain ⟨k, s⟩ := x
      obtain rfl : k = .lineComment := hline
      cases hsegment hsplit with
      | lineComment _ hr =>
        rcases hr with hnil | hnewline
        · cases hnil
        · exact absurd hnewline (by decide)
  · intro h r hr
    obtain ⟨ts, rfl, hlexes⟩ := noStraddle_iff.mp
      (noStraddle_idle h fun c hc => idle_of_gap (hr c hc))
    show scannerLexer.Lexes (scannerLexer.tokens (Lexer.text ts)) r
    rwa [tokens_text hlexes]

end GgsqlDuckdb
