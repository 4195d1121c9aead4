import GgsqlDuckdb.Library.Lexer
import GgsqlDuckdb.Parser.Scanner
import Mathlib.Data.List.TakeWhile

/-!
# The lexing the scanner stands for

The scanner of `Parser/Scanner.lean` works by position.  Here the lexing it implements is
stated on the text itself: `Segment k s r` says that in front of `r` the text `s` is one
segment of kind `k`.  `nextSegment` computes the first segment, and `segment_iff_next`
shows that the two agree, so a text has exactly one lexing.

## Main results

- `segment_iff_next`: the declarative segments are what `nextSegment` computes.
- `Segment.seam`: no segment ends in a word byte in front of a word byte.
- `segments_iff_lexes`: sequences of complete segments are the boundaries of the lexer.
-/

namespace GgsqlDuckdb

open Library

/-! ## §1 Segments -/

/-- The two quote forms: string literals and quoted identifiers. -/
inductive Quote where
  | single
  | double
  deriving DecidableEq, Repr

def Quote.byte : Quote → UInt8
  | .single => apostrophe
  | .double => doubleQuote

inductive SegmentKind where
  | lineComment
  | blockComment
  | quoted (quote : Quote)
  | word
  | other
  deriving DecidableEq, Repr

/-- What stands between two quotes: other bytes and doubled quotes. -/
inductive QuotedContent (quote : UInt8) : Bytes → Prop where
  | nil : QuotedContent quote []
  | plain {c : UInt8} {s : Bytes} (hc : c ≠ quote) (hs : QuotedContent quote s) :
      QuotedContent quote (c :: s)
  | doubled {s : Bytes} (hs : QuotedContent quote s) : QuotedContent quote (quote :: quote :: s)

/-- `Segment k s r`: in front of `r`, the text `s` is one complete segment of kind `k`.
A form cut off by the end of the text is complete as well. -/
inductive Segment : SegmentKind → Bytes → Bytes → Prop where
  | lineComment {s r : Bytes} (hs : newline ∉ s) (hr : r = [] ∨ r.head? = some newline) :
      Segment .lineComment (dash :: dash :: s) r
  | blockClosed {s r : Bytes} (hs : ¬ [star, slash] <:+: s) :
      Segment .blockComment (slash :: star :: (s ++ [star, slash])) r
  | blockOpen {s : Bytes} (hs : ¬ [star, slash] <:+: s) :
      Segment .blockComment (slash :: star :: s) []
  | quotedClosed (quote : Quote) {s r : Bytes} (hs : QuotedContent quote.byte s)
      (hr : r.head? ≠ some quote.byte) :
      Segment (.quoted quote) (quote.byte :: (s ++ [quote.byte])) r
  | quotedOpen (quote : Quote) {s : Bytes} (hs : QuotedContent quote.byte s) :
      Segment (.quoted quote) (quote.byte :: s) []
  | word {s r : Bytes} (hne : s ≠ []) (hs : ∀ c ∈ s, isIdentChar c = true)
      (hr : ∀ c ∈ r.head?, isIdentChar c = false) : Segment .word s r
  | other {c : UInt8} {r : Bytes} (hident : isIdentChar c = false) (hsingle : c ≠ apostrophe)
      (hdouble : c ≠ doubleQuote) (hline : ¬ (c = dash ∧ r.head? = some dash))
      (hblock : ¬ (c = slash ∧ r.head? = some star)) : Segment .other [c] r

/-- `a` is a sequence of complete segments in front of `r`. -/
inductive Segments : Bytes → Bytes → Prop where
  | nil (r : Bytes) : Segments [] r
  | cons {k : SegmentKind} {s a r : Bytes} (hs : Segment k s (a ++ r)) (ha : Segments a r) :
      Segments (s ++ a) r

/-! ## §2 Computing the first segment -/

/-- Split behind the first `*/`. -/
def blockTail : Bytes → Bytes × Bytes
  | [] => ([], [])
  | c :: t =>
    if c = star ∧ t.head? = some slash then ([c, slash], t.tail)
    else (c :: (blockTail t).1, (blockTail t).2)

/-- Split behind the first undoubled `quote`. -/
def quotedTail (quote : UInt8) : Bytes → Bytes × Bytes
  | [] => ([], [])
  | [c] => ([c], [])
  | c :: d :: t =>
    if c = quote then
      if d = quote then (c :: d :: (quotedTail quote t).1, (quotedTail quote t).2)
      else ([c], d :: t)
    else (c :: (quotedTail quote (d :: t)).1, (quotedTail quote (d :: t)).2)

/-- The first segment of a text, and what is behind it. -/
def nextSegment : Bytes → Option (SegmentKind × Bytes × Bytes)
  | [] => none
  | c :: t =>
    if c = dash ∧ t.head? = some dash then
      some (.lineComment, dash :: dash :: t.tail.takeWhile (· != newline),
        t.tail.dropWhile (· != newline))
    else if c = slash ∧ t.head? = some star then
      some (.blockComment, slash :: star :: (blockTail t.tail).1, (blockTail t.tail).2)
    else if c = apostrophe then
      some (.quoted .single, c :: (quotedTail c t).1, (quotedTail c t).2)
    else if c = doubleQuote then
      some (.quoted .double, c :: (quotedTail c t).1, (quotedTail c t).2)
    else if isIdentChar c then
      some (.word, (c :: t).takeWhile isIdentChar, (c :: t).dropWhile isIdentChar)
    else some (.other, [c], t)

/-! ## §3 The forms of a comment and of a quoted text -/

theorem quotedTail_append (quote : UInt8) (t : Bytes) :
    (quotedTail quote t).1 ++ (quotedTail quote t).2 = t := by
  fun_induction quotedTail quote t <;> simp_all

/-- Every text either has a first `*/` or has none. -/
theorem block_cases (t : Bytes) :
    (∃ s r, ¬ [star, slash] <:+: s ∧ t = s ++ star :: slash :: r) ∨ ¬ [star, slash] <:+: t := by
  by_cases h : [star, slash] <:+: t
  · left
    induction t with
    | nil => simp at h
    | cons c t ih =>
      rcases List.infix_cons_iff.mp h with hpre | hinf
      -- the text starts with `*/`
      · obtain ⟨r, hr⟩ := hpre
        exact ⟨[], r, by simp, by simpa using hr.symm⟩
      -- `*/` occurs behind `c`; it may still be the second of two
      · by_cases hpre : [star, slash] <+: c :: t
        · obtain ⟨r, hr⟩ := hpre
          exact ⟨[], r, by simp, by simpa using hr.symm⟩
        · obtain ⟨s, r, hs, rfl⟩ := ih hinf
          -- no `*/` starts at `c`, so prefixing `c` to `s` makes none
          refine ⟨c :: s, r, ?_, rfl⟩
          rw [List.infix_cons_iff, not_or]
          refine ⟨fun hcs => hpre ?_, hs⟩
          exact hcs.trans ⟨star :: slash :: r, rfl⟩
  · exact Or.inr h

theorem blockTail_closed {s r : Bytes} (hs : ¬ [star, slash] <:+: s) :
    blockTail (s ++ star :: slash :: r) = (s ++ [star, slash], r) := by
  induction s with
  | nil => simp [blockTail]
  | cons c s ih =>
    rw [List.infix_cons_iff, not_or] at hs
    -- a `*/` at `c` would already be one inside `c :: s`
    have hc : ¬ (c = star ∧ (s ++ star :: slash :: r).head? = some slash) := by
      rintro ⟨rfl, hhead⟩
      cases s with
      | nil => simp [star, slash] at hhead
      | cons d s =>
        have hd : d = slash := by simpa using hhead
        subst hd
        exact hs.1 ⟨s, rfl⟩
    rw [List.cons_append, blockTail, if_neg hc, ih hs.2]
    rfl

theorem blockTail_open {s : Bytes} (hs : ¬ [star, slash] <:+: s) : blockTail s = (s, []) := by
  induction s with
  | nil => rfl
  | cons c s ih =>
    rw [List.infix_cons_iff, not_or] at hs
    have hc : ¬ (c = star ∧ s.head? = some slash) := by
      rintro ⟨rfl, hhead⟩
      cases s with
      | nil => simp at hhead
      | cons d s =>
        have hd : d = slash := by simpa using hhead
        subst hd
        exact hs.1 ⟨s, rfl⟩
    rw [blockTail, if_neg hc, ih hs.2]

/-- Every text either closes a quote opened before it or is all content. -/
theorem quoted_cases (quote : UInt8) (t : Bytes) :
    (∃ s r, QuotedContent quote s ∧ r.head? ≠ some quote ∧ t = s ++ quote :: r) ∨
      QuotedContent quote t := by
  fun_induction quotedTail quote t with
  | case1 => exact Or.inr .nil
  | case2 c =>
    -- one byte left: it closes the quote or is content
    by_cases hc : c = quote
    · exact Or.inl ⟨[], [], .nil, by simp, by simp [hc]⟩
    · exact Or.inr (.plain hc .nil)
  | case3 t ih =>
    -- a doubled quote is content
    rcases ih with ⟨s, r, hs, hr, rfl⟩ | hs
    · exact Or.inl ⟨quote :: quote :: s, r, .doubled hs, hr, rfl⟩
    · exact Or.inr (.doubled hs)
  | case4 d t hd => exact Or.inl ⟨[], d :: t, .nil, by simpa using hd, rfl⟩
  | case5 c d t hc ih =>
    -- any other byte is content
    rcases ih with ⟨s, r, hs, hr, ht⟩ | hs
    · exact Or.inl ⟨c :: s, r, .plain hc hs, hr, by rw [ht, List.cons_append]⟩
    · exact Or.inr (.plain hc hs)

theorem quotedTail_plain {quote c : UInt8} (hc : c ≠ quote) (t : Bytes) :
    quotedTail quote (c :: t) = (c :: (quotedTail quote t).1, (quotedTail quote t).2) := by
  cases t <;> simp [quotedTail, hc]

theorem quotedTail_doubled (quote : UInt8) (t : Bytes) :
    quotedTail quote (quote :: quote :: t) =
      (quote :: quote :: (quotedTail quote t).1, (quotedTail quote t).2) := by
  simp [quotedTail]

theorem quotedTail_close {quote : UInt8} {t : Bytes} (ht : t.head? ≠ some quote) :
    quotedTail quote (quote :: t) = ([quote], t) := by
  cases t with
  | nil => simp [quotedTail]
  | cons d t =>
    have hd : d ≠ quote := by simpa using ht
    simp [quotedTail, hd]

theorem quotedTail_closed {quote : UInt8} {s r : Bytes} (hs : QuotedContent quote s)
    (hr : r.head? ≠ some quote) :
    quotedTail quote (s ++ quote :: r) = (s ++ [quote], r) := by
  induction hs with
  | nil => simpa using quotedTail_close hr
  | plain hc _ ih => rw [List.cons_append, quotedTail_plain hc, ih]; rfl
  | doubled _ ih => rw [List.cons_append, List.cons_append, quotedTail_doubled, ih]; rfl

theorem quotedTail_open {quote : UInt8} {s : Bytes} (hs : QuotedContent quote s) :
    quotedTail quote s = (s, []) := by
  induction hs with
  | nil => rfl
  | plain hc _ ih => rw [quotedTail_plain hc, ih]
  | doubled _ ih => rw [quotedTail_doubled, ih]

/-! ## §4 The first segment -/

theorem ne_of_isIdentChar {c d : UInt8} (hc : isIdentChar c = true)
    (hd : isIdentChar d = false) : c ≠ d := by
  intro h
  rw [h, hd] at hc
  exact Bool.false_ne_true hc

theorem takeWhile_ident_append {s r : Bytes} (hs : ∀ c ∈ s, isIdentChar c = true)
    (hr : ∀ c ∈ r.head?, isIdentChar c = false) :
    (s ++ r).takeWhile isIdentChar = s ∧ (s ++ r).dropWhile isIdentChar = r := by
  rw [List.takeWhile_append_of_pos hs, List.dropWhile_append_of_pos hs]
  cases r with
  | nil => simp
  | cons c r =>
    have hc := hr c rfl
    simp [hc]

theorem takeWhile_line_append {s r : Bytes} (hs : newline ∉ s)
    (hr : r = [] ∨ r.head? = some newline) :
    (s ++ r).takeWhile (· != newline) = s ∧ (s ++ r).dropWhile (· != newline) = r := by
  have hne : ∀ c ∈ s, (c != newline) = true := by
    intro c hc
    simpa using fun h : c = newline => hs (h ▸ hc)
  rw [List.takeWhile_append_of_pos hne, List.dropWhile_append_of_pos hne]
  rcases hr with rfl | hr
  · simp
  · obtain ⟨t, rfl⟩ := List.head?_eq_some_iff.mp hr
    simp

/-- A segment is what `nextSegment` computes in front of the rest of the text. -/
theorem Segment.next {k : SegmentKind} {s r : Bytes} (h : Segment k s r) :
    nextSegment (s ++ r) = some (k, s, r) := by
  cases h with
  | @lineComment s r hs hr =>
    obtain ⟨htake, hdrop⟩ := takeWhile_line_append hs hr
    simp [nextSegment, htake, hdrop]
  | @blockClosed s r hs =>
    -- the first `*/` of the text behind the opening is the closing one
    have hsplit : s ++ [star, slash] ++ r = s ++ star :: slash :: r := by simp
    have htail : blockTail (s ++ [star, slash] ++ r) = (s ++ [star, slash], r) :=
      hsplit ▸ blockTail_closed hs
    simp only [List.cons_append, nextSegment, List.head?_cons, List.tail_cons, htail]
    rfl
  | blockOpen hs =>
    simp only [List.append_nil, nextSegment, List.head?_cons, List.tail_cons, blockTail_open hs]
    rfl
  | @quotedClosed quote s r hs hr =>
    -- the closing quote is the first one that is not doubled
    have hsplit : s ++ [quote.byte] ++ r = s ++ quote.byte :: r := by simp
    have htail : quotedTail quote.byte (s ++ [quote.byte] ++ r) = (s ++ [quote.byte], r) :=
      hsplit ▸ quotedTail_closed hs hr
    cases quote <;> simp only [List.cons_append, nextSegment, Quote.byte] at htail ⊢ <;>
      rw [htail] <;> rfl
  | quotedOpen quote hs =>
    have htail := quotedTail_open hs
    cases quote <;> simp only [List.append_nil, nextSegment, Quote.byte] at htail ⊢ <;>
      rw [htail] <;> rfl
  | @word s r hne hs hr =>
    -- a word byte is none of the bytes that open another form
    obtain ⟨c, s, rfl⟩ := List.exists_cons_of_ne_nil hne
    obtain ⟨htake, hdrop⟩ := takeWhile_ident_append hs hr
    have hc : isIdentChar c = true := hs c (by simp)
    rw [List.cons_append] at htake hdrop ⊢
    simp only [nextSegment, ne_of_isIdentChar hc (d := dash) rfl,
      ne_of_isIdentChar hc (d := slash) rfl, ne_of_isIdentChar hc (d := apostrophe) rfl,
      ne_of_isIdentChar hc (d := doubleQuote) rfl, hc, htake, hdrop, false_and, if_false, if_true]
  | @other c r hident hsingle hdouble hline hblock =>
    simp [nextSegment, hident, hsingle, hdouble, hline, hblock]

theorem head?_dropWhile {p : UInt8 → Bool} {t : Bytes} :
    ∀ c ∈ (t.dropWhile p).head?, p c = false := by
  intro c hc
  have h := List.head?_dropWhile_not p t
  rw [Option.mem_def.mp hc] at h
  simpa using h

/-- Every text is cut by a maximal run of the bytes that satisfy `p`. -/
theorem exists_run (p : UInt8 → Bool) (t : Bytes) :
    ∃ s r, s ++ r = t ∧ (∀ c ∈ s, p c = true) ∧ ∀ c ∈ r.head?, p c = false :=
  ⟨t.takeWhile p, t.dropWhile p, List.takeWhile_append_dropWhile,
    fun _ hc => List.mem_takeWhile_imp hc, head?_dropWhile⟩

/-- Every nonempty text starts with a segment. -/
theorem exists_segment (c : UInt8) (t : Bytes) : ∃ k s r, Segment k s r ∧ s ++ r = c :: t := by
  -- the branches of the scanner, in its order
  by_cases hline : c = dash ∧ t.head? = some dash
  · obtain ⟨rfl, ht⟩ := hline
    obtain ⟨t, rfl⟩ := List.head?_eq_some_iff.mp ht
    obtain ⟨s, r, rfl, hs, hr⟩ := exists_run (· != newline) t
    refine ⟨_, _, r, .lineComment (s := s) (fun hmem => by simpa using hs _ hmem) ?_, rfl⟩
    cases r with
    | nil => exact Or.inl rfl
    | cons d r => exact Or.inr (by simpa using hr d rfl)
  by_cases hblock : c = slash ∧ t.head? = some star
  · obtain ⟨rfl, ht⟩ := hblock
    obtain ⟨t, rfl⟩ := List.head?_eq_some_iff.mp ht
    rcases block_cases t with ⟨s, r, hs, rfl⟩ | hs
    · exact ⟨_, _, r, .blockClosed hs, by simp⟩
    · exact ⟨_, _, [], .blockOpen hs, by simp⟩
  by_cases hquote : ∃ quote : Quote, c = quote.byte
  · obtain ⟨quote, rfl⟩ := hquote
    rcases quoted_cases quote.byte t with ⟨s, r, hs, hr, rfl⟩ | hs
    · exact ⟨_, _, r, .quotedClosed quote hs hr, by simp⟩
    · exact ⟨_, _, [], .quotedOpen quote hs, by simp⟩
  have hsingle : c ≠ apostrophe := fun h => hquote ⟨.single, h⟩
  have hdouble : c ≠ doubleQuote := fun h => hquote ⟨.double, h⟩
  cases hident : isIdentChar c with
  | false => exact ⟨_, _, t, .other hident hsingle hdouble hline hblock, rfl⟩
  | true =>
    obtain ⟨s, r, hsr, hs, hr⟩ := exists_run isIdentChar t
    refine ⟨_, _, r, .word (s := c :: s) (by simp) ?_ hr, by simp [hsr]⟩
    simpa [hident] using hs

theorem segment_of_nextSegment {q s r : Bytes} {k : SegmentKind}
    (h : nextSegment q = some (k, s, r)) : Segment k s r ∧ s ++ r = q := by
  cases q with
  | nil => simp [nextSegment] at h
  | cons c t =>
    obtain ⟨k', s', r', hseg, hq⟩ := exists_segment c t
    have hnext := hseg.next
    rw [hq, h] at hnext
    obtain ⟨rfl, rfl, rfl⟩ : k = k' ∧ s = s' ∧ r = r' := by simpa using hnext
    exact ⟨hseg, hq⟩

/-- **The declarative segments are the computed ones.** -/
theorem segment_iff_next {k : SegmentKind} {s r : Bytes} :
    Segment k s r ↔ nextSegment (s ++ r) = some (k, s, r) :=
  ⟨Segment.next, fun h => (segment_of_nextSegment h).1⟩

/-- A segment is a segment of the text that ends with it. -/
theorem Segment.alone {k : SegmentKind} {s r : Bytes} (h : Segment k s r) : Segment k s [] := by
  cases h with
  | lineComment hs _ => exact .lineComment hs (Or.inl rfl)
  | blockClosed hs => exact .blockClosed hs
  | blockOpen hs => exact .blockOpen hs
  | quotedClosed quote hs _ => exact .quotedClosed quote hs (by simp)
  | quotedOpen quote hs => exact .quotedOpen quote hs
  | word hne hs _ => exact .word hne hs (by simp)
  | other hident hsingle hdouble _ _ => exact .other hident hsingle hdouble (by simp) (by simp)

theorem Segment.ne_nil {k : SegmentKind} {s r : Bytes} (h : Segment k s r) : s ≠ [] := by
  cases h <;> simp_all

/-! ## §5 The lexer -/

/-- The lexer whose segments the scanner skips. -/
def scannerLexer : Lexer SegmentKind UInt8 where
  next := nextSegment
  next_append h := (segment_of_nextSegment h).2
  next_ne_nil h := (segment_of_nextSegment h).1.ne_nil
  next_eq_none := by
    intro q h
    cases q with
    | nil => rfl
    | cons c t =>
      obtain ⟨k, s, r, hseg, hq⟩ := exists_segment c t
      rw [← hq, hseg.next] at h
      exact absurd h (by simp)

/-- Sequences of complete segments are the boundaries of the lexer. -/
theorem segments_iff_lexes {a r : Bytes} :
    Segments a r ↔ ∃ ts, Lexer.text ts = a ∧ scannerLexer.Lexes ts r := by
  constructor
  · intro h
    induction h with
    | nil r => exact ⟨[], rfl, .nil r⟩
    | cons hs _ ih =>
      obtain ⟨ts, rfl, hts⟩ := ih
      exact ⟨_ :: ts, rfl, .cons hs.next hts⟩
  · rintro ⟨ts, rfl, hts⟩
    induction hts with
    | nil r => exact .nil r
    | cons hnext _ ih => exact .cons (segment_iff_next.mpr hnext) ih

/-- No segment ends in a word byte in front of a word byte. -/
theorem Segment.seam {k : SegmentKind} {s r : Bytes} (h : Segment k s r) {p c : UInt8}
    (hp : s.getLast? = some p) (hc : r.head? = some c) (hident : isIdentChar c = true) :
    isIdentChar p = false := by
  cases h with
  | lineComment hs hr =>
    -- behind a line comment stands a newline or nothing
    rcases hr with rfl | hr
    · simp at hc
    · rw [hr, Option.some.injEq] at hc
      exact absurd (hc ▸ hident) (by decide)
  | @blockClosed s r hs =>
    -- the last byte is the slash of `*/`
    have hlast : (slash :: star :: (s ++ [star, slash])).getLast? = some slash := by
      simp [List.getLast?_cons, List.getLast?_append]
    rw [hlast, Option.some.injEq] at hp
    subst hp
    rfl
  | blockOpen => simp at hc
  | @quotedClosed quote s r hs hr =>
    -- the last byte is the closing quote
    have hlast : (quote.byte :: (s ++ [quote.byte])).getLast? = some quote.byte := by
      simp [List.getLast?_cons, List.getLast?_append]
    rw [hlast, Option.some.injEq] at hp
    subst hp
    cases quote <;> rfl
  | quotedOpen => simp at hc
  -- a word is maximal, so no word byte follows it
  | word hne hs hr => exact absurd (hr c hc) (by simp [hident])
  | other h =>
    obtain rfl : _ = p := by simpa using hp
    exact h

end GgsqlDuckdb
