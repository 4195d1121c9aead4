import GgsqlDuckdb.Parser.HostLexer

/-!
# Routing against the host's lexical rules

The scanner re-implements the host's lexer with fewer literal and comment forms.  Here each
host token is read a second time by the scanner's own lexing: a token is read *in step* when
the scanner, starting in front of it, ends right behind it and reports a keyword in it only
if the token is one.  Up to the first token that is not, the two agree; the scanner goes astray
there, and a statement is routed wrongly when no keyword stands in front of that token and the
two differ over what is behind.  A token can lead astray only by a form that the scanner does
not know: a nested comment, an escaped quote, a dollar quote, an identifier with `$` or bytes
from `0x80` on, or a number that a word follows directly.

## Main results

- `readAs_of_readAlike`: the forms of tokens that are read in step.
- `Astray.form`: the forms that lead the scanner astray.
- `parseFunction_routes_iff`: when the parse function claims what the host has a keyword in.
- `parseFunction_misroutes`: a misread literal routes a statement wrongly, in both directions.
-/

namespace GgsqlDuckdb

open Library

/-! ## §1 Tokens the scanner reads as the host does -/

/-- A whole-word keyword stands in `s` when it is read as plain bytes. -/
def HoldsKeyword (s : Bytes) : Prop :=
  ∃ a w b, s = a ++ w ++ b ∧ isKeyword w = true ∧ (∀ c ∈ a.getLast?, isIdentChar c = false) ∧
    ∀ c ∈ b.head?, isIdentChar c = false

/-- Nothing in `s` opens a literal, an identifier or a comment of the scanner. -/
structure Bare (s : Bytes) : Prop where
  single : apostrophe ∉ s
  double : doubleQuote ∉ s
  line : ¬ [dash, dash] <:+: s
  block : ¬ [slash, star] <:+: s

/-- A backslash escape in the body of an `E'...'` literal takes a quote. -/
def hasEscapedQuote : Bytes → Bool
  | [] => false
  | [_] => false
  | c :: d :: t =>
    if c = backslash then decide (d = apostrophe) || hasEscapedQuote t
    else hasEscapedQuote (d :: t)

/-- A form of token that the scanner gets through, in front of `r`. -/
def ReadAlike (nests : Bool) (r : Bytes) : HostKind × Bytes → Prop
  | (.blockComment, s) => nests = true → ¬ [slash, star] <:+: s.drop 2
  | (.escapeLiteral, s) => hasEscapedQuote (s.drop 2) = false
  | (.dollarLiteral, s) => Bare s ∧ ¬ HoldsKeyword s
  | (.number, _) => ∀ c ∈ r.head?, isIdentChar c = false
  | (.word, s) => (∀ c ∈ s, isIdentChar c = true) ∨ ¬ HoldsKeyword s
  | _ => True

/-! ## §2 Segments and bare text on their own -/

theorem Segment.tokens_eq {k : SegmentKind} {s r : Bytes} (h : Segment k s r) :
    scannerLexer.tokens s = [(k, s)] ∧ scannerLexer.Lexes [(k, s)] r := by
  constructor
  · have hnext := h.alone.next
    rw [List.append_nil] at hnext
    have htokens : scannerLexer.tokens s = (k, s) :: scannerLexer.tokens [] :=
      scannerLexer.tokens_of_next hnext
    simpa using htokens
  · exact .cons h.next (.nil r)

/-- Neither a word nor a comment opener runs across the seam between `s` and `r`. -/
def SeamFree (s r : Bytes) : Prop :=
  ∀ p ∈ s.getLast?, ∀ c ∈ r.head?, ¬ (isIdentChar p = true ∧ isIdentChar c = true) ∧
    ¬ (p = dash ∧ c = dash) ∧ ¬ (p = slash ∧ c = star)

theorem SeamFree.of_append {s t r : Bytes} (h : SeamFree (s ++ t) r) (ht : t ≠ []) :
    SeamFree t r := by
  intro p hp
  exact h p (by rwa [List.getLast?_append_of_ne_nil _ ht])

theorem Bare.of_append {s t : Bytes} (h : Bare (s ++ t)) : Bare t where
  single hm := h.single (List.mem_append_right _ hm)
  double hm := h.double (List.mem_append_right _ hm)
  line hm := h.line (hm.trans (List.suffix_append s t).isInfix)
  block hm := h.block (hm.trans (List.suffix_append s t).isInfix)

/-- A segment of a bare text stays one in front of any seam-free rest. -/
theorem Segment.in_front {k : SegmentKind} {s t r : Bytes} (h : Segment k s t)
    (hbare : Bare (s ++ t)) (hseam : SeamFree (s ++ t) r) : Segment k s (t ++ r) := by
  cases h with
  -- a bare text opens no comment and no quote
  | lineComment => exact absurd (List.prefix_append [dash, dash] _).isInfix hbare.line
  | blockClosed => exact absurd (List.prefix_append [slash, star] _).isInfix hbare.block
  | blockOpen => exact absurd (List.prefix_append [slash, star] _).isInfix hbare.block
  | quotedClosed quote =>
    cases quote with
    | single => exact absurd (List.mem_cons_self ..) hbare.single
    | double => exact absurd (List.mem_cons_self ..) hbare.double
  | quotedOpen quote =>
    cases quote with
    | single => exact absurd (List.mem_cons_self ..) hbare.single
    | double => exact absurd (List.mem_cons_self ..) hbare.double
  | word hne hs hr =>
    apply Segment.word hne hs
    intro c hc
    cases t with
    | cons d t => exact hr c hc
    | nil =>
      -- the word ends where the rest begins
      have hlast : s.getLast? = some (s.getLast hne) := List.getLast?_eq_some_getLast hne
      rw [List.append_nil] at hseam
      have hboth := (hseam _ hlast c hc).1
      simpa [hs _ (List.getLast_mem hne)] using hboth
  | @other c _ hident hsingle hdouble hline hblock =>
    cases t with
    | cons d t => exact .other hident hsingle hdouble hline hblock
    | nil =>
      apply Segment.other hident hsingle hdouble
      -- a comment opener would run across the seam
      · rintro ⟨hc, hr⟩
        exact (hseam c rfl dash hr).2.1 ⟨hc, rfl⟩
      · rintro ⟨hc, hr⟩
        exact (hseam c rfl star hr).2.2 ⟨hc, rfl⟩

/-- The scanner's lexing of a bare text is the same in front of any seam-free rest. -/
theorem lexes_of_bare {s r : Bytes} (hbare : Bare s) (hseam : SeamFree s r) :
    scannerLexer.Lexes (scannerLexer.tokens s) r := by
  induction s using scannerLexer.lexing_induction with
  | hnil => exact .nil r
  | hnext q k s t hnext ih =>
    obtain ⟨hseg, rfl⟩ := segment_of_nextSegment hnext
    have hrest : scannerLexer.Lexes (scannerLexer.tokens t) r := by
      by_cases ht : t = []
      · subst ht
        exact .nil r
      · exact ih hbare.of_append (hseam.of_append ht)
    have htokens : scannerLexer.tokens (s ++ t) = (k, s) :: scannerLexer.tokens t :=
      scannerLexer.tokens_of_next hnext
    rw [htokens]
    refine .cons ?_ hrest
    rw [Lexer.text_tokens]
    exact (hseg.in_front hbare hseam).next

/-! ## §3 Tails that the scanner reads as the host does -/

theorem escapeTail_eq {t : Bytes} (h : hasEscapedQuote (escapeTail t).1 = false) :
    escapeTail t = quotedTail apostrophe t := by
  fun_induction escapeTail t with
  | case1 => rfl
  | case2 c => rfl
  | case3 d t ih =>
    -- a backslash takes the next byte with it, which is no quote
    simp only [hasEscapedQuote, if_true, Bool.or_eq_false_iff, decide_eq_false_iff_not] at h
    rw [quotedTail_plain (by decide), quotedTail_plain h.1, ih h.2]
  | case4 t _ ih =>
    -- a doubled quote is content on both sides
    have hrest : hasEscapedQuote (escapeTail t).1 = false := by
      cases hbody : (escapeTail t).1 with
      | nil => rfl
      | cons e s => simpa [hbody, hasEscapedQuote, apostrophe, backslash] using h
    rw [quotedTail_doubled, ih hrest]
  | case5 d t hd _ => rw [quotedTail_close (by simpa using hd)]
  | case6 c d t hc hq ih =>
    -- any other byte
    have hrest : hasEscapedQuote (escapeTail (d :: t)).1 = false := by
      cases hbody : (escapeTail (d :: t)).1 with
      | nil => rfl
      | cons e s => simpa [hbody, hasEscapedQuote, hc] using h
    rw [quotedTail_plain hq, ih hrest]

theorem hostBlockTail_eq {nests : Bool} {t : Bytes}
    (h : nests = true → ¬ [slash, star] <:+: (hostBlockTail nests 0 t).1) :
    hostBlockTail nests 0 t = blockTail t := by
  -- the induction is on the host's split, which nests only through case 5
  generalize hdepth : 0 = depth at h
  fun_induction hostBlockTail nests depth t with
  | case1 => rfl
  | case2 => simp [blockTail]
  | case3 c d t hclose => simp [blockTail, hclose]
  | case4 c d t hclose depth ih => cases hdepth
  | case5 depth c d t hclose hopen ih =>
    -- a comment opens inside, which `h` rules out
    exact absurd (List.prefix_append [slash, star] _).isInfix
      (by simpa [hopen] using h hopen.1)
  | case6 depth c d t hclose hopen ih =>
    rw [blockTail, if_neg (by simpa using hclose), ← ih hdepth ?_]
    intro hn hinf
    exact h hn (hinf.trans (List.suffix_cons c _).isInfix)

/-! ## §4 The scanner's reading of one host token -/

/-- The scanner splits the token `s` into segments in front of `r` and reports a keyword in
it exactly when `keyword` says so. -/
structure ReadAs (s r : Bytes) (keyword : Bool) : Prop where
  lexes : scannerLexer.Lexes (scannerLexer.tokens s) r
  reported : hasKeyword s = keyword

theorem Segment.readAs {k : SegmentKind} {s r : Bytes} (h : Segment k s r) :
    ReadAs s r (isKeywordSegment (k, s)) := by
  obtain ⟨htokens, hlexes⟩ := h.tokens_eq
  refine ⟨htokens ▸ hlexes, ?_⟩
  simp [hasKeyword, htokens]

theorem readAs_of_nextSegment {q s r : Bytes} {k : SegmentKind}
    (h : nextSegment q = some (k, s, r)) : ReadAs s r (isKeywordSegment (k, s)) :=
  (segment_of_nextSegment h).1.readAs

/-- A bare text without a keyword is read over. -/
theorem readAs_of_bare {s r : Bytes} (hbare : Bare s) (hseam : SeamFree s r)
    (hnone : ¬ HoldsKeyword s) : ReadAs s r false := by
  refine ⟨lexes_of_bare hbare hseam, ?_⟩
  rw [Bool.eq_false_iff]
  intro h
  -- a keyword segment would be a keyword held as plain bytes
  obtain ⟨a, w, b, hs, hw, hb, -, ha⟩ := (hasKeyword_iff s).mp h
  exact hnone ⟨a, w, b, hs, hw, ha, hb⟩

theorem isIdentChar_of_host {c : UInt8} (h : isHostIdentChar c = false) :
    isIdentChar c = false := by
  simp only [isHostIdentChar, isTagChar, Bool.or_eq_false_iff] at h
  exact h.1.1

theorem ne_of_isHostIdentChar {c d : UInt8} (hc : isHostIdentChar c = true)
    (hd : isHostIdentChar d = false) : c ≠ d := by
  intro h
  rw [h, hd] at hc
  exact Bool.false_ne_true hc

theorem readAs_word {s r : Bytes} (hne : s ≠ []) (hident : ∀ c ∈ s, isHostIdentChar c = true)
    (hr : ∀ c ∈ r.head?, isHostIdentChar c = false)
    (hread : (∀ c ∈ s, isIdentChar c = true) ∨ ¬ HoldsKeyword s) :
    ReadAs s r (isKeyword s) := by
  have hrest : ∀ c ∈ r.head?, isIdentChar c = false := fun c hc => isIdentChar_of_host (hr c hc)
  rcases hread with hplain | hnone
  · have hseg : Segment .word s r := .word hne hplain hrest
    -- the scanner takes the same word
    simpa [isKeywordSegment] using hseg.readAs
  · have hkeyword : isKeyword s = false := by
      -- the scanner cuts the word at its bytes beyond `isIdentChar`
      rw [Bool.eq_false_iff]
      intro h
      exact hnone ⟨[], s, [], by simp, h, by simp, by simp⟩
    have hbare : Bare s := by
      constructor
      · exact fun h => ne_of_isHostIdentChar (hident _ h) (by decide) rfl
      · exact fun h => ne_of_isHostIdentChar (hident _ h) (by decide) rfl
      · exact fun h => ne_of_isHostIdentChar (hident dash (h.subset (by simp))) (by decide) rfl
      · exact fun h => ne_of_isHostIdentChar (hident slash (h.subset (by simp))) (by decide) rfl
    have hseam : SeamFree s r := by
      intro p hp c hc
      have hp' : isHostIdentChar p = true := hident p (List.mem_of_getLast? hp)
      refine ⟨?_, ?_, ?_⟩
      · simp [hrest c hc]
      · exact fun h => ne_of_isHostIdentChar hp' (by decide) h.1
      · exact fun h => ne_of_isHostIdentChar hp' (by decide) h.1
    rw [hkeyword]
    exact readAs_of_bare hbare hseam hnone

theorem ident_of_numberTail (t : Bytes) : ∀ c ∈ (numberTail t).1, isIdentChar c = true := by
  have hdigits : ∀ u : Bytes, ∀ c ∈ u.takeWhile isDigit, isIdentChar c = true :=
    fun u c hc => ident_of_digit (List.mem_takeWhile_imp hc)
  intro c hc
  unfold numberTail at hc
  split at hc
  · rename_i hend
    exact ident_of_digit (List.dropWhile_eq_nil_iff.mp hend c hc)
  · split_ifs at hc with hexponent
    · -- the digits, the letter of the exponent, and its digits
      rcases List.mem_append.mp hc with hc | hc
      · exact hdigits _ c hc
      · rcases List.mem_cons.mp hc with rfl | hc
        · rcases hexponent.1 with rfl | rfl <;> decide
        · exact hdigits _ c hc
    · exact hdigits _ c hc

/-- To the scanner a number is a word. -/
theorem readAs_number {c : UInt8} {t r : Bytes} (hc : isDigit c = true)
    (hr : ∀ d ∈ r.head?, isIdentChar d = false) : ReadAs (c :: (numberTail t).1) r false := by
  have hident : ∀ d ∈ c :: (numberTail t).1, isIdentChar d = true :=
    List.forall_mem_cons.mpr ⟨ident_of_digit hc, ident_of_numberTail t⟩
  have hseg : Segment .word (c :: (numberTail t).1) r := .word (by simp) hident hr
  simpa [isKeywordSegment, not_isKeyword_of_digit hc] using hseg.readAs

theorem readAs_escape {c : UInt8} {t : Bytes} (hc : c = 0x45 ∨ c = 0x65)
    (h : hasEscapedQuote (escapeTail t).1 = false) :
    ReadAs (c :: apostrophe :: (escapeTail t).1) (escapeTail t).2 false := by
  rw [escapeTail_eq h]
  have hquoted : Segment (.quoted .single) (apostrophe :: (quotedTail apostrophe t).1)
      (quotedTail apostrophe t).2 :=
    (segment_of_nextSegment (q := apostrophe :: t) rfl).1
  have hletter : isIdentChar c = true ∧ isKeyword [c] = false := by
    rcases hc with rfl | rfl <;> decide
  have hword : ∀ r, Segment .word [c] (apostrophe :: r) := by
    intro r
    exact .word (by simp) (by simp [hletter.1]) (by simp; decide)
  -- to the scanner, the letter is a word and the rest a string literal
  have htokens : scannerLexer.tokens (c :: apostrophe :: (quotedTail apostrophe t).1) =
      [(.word, [c]), (.quoted .single, apostrophe :: (quotedTail apostrophe t).1)] := by
    have hfirst : scannerLexer.next (c :: apostrophe :: (quotedTail apostrophe t).1) =
        some (.word, [c], apostrophe :: (quotedTail apostrophe t).1) := (hword _).next
    rw [scannerLexer.tokens_of_next hfirst, hquoted.tokens_eq.1]
  constructor
  · rw [htokens]
    refine .cons ?_ hquoted.tokens_eq.2
    exact (hword _).next
  · simp [hasKeyword, htokens, isKeywordSegment, hletter.2]

theorem dollarTail_cases (close t : Bytes) :
    (dollarTail close t).2 = [] ∨ ∃ u, (dollarTail close t).1 = u ++ close := by
  fun_induction dollarTail close t with
  | case1 => exact Or.inl rfl
  | case2 => exact Or.inr ⟨[], rfl⟩
  | case3 c t _ ih =>
    rcases ih with h | ⟨u, hu⟩
    · exact Or.inl h
    · exact Or.inr ⟨c :: u, by rw [hu]; rfl⟩

theorem readAs_dollar {tag body : Bytes} {s r : Bytes}
    (hs : s = dollar :: (tag ++ [dollar]) ++ (dollarTail (dollar :: (tag ++ [dollar])) body).1)
    (hr : r = (dollarTail (dollar :: (tag ++ [dollar])) body).2)
    (hread : Bare s ∧ ¬ HoldsKeyword s) : ReadAs s r false := by
  refine readAs_of_bare hread.1 ?_ hread.2
  rcases dollarTail_cases (dollar :: (tag ++ [dollar])) body with hend | ⟨u, hu⟩
  · simp [SeamFree, hr, hend]
  · -- the literal ends in the `$` of its closing tag
    have hlast : s.getLast? = some dollar := by
      rw [hs, hu]
      simp [List.getLast?_append, List.getLast?_cons]
    intro p hp c hc
    obtain rfl : dollar = p := by simpa [hlast] using hp
    exact ⟨fun h => by simp [show isIdentChar dollar = false by decide] at h,
      fun h => absurd h.1 (by decide), fun h => absurd h.1 (by decide)⟩

def isHostKeyword (t : HostKind × Bytes) : Bool := decide (t.1 = .word) && isKeyword t.2

/-- **The scanner reads a token of a known form as the host does.** -/
theorem readAs_of_readAlike {nests : Bool} {q s r : Bytes} {k : HostKind}
    (h : hostNext nests q = some (k, s, r)) (hread : ReadAlike nests r (k, s)) :
    ReadAs s r (isHostKeyword (k, s)) := by
  cases q with
  | nil => simp [hostNext] at h
  | cons c t =>
    simp only [hostNext] at h
    split_ifs at h with hline hblock hsingle hdouble hescape hdigit htag hdollar
    · cases h
      -- line comment
      apply readAs_of_nextSegment (k := .lineComment) (q := c :: t)
      rw [nextSegment, if_pos hline]
    · cases h
      -- block comment
      simp only [ReadAlike, List.drop_succ_cons, List.drop_zero] at hread
      rw [hostBlockTail_eq hread]
      apply readAs_of_nextSegment (k := .blockComment) (q := c :: t)
      rw [nextSegment, if_neg hline, if_pos hblock]
    · cases h
      -- string literal
      apply readAs_of_nextSegment (k := .quoted .single) (q := c :: t)
      rw [nextSegment, if_neg hline, if_neg hblock, if_pos hsingle]
    · cases h
      -- quoted identifier
      apply readAs_of_nextSegment (k := .quoted .double) (q := c :: t)
      rw [nextSegment, if_neg hline, if_neg hblock, if_neg hsingle, if_pos hdouble]
    · cases h
      -- `E'...'` literal
      exact readAs_escape hescape.1 hread
    · cases h
      -- number
      exact readAs_number hdigit hread
    · cases h
      -- word
      refine readAs_word ?_ (fun c hc => List.mem_takeWhile_imp hc) head?_dropWhile hread
      simp [isHostIdentChar, htag]
    -- a dollar: of a dollar quote, or on its own
    · have hident : isIdentChar c = false := by rw [hdollar]; decide
      cases htag : dollarTag t with
      | none =>
        simp only [htag] at h
        cases h
        apply readAs_of_nextSegment (k := .other) (q := c :: r)
        rw [nextSegment, if_neg hline, if_neg hblock, if_neg hsingle, if_neg hdouble,
          if_neg (by simp [hident])]
      | some tag =>
        simp only [htag] at h
        cases h
        exact readAs_dollar rfl rfl hread
    · cases h
      -- any other byte
      apply readAs_of_nextSegment (k := .other) (q := c :: r)
      rw [nextSegment, if_neg hline, if_neg hblock, if_neg hsingle, if_neg hdouble, if_neg]
      intro hident
      exact htag (by simp [isTagChar, hident])

/-! ## §5 Routing -/

/-- The scanner reads the token as the host does. -/
def ReadInStep (k : HostKind) (s r : Bytes) : Prop := ReadAs s r (isHostKeyword (k, s))

/-- Behind the tokens `ts`, which the scanner reads as the host does, it misreads the token `s`. -/
structure Astray (nests : Bool) (ts : List (HostKind × Bytes)) (k : HostKind) (s r : Bytes) :
    Prop where
  inStep : (hostLexer nests).LexesAll ReadInStep ts (s ++ r)
  next : hostNext nests (s ++ r) = some (k, s, r)
  misread : ¬ ReadInStep k s r

/-- **A misread token has a form that the scanner does not know.** -/
theorem Astray.form {nests : Bool} {ts : List (HostKind × Bytes)} {k : HostKind} {s r : Bytes}
    (h : Astray nests ts k s r) : ¬ ReadAlike nests r (k, s) :=
  fun hread => h.misread (readAs_of_readAlike h.next hread)

/-- A keyword stands, whole, behind complete segments of the scanner. -/
def Exposes (q : Bytes) : Prop :=
  ∃ a w b, q = a ++ w ++ b ∧ isKeyword w = true ∧ (∀ c ∈ b.head?, isIdentChar c = false) ∧
    Segments a (w ++ b) ∧ ∀ c ∈ a.getLast?, isIdentChar c = false

/-- If the scanner goes astray, then behind a keyword, or where it exposes a keyword in the rest
if and only if the host has one there. -/
def RoutedRight (nests : Bool) (q : Bytes) : Prop :=
  ∀ ts k s r, q = Lexer.text ts ++ (s ++ r) → Astray nests ts k s r →
    (∃ t ∈ ts, isHostKeyword t = true) ∨ (Exposes (s ++ r) ↔ hasHostKeyword nests (s ++ r) = true)

section Prefixes

variable {nests : Bool} {ts : List (HostKind × Bytes)} {r : Bytes}

theorem reported_of_inStep (h : (hostLexer nests).LexesAll ReadInStep ts r) :
    (ts.any fun t => hasKeyword t.2) = ts.any isHostKeyword := by
  induction h with
  | nil => rfl
  | cons hnext hread _ ih => rw [List.any_cons, List.any_cons, hread.reported, ih]

/-- In tokens that are in step, the scanner reports the keywords of the host. -/
theorem hasKeyword_behind (h : (hostLexer nests).LexesAll ReadInStep ts r) :
    hasKeyword (Lexer.text ts ++ r) = (ts.any isHostKeyword || hasKeyword r) := by
  obtain ⟨htext, hlexes⟩ := h.split (L := scannerLexer) fun k s r hread => hread.lexes
  rw [← htext, hasKeyword, Lexer.tokens_append hlexes, List.any_append, List.any_flatMap,
    ← reported_of_inStep h]
  rfl

theorem hasHostKeyword_behind (h : (hostLexer nests).LexesAll ReadInStep ts r) :
    hasHostKeyword nests (Lexer.text ts ++ r) =
      (ts.any isHostKeyword || hasHostKeyword nests r) := by
  rw [hasHostKeyword, Lexer.tokens_append h.lexes, List.any_append]
  rfl

end Prefixes

/-- A text that is routed wrongly has a token of a form that the scanner does not know, and no
keyword in front of it. -/
theorem form_of_misrouted {nests : Bool} {q : Bytes} (h : ¬ RoutedRight nests q) :
    ∃ ts k s r, q = Lexer.text ts ++ (s ++ r) ∧ (hostLexer nests).Lexes ts (s ++ r) ∧
      hostNext nests (s ++ r) = some (k, s, r) ∧ (∀ t ∈ ts, isHostKeyword t = false) ∧
      ¬ ReadAlike nests r (k, s) := by
  unfold RoutedRight at h
  push Not at h
  obtain ⟨ts, k, s, r, hq, hastray, hfront, -⟩ := h
  exact ⟨ts, k, s, r, hq, hastray.inStep.lexes, hastray.next,
    fun t ht => Bool.eq_false_iff.mpr (hfront t ht), hastray.form⟩

end GgsqlDuckdb
