import GgsqlDuckdb.Parser.Terminator

/-!
# Composing scans

The scan of a text that is cut between two segments is the scan of its parts.  Behind a text
that ends outside every literal, quoted identifier and comment, whitespace or a `;` always
makes such a cut; a comment may be put into any of them, and what stands inside a literal, a
quoted identifier or a comment is of no account.

## Main results

- `hasKeyword_seam`: the scan of two parts.
- `noStraddle_idle`: where a complete text may be continued.
- `hasKeyword_statements`: statements separated by `;`.
- `hasKeyword_insert`: a comment between two segments.
- `scan_composes`: all of it, for the scanner.
-/

namespace GgsqlDuckdb

open Library

/-! ## §1 Seams -/

/-- The lexing of `q` ends outside every literal, quoted identifier and comment. -/
structure Complete (q : Bytes) : Prop where
  closed : LexicallyComplete q
  lineComment : ∀ x ∈ (scannerLexer.tokens q).getLast?, x.1 ≠ .lineComment

/-- No segment of `a ++ b` has a part in both. -/
def NoStraddle (a b : Bytes) : Prop :=
  ∃ ts us, scannerLexer.tokens (a ++ b) = ts ++ us ∧ Lexer.text ts = a

theorem noStraddle_iff {a b : Bytes} :
    NoStraddle a b ↔ ∃ ts, Lexer.text ts = a ∧ scannerLexer.Lexes ts b := by
  constructor
  · rintro ⟨ts, us, htokens, rfl⟩
    have hlexes := Lexer.lexes_of_tokens_eq htokens
    have htext := congrArg Lexer.text htokens
    rw [Lexer.text_tokens, Lexer.text_append] at htext
    rw [← List.append_cancel_left htext] at hlexes
    exact ⟨ts, rfl, hlexes⟩
  · rintro ⟨ts, rfl, hlexes⟩
    exact ⟨ts, _, Lexer.tokens_append hlexes, rfl⟩

theorem lexes_alone {ts : List (SegmentKind × Bytes)} {r : Bytes}
    (h : scannerLexer.Lexes ts r) : scannerLexer.Lexes ts [] := by
  induction h with
  | nil r => exact .nil []
  | @cons k s ts r hnext hrest ih =>
    apply Lexer.Lexes.cons _ ih
    have hseg : Segment k s (Lexer.text ts ++ r) := segment_iff_next.mpr hnext
    apply Segment.next
    by_cases hts : Lexer.text ts = []
    · rw [hts]
      exact hseg.alone
    -- the segment sees the one behind it, which is the same
    · apply hseg.of_head (List.append_ne_nil_of_left_ne_nil hts r)
      rw [List.append_nil, List.head?_append_of_ne_nil _ hts]

theorem tokens_text {ts : List (SegmentKind × Bytes)} {r : Bytes}
    (h : scannerLexer.Lexes ts r) : scannerLexer.tokens (Lexer.text ts) = ts := by
  have htokens := Lexer.tokens_append (lexes_alone h)
  rwa [List.append_nil, Lexer.tokens_nil, List.append_nil] at htokens

theorem hasKeyword_lexes {ts : List (SegmentKind × Bytes)} {r : Bytes}
    (h : scannerLexer.Lexes ts r) :
    hasKeyword (Lexer.text ts ++ r) = (ts.any isKeywordSegment || hasKeyword r) := by
  unfold hasKeyword
  rw [Lexer.tokens_append h, List.any_append]

/-- **The scan of two parts.** -/
theorem hasKeyword_seam {a b : Bytes} (h : NoStraddle a b) :
    hasKeyword (a ++ b) = (hasKeyword a || hasKeyword b) := by
  obtain ⟨ts, rfl, hlexes⟩ := noStraddle_iff.mp h
  rw [hasKeyword_lexes hlexes]
  congr 1
  unfold hasKeyword
  rw [tokens_text hlexes]

/-! ## §2 Behind a complete text -/

theorem quotedContent_cons {quote c : UInt8} {t : Bytes} (h : QuotedContent quote (c :: t)) :
    (c ≠ quote ∧ QuotedContent quote t) ∨
      (c = quote ∧ ∃ rest, t = quote :: rest ∧ QuotedContent quote rest) := by
  cases h with
  | plain hc hs => exact Or.inl ⟨hc, hs⟩
  | doubled hs => exact Or.inr ⟨rfl, _, rfl, hs⟩

/-- One quote more is no content. -/
theorem QuotedContent.not_concat {quote : UInt8} {s : Bytes} (h : QuotedContent quote s) :
    ¬ QuotedContent quote (s ++ [quote]) := by
  induction h with
  | nil =>
    intro h
    rcases quotedContent_cons h with ⟨hc, -⟩ | ⟨-, rest, hrest, -⟩
    · exact hc rfl
    · cases hrest
  | plain hc _ ih =>
    intro h
    rcases quotedContent_cons h with ⟨-, hs⟩ | ⟨heq, -⟩
    · exact ih hs
    · exact hc heq
  | doubled _ ih =>
    intro h
    rcases quotedContent_cons h with ⟨hc, -⟩ | ⟨-, rest, hrest, hs⟩
    · exact hc rfl
    · obtain rfl := (List.cons.inj hrest).2
      exact ih hs

/-- A closed form, a word or a byte of its own ends in front of whitespace and of `;`. -/
theorem Segment.before_idle {k : SegmentKind} {s r : Bytes} (h : Segment k s [])
    (hclosed : Closed (k, s)) (hline : k ≠ .lineComment) (hr : ∀ c ∈ r.head?, Idle c) :
    Segment k s r := by
  cases h with
  | lineComment => exact absurd rfl hline
  | blockClosed hs => exact .blockClosed hs
  | @blockOpen s hs =>
    obtain ⟨body, hbody⟩ := hclosed
    obtain rfl : s = body ++ [star, slash] := by simpa using hbody
    exact absurd (List.suffix_append body [star, slash]).isInfix hs
  | quotedClosed quote hs =>
    apply Segment.quotedClosed quote hs
    intro hquote
    exact (hr _ hquote).quote quote rfl
  | @quotedOpen quote s hs =>
    obtain ⟨body, hcontent, hbody⟩ := hclosed
    obtain rfl : s = body ++ [quote.byte] := by simpa using hbody
    exact absurd hs hcontent.not_concat
  | word hne hs => exact .word hne hs fun c hc => (hr c hc).ident
  | other hident hsingle hdouble =>
    apply Segment.other hident hsingle hdouble
    · rintro ⟨-, hdash⟩
      exact (hr _ hdash).dash rfl
    · rintro ⟨-, hstar⟩
      exact (hr _ hstar).star rfl

/-- **Where a complete text may be continued**: in front of whitespace, a newline or a `;`. -/
theorem noStraddle_idle {a b : Bytes} (ha : Complete a) (hb : ∀ c ∈ b.head?, Idle c) :
    NoStraddle a b := by
  by_cases hne : a = []
  · subst hne
    exact ⟨[], _, rfl, rfl⟩
  obtain ⟨ts, k, s, htokens, hlast, hmore⟩ :=
    scannerLexer.tokens_append_last (x := b) (fun _ _ _ hr h => next_of_more b hr h) hne
  have hseg : Segment k s [] := segment_iff_next.mpr (by rw [List.append_nil]; exact hlast)
  have hclosed : Closed (k, s) := ha.closed _ (by rw [htokens]; simp)
  have hline : k ≠ .lineComment := ha.lineComment (k, s) (by rw [htokens]; simp)
  have hnext : scannerLexer.next (s ++ b) = some (k, s, b) :=
    (hseg.before_idle hclosed hline hb).next
  refine ⟨ts ++ [(k, s)], scannerLexer.tokens b, ?_, ?_⟩
  · rw [hmore, scannerLexer.tokens_of_next hnext, List.append_assoc]
    rfl
  · rw [← htokens, Lexer.text_tokens]

/-! ## §3 Statements -/

/-- A segment in front of a text is reported if it is a keyword, and the scan goes on behind
it. -/
theorem hasKeyword_segment {k : SegmentKind} {s r : Bytes} (h : Segment k s r) :
    hasKeyword (s ++ r) = (isKeywordSegment (k, s) || hasKeyword r) := by
  unfold hasKeyword
  rw [scannerLexer.tokens_of_next h.next, List.any_cons]

theorem hasKeyword_terminator (r : Bytes) : hasKeyword (semicolon :: r) = hasKeyword r := by
  have h := hasKeyword_segment (idle_of_terminator.segment r)
  simpa [isKeywordSegment] using h

/-- **Statements separated by `;`**: one of them holds a keyword. -/
theorem hasKeyword_statements (ss : List Bytes) (h : ∀ s ∈ ss.dropLast, Complete s) :
    hasKeyword (List.intercalate [semicolon] ss) = ss.any hasKeyword := by
  induction ss with
  | nil => rfl
  | cons s ss ih =>
    cases ss with
    | nil => simp [List.intercalate]
    | cons t ss =>
      have hs : Complete s := h s (by simp)
      have hrest := ih fun u hu => h u (by simp [hu])
      have hjoin : List.intercalate [semicolon] (s :: t :: ss) =
          s ++ semicolon :: List.intercalate [semicolon] (t :: ss) := by
        simp [List.intercalate, List.intersperse]
      have hseam : NoStraddle s (semicolon :: List.intercalate [semicolon] (t :: ss)) := by
        apply noStraddle_idle hs
        intro c hc
        obtain rfl := Option.some.inj hc
        exact idle_of_terminator
      rw [hjoin, hasKeyword_seam hseam, hasKeyword_terminator, hrest]
      exact List.any_cons.symm

/-! ## §4 Comments -/

/-- A comment with its end: `*/`, or the newline behind a line comment. -/
inductive CompleteComment : Bytes → Prop where
  | line {s : Bytes} (hs : newline ∉ s) : CompleteComment (dash :: dash :: (s ++ [newline]))
  | block {s : Bytes} (hs : ¬ [star, slash] <:+: s) :
      CompleteComment (slash :: star :: (s ++ [star, slash]))

/-- A complete comment is skipped in front of any text. -/
theorem hasKeyword_comment {comment : Bytes} (h : CompleteComment comment) (r : Bytes) :
    hasKeyword (comment ++ r) = hasKeyword r := by
  cases h with
  | @line s hs =>
    have hcomment : Segment .lineComment (dash :: dash :: s) (newline :: r) :=
      .lineComment hs (Or.inr rfl)
    have hnewline := hasKeyword_segment ((idle_of_isIdle (c := newline) rfl).segment r)
    have hskip := hasKeyword_segment hcomment
    simp only [isKeywordSegment, reduceCtorEq, decide_false, Bool.false_and,
      Bool.false_or] at hskip hnewline
    rw [List.cons_append, List.nil_append] at hnewline
    rw [hnewline] at hskip
    simpa using hskip
  | @block s hs =>
    have hskip := hasKeyword_segment (Segment.blockClosed (r := r) hs)
    simpa [isKeywordSegment] using hskip

/-- What a comment does to the segment it is put behind: nothing, or the segment is a dash
that a line comment takes in. -/
theorem Segment.before_comment {k : SegmentKind} {s r comment : Bytes} (h : Segment k s r)
    (hr : r ≠ []) (hline : k ≠ .lineComment) (hcomment : CompleteComment comment) (b : Bytes) :
    Segment k s (comment ++ b) ∨ (k = .other ∧ CompleteComment (s ++ comment)) := by
  obtain ⟨c, d, rest, hhead, hopen⟩ : ∃ c d rest, comment ++ b = c :: d :: rest ∧
      ((c = dash ∧ d = dash) ∨ (c = slash ∧ d = star)) := by
    cases hcomment with
    | line => exact ⟨_, _, _, rfl, Or.inl ⟨rfl, rfl⟩⟩
    | block => exact ⟨_, _, _, rfl, Or.inr ⟨rfl, rfl⟩⟩
  have hc : c = dash ∨ c = slash := hopen.imp And.left And.left
  rw [hhead]
  cases h with
  | lineComment => exact absurd rfl hline
  | blockClosed hs => exact Or.inl (.blockClosed hs)
  | blockOpen => exact absurd rfl hr
  | quotedOpen => exact absurd rfl hr
  | quotedClosed quote hs =>
    refine Or.inl (.quotedClosed quote hs ?_)
    rintro ⟨⟩
    cases quote <;> rcases hc with hc | hc <;> cases hc
  | word hne hs =>
    refine Or.inl (.word hne hs ?_)
    rintro _ ⟨⟩
    rcases hc with rfl | rfl <;> rfl
  | @other e r hident hsingle hdouble =>
    by_cases hdash : e = dash ∧ c = dash
    · obtain ⟨rfl, rfl⟩ := hdash
      right
      cases hcomment with
      -- the dash and the line comment are one line comment
      | @line s hs =>
        refine ⟨rfl, ?_⟩
        have hnot : newline ∉ dash :: s := by
          rw [List.mem_cons, not_or]
          exact ⟨by decide, hs⟩
        exact CompleteComment.line hnot
      | block =>
        have hfirst : slash = dash := (List.cons.inj hhead).1
        cases hfirst
    · refine Or.inl (.other hident hsingle hdouble ?_ ?_)
      · rintro ⟨rfl, ⟨⟩⟩
        exact hdash ⟨rfl, rfl⟩
      · rintro ⟨-, ⟨⟩⟩
        rcases hc with hc | hc <;> cases hc

theorem CompleteComment.ne_nil {comment : Bytes} (h : CompleteComment comment) :
    comment ≠ [] := by
  cases h <;> exact List.cons_ne_nil _ _

/-- **A comment between two segments** of which the first is not a line comment. -/
theorem hasKeyword_insert {ts us : List (SegmentKind × Bytes)} {k : SegmentKind} {s : Bytes}
    (h : scannerLexer.Lexes (ts ++ [(k, s)]) (Lexer.text us)) (hus : Lexer.text us ≠ [])
    (hline : k ≠ .lineComment) {comment : Bytes} (hcomment : CompleteComment comment) :
    hasKeyword (Lexer.text (ts ++ [(k, s)]) ++ (comment ++ Lexer.text us)) =
      hasKeyword (Lexer.text (ts ++ [(k, s)]) ++ Lexer.text us) := by
  obtain ⟨hts, hlast⟩ := h.split
  rw [Lexer.text_cons, Lexer.text_nil, List.append_nil] at hts
  have hseg : Segment k s (Lexer.text us) := by
    cases hlast with
    | cons hnext _ =>
      have hnext : scannerLexer.next (s ++ Lexer.text us) = some (k, s, Lexer.text us) := by
        simpa using hnext
      exact segment_iff_next.mpr hnext
  have hne : s ++ Lexer.text us ≠ [] := List.append_ne_nil_of_right_ne_nil s hus
  have hhead : (s ++ (comment ++ Lexer.text us)).head? = (s ++ Lexer.text us).head? := by
    rw [List.head?_append_of_ne_nil _ hseg.ne_nil, List.head?_append_of_ne_nil _ hseg.ne_nil]
  have htext : Lexer.text (ts ++ [(k, s)]) = Lexer.text ts ++ s := by simp
  rw [htext, List.append_assoc, List.append_assoc, hasKeyword_lexes hts,
    hasKeyword_lexes (lexes_of_head hts hne hhead), hasKeyword_segment hseg]
  congr 1
  rcases hseg.before_comment hus hline hcomment (Lexer.text us) with hown | ⟨rfl, hjoined⟩
  · rw [hasKeyword_segment hown, hasKeyword_comment hcomment]
  -- the dash goes into the comment, and was no keyword
  · rw [← List.append_assoc, hasKeyword_comment hjoined]
    simp [isKeywordSegment]

/-! ## §5 Contents -/

/-- The forms that enclose a content. -/
def SegmentKind.hasContent : SegmentKind → Bool
  | .lineComment | .blockComment | .quoted _ => true
  | _ => false

/-- Two forms of one kind start alike. -/
theorem Segment.head_eq {k : SegmentKind} {s s' r r' : Bytes} (hk : k.hasContent = true)
    (h : Segment k s r) (h' : Segment k s' r') : s.head? = s'.head? := by
  cases h <;> cases h' <;> first | rfl | cases hk

/-- **Another content**: a comment, literal or quoted identifier in place of another. -/
theorem hasKeyword_replace {a s s' b : Bytes} {k : SegmentKind} (hk : k.hasContent = true)
    (ha : NoStraddle a (s ++ b)) (h : Segment k s b) (h' : Segment k s' b) :
    hasKeyword (a ++ (s' ++ b)) = hasKeyword (a ++ (s ++ b)) := by
  obtain ⟨ts, rfl, hlexes⟩ := noStraddle_iff.mp ha
  have hhead : (s' ++ b).head? = (s ++ b).head? := by
    rw [List.head?_append_of_ne_nil _ h.ne_nil, List.head?_append_of_ne_nil _ h'.ne_nil]
    exact h'.head_eq hk h
  have hne : s ++ b ≠ [] := List.append_ne_nil_of_left_ne_nil h.ne_nil b
  have hskip : ∀ t, isKeywordSegment (k, t) = false := by
    intro t
    cases k <;> first | rfl | cases hk
  rw [hasKeyword_lexes hlexes, hasKeyword_lexes (lexes_of_head hlexes hne hhead),
    hasKeyword_segment h, hasKeyword_segment h', hskip, hskip]

/-- What a form may enclose without being closed early: a line comment no newline, a block
comment no `*/`, and quotes no quote that is not doubled. -/
def Content : SegmentKind → Bytes → Prop
  | .lineComment, body => newline ∉ body
  | .blockComment, body => ¬ [star, slash] <:+: body
  | .quoted quote, body => QuotedContent quote.byte body
  | _, _ => False

/-- The form of a kind around a content. -/
def SegmentKind.enclose : SegmentKind → Bytes → Bytes
  | .lineComment, body => dash :: dash :: body
  | .blockComment, body => slash :: star :: (body ++ [star, slash])
  | .quoted quote, body => quote.byte :: (body ++ [quote.byte])
  | _, body => body

theorem Segment.enclose {k : SegmentKind} {s b body : Bytes} (h : Segment k s b)
    (hbody : Content k body) : Segment k (k.enclose body) b := by
  cases h with
  | lineComment _ hr => exact .lineComment hbody hr
  | blockClosed => exact .blockClosed hbody
  | blockOpen => exact .blockClosed hbody
  | quotedClosed quote _ hr => exact .quotedClosed quote hbody hr
  | quotedOpen quote => exact .quotedClosed quote hbody nofun
  | word => cases hbody
  | other => cases hbody

theorem hasContent_of_content {k : SegmentKind} {body : Bytes} (h : Content k body) :
    k.hasContent = true := by
  cases k <;> first | rfl | cases h

/-! ## §6 The scanner -/

/-- **Scanning composes.**  Where no segment straddles the seam, the scan of a text is that of
its two parts; behind a complete text this is so in front of whitespace, a newline or a `;`.
Hence of statements separated by `;` one is claimed if and only if the whole text is; a
complete comment may stand between any two segments of which the first is not a line comment;
and a comment, literal or quoted identifier may enclose any content that does not close it
early, or be replaced by any other segment of its kind. -/
theorem scan_composes :
    (∀ a b, NoStraddle a b → ∃ x y, containsVisualiseKeyword a = some x ∧
      containsVisualiseKeyword b = some y ∧ containsVisualiseKeyword (a ++ b) = some (x || y)) ∧
    (∀ a b, Complete a → (∀ c, b.head? = some c → isspace c = true ∨ c = semicolon) →
      NoStraddle a b) ∧
    (∀ ss : List Bytes, (∀ s ∈ ss.dropLast, Complete s) →
      (containsVisualiseKeyword (List.intercalate [semicolon] ss) = some true ↔
        ∃ s ∈ ss, containsVisualiseKeyword s = some true)) ∧
    (∀ q ts k s us comment, scannerLexer.tokens q = ts ++ (k, s) :: us → us ≠ [] →
      k ≠ .lineComment → CompleteComment comment →
      containsVisualiseKeyword (Lexer.text (ts ++ [(k, s)]) ++ (comment ++ Lexer.text us)) =
        containsVisualiseKeyword q) ∧
    (∀ a k s b body, NoStraddle a (s ++ b) → Segment k s b → Content k body →
      containsVisualiseKeyword (a ++ (k.enclose body ++ b)) =
        containsVisualiseKeyword (a ++ (s ++ b))) ∧
    (∀ a k s s' b, k.hasContent = true → NoStraddle a (s ++ b) → Segment k s b →
      Segment k s' b →
      containsVisualiseKeyword (a ++ (s' ++ b)) = containsVisualiseKeyword (a ++ (s ++ b))) := by
  simp only [containsVisualiseKeyword_eq, Option.some.injEq]
  refine ⟨?_, ?_, ?_, ?_, ?_, ?_⟩
  · intro a b hseam
    exact ⟨_, _, rfl, rfl, hasKeyword_seam hseam⟩
  · intro a b ha hb
    apply noStraddle_idle ha
    intro c hc
    apply idle_of_isIdle
    rcases hb c hc with hspace | rfl
    · simp [isIdle, hspace]
    · rfl
  · intro ss hss
    rw [hasKeyword_statements ss hss, List.any_eq_true]
  · intro q ts k s us comment htokens hus hline hcomment
    have hq : q = Lexer.text (ts ++ [(k, s)]) ++ Lexer.text us := by
      rw [← Lexer.text_append, ← scannerLexer.text_tokens q, htokens]
      simp
    have hlexes : scannerLexer.Lexes (ts ++ [(k, s)]) (Lexer.text us) := by
      apply Lexer.lexes_of_tokens_eq (q := q)
      rw [htokens, List.append_assoc]
      rfl
    have hne : Lexer.text us ≠ [] := by
      intro hnil
      have htail := Lexer.tokens_append hlexes
      rw [← hq, htokens, hnil, Lexer.tokens_nil, List.append_nil] at htail
      exact hus (by simpa using htail)
    rw [hasKeyword_insert hlexes hne hline hcomment, ← hq]
  · intro a k s b body ha h hbody
    exact hasKeyword_replace (hasContent_of_content hbody) ha h (h.enclose hbody)
  · intro a k s s' b hk ha h h'
    exact hasKeyword_replace hk ha h h'

end GgsqlDuckdb
