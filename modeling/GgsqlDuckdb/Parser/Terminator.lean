import GgsqlDuckdb.Parser.HostLexer

/-!
# The statement terminator

`ParseFunction` takes whitespace and one `;` off the end of the text it claims, byte by byte and
without regard to the lexing.  A byte of these can be cut off without a change to any segment in
front of it: it is a segment of its own, or it lies in a trailing comment or in a form that the
end of the text cuts off.

## Main results

- `tokens_concat`: one whitespace or `;` more at the end of a text.
- `stripTerminator_loses_nothing`: what the stripping keeps.
- `terminator_stripped_iff`: when the terminator is gone.
-/

namespace GgsqlDuckdb

open Library

/-! ## §1 Idle bytes -/

/-- A byte that the stripping may take off. -/
def isIdle (c : UInt8) : Bool := isspace c || c == semicolon

theorem isspace_cases {c : UInt8} (h : isspace c = true) :
    c = 0x20 ∨ c = 0x09 ∨ c = 0x0a ∨ c = 0x0b ∨ c = 0x0c ∨ c = 0x0d := by
  simp only [isspace, Bool.or_eq_true, beq_iff_eq, Bool.and_eq_true, decide_eq_true_eq] at h
  rcases h with hblank | ⟨hlow, hhigh⟩
  · exact Or.inl hblank
  · rw [UInt8.le_iff_toNat_le] at hlow hhigh
    have hlow : 9 ≤ c.toNat := hlow
    have hhigh : c.toNat ≤ 13 := hhigh
    have hn : c.toNat = 9 ∨ c.toNat = 10 ∨ c.toNat = 11 ∨ c.toNat = 12 ∨ c.toNat = 13 := by omega
    simp only [← UInt8.toNat_inj]
    exact Or.inr hn

/-- An idle byte is no part of a word, and opens and closes nothing. -/
structure Idle (c : UInt8) : Prop where
  ident : isIdentChar c = false
  quote : ∀ quote : Quote, c ≠ quote.byte
  dash : c ≠ dash
  slash : c ≠ slash
  star : c ≠ star

theorem idle_of_isIdle {c : UInt8} (h : isIdle c = true) : Idle c := by
  have hcases : c = 0x20 ∨ c = 0x09 ∨ c = 0x0a ∨ c = 0x0b ∨ c = 0x0c ∨ c = 0x0d ∨
      c = semicolon := by
    rcases Bool.or_eq_true _ _ |>.mp h with hspace | hsemicolon
    · rcases isspace_cases hspace with h | h | h | h | h | h <;> simp [h]
    · simp [beq_iff_eq.mp hsemicolon]
  rcases hcases with rfl | rfl | rfl | rfl | rfl | rfl | rfl <;>
    exact ⟨by decide, by rintro (_ | _) <;> decide, by decide, by decide, by decide⟩

theorem Idle.segment {c : UInt8} (hc : Idle c) (r : Bytes) : Segment .other [c] r :=
  .other hc.ident (hc.quote .single) (hc.quote .double) (fun h => hc.dash h.1) fun h => hc.slash h.1

/-- The form of the segment is complete: a literal, quoted identifier or block comment is not cut
off by the end of the text. -/
def Closed : SegmentKind × Bytes → Prop
  | (.blockComment, s) => ∃ body, s = slash :: star :: (body ++ [star, slash])
  | (.quoted quote, s) =>
    ∃ body, QuotedContent quote.byte body ∧ s = quote.byte :: (body ++ [quote.byte])
  | _ => True

/-- `q` leaves no literal, quoted identifier or block comment open. -/
def LexicallyComplete (q : Bytes) : Prop := ∀ x ∈ scannerLexer.tokens q, Closed x

/-! ## §2 One byte more -/

/-- The bytes behind a segment matter to it by the first of them only. -/
theorem Segment.of_head {k : SegmentKind} {s r r' : Bytes} (h : Segment k s r) (hr : r ≠ [])
    (hhead : r'.head? = r.head?) : Segment k s r' := by
  cases h with
  | lineComment hs hend => exact .lineComment hs (Or.inr (hhead ▸ hend.resolve_left hr))
  | blockClosed hs => exact .blockClosed hs
  | blockOpen => exact absurd rfl hr
  | quotedClosed quote hs hend => exact .quotedClosed quote hs (hhead ▸ hend)
  | quotedOpen => exact absurd rfl hr
  | word hne hs hend => exact .word hne hs (hhead ▸ hend)
  | other hident hsingle hdouble hline hblock =>
    exact .other hident hsingle hdouble (hhead ▸ hline) (hhead ▸ hblock)

theorem next_of_more {k : SegmentKind} {s r : Bytes} (x : Bytes) (hr : r ≠ [])
    (h : scannerLexer.next (s ++ r) = some (k, s, r)) :
    scannerLexer.next (s ++ (r ++ x)) = some (k, s, r ++ x) := by
  have hseg : Segment k s r := segment_iff_next.mpr h
  apply Segment.next
  apply hseg.of_head hr
  rw [List.head?_append_of_ne_nil _ hr]

theorem not_infix_concat {s : Bytes} {c : UInt8} (hs : ¬ [star, slash] <:+: s) (hc : c ≠ slash) :
    ¬ [star, slash] <:+: s ++ [c] := by
  rintro ⟨a, b, h⟩
  induction b using List.reverseRecOn with
  | nil =>
    -- the last byte would be the slash
    have hlast := congrArg List.getLast? h
    simp [List.getLast?_append] at hlast
    exact hc hlast.symm
  | append_singleton b d =>
    rw [← List.append_assoc] at h
    exact hs ⟨a, b, (List.append_inj' h rfl).1⟩

theorem QuotedContent.concat {quote c : UInt8} {s : Bytes} (hs : QuotedContent quote s)
    (hc : c ≠ quote) : QuotedContent quote (s ++ [c]) := by
  induction hs with
  | nil => exact .plain hc .nil
  | plain hd _ ih => exact .plain hd ih
  | doubled _ ih => exact .doubled ih

theorem next_alone {k : SegmentKind} {s : Bytes} (h : Segment k s []) :
    scannerLexer.next s = some (k, s, []) := by
  have hnext := h.next
  rwa [List.append_nil] at hnext

/-- A byte behind the last segment of a text is a segment of its own, or joins a comment or a form
that is not complete. -/
theorem tokens_last {k : SegmentKind} {s : Bytes} {c : UInt8} (h : Segment k s []) (hc : Idle c) :
    scannerLexer.tokens (s ++ [c]) = [(k, s), (.other, [c])] ∨
      scannerLexer.tokens (s ++ [c]) = [(k, s ++ [c])] ∧
        (k = .lineComment ∨ ¬ Closed (k, s ++ [c])) := by
  have hbehind : Segment k s [c] → scannerLexer.tokens (s ++ [c]) = [(k, s), (.other, [c])] := by
    intro hseg
    rw [scannerLexer.tokens_of_next hseg.next,
      scannerLexer.tokens_of_next (next_alone (hc.segment [])), scannerLexer.tokens_nil]
  have hjoin : Segment k (s ++ [c]) [] → scannerLexer.tokens (s ++ [c]) = [(k, s ++ [c])] := by
    intro hseg
    rw [scannerLexer.tokens_of_next (next_alone hseg), scannerLexer.tokens_nil]
  -- a form that is cut off stays so
  have hopen : ∀ (front tail : Bytes) (d : UInt8), c ≠ d → front ++ [c] ≠ tail ++ [d] := by
    intro front tail d hne heq
    exact hne (List.singleton_inj.mp (List.append_inj' heq rfl).2)
  cases h with
  | @lineComment s _ hs _ =>
    by_cases hnewline : c = newline
    · exact Or.inl (hbehind (.lineComment hs (Or.inr (by simp [hnewline]))))
    · refine Or.inr ⟨hjoin ?_, Or.inl rfl⟩
      apply Segment.lineComment (s := s ++ [c])
      · simpa [hs] using fun h => hnewline h.symm
      · exact Or.inl rfl
  | blockClosed hs => exact Or.inl (hbehind (.blockClosed hs))
  | @blockOpen s hs =>
    refine Or.inr ⟨hjoin (.blockOpen (not_infix_concat hs hc.slash)), Or.inr ?_⟩
    rintro ⟨body, hbody⟩
    apply hopen (slash :: star :: s) (slash :: star :: (body ++ [star])) slash hc.slash
    simpa using hbody
  | quotedClosed quote hs =>
    refine Or.inl (hbehind (.quotedClosed quote hs ?_))
    simpa using hc.quote quote
  | @quotedOpen quote s hs =>
    refine Or.inr ⟨hjoin (.quotedOpen quote (hs.concat (hc.quote quote))), Or.inr ?_⟩
    rintro ⟨body, -, hbody⟩
    apply hopen (quote.byte :: s) (quote.byte :: body) quote.byte (hc.quote quote)
    simpa using hbody
  | word hne hs => exact Or.inl (hbehind (.word hne hs (by simp [hc.ident])))
  | other hident hsingle hdouble =>
    refine Or.inl (hbehind (.other hident hsingle hdouble ?_ ?_))
    · rintro ⟨-, hdash⟩
      exact hc.dash (Option.some.inj hdash)
    · rintro ⟨-, hstar⟩
      exact hc.star (Option.some.inj hstar)

/-- **One idle byte more at the end of a text.** -/
theorem tokens_concat (q : Bytes) {c : UInt8} (hc : Idle c) :
    scannerLexer.tokens (q ++ [c]) = scannerLexer.tokens q ++ [(.other, [c])] ∨
      ∃ ts k s, scannerLexer.tokens q = ts ++ [(k, s)] ∧
        scannerLexer.tokens (q ++ [c]) = ts ++ [(k, s ++ [c])] ∧
        (k = .lineComment ∨ ¬ Closed (k, s ++ [c])) := by
  by_cases hq : q = []
  · subst hq
    left
    rw [List.nil_append, scannerLexer.tokens_of_next (next_alone (hc.segment [])),
      scannerLexer.tokens_nil, List.nil_append]
  · obtain ⟨ts, k, s, htokens, hlast, hmore⟩ :=
      scannerLexer.tokens_append_last (x := [c]) (fun _ _ _ hr h => next_of_more [c] hr h) hq
    have hseg : Segment k s [] := segment_iff_next.mpr (by rw [List.append_nil]; exact hlast)
    rcases tokens_last hseg hc with hown | ⟨hjoined, hkind⟩
    · left
      rw [hmore, htokens, hown, List.append_assoc]
      rfl
    · right
      exact ⟨ts, k, s, htokens, by rw [hmore, hjoined], hkind⟩

/-! ## §3 What the stripping keeps -/

def isComment (x : SegmentKind × Bytes) : Bool :=
  decide (x.1 = .lineComment) || decide (x.1 = .blockComment)

def isBlank : SegmentKind × Bytes → Bool
  | (.other, [c]) => isspace c
  | _ => false

/-- A top-level `;`. -/
def terminator : SegmentKind × Bytes := (.other, [semicolon])

/-- The segments that are neither whitespace nor comments. -/
def significant (q : Bytes) : List (SegmentKind × Bytes) :=
  (scannerLexer.tokens q).filter fun x => !isComment x && !isBlank x

/-- The stripped text, and what was taken off behind it. -/
theorem stripTerminator_spec (q : Bytes) : ∃ stop spaces : Bytes,
    q = stripTerminator q ++ stop ++ spaces ∧ (stop = [] ∨ stop = [semicolon]) ∧
      ∀ c ∈ spaces, isspace c = true := by
  have hq : q = (q.reverse.dropWhile isspace).reverse ++ (q.reverse.takeWhile isspace).reverse := by
    rw [← List.reverse_append, List.takeWhile_append_dropWhile, List.reverse_reverse]
  have hspaces : ∀ c ∈ (q.reverse.takeWhile isspace).reverse, isspace c = true := by
    intro c hc
    exact List.mem_takeWhile_imp (List.mem_reverse.mp hc)
  unfold stripTerminator
  generalize q.reverse.dropWhile isspace = stripped at hq ⊢
  dsimp only
  split_ifs with hstop
  · -- the terminator stands at the end of what the loop leaves
    obtain ⟨rest, rfl⟩ := List.head?_eq_some_iff.mp hstop
    refine ⟨[semicolon], _, ?_, Or.inr rfl, hspaces⟩
    simpa using hq
  · exact ⟨[], _, by simpa using hq, Or.inl rfl, hspaces⟩

theorem ne_word_of_joined {k : SegmentKind} {s : Bytes}
    (h : k = .lineComment ∨ ¬ Closed (k, s)) : k ≠ .word ∧ k ≠ .other := by
  constructor <;> rintro rfl <;> simp [Closed] at h

theorem hasKeyword_concat (q : Bytes) {c : UInt8} (hc : Idle c) :
    hasKeyword (q ++ [c]) = hasKeyword q := by
  unfold hasKeyword
  rcases tokens_concat q hc with hown | ⟨ts, k, s, htokens, hjoined, hkind⟩
  · rw [hown, List.any_append]
    simp [isKeywordSegment]
  · have hword := (ne_word_of_joined hkind).1
    rw [htokens, hjoined, List.any_append, List.any_append]
    simp [isKeywordSegment, hword]

theorem hasKeyword_append (q : Bytes) {u : Bytes} (hu : ∀ c ∈ u, Idle c) :
    hasKeyword (q ++ u) = hasKeyword q := by
  induction u using List.reverseRecOn with
  | nil => rw [List.append_nil]
  | append_singleton u c ih =>
    rw [← List.append_assoc, hasKeyword_concat _ (hu c (by simp))]
    exact ih fun d hd => hu d (List.mem_append_left _ hd)

/-- In a complete text an idle byte joins a line comment or nothing. -/
theorem complete_concat {q : Bytes} {c : UInt8} (hc : Idle c) (h : LexicallyComplete (q ++ [c])) :
    LexicallyComplete q ∧ (significant (q ++ [c]) = significant q ∨
      isspace c = false ∧ significant (q ++ [c]) = significant q ++ [(.other, [c])]) := by
  unfold LexicallyComplete at h ⊢
  unfold significant
  rcases tokens_concat q hc with hown | ⟨ts, k, s, htokens, hjoined, hkind⟩
  · rw [hown] at h ⊢
    refine ⟨fun x hx => h x (List.mem_append_left _ hx), ?_⟩
    cases hspace : isspace c with
    | true => simp [isBlank, hspace, List.filter_append]
    | false => simp [isBlank, isComment, hspace, List.filter_append]
  · rw [hjoined] at h
    obtain rfl : k = .lineComment := hkind.resolve_right (not_not_intro (h _ (by simp)))
    rw [htokens, hjoined]
    refine ⟨?_, Or.inl (by simp [isComment, List.filter_append])⟩
    intro x hx
    rcases List.mem_append.mp hx with hx | hx
    · exact h x (List.mem_append_left _ hx)
    · rw [List.mem_singleton.mp hx]
      trivial

theorem complete_append {q u : Bytes} (hu : ∀ c ∈ u, isspace c = true)
    (h : LexicallyComplete (q ++ u)) :
    LexicallyComplete q ∧ significant (q ++ u) = significant q := by
  induction u using List.reverseRecOn with
  | nil =>
    rw [List.append_nil] at h ⊢
    exact ⟨h, rfl⟩
  | append_singleton u c ih =>
    have hspace : isspace c = true := hu c (by simp)
    rw [← List.append_assoc] at h ⊢
    obtain ⟨hrest, hsame⟩ := complete_concat (idle_of_isIdle (by simp [isIdle, hspace])) h
    obtain ⟨hq, hsignificant⟩ := ih (fun d hd => hu d (List.mem_append_left _ hd)) hrest
    refine ⟨hq, ?_⟩
    rcases hsame with hsame | ⟨hno, -⟩
    · rw [hsame, hsignificant]
    · rw [hspace] at hno
      cases hno

/-- **The stripping loses nothing else.**  The text keeps its keyword, or its lack of one; what
is taken off is whitespace and at most one `;`; and in a complete text every other segment
stays. -/
theorem stripTerminator_loses_nothing (q : Bytes) :
    containsVisualiseKeyword (stripTerminator q) = containsVisualiseKeyword q ∧
    (∃ stop spaces : Bytes, q = stripTerminator q ++ stop ++ spaces ∧
      (stop = [] ∨ stop = [semicolon]) ∧ ∀ c ∈ spaces, isspace c = true) ∧
    (LexicallyComplete q → significant q = significant (stripTerminator q) ∨
      significant q = significant (stripTerminator q) ++ [terminator]) := by
  have hspec := stripTerminator_spec q
  refine ⟨?_, hspec, ?_⟩
  · obtain ⟨stop, spaces, hq, hstop, hspaces⟩ := hspec
    have hidle : ∀ c ∈ stop ++ spaces, Idle c := by
      intro c hc
      apply idle_of_isIdle
      rcases List.mem_append.mp hc with hc | hc
      · rcases hstop with rfl | rfl
        · cases hc
        · simp [isIdle, List.mem_singleton.mp hc]
      · simp [isIdle, hspaces c hc]
    rw [containsVisualiseKeyword_eq, containsVisualiseKeyword_eq]
    rw [List.append_assoc] at hq
    conv_rhs => rw [hq, hasKeyword_append _ hidle]
  · intro hcomplete
    obtain ⟨stop, spaces, hq, hstop, hspaces⟩ := hspec
    rw [hq] at hcomplete
    obtain ⟨hfront, hsame⟩ := complete_append hspaces hcomplete
    rw [← hq] at hsame
    rw [hsame]
    rcases hstop with rfl | rfl
    · left
      rw [List.append_nil]
    · -- the `;` is a segment of its own or the end of a line comment
      rcases (complete_concat (idle_of_isIdle rfl) hfront).2 with h | ⟨-, h⟩
      · exact Or.inl h
      · exact Or.inr h

/-! ## §4 When the terminator goes -/

/-- Segments in front of a text stay the same in front of any text that starts alike. -/
theorem lexes_of_head {ts : List (SegmentKind × Bytes)} {r r' : Bytes}
    (h : scannerLexer.Lexes ts r) (hr : r ≠ []) (hhead : r'.head? = r.head?) :
    scannerLexer.Lexes ts r' := by
  induction h with
  | nil r => exact .nil r'
  | @cons k s ts r hnext _ ih =>
    have hrest : Lexer.text ts ++ r ≠ [] := by simp [hr]
    have hsame : (Lexer.text ts ++ r').head? = (Lexer.text ts ++ r).head? := by
      rw [List.head?_append, List.head?_append, hhead]
    exact .cons ((segment_iff_next.mpr hnext).of_head hrest hsame).next (ih hr hhead)

theorem idle_of_terminator : Idle semicolon := idle_of_isIdle rfl

/-- The segments in front of a terminator are those of the text without it. -/
theorem tokens_front {front : List (SegmentKind × Bytes)} {r : Bytes}
    (h : scannerLexer.Lexes front (semicolon :: r)) :
    scannerLexer.tokens (Lexer.text front) = front := by
  have hone : scannerLexer.tokens [semicolon] = [terminator] := by decide
  have hstop := Lexer.tokens_append (lexes_of_head h (List.cons_ne_nil _ _)
    (show [semicolon].head? = some semicolon from rfl))
  rw [hone] at hstop
  rcases tokens_concat (Lexer.text front) idle_of_terminator with
    hown | ⟨ts, k, s, -, hjoined, hkind⟩
  · exact List.append_cancel_right (hown.symm.trans hstop)
  · -- the terminator is no comment
    obtain ⟨-, hlast⟩ := List.append_inj' (hjoined.symm.trans hstop) rfl
    have hk : k = .other := congrArg Prod.fst (List.singleton_inj.mp hlast)
    exact absurd hk (ne_word_of_joined hkind).2

theorem stripTerminator_of_spaces (a : Bytes) {spaces : Bytes}
    (h : ∀ c ∈ spaces, isspace c = true) :
    stripTerminator (a ++ semicolon :: spaces) = a := by
  have hdrop : (a ++ semicolon :: spaces).reverse.dropWhile isspace = semicolon :: a.reverse := by
    rw [List.reverse_append, List.reverse_cons, List.append_assoc,
      List.dropWhile_append_of_pos fun c hc => h c (List.mem_reverse.mp hc)]
    rfl
  unfold stripTerminator
  rw [hdrop]
  simp

/-- The stripping stops behind a byte that it does not take off. -/
theorem stripTerminator_of_mem {a b : Bytes} {d : UInt8} (hd : d ∈ b) (hidle : isIdle d = false) :
    ∃ rest, stripTerminator (a ++ semicolon :: b) = a ++ semicolon :: rest := by
  obtain ⟨stop, spaces, hq, hstop, hspaces⟩ := stripTerminator_spec (a ++ semicolon :: b)
  generalize stripTerminator (a ++ semicolon :: b) = t at hq ⊢
  have hoff : d ∉ stop ++ spaces := by
    intro hmem
    have htaken : isIdle d = true := by
      rcases List.mem_append.mp hmem with hmem | hmem
      · rcases hstop with rfl | rfl
        · cases hmem
        · simp [isIdle, List.mem_singleton.mp hmem]
      · simp [isIdle, hspaces d hmem]
    rw [htaken] at hidle
    cases hidle
  rw [List.append_assoc, ← List.singleton_append, ← List.append_assoc] at hq
  rcases List.append_eq_append_iff.mp hq with ⟨w, rfl, hb⟩ | ⟨w, ha, hb⟩
  · exact ⟨w, by simp⟩
  · exact absurd (hb ▸ List.mem_append_right w hd) hoff

/-- The text of a comment holds a byte that is not taken off. -/
theorem exists_of_comment {x : SegmentKind × Bytes} {r : Bytes}
    (hseg : scannerLexer.next (x.2 ++ r) = some (x.1, x.2, r)) (h : isComment x = true) :
    ∃ d ∈ x.2, isIdle d = false := by
  obtain ⟨k, s⟩ := x
  cases segment_iff_next.mpr hseg with
  | lineComment => exact ⟨dash, by simp, by decide⟩
  | blockClosed => exact ⟨slash, by simp, by decide⟩
  | blockOpen => exact ⟨slash, by simp, by decide⟩
  | _ => simp [isComment] at h

/-- **The terminator of a claimed statement is stripped if and only if nothing but whitespace
follows it.** -/
theorem terminator_stripped_iff {q t : Bytes} {front behind : List (SegmentKind × Bytes)}
    (hclaimed : parseFunction q = some (.claimed t))
    (hsplit : scannerLexer.tokens q = front ++ terminator :: behind) (hone : terminator ∉ front)
    (hbehind : ∀ x ∈ behind, isComment x = true ∨ isBlank x = true) :
    terminator ∉ scannerLexer.tokens t ↔ ∀ x ∈ behind, isBlank x = true := by
  have ht : t = stripTerminator q := by
    unfold parseFunction at hclaimed
    rw [containsVisualiseKeyword_eq] at hclaimed
    cases hfound : hasKeyword q <;> simp_all
  have hq : q = Lexer.text front ++ semicolon :: Lexer.text behind := by
    rw [← scannerLexer.text_tokens q, hsplit]
    simp [terminator]
  have hfront : scannerLexer.Lexes front (semicolon :: Lexer.text behind) :=
    Lexer.lexes_of_tokens_eq hsplit
  constructor
  · intro hgone x hx
    rcases hbehind x hx with hcomment | hblank
    · exfalso
      -- a comment keeps the stripping from the terminator
      have hmem : (x.1, x.2) ∈ scannerLexer.tokens q := by
        rw [hsplit]
        exact List.mem_append_right _ (List.mem_cons_of_mem _ hx)
      obtain ⟨_, r, -, -, hnext⟩ := Lexer.mem_tokens_iff.mp hmem
      obtain ⟨d, hd, hidle⟩ := exists_of_comment hnext hcomment
      have hdtext : d ∈ Lexer.text behind := List.mem_flatten.mpr ⟨x.2, List.mem_map_of_mem hx, hd⟩
      obtain ⟨rest, hrest⟩ := stripTerminator_of_mem (a := Lexer.text front) hdtext hidle
      apply hgone
      rw [ht, hq, hrest]
      exact Lexer.mem_tokens_iff.mpr ⟨front, rest, rfl,
        lexes_of_head hfront (List.cons_ne_nil _ _) rfl, (idle_of_terminator.segment rest).next⟩
    · exact hblank
  · intro hblank hmem
    have hspaces : ∀ c ∈ Lexer.text behind, isspace c = true := by
      intro c hc
      obtain ⟨s, hs, hc⟩ := List.mem_flatten.mp hc
      obtain ⟨x, hx, rfl⟩ := List.mem_map.mp hs
      have hx := hblank x hx
      unfold isBlank at hx
      split at hx
      · rw [List.mem_singleton.mp hc]
        exact hx
      · cases hx
    rw [ht, hq, stripTerminator_of_spaces _ hspaces, tokens_front hfront] at hmem
    exact hone hmem

theorem terminator_stripped_iff_space :
    terminator ∉ scannerLexer.tokens (ascii "VISUALISE x") ↔
      ∀ x ∈ [((.other : SegmentKind), ascii " ")], isBlank x = true :=
  terminator_stripped_iff
    (show parseFunction (ascii "VISUALISE x; ") = some (.claimed (ascii "VISUALISE x")) by decide)
    (show scannerLexer.tokens (ascii "VISUALISE x; ") =
      [(.word, ascii "VISUALISE"), (.other, ascii " "), (.word, ascii "x")] ++
        terminator :: [(.other, ascii " ")] by decide)
    (by decide) (by decide)

/-- The text is claimed as a single statement, and its terminator is in what ggsql is given. -/
def KeepsTerminator (q : Bytes) : Prop :=
  ∃ t front behind, parseFunction q = some (.claimed t) ∧ LexicallyComplete q ∧
    scannerLexer.tokens q = front ++ terminator :: behind ∧ terminator ∉ front ∧
    (∀ x ∈ behind, isComment x = true ∨ isBlank x = true) ∧ terminator ∈ scannerLexer.tokens t

/-- A comment behind the terminator keeps it in the text handed to ggsql.  A host that cuts its
input at a `;` and knows nested comments finds none in the second text, so hands it over whole. -/
theorem terminator_kept :
    KeepsTerminator (ascii "VISUALISE x; -- c") ∧
    KeepsTerminator (ascii "VISUALISE x /* /* */ ; -- */") ∧
    (.other, [semicolon]) ∉ (hostLexer true).tokens (ascii "VISUALISE x /* /* */ ; -- */") := by
  refine ⟨?_, ?_, by decide⟩
  · refine ⟨ascii "VISUALISE x; -- c",
      [(.word, ascii "VISUALISE"), (.other, ascii " "), (.word, ascii "x")],
      [(.other, ascii " "), (.lineComment, ascii "-- c")], by decide, ?_, by decide, by decide,
      by decide, by decide⟩
    have htokens : scannerLexer.tokens (ascii "VISUALISE x; -- c") =
        [(.word, ascii "VISUALISE"), (.other, ascii " "), (.word, ascii "x"), terminator,
          (.other, ascii " "), (.lineComment, ascii "-- c")] := by decide
    unfold LexicallyComplete
    rw [htokens]
    simp [Closed, terminator]
  · refine ⟨ascii "VISUALISE x /* /* */ ; -- */",
      [(.word, ascii "VISUALISE"), (.other, ascii " "), (.word, ascii "x"), (.other, ascii " "),
        (.blockComment, ascii "/* /* */"), (.other, ascii " ")],
      [(.other, ascii " "), (.lineComment, ascii "-- */")], by decide, ?_, by decide, by decide,
      by decide, by decide⟩
    have htokens : scannerLexer.tokens (ascii "VISUALISE x /* /* */ ; -- */") =
        [(.word, ascii "VISUALISE"), (.other, ascii " "), (.word, ascii "x"), (.other, ascii " "),
          (.blockComment, ascii "/* /* */"), (.other, ascii " "), terminator,
          (.other, ascii " "), (.lineComment, ascii "-- */")] := by decide
    unfold LexicallyComplete
    rw [htokens]
    simp only [Closed, terminator, List.forall_mem_cons, true_and]
    exact ⟨⟨ascii " /* ", rfl⟩, by simp⟩

end GgsqlDuckdb
