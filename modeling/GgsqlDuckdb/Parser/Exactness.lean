import GgsqlDuckdb.Parser.Segments

/-!
# Exactness of the keyword scanner

The position-indexed scan is related to the lexing of the text: each skipping loop advances
by the length of what `nextSegment` takes (§2), one pass of the outer loop consumes exactly
one segment and reports it if it is a keyword (§4), and the loop rule turns that into the
value of the whole scan (§5).
-/

namespace GgsqlDuckdb

open Library

/-! ## §1 Reading at a position -/

theorem drop_cases (query : Bytes) (i : ℕ) :
    (query.length ≤ i ∧ query.drop i = []) ∨
      ∃ c, i < query.length ∧ byteAt query i = some c ∧ query.drop i = c :: query.drop (i + 1) := by
  by_cases hi : i < query.length
  · right
    exact ⟨query[i], hi, List.getElem?_eq_getElem hi, List.drop_eq_getElem_cons hi⟩
  · left
    exact ⟨by omega, List.drop_eq_nil_of_le (by omega)⟩

theorem byteAt_eq_head? (query : Bytes) (i : ℕ) : byteAt query i = (query.drop i).head? := by
  rw [List.head?_drop]
  rfl

/-! ## §2 The skipping loops -/

theorem skipWhile_eq (p : UInt8 → Bool) (query : Bytes) {i : ℕ} (hi : i ≤ query.length) :
    skipWhile p query i = some (i + ((query.drop i).takeWhile p).length) := by
  refine loop_computes (fun i => i ≤ query.length)
    (fun i => i + ((query.drop i).takeWhile p).length) (fun i => query.length - i) ?_ _ i hi
    (by omega)
  intro i hi
  rcases drop_cases query i with ⟨hle, hdrop⟩ | ⟨c, hlt, hc, hdrop⟩
  · left
    -- past the end: the loop leaves where it stands
    simp [hdrop, Nat.not_lt.mpr hle]
  · cases hp : p c with
    | false => left; simp [hlt, hc, hdrop, hp]
    | true =>
      -- one more byte of the run
      right
      refine ⟨i + 1, by simp [hlt, hc, hp], by omega, by omega, ?_⟩
      simp [hdrop, hp]
      omega

/-- Where the search for `*/` stops, from the start of the text searched. -/
def blockOffset : Bytes → ℕ
  | [] => 0
  | [_] => 0
  | c :: d :: t => if c = star ∧ d = slash then 0 else blockOffset (d :: t) + 1

theorem findBlockEnd_eq (query : Bytes) {i : ℕ} (hi : i ≤ query.length) :
    findBlockEnd query i = some (i + blockOffset (query.drop i)) := by
  refine loop_computes (fun i => i ≤ query.length) (fun i => i + blockOffset (query.drop i))
    (fun i => query.length - i) ?_ _ i hi (by omega)
  intro i hi
  rcases drop_cases query i with ⟨hle, hdrop⟩ | ⟨c, hlt, hc, hdrop⟩
  · left
    -- nothing left to read
    have : ¬ i + 1 < query.length := by omega
    simp [this, hdrop, blockOffset]
  rcases drop_cases query (i + 1) with ⟨hle, hdrop'⟩ | ⟨d, hlt', hd, hdrop'⟩
  · left
    -- the last byte, where the search gives up
    have : ¬ i + 1 < query.length := by omega
    simp [this, hdrop, hdrop', blockOffset]
  · by_cases hstar : c = star
    · by_cases hslash : d = slash
      · left
        -- the `*/` itself
        simp [hlt', hc, hd, hdrop, hdrop', blockOffset, hstar, hslash]
      · right
        -- a star that no slash follows
        refine ⟨i + 1, by simp [hlt', hc, hd, hstar, hslash], by omega, by omega, ?_⟩
        simp [hdrop, hdrop', blockOffset, hslash]
        omega
    · right
      -- any other byte
      refine ⟨i + 1, by simp [hlt', hc, hstar], by omega, by omega, ?_⟩
      simp [hdrop, hdrop', blockOffset, hstar]
      omega

theorem length_blockTail (t : Bytes) : (blockTail t).1.length =
    if blockOffset t + 1 < t.length then blockOffset t + 2 else t.length := by
  fun_induction blockOffset t with
  | case1 => rfl
  | case2 c => simp [blockTail]
  | case3 c d t h =>
    -- the search stops at the star, the split one byte behind it
    obtain ⟨rfl, rfl⟩ := h
    simp [blockTail]
  | case4 c d t h ih =>
    have hc : ¬ (c = star ∧ (d :: t).head? = some slash) := by simpa using h
    rw [blockTail, if_neg hc]
    simp only [List.length_cons, ih]
    split_ifs <;> omega

theorem skipBlockComment_eq (query : Bytes) {i : ℕ} (hi : i ≤ query.length) :
    skipBlockComment query i = some (i + (blockTail (query.drop i)).1.length) := by
  rw [skipBlockComment, findBlockEnd_eq query hi, Option.map_some, length_blockTail,
    List.length_drop]
  split_ifs <;> congr 1 <;> omega

theorem skipQuoted_eq (quote : UInt8) (query : Bytes) {i : ℕ} (hi : i ≤ query.length) :
    skipQuoted quote query i = some (i + (quotedTail quote (query.drop i)).1.length) := by
  refine loop_computes (fun i => i ≤ query.length)
    (fun i => i + (quotedTail quote (query.drop i)).1.length) (fun i => query.length - i) ?_ _ i
    hi (by omega)
  intro i hi
  rcases drop_cases query i with ⟨hle, hdrop⟩ | ⟨c, hlt, hc, hdrop⟩
  · left
    -- an unclosed quote runs to the end
    simp [hdrop, Nat.not_lt.mpr hle, quotedTail]
  by_cases hquote : c = quote
  · subst hquote
    rcases drop_cases query (i + 1) with ⟨hle, hdrop'⟩ | ⟨d, hlt', hd, hdrop'⟩
    · left
      -- the quote is the last byte, so it closes
      simp [hlt, hc, hdrop, hdrop', Nat.not_lt.mpr hle, quotedTail]
    · by_cases hdoubled : d = c
      · right
        -- a doubled quote is skipped as one
        subst hdoubled
        refine ⟨i + 2, by simp [hlt, hc, hlt', hd], by omega, by omega, ?_⟩
        have hdrop₂ : query.drop (i + 1 + 1) = query.drop (i + 2) := rfl
        rw [hdrop, hdrop', quotedTail_doubled, hdrop₂]
        simp only [List.length_cons]
        omega
      · left
        -- a single quote closes
        rw [hdrop, quotedTail_close (by simpa [hdrop'] using hdoubled)]
        simp [hlt, hc, hlt', hd, hdoubled]
  · right
    -- a byte of the content
    refine ⟨i + 1, by simp [hlt, hc, hquote], by omega, by omega, ?_⟩
    simp [hdrop, quotedTail_plain hquote]
    omega

/-! ## §3 Whole-word matching -/

theorem tolower_ident (c : UInt8) : isIdentChar (tolower c) = isIdentChar c := by
  -- `tolower` moves letters to letters and leaves the rest alone
  have hall : ∀ n : Fin 256,
      isIdentChar (tolower (UInt8.ofFin n)) = isIdentChar (UInt8.ofFin n) := by decide +kernel
  exact hall c.toFin

theorem matchesNoCase_eq (haystack : Bytes) (needle : Bytes) {pos : ℕ}
    (h : pos + needle.length ≤ haystack.length) :
    matchesNoCase haystack pos needle =
      some (decide (((haystack.drop pos).take needle.length).map tolower =
        needle.map tolower)) := by
  induction needle generalizing pos with
  | nil => simp [matchesNoCase]
  | cons b needle ih =>
    simp only [List.length_cons] at h
    rcases drop_cases haystack pos with ⟨hle, -⟩ | ⟨a, hlt, ha, hdrop⟩
    · omega
    · have hfits : pos + 1 + needle.length ≤ haystack.length := by omega
      have hrest := ih hfits
      by_cases hab : tolower a = tolower b <;> simp [matchesNoCase, ha, hdrop, hab, hrest]

/-- `VISUALISE` or `VISUALIZE`, in any letter case. -/
def isKeyword (w : Bytes) : Bool := visualiseKeywords.any fun kw => w.map tolower == kw.map tolower

theorem ident_of_map_tolower {s kw : Bytes} (h : s.map tolower = kw.map tolower)
    (hkw : ∀ c ∈ kw, isIdentChar c = true) : ∀ c ∈ s, isIdentChar c = true := by
  intro c hc
  have hmem : tolower c ∈ kw.map tolower := h ▸ List.mem_map_of_mem hc
  obtain ⟨d, hd, hdc⟩ := List.mem_map.mp hmem
  rw [← tolower_ident, ← hdc, tolower_ident]
  exact hkw d hd

/-- Nothing that can start a segment stands inside a word: a word byte in front of position
`i` means that the byte at `i` is not one. -/
def Settled (query : Bytes) (i : ℕ) : Prop :=
  i ≤ query.length ∧ ∀ p c, 0 < i → byteAt query (i - 1) = some p → byteAt query i = some c →
    isIdentChar c = true → isIdentChar p = false

theorem matchesWholeWord_of_mismatch {query kw : Bytes} {i : ℕ}
    (h : query.length < i + kw.length ∨ matchesNoCase query i kw = some false) :
    matchesWholeWord query i kw = some false := by
  unfold matchesWholeWord
  by_cases hshort : i + kw.length > query.length
  · simp [hshort]
  · simp [hshort, h.resolve_left hshort]

theorem matchesWholeWord_of_match {query kw : Bytes} {i : ℕ} {c : UInt8} (hi : Settled query i)
    (hc : byteAt query i = some c) (hident : isIdentChar c = true)
    (hlong : i + kw.length ≤ query.length) (h : matchesNoCase query i kw = some true) :
    matchesWholeWord query i kw =
      some ((query.drop (i + kw.length)).head?.all fun d => !isIdentChar d) := by
  -- the look-ahead of the source, as one test of the byte behind
  have hafter : (if i + kw.length < query.length then
      (byteAt query (i + kw.length)).bind fun d =>
        if isIdentChar d = true then some false else some true
      else some true) =
        some ((query.drop (i + kw.length)).head?.all fun d => !isIdentChar d) := by
    rcases drop_cases query (i + kw.length) with ⟨hle, hdrop⟩ | ⟨d, hlt, hd, hdrop⟩
    · simp [hdrop, Nat.not_lt.mpr hle]
    · cases hident : isIdentChar d <;> simp [hlt, hd, hdrop, hident]
  have hshort : ¬ i + kw.length > query.length := by omega
  unfold matchesWholeWord
  by_cases hpos : i > 0
  · -- the byte in front is no word byte, so the look-behind lets the match through
    rcases drop_cases query (i - 1) with ⟨hle, -⟩ | ⟨p, -, hp, -⟩
    · have := hi.1
      have := (List.getElem?_eq_some_iff.mp hc).1
      omega
    · have hprev : isIdentChar p = false := hi.2 p c hpos hp hc hident
      simpa [hshort, h, hpos, hp, hprev] using hafter
  · simpa [hshort, h, hpos] using hafter

/-- Word bytes taken off the front of `w ++ r` stay inside `w` when `r` starts with none. -/
theorem length_le_of_take_ident {w r : Bytes} {n : ℕ} (hn : n ≤ (w ++ r).length)
    (hr : ∀ c ∈ r.head?, isIdentChar c = false)
    (htaken : ∀ c ∈ (w ++ r).take n, isIdentChar c = true) : n ≤ w.length := by
  by_contra hgt
  cases r with
  | nil => simp at hn; omega
  | cons d r =>
    -- otherwise the first byte of `r` is among the bytes taken
    have hmem : d ∈ (w ++ d :: r).take n := by
      obtain ⟨m, hm⟩ : ∃ m, n - w.length = m + 1 := ⟨n - w.length - 1, by omega⟩
      simp [List.take_append, hm]
    have hd := htaken d hmem
    rw [hr d rfl] at hd
    exact Bool.false_ne_true hd

/-- At the start of the word `w`, a keyword matches if and only if it is `w` up to case. -/
theorem matchesWholeWord_eq {query w r kw : Bytes} {i : ℕ} (hi : Settled query i)
    (hdrop : query.drop i = w ++ r) (hw : w ≠ []) (hident : ∀ c ∈ w, isIdentChar c = true)
    (hr : ∀ c ∈ r.head?, isIdentChar c = false) (hkw : ∀ c ∈ kw, isIdentChar c = true) :
    matchesWholeWord query i kw = some (w.map tolower == kw.map tolower) := by
  have hlen : query.length = i + (w ++ r).length := by
    have hl := congrArg List.length hdrop
    have hle := hi.1
    rw [List.length_drop] at hl
    omega
  obtain ⟨c, hcw, hc⟩ : ∃ c ∈ w, byteAt query i = some c := by
    obtain ⟨c, w, rfl⟩ := List.exists_cons_of_ne_nil hw
    exact ⟨c, by simp, by simp [byteAt_eq_head?, hdrop]⟩
  by_cases heq : w.map tolower = kw.map tolower
  · -- the keyword is the whole word, and what follows it is no word byte
    have hlw : w.length = kw.length := by simpa using congrArg List.length heq
    have hlong : i + kw.length ≤ query.length := by simp at hlen; omega
    have hmatch := matchesNoCase_eq query kw hlong
    rw [hdrop, ← hlw, List.take_left, decide_eq_true heq] at hmatch
    have hrest : query.drop (i + kw.length) = r := by
      rw [← List.drop_drop, hdrop, ← hlw, List.drop_left]
    rw [matchesWholeWord_of_match hi hc (hident c hcw) hlong hmatch, hrest]
    cases r with
    | nil => simp [heq]
    | cons d r => simp [heq, hr d rfl]
  · have hfalse : (w.map tolower == kw.map tolower) = false := by simpa using heq
    rw [hfalse]
    by_cases hlong : i + kw.length ≤ query.length
    · have hmatch := matchesNoCase_eq query kw hlong
      rw [hdrop] at hmatch
      by_cases htake : ((w ++ r).take kw.length).map tolower = kw.map tolower
      · -- the keyword is a proper prefix of the word, whose next byte follows the match
        have hle : kw.length ≤ w.length :=
          length_le_of_take_ident (by omega) hr (ident_of_map_tolower htake hkw)
        rw [List.take_append_of_le_length hle] at htake
        have hlt : kw.length < w.length := by
          refine lt_of_le_of_ne hle fun hl => heq ?_
          rwa [hl, List.take_length] at htake
        have hrest : (query.drop (i + kw.length)).head? = some w[kw.length] := by
          rw [← List.drop_drop, hdrop, List.drop_append_of_le_length hle,
            List.drop_eq_getElem_cons hlt]
          rfl
        rw [List.take_append_of_le_length hle, decide_eq_true htake] at hmatch
        rw [matchesWholeWord_of_match hi hc (hident c hcw) hlong hmatch, hrest]
        simp [hident _ (List.getElem_mem hlt)]
      · rw [decide_eq_false htake] at hmatch
        exact matchesWholeWord_of_mismatch (Or.inr hmatch)
    · exact matchesWholeWord_of_mismatch (Or.inl (by omega))

theorem visualiseKeywords_ident : ∀ kw ∈ visualiseKeywords, ∀ c ∈ kw, isIdentChar c = true := by
  intro kw hkw
  have hall : visualiseKeywords.all (fun kw => kw.all isIdentChar) = true := by decide
  exact List.all_eq_true.mp (List.all_eq_true.mp hall kw hkw)

/-- At the start of a word, the loop over the keywords decides whether it is one of them. -/
theorem matchesKeyword_eq {query w r : Bytes} {i : ℕ} (hi : Settled query i)
    (hdrop : query.drop i = w ++ r) (hw : w ≠ []) (hident : ∀ c ∈ w, isIdentChar c = true)
    (hr : ∀ c ∈ r.head?, isIdentChar c = false) (kws : List Bytes)
    (hkws : ∀ kw ∈ kws, ∀ c ∈ kw, isIdentChar c = true) :
    matchesKeyword query i kws = some (kws.any fun kw => w.map tolower == kw.map tolower) := by
  induction kws with
  | nil => rfl
  | cons kw kws ih =>
    have hhead := matchesWholeWord_eq hi hdrop hw hident hr (hkws kw (by simp))
    have htail := ih fun kw' h => hkws kw' (List.mem_cons_of_mem _ h)
    cases hkw : w.map tolower == kw.map tolower <;>
      simp [matchesKeyword, hhead, htail, hkw]

/-! ## §4 One pass of the outer loop -/

/-- The scan reports a segment that is a keyword. -/
def isKeywordSegment (t : SegmentKind × Bytes) : Bool := decide (t.1 = .word) && isKeyword t.2

theorem opensWith_eq {query t : Bytes} {i : ℕ} {c : UInt8} (hdrop : query.drop i = c :: t)
    (a b : UInt8) : opensWith query i c a b = some (decide (c = a ∧ t.head? = some b)) := by
  have htail : query.drop (i + 1) = t := by rw [← List.tail_drop, hdrop, List.tail_cons]
  unfold opensWith
  -- the second byte is read only behind the first
  by_cases hc : c = a
  · rcases drop_cases query (i + 1) with ⟨hle, hdrop'⟩ | ⟨d, hlt, hd, hdrop'⟩
    · rw [htail] at hdrop'
      simp [Nat.not_lt.mpr hle, hdrop']
    · rw [htail] at hdrop'
      simp [hc, hlt, hd, hdrop']
      rfl
  · simp [hc]

theorem atWordStart_eq {query : Bytes} {i : ℕ} {c : UInt8} (hi : Settled query i)
    (hc : byteAt query i = some c) : atWordStart query i c = some (isIdentChar c) := by
  unfold atWordStart
  cases hident : isIdentChar c with
  | false => simp
  | true =>
    by_cases hpos : i = 0
    · simp [hpos]
    · rcases drop_cases query (i - 1) with ⟨hle, -⟩ | ⟨p, -, hp, -⟩
      · have := (List.getElem?_eq_some_iff.mp hc).1
        omega
      · have hprev := hi.2 p c (by omega) hp hc hident
        simp [hpos, hp, hprev]

/-- One pass of the outer loop, once its reads are known. -/
theorem scanStep_of_reads {query : Bytes} {i : ℕ} {c : UInt8} {line block word : Bool}
    (hlt : i < query.length) (hc : byteAt query i = some c)
    (hline : opensWith query i c dash dash = some line)
    (hblock : opensWith query i c slash star = some block)
    (hword : atWordStart query i c = some word) :
    scanStep query i =
      if line then (skipLineComment query (i + 2)).map .again
      else if block then (skipBlockComment query (i + 2)).map .again
      else if c = apostrophe then (skipStringLiteral query (i + 1)).map .again
      else if c = doubleQuote then (skipQuotedIdentifier query (i + 1)).map .again
      else if word then
        (matchesKeyword query i visualiseKeywords).bind fun found =>
          if found then some (.leave true) else (skipIdentifier query i).map .again
      else some (.again (i + 1)) := by
  unfold scanStep
  simp only [if_pos hlt, hc, hline, hblock, hword, Option.bind_eq_bind, Option.bind_some,
    Option.map_eq_bind, Option.pure_def]
  rfl

/-- What a pass does with the segment `t` that starts at `i`. -/
def segmentOutcome (i : ℕ) (t : SegmentKind × Bytes) : Pass ℕ Bool :=
  if isKeywordSegment t then .leave true else .again (i + t.2.length)

theorem segmentOutcome_skip (i : ℕ) {k : SegmentKind} (s : Bytes) (hk : k ≠ .word) :
    segmentOutcome i (k, s) = .again (i + s.length) := by
  simp [segmentOutcome, isKeywordSegment, hk]

/-- **Scan step**: from a settled position, one pass of the outer loop reports the segment in
front of it if it is a keyword and skips exactly that segment otherwise. -/
theorem scanStep_eq {query s r : Bytes} {i : ℕ} {k : SegmentKind} (hi : Settled query i)
    (hnext : nextSegment (query.drop i) = some (k, s, r)) :
    scanStep query i = some (segmentOutcome i (k, s)) := by
  have hseg := (segment_of_nextSegment hnext).1
  have hsr := (segment_of_nextSegment hnext).2
  rcases drop_cases query i with ⟨-, hdrop⟩ | ⟨c, hlt, hc, hdrop⟩
  · simp [hdrop, nextSegment] at hnext
  rw [scanStep_of_reads hlt hc (opensWith_eq hdrop dash dash) (opensWith_eq hdrop slash star)
    (atWordStart_eq hi hc)]
  -- behind a two-byte opening the scan stands on the tail of the tail
  have htwo : ∀ b, (query.drop (i + 1)).head? = some b →
      i + 2 ≤ query.length ∧ query.drop (i + 2) = (query.drop (i + 1)).tail := by
    intro b hb
    rw [List.head?_drop] at hb
    have := (List.getElem?_eq_some_iff.mp hb).1
    exact ⟨by omega, List.tail_drop.symm⟩
  simp only [hdrop, nextSegment] at hnext
  simp only [decide_eq_true_eq]
  split_ifs at hnext ⊢ with h₁ h₂ h₃ h₄ h₅ <;> obtain ⟨rfl, rfl, rfl⟩ : _ ∧ _ ∧ _ := by
    simpa only [Option.some.injEq, Prod.mk.injEq] using hnext
  · obtain ⟨hle, htail⟩ := htwo dash h₁.2
    -- the two dashes belong to the segment, as do the bytes skipped
    rw [skipLineComment, skipWhile_eq _ query hle, htail, segmentOutcome_skip _ _ (by simp),
      Option.map_some, List.length_cons, List.length_cons]
    congr 2
    omega
  · obtain ⟨hle, htail⟩ := htwo star h₂.2
    rw [skipBlockComment_eq query hle, htail, segmentOutcome_skip _ _ (by simp),
      Option.map_some, List.length_cons, List.length_cons]
    congr 2
    omega
  · rw [skipStringLiteral, skipQuoted_eq apostrophe query (i := i + 1) hlt, ← h₃,
      segmentOutcome_skip _ _ (by simp), Option.map_some, List.length_cons]
    congr 2
    omega
  · rw [skipQuotedIdentifier, skipQuoted_eq doubleQuote query (i := i + 1) hlt, ← h₄,
      segmentOutcome_skip _ _ (by simp), Option.map_some, List.length_cons]
    congr 2
    omega
  · -- a word: report it or skip it
    cases hseg with
    | word hne hs hr =>
      rw [matchesKeyword_eq hi hsr.symm hne hs hr _ visualiseKeywords_ident,
        skipIdentifier, skipWhile_eq _ query hi.1, hdrop, Option.bind_some, Option.map_some]
      cases hk : isKeyword ((c :: query.drop (i + 1)).takeWhile isIdentChar) <;>
        simp only [isKeyword] at hk <;> simp [segmentOutcome, isKeywordSegment, isKeyword, hk]
  -- any other byte is a segment of its own
  · rw [segmentOutcome_skip _ _ (by simp)]
    rfl

/-- The end of a segment is a settled position, with the rest of the text in front of it. -/
theorem settled_of_nextSegment {query s r : Bytes} {i : ℕ} {k : SegmentKind}
    (hi : Settled query i) (hnext : nextSegment (query.drop i) = some (k, s, r)) :
    i < i + s.length ∧ Settled query (i + s.length) ∧ query.drop (i + s.length) = r := by
  obtain ⟨hseg, hsr⟩ := segment_of_nextSegment hnext
  have hpos : 0 < s.length := List.length_pos_iff.mpr hseg.ne_nil
  have hdrop : query.drop (i + s.length) = r := by rw [← List.drop_drop, ← hsr, List.drop_left]
  have hle : i + s.length ≤ query.length := by
    have hi := hi.1
    have hl := congrArg List.length hsr
    rw [List.length_drop, List.length_append] at hl
    omega
  refine ⟨by omega, ⟨hle, ?_⟩, hdrop⟩
  intro p c _ hp hc hident
  rw [byteAt_eq_head?, hdrop] at hc
  refine hseg.seam ?_ hc hident
  -- the byte in front of the new position is the last one of the segment
  have hlast : (s ++ r)[s.length - 1]? = some p := by
    rw [hsr, List.getElem?_drop, ← hp]
    congr 1
    omega
  rwa [List.getElem?_append_left (by omega), ← List.getLast?_eq_getElem?] at hlast

/-! ## §5 The whole scan -/

/-- Some segment of the text is a keyword. -/
def hasKeyword (query : Bytes) : Bool := (scannerLexer.tokens query).any isKeywordSegment

/-- **The scan computes `hasKeyword`**: it stays inside the text and comes to an end. -/
theorem containsVisualiseKeyword_eq (query : Bytes) :
    containsVisualiseKeyword query = some (hasKeyword query) := by
  have hstart : Settled query 0 := ⟨Nat.zero_le _, fun _ _ h => absurd h (lt_irrefl 0)⟩
  -- the answer at `i` is whether a keyword is among the segments from `i` on
  refine loop_computes (Settled query) (fun i => hasKeyword (query.drop i))
    (fun i => query.length - i) ?_ _ 0 hstart (by omega)
  intro i hi
  cases hnext : nextSegment (query.drop i) with
  | none =>
    -- no segment is left, so the scan has come to the end
    left
    have hdrop : query.drop i = [] := scannerLexer.next_eq_none hnext
    have hend : ¬ i < query.length := by simpa using hdrop
    simp [scanStep, hend, hdrop, hasKeyword]
  | some t =>
    obtain ⟨k, s, r⟩ := t
    obtain ⟨hlt, hsettled, hrest⟩ := settled_of_nextSegment hi hnext
    have htokens : scannerLexer.tokens (query.drop i) = (k, s) :: scannerLexer.tokens r :=
      scannerLexer.tokens_of_next hnext
    have hstep := scanStep_eq hi hnext
    unfold segmentOutcome at hstep
    cases hk : isKeywordSegment (k, s) with
    | true =>
      -- a keyword: the scan leaves, and the answer was true
      left
      rw [if_pos hk] at hstep
      simpa [hasKeyword, htokens, hk] using hstep
    | false =>
      -- any other segment does not change the answer
      right
      refine ⟨i + s.length, by simpa [hk] using hstep, hsettled, ?_, ?_⟩
      · have := hsettled.1
        omega
      · simp [hasKeyword, htokens, hk, hrest]

/-- A word byte at a boundary of the lexing has no word byte in front of it. -/
theorem Segments.seam {a r : Bytes} (h : Segments a r) {p c : UInt8} (hp : a.getLast? = some p)
    (hc : r.head? = some c) (hident : isIdentChar c = true) : isIdentChar p = false := by
  induction h with
  | nil r => simp at hp
  | @cons k s a r hs ha ih =>
    cases a with
    | nil => exact hs.seam (by simpa using hp) hc hident
    -- the text ends in a nonempty rest of the sequence
    | cons d a =>
      refine ih ?_ hc
      rwa [List.getLast?_append_of_ne_nil _ (List.cons_ne_nil d a)] at hp

theorem isKeyword_iff {w : Bytes} :
    isKeyword w = true ↔ ∃ kw ∈ visualiseKeywords, w.map tolower = kw.map tolower := by
  simp [isKeyword]

theorem ident_of_isKeyword {w : Bytes} (h : isKeyword w = true) :
    w ≠ [] ∧ ∀ c ∈ w, isIdentChar c = true := by
  obtain ⟨kw, hmem, heq⟩ := isKeyword_iff.mp h
  refine ⟨?_, ident_of_map_tolower heq (visualiseKeywords_ident kw hmem)⟩
  rintro rfl
  have hnil : kw = [] := by simpa using heq.symm
  subst hnil
  exact absurd hmem (by decide)

theorem head_of_isKeyword {c : UInt8} {w : Bytes} (h : isKeyword (c :: w) = true) :
    tolower c = 0x76 := by
  obtain ⟨kw, hmem, heq⟩ := isKeyword_iff.mp h
  have hfirst : ∀ kw ∈ visualiseKeywords, (kw.map tolower).head? = some 0x76 := by decide
  have hhead := hfirst kw hmem
  rw [← heq] at hhead
  exact Option.some.inj hhead

/-- A keyword is a segment of the text if and only if it stands, whole, at the end of a
sequence of complete segments. -/
theorem hasKeyword_iff (query : Bytes) :
    hasKeyword query = true ↔ ∃ a w b, query = a ++ w ++ b ∧ isKeyword w = true ∧
      (∀ c ∈ b.head?, isIdentChar c = false) ∧ Segments a (w ++ b) ∧
      ∀ c ∈ a.getLast?, isIdentChar c = false := by
  constructor
  · intro h
    -- a reported segment is a word token at a boundary
    obtain ⟨⟨k, w⟩, hmem, hkeyword⟩ := List.any_eq_true.mp h
    obtain ⟨ts, b, hq, hts, hnext⟩ := Lexer.mem_tokens_iff.mp hmem
    obtain ⟨rfl, hw⟩ : k = .word ∧ isKeyword w = true := by
      simpa [isKeywordSegment] using hkeyword
    have hsegs : Segments (Lexer.text ts) (w ++ b) := segments_iff_lexes.mpr ⟨ts, rfl, hts⟩
    cases segment_iff_next.mpr hnext with
    | word hne hident hb =>
      refine ⟨Lexer.text ts, w, b, by rw [hq, List.append_assoc], hw, hb, hsegs, ?_⟩
      intro p hp
      obtain ⟨c, w, rfl⟩ := List.exists_cons_of_ne_nil hne
      exact hsegs.seam hp rfl (hident c (by simp))
  · rintro ⟨a, w, b, rfl, hw, hb, hsegs, -⟩
    -- a whole word at a boundary is the next token there
    obtain ⟨ts, rfl, hts⟩ := segments_iff_lexes.mp hsegs
    have hseg : Segment .word w b := .word (ident_of_isKeyword hw).1 (ident_of_isKeyword hw).2 hb
    have hmem : (SegmentKind.word, w) ∈ scannerLexer.tokens (Lexer.text ts ++ w ++ b) :=
      Lexer.mem_tokens_iff.mpr ⟨ts, b, List.append_assoc .., hts, hseg.next⟩
    exact List.any_eq_true.mpr ⟨_, hmem, by simp [isKeywordSegment, hw]⟩

/-- **Scanner exactness**: the scan of any byte string comes to an end, and it reports a
keyword if and only if `VISUALISE` or `VISUALIZE`, in any letter case, follows a sequence of
complete segments that does not end in a word byte and is not followed by a word byte. -/
theorem containsVisualiseKeyword_exact (q : Bytes) :
    (∃ found, containsVisualiseKeyword q = some found) ∧
    (containsVisualiseKeyword q = some true ↔
      ∃ a w b, q = a ++ w ++ b ∧
        (w.map tolower = (ascii "VISUALISE").map tolower ∨
          w.map tolower = (ascii "VISUALIZE").map tolower) ∧
        (b = [] ∨ ∃ c, b.head? = some c ∧ isIdentChar c = false) ∧
        Segments a (w ++ b) ∧
        ¬ ∃ c, a.getLast? = some c ∧ isIdentChar c = true) := by
  refine ⟨⟨_, containsVisualiseKeyword_eq q⟩, ?_⟩
  rw [containsVisualiseKeyword_eq, Option.some.injEq, hasKeyword_iff]
  -- the three conditions of the statement are those of `hasKeyword_iff`
  have hkeyword : ∀ w, isKeyword w = true ↔
      w.map tolower = (ascii "VISUALISE").map tolower ∨
        w.map tolower = (ascii "VISUALIZE").map tolower := by
    simp [isKeyword, visualiseKeywords]
  have hhead : ∀ b : Bytes, (∀ c ∈ b.head?, isIdentChar c = false) ↔
      (b = [] ∨ ∃ c, b.head? = some c ∧ isIdentChar c = false) := by
    intro b
    cases b <;> simp
  have hlast : ∀ a : Bytes, (∀ c ∈ a.getLast?, isIdentChar c = false) ↔
      ¬ ∃ c, a.getLast? = some c ∧ isIdentChar c = true := by
    simp
  simp only [hkeyword, hhead, hlast]

end GgsqlDuckdb
