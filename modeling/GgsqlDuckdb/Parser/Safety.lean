import GgsqlDuckdb.Library.Trace
import GgsqlDuckdb.Parser.Exactness

/-!
# Safety of the scanner

The scanner of `Parser/Scanner.lean` once more (`src/ggsql_parser.cpp`), with a trace of every
index it reads, computed as the source computes it, and of every value of `i` at the head of a
loop.  Its result is that of the plain scanner, which comes to an end.

## Main results

- `Watched.result_containsVisualiseKeyword`: watching the scanner does not change it.
- `Watched.meets_scanBody`: every read and every position of a pass.
- `scan_safe`: no read outside the text, no position behind it, and progress in every pass.
-/

namespace GgsqlDuckdb

open Library

/-! ## §1 What is watched -/

/-- A read `query[k]`, the value of `i` at the head of an inner loop, and at the head of the
outer one. -/
inductive ScanEvent where
  | read (k : ℤ)
  | position (i : ℕ)
  | pass (i : ℕ)
  deriving DecidableEq, Repr

def ScanEvent.passed : ScanEvent → Option ℕ
  | .pass i => some i
  | _ => none

namespace Watched

abbrev Scan := Traced.{0, 0} ScanEvent

/-- The read `query[k]`, for an index that may have wrapped below zero. -/
def byteAt (query : Bytes) (k : ℤ) : Scan UInt8 :=
  ⟨[.read k], if 0 ≤ k then query[k.toNat]? else none⟩

/-! ## §2 The scanner, watched -/

/-- The comparison loop of `MatchesWholeWord`. -/
def matchesNoCase (haystack : Bytes) : ℕ → Bytes → Scan Bool
  | _, [] => pure true
  | pos, b :: needle => do
    let a ← byteAt haystack pos
    if tolower a ≠ tolower b then pure false else matchesNoCase haystack (pos + 1) needle

/-- The word boundary in front of a match. -/
def boundedInFront (haystack : Bytes) (pos : ℕ) : Scan Bool :=
  if pos > 0 then do
    let c ← byteAt haystack ((pos : ℤ) - 1)
    pure (!isIdentChar c)
  else pure true

/-- The word boundary behind a match. -/
def boundedBehind (haystack : Bytes) (after : ℕ) : Scan Bool :=
  if after < haystack.length then do
    let c ← byteAt haystack after
    pure (!isIdentChar c)
  else pure true

/-- `MatchesWholeWord` -/
def matchesWholeWord (haystack : Bytes) (pos : ℕ) (needle : Bytes) : Scan Bool :=
  if pos + needle.length > haystack.length then pure false
  else do
    if ← matchesNoCase haystack pos needle then
      if ← boundedInFront haystack pos then boundedBehind haystack (pos + needle.length)
      else pure false
    else pure false

/-- The loop over `VISUALISE_KEYWORDS`. -/
def matchesKeyword (query : Bytes) (i : ℕ) : List Bytes → Scan Bool
  | [] => pure false
  | kw :: kws => do
    if ← matchesWholeWord query i kw then pure true else matchesKeyword query i kws

/-- `while (i < n && p(query[i])) i++` -/
def skipWhile (p : UInt8 → Bool) (query : Bytes) : ℕ → Scan ℕ :=
  Traced.loop (fun i => do
    Traced.emit (.position i)
    if i < query.length then do
      let c ← byteAt query i
      pure (if p c then .again (i + 1) else .leave i)
    else pure (.leave i))
    (query.length + 1)

/-- The search for `*/`. -/
def findBlockEnd (query : Bytes) : ℕ → Scan ℕ :=
  Traced.loop (fun i => do
    Traced.emit (.position i)
    if i + 1 < query.length then do
      let c ← byteAt query i
      if c = star then do
        let d ← byteAt query ((i : ℤ) + 1)
        if d = slash then pure (.leave i) else pure (.again (i + 1))
      else pure (.again (i + 1))
    else pure (.leave i))
    (query.length + 1)

/-- Skip past the `*/`, or to the end. -/
def skipBlockComment (query : Bytes) (i : ℕ) : Scan ℕ := do
  let i ← findBlockEnd query i
  pure (if i + 1 < query.length then i + 2 else query.length)

/-- Skip past the closing `quote`; a doubled quote is content. -/
def skipQuoted (quote : UInt8) (query : Bytes) : ℕ → Scan ℕ :=
  Traced.loop (fun i => do
    Traced.emit (.position i)
    if i < query.length then do
      let c ← byteAt query i
      if c = quote then
        if i + 1 < query.length then do
          let d ← byteAt query ((i : ℤ) + 1)
          if d = quote then pure (.again (i + 2)) else pure (.leave (i + 1))
        else pure (.leave (i + 1))
      else pure (.again (i + 1))
    else pure (.leave i))
    (query.length + 1)

/-- `c == a && i + 1 < n && query[i + 1] == b`, for the byte `c` at `i`. -/
def opensWith (query : Bytes) (i : ℕ) (c a b : UInt8) : Scan Bool :=
  if c = a ∧ i + 1 < query.length then do
    let d ← byteAt query ((i : ℤ) + 1)
    pure (d == b)
  else pure false

/-- `IsIdentChar(c) && (i == 0 || !IsIdentChar(query[i - 1]))`, for the byte `c` at `i`. -/
def atWordStart (query : Bytes) (i : ℕ) (c : UInt8) : Scan Bool :=
  if isIdentChar c then
    if i = 0 then pure true
    else do
      let p ← byteAt query ((i : ℤ) - 1)
      pure (!isIdentChar p)
  else pure false

/-- Go around again from where a segment ends. -/
def goOn (x : Scan ℕ) : Scan (Pass ℕ Bool) := do
  let i ← x
  pure (.again i)

/-- The body of the outer loop, for the byte `c` at `i`. -/
def scanByte (query : Bytes) (i : ℕ) (c : UInt8) : Scan (Pass ℕ Bool) := do
  if ← opensWith query i c dash dash then goOn (skipWhile (· != newline) query (i + 2))
  else if ← opensWith query i c slash star then goOn (skipBlockComment query (i + 2))
  else if c = apostrophe then goOn (skipQuoted apostrophe query (i + 1))
  else if c = doubleQuote then goOn (skipQuoted doubleQuote query (i + 1))
  else if ← atWordStart query i c then
    if ← matchesKeyword query i visualiseKeywords then pure (.leave true)
    else goOn (skipWhile isIdentChar query i)
  else pure (.again (i + 1))

/-- One pass of the outer loop of `ContainsVisualiseKeyword`, behind its head. -/
def scanBody (query : Bytes) (i : ℕ) : Scan (Pass ℕ Bool) :=
  if i < query.length then do
    let c ← byteAt query i
    scanByte query i c
  else pure (.leave false)

/-- One pass of the outer loop. -/
def scanStep (query : Bytes) (i : ℕ) : Scan (Pass ℕ Bool) := do
  Traced.emit (.pass i)
  scanBody query i

/-- `ContainsVisualiseKeyword` -/
def containsVisualiseKeyword (query : Bytes) : Scan Bool :=
  Traced.loop (scanStep query) (query.length + 1) 0

/-! ## §3 Watching does not change the scan -/

@[simp] theorem result_byteAt (query : Bytes) (k : ℕ) :
    (byteAt query k).result = GgsqlDuckdb.byteAt query k := by
  simp [byteAt, GgsqlDuckdb.byteAt]

@[simp] theorem result_byteAt_succ (query : Bytes) (k : ℕ) :
    (byteAt query ((k : ℤ) + 1)).result = GgsqlDuckdb.byteAt query (k + 1) :=
  result_byteAt query (k + 1)

theorem result_byteAt_pred (query : Bytes) {k : ℕ} (hk : 0 < k) :
    (byteAt query ((k : ℤ) - 1)).result = GgsqlDuckdb.byteAt query (k - 1) := by
  have hcast : (k : ℤ) - 1 = ((k - 1 : ℕ) : ℤ) := by omega
  rw [hcast]
  exact result_byteAt query (k - 1)

theorem result_matchesNoCase (haystack needle : Bytes) (pos : ℕ) :
    (matchesNoCase haystack pos needle).result =
      GgsqlDuckdb.matchesNoCase haystack pos needle := by
  induction needle generalizing pos with
  | nil => rfl
  | cons b needle ih => simp [matchesNoCase, GgsqlDuckdb.matchesNoCase, ih]

/-- The negated test of a byte, and the branch of the source on it. -/
theorem bind_not (x : Option UInt8) :
    (x.bind fun c => some (!isIdentChar c)) =
      x.bind fun c => if isIdentChar c then some false else some true := by
  cases x with
  | none => rfl
  | some c => cases h : isIdentChar c <;> simp [h]

theorem result_boundedInFront (haystack : Bytes) (pos : ℕ) :
    (boundedInFront haystack pos).result =
      if pos > 0 then (GgsqlDuckdb.byteAt haystack (pos - 1)).bind fun c =>
        if isIdentChar c then some false else some true
      else some true := by
  unfold boundedInFront
  by_cases hpos : pos > 0
  · rw [if_pos hpos, if_pos hpos, ← bind_not, ← result_byteAt_pred haystack hpos,
      Traced.result_bind]
    rfl
  · rw [if_neg hpos, if_neg hpos]
    rfl

theorem result_boundedBehind (haystack : Bytes) (after : ℕ) :
    (boundedBehind haystack after).result =
      if after < haystack.length then (GgsqlDuckdb.byteAt haystack after).bind fun c =>
        if isIdentChar c then some false else some true
      else some true := by
  unfold boundedBehind
  rw [Traced.result_ite, Traced.result_bind, ← bind_not, ← result_byteAt]
  rfl

theorem result_matchesWholeWord (haystack needle : Bytes) (pos : ℕ) :
    (matchesWholeWord haystack pos needle).result =
      GgsqlDuckdb.matchesWholeWord haystack pos needle := by
  unfold matchesWholeWord GgsqlDuckdb.matchesWholeWord
  by_cases hshort : pos + needle.length > haystack.length
  · simp [hshort]
  rw [if_neg hshort]
  simp only [Traced.result_bind, Traced.result_ite, result_matchesNoCase,
    result_boundedInFront, result_boundedBehind, Traced.result_pure]
  cases GgsqlDuckdb.matchesNoCase haystack pos needle with
  | none => simp [hshort]
  | some found =>
    cases found with
    | false => simp [hshort]
    | true =>
      by_cases hpos : pos > 0
      · cases GgsqlDuckdb.byteAt haystack (pos - 1) with
        | none => simp [hshort, hpos]
        | some c => cases hident : isIdentChar c <;> simp [hshort, hpos, hident]
      · simp [hshort, hpos]

theorem result_matchesKeyword (query : Bytes) (i : ℕ) (kws : List Bytes) :
    (matchesKeyword query i kws).result = GgsqlDuckdb.matchesKeyword query i kws := by
  induction kws with
  | nil => rfl
  | cons kw kws ih =>
    simp only [matchesKeyword, GgsqlDuckdb.matchesKeyword, Traced.result_bind,
      Traced.result_ite, result_matchesWholeWord, Traced.result_pure, ih]
    rfl

theorem result_skipWhile (p : UInt8 → Bool) (query : Bytes) (i : ℕ) :
    (skipWhile p query i).result = GgsqlDuckdb.skipWhile p query i := by
  unfold skipWhile GgsqlDuckdb.skipWhile
  rw [Traced.result_loop]
  congr 1
  funext i
  by_cases hi : i < query.length
  · simp only [hi, if_true, Traced.result_bind, result_byteAt]
    cases GgsqlDuckdb.byteAt query i <;> rfl
  · simp [hi]

theorem result_findBlockEnd (query : Bytes) (i : ℕ) :
    (findBlockEnd query i).result = GgsqlDuckdb.findBlockEnd query i := by
  unfold findBlockEnd GgsqlDuckdb.findBlockEnd
  rw [Traced.result_loop]
  congr 1
  funext i
  by_cases hi : i + 1 < query.length <;> simp [hi]

theorem result_skipBlockComment (query : Bytes) (i : ℕ) :
    (skipBlockComment query i).result = GgsqlDuckdb.skipBlockComment query i := by
  unfold skipBlockComment GgsqlDuckdb.skipBlockComment
  rw [Traced.result_bind, result_findBlockEnd, Option.map_eq_bind]
  rfl

theorem result_skipQuoted (quote : UInt8) (query : Bytes) (i : ℕ) :
    (skipQuoted quote query i).result = GgsqlDuckdb.skipQuoted quote query i := by
  unfold skipQuoted GgsqlDuckdb.skipQuoted
  rw [Traced.result_loop]
  congr 1
  funext i
  by_cases hi : i < query.length
  · by_cases hi' : i + 1 < query.length <;> simp [hi, hi']
  · simp [hi]

theorem result_opensWith (query : Bytes) (i : ℕ) (c a b : UInt8) :
    (opensWith query i c a b).result = GgsqlDuckdb.opensWith query i c a b := by
  unfold opensWith GgsqlDuckdb.opensWith
  rw [Traced.result_ite, Traced.result_bind, result_byteAt_succ, Option.map_eq_bind]
  rfl

theorem result_atWordStart (query : Bytes) (i : ℕ) (c : UInt8) :
    (atWordStart query i c).result = GgsqlDuckdb.atWordStart query i c := by
  unfold atWordStart GgsqlDuckdb.atWordStart
  by_cases hi : i = 0
  · simp [hi]
  · rw [if_neg hi, if_neg hi, Traced.result_ite, Traced.result_bind,
      result_byteAt_pred query (Nat.pos_of_ne_zero hi), Option.map_eq_bind]
    rfl

@[simp] theorem result_goOn (x : Scan ℕ) :
    (goOn x).result = x.result.bind fun i => some (.again i) := by
  unfold goOn
  rw [Traced.result_bind]
  rfl

theorem result_scanStep (query : Bytes) (i : ℕ) :
    (scanStep query i).result = GgsqlDuckdb.scanStep query i := by
  unfold scanStep scanBody scanByte GgsqlDuckdb.scanStep
  simp [result_opensWith, result_atWordStart, result_skipBlockComment, result_skipQuoted,
    result_skipWhile, result_matchesKeyword, skipLineComment, skipIdentifier,
    skipStringLiteral, skipQuotedIdentifier]

/-- **Watching the scanner does not change it.** -/
theorem result_containsVisualiseKeyword (query : Bytes) :
    (containsVisualiseKeyword query).result = GgsqlDuckdb.containsVisualiseKeyword query := by
  unfold containsVisualiseKeyword GgsqlDuckdb.containsVisualiseKeyword
  rw [Traced.result_loop]
  congr 1
  funext i
  exact result_scanStep query i

/-! ## §4 Every read and every position -/

/-- What may happen inside a pass over a text of `n` bytes. -/
def Inner (n : ℕ) : ScanEvent → Prop
  | .read k => 0 ≤ k ∧ k < n
  | .position i => i ≤ n
  | .pass _ => False

section Bounds

open Traced

variable {query : Bytes} {i : ℕ}

theorem meets_byteAt {k : ℤ} (h : 0 ≤ k ∧ k < query.length) :
    Meets (Inner query.length) (fun c => query[k.toNat]? = some c) (byteAt query k) := by
  constructor
  · intro e he
    rw [List.mem_singleton.mp he]
    exact h
  · intro c hc
    simpa [byteAt, h.1] using hc

theorem meets_matchesNoCase (needle : Bytes) (h : i + needle.length ≤ query.length) :
    Meets (Inner query.length) (fun _ => True) (matchesNoCase query i needle) := by
  induction needle generalizing i with
  | nil => exact .pure trivial
  | cons b needle ih =>
    rw [List.length_cons] at h
    apply (meets_byteAt (by omega)).bind
    intro a _
    exact .ite (fun _ => .pure trivial) fun _ => ih (by omega)

theorem meets_boundedInFront (hi : i ≤ query.length) :
    Meets (Inner query.length) (fun _ => True) (boundedInFront query i) := by
  apply Meets.ite
  · intro hpos
    exact (meets_byteAt (by omega)).bind fun c _ => .pure trivial
  · exact fun _ => .pure trivial

theorem meets_boundedBehind (after : ℕ) :
    Meets (Inner query.length) (fun _ => True) (boundedBehind query after) := by
  apply Meets.ite
  · intro hafter
    exact (meets_byteAt (by omega)).bind fun c _ => .pure trivial
  · exact fun _ => .pure trivial

theorem meets_matchesWholeWord (needle : Bytes) :
    Meets (Inner query.length) (fun _ => True) (matchesWholeWord query i needle) := by
  apply Meets.ite
  · exact fun _ => .pure trivial
  · intro hshort
    -- the whole keyword lies inside the text
    apply (meets_matchesNoCase needle (by omega)).bind
    intro found _
    apply Meets.ite
    · intro _
      apply (meets_boundedInFront (by omega)).bind
      intro bounded _
      exact .ite (fun _ => meets_boundedBehind _) fun _ => .pure trivial
    · exact fun _ => .pure trivial

theorem meets_matchesKeyword (kws : List Bytes) :
    Meets (Inner query.length) (fun _ => True) (matchesKeyword query i kws) := by
  induction kws with
  | nil => exact .pure trivial
  | cons kw kws ih =>
    apply (meets_matchesWholeWord kw).bind
    intro found _
    exact .ite (fun _ => .pure trivial) fun _ => ih

/-- Where a skipping loop that starts at `i` may stand. -/
def Within (query : Bytes) (i j : ℕ) : Prop := i ≤ j ∧ j ≤ query.length

theorem meets_position {j : ℕ} (hj : j ≤ query.length) :
    Meets (Inner query.length) (fun _ => True) (emit (.position j)) := .emit hj

theorem meets_skipWhile (p : UInt8 → Bool) (hi : i ≤ query.length) :
    Meets (Inner query.length)
      (fun j => Within query i j ∧ ((∃ c, query[i]? = some c ∧ p c = true) → i < j))
      (skipWhile p query i) := by
  apply Meets.loop (Within query i) _ _ ⟨le_rfl, hi⟩
  rintro j ⟨hij, hj⟩
  apply (meets_position hj).bind
  intro _ _
  apply Meets.ite
  · intro hlt
    apply (meets_byteAt (by omega)).bind
    intro c hc
    apply Meets.pure
    cases hp : p c with
    | true => exact ⟨by omega, by omega⟩
    | false =>
      refine ⟨⟨hij, hj⟩, ?_⟩
      -- the byte the loop stops at is not the one it started from
      rintro ⟨d, hd, hpd⟩
      by_contra hstay
      obtain rfl : i = j := by omega
      rw [Int.toNat_natCast, hd] at hc
      obtain rfl := Option.some.inj hc
      rw [hp] at hpd
      cases hpd
  · intro hend
    apply Meets.pure
    refine ⟨⟨hij, hj⟩, ?_⟩
    rintro ⟨d, hd, -⟩
    have hlt := (List.getElem?_eq_some_iff.mp hd).1
    omega

theorem meets_findBlockEnd (hi : i ≤ query.length) :
    Meets (Inner query.length) (Within query i) (findBlockEnd query i) := by
  apply Meets.loop (Within query i) _ _ ⟨le_rfl, hi⟩
  rintro j ⟨hij, hj⟩
  apply (meets_position hj).bind
  intro _ _
  apply Meets.ite
  · intro hlt
    apply (meets_byteAt (by omega)).bind
    intro c _
    apply Meets.ite
    · intro _
      apply (meets_byteAt (by omega)).bind
      intro d _
      exact .ite (fun _ => .pure ⟨hij, hj⟩) fun _ => .pure ⟨by omega, by omega⟩
    · exact fun _ => .pure ⟨by omega, by omega⟩
  · exact fun _ => .pure ⟨hij, hj⟩

theorem meets_skipBlockComment (hi : i ≤ query.length) :
    Meets (Inner query.length) (Within query i) (skipBlockComment query i) := by
  apply (meets_findBlockEnd hi).bind
  rintro j ⟨hij, hj⟩
  apply Meets.pure
  -- past the `*/`, or to the end
  split
  · exact ⟨by omega, by omega⟩
  · exact ⟨hi, le_rfl⟩

theorem meets_skipQuoted (quote : UInt8) (hi : i ≤ query.length) :
    Meets (Inner query.length) (Within query i) (skipQuoted quote query i) := by
  apply Meets.loop (Within query i) _ _ ⟨le_rfl, hi⟩
  rintro j ⟨hij, hj⟩
  apply (meets_position hj).bind
  intro _ _
  apply Meets.ite
  · intro hlt
    apply (meets_byteAt (by omega)).bind
    intro c _
    apply Meets.ite
    · intro _
      apply Meets.ite
      · intro hlt'
        apply (meets_byteAt (by omega)).bind
        intro d _
        exact .ite (fun _ => .pure ⟨by omega, by omega⟩) fun _ => .pure ⟨by omega, by omega⟩
      · exact fun _ => .pure ⟨by omega, by omega⟩
    · exact fun _ => .pure ⟨by omega, by omega⟩
  · exact fun _ => .pure ⟨hij, hj⟩

/-- The next pass starts behind this one, inside the text. -/
def Advances (query : Bytes) (i j : ℕ) : Prop := i < j ∧ j ≤ query.length

theorem meets_goOn {x : Scan ℕ} (hx : Meets (Inner query.length) (Advances query i) x) :
    Meets (Inner query.length) (Ends (Advances query i) fun _ => True) (goOn x) :=
  hx.bind fun _ hj => .pure hj

theorem meets_opensWith (c a b : UInt8) :
    Meets (Inner query.length) (fun opens => opens = true → i + 1 < query.length)
      (opensWith query i c a b) := by
  apply Meets.ite
  · rintro ⟨-, hlt⟩
    apply (meets_byteAt (by omega)).bind
    exact fun d _ => .pure fun _ => hlt
  · exact fun _ => .pure nofun

theorem meets_atWordStart (c : UInt8) (hi : i < query.length) :
    Meets (Inner query.length) (fun starts => starts = true → isIdentChar c = true)
      (atWordStart query i c) := by
  apply Meets.ite
  · intro hident
    apply Meets.ite
    · exact fun _ => .pure fun _ => hident
    · intro hpos
      apply (meets_byteAt (by omega)).bind
      exact fun p _ => .pure fun _ => hident
  · exact fun _ => .pure nofun

/-- One pass for the byte at `i`: each form is skipped to a place behind it. -/
theorem meets_scanByte {c : UInt8} (hc : query[i]? = some c) :
    Meets (Inner query.length) (Ends (Advances query i) fun _ => True) (scanByte query i c) := by
  have hi := (List.getElem?_eq_some_iff.mp hc).1
  apply (meets_opensWith c dash dash).bind
  intro line hline
  apply Meets.ite
  · intro hopens
    have hlt := hline hopens
    apply meets_goOn
    exact (meets_skipWhile _ (by omega)).mono fun j hj => ⟨by have := hj.1.1; omega, hj.1.2⟩
  intro _
  apply (meets_opensWith c slash star).bind
  intro block hblock
  apply Meets.ite
  · intro hopens
    have hlt := hblock hopens
    apply meets_goOn
    exact (meets_skipBlockComment (by omega)).mono fun j hj => ⟨by have := hj.1; omega, hj.2⟩
  intro _
  apply Meets.ite
  · intro _
    apply meets_goOn
    exact (meets_skipQuoted _ (by omega)).mono fun j hj => ⟨by have := hj.1; omega, hj.2⟩
  intro _
  apply Meets.ite
  · intro _
    apply meets_goOn
    exact (meets_skipQuoted _ (by omega)).mono fun j hj => ⟨by have := hj.1; omega, hj.2⟩
  intro _
  apply (meets_atWordStart c hi).bind
  intro starts hstarts
  apply Meets.ite
  · intro hword
    apply (meets_matchesKeyword visualiseKeywords).bind
    intro found _
    apply Meets.ite
    · exact fun _ => .pure trivial
    · intro _
      -- the byte at `i` is a word byte, so the word is not empty
      apply meets_goOn
      exact (meets_skipWhile _ (by omega)).mono fun j hj => ⟨hj.2 ⟨c, hc, hstarts hword⟩, hj.1.2⟩
  · exact fun _ => .pure ⟨by omega, hi⟩

theorem meets_scanBody :
    Meets (Inner query.length) (Ends (Advances query i) fun _ => True) (scanBody query i) := by
  apply Meets.ite
  · intro hi
    apply (meets_byteAt (by omega)).bind
    intro c hc
    exact meets_scanByte hc
  · exact fun _ => .pure trivial

end Bounds

/-! ## §5 The whole scan -/

/-- What may happen in a scan of a text of `n` bytes. -/
def Safe (n : ℕ) : ScanEvent → Prop
  | .pass i => i ≤ n
  | e => Inner n e

theorem safe_of_inner {n : ℕ} {e : ScanEvent} (h : Inner n e) : Safe n e := by
  cases e with
  | pass i => cases h
  | _ => exact h

theorem scanStep_events (query : Bytes) (i : ℕ) :
    (scanStep query i).events = .pass i :: (scanBody query i).events := rfl

/-- A pass that goes around again has moved on, and stays inside the text. -/
theorem scanStep_advances {query : Bytes} {i j : ℕ}
    (h : (scanStep query i).result = some (.again j)) : i < j ∧ j ≤ query.length := by
  have hbody : (scanBody query i).result = some (.again j) := h
  exact meets_scanBody.result _ hbody

/-- A pass leaves its mark once. -/
theorem scanStep_mark (query : Bytes) (i : ℕ) :
    (scanStep query i).events.filterMap ScanEvent.passed = [i] := by
  have hinner : (scanBody query i).events.filterMap ScanEvent.passed = [] := by
    rw [List.filterMap_eq_nil_iff]
    intro e he
    have h := meets_scanBody.events e he
    cases e with
    | pass j => cases h
    | _ => rfl
  rw [scanStep_events, List.filterMap_cons, hinner]
  rfl

theorem safe_events (query : Bytes) :
    ∀ e ∈ (containsVisualiseKeyword query).events, Safe query.length e := by
  have hscan : Traced.Meets (Safe query.length) (fun _ => True)
      (containsVisualiseKeyword query) := by
    apply Traced.Meets.loop (fun i => i ≤ query.length) _ _ (Nat.zero_le _)
    intro i hi
    constructor
    · intro e he
      rw [scanStep_events] at he
      rcases List.mem_cons.mp he with rfl | hinner
      · exact hi
      · exact safe_of_inner (meets_scanBody.events e hinner)
    · intro pass hpass
      cases pass with
      | again j => exact (scanStep_advances hpass).2
      | leave found => trivial
  exact hscan.events

end Watched

/-- **The scanner is safe and comes to an end** on every text: it delivers the result of the
plain scan, every index it reads lies inside the text, no value of `i` is behind its end, and
the passes of the outer loop, each of which moves on or returns, start further and further
on. -/
theorem scan_safe (query : Bytes) :
    (∃ found, (Watched.containsVisualiseKeyword query).result = some found ∧
      containsVisualiseKeyword query = some found) ∧
    (∀ k : ℤ, .read k ∈ (Watched.containsVisualiseKeyword query).events →
      0 ≤ k ∧ k < query.length) ∧
    (∀ i, .position i ∈ (Watched.containsVisualiseKeyword query).events ∨
      .pass i ∈ (Watched.containsVisualiseKeyword query).events → i ≤ query.length) ∧
    (∀ i j, (Watched.scanStep query i).result = some (.again j) → i < j ∧ j ≤ query.length) ∧
    ((Watched.containsVisualiseKeyword query).events.filterMap ScanEvent.passed).Pairwise
      (· < ·) := by
  have hevents := Watched.safe_events query
  refine ⟨?_, ?_, ?_, ?_, ?_⟩
  · refine ⟨hasKeyword query, ?_, containsVisualiseKeyword_eq query⟩
    rw [Watched.result_containsVisualiseKeyword, containsVisualiseKeyword_eq]
  · intro k hk
    exact hevents _ hk
  · rintro i (hposition | hpass)
    · exact hevents _ hposition
    · exact hevents _ hpass
  · intro i j h
    exact Watched.scanStep_advances h
  · refine (Traced.marks_loop ScanEvent.passed id (fun _ => True) ?_ _ trivial).1
    intro i _
    refine ⟨Watched.scanStep_mark query i, ?_⟩
    intro j hj
    exact ⟨trivial, (Watched.scanStep_advances hj).1⟩

end GgsqlDuckdb
