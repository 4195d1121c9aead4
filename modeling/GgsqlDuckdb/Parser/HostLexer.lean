import GgsqlDuckdb.Parser.Exactness

/-!
# The host's lexical rules

What the routing of a statement assumes of DuckDB's lexer: besides `'...'` with doubled
quotes, `E'...'` with backslash escapes and `$tag$...$tag$` are string literals, identifiers
continue over letters, digits, `_`, `$` and bytes from `0x80` on, and block comments nest.
The last rule is a parameter, `nests`, since the extension documents that it does not follow
it.  No identifier starts with a digit: a number ends behind its digits or its exponent, and a
word can follow it directly.  Nothing here is translated from the extension: this is the lexer it
is compared with.
-/

namespace GgsqlDuckdb

open Library

def dollar : UInt8 := 0x24
def backslash : UInt8 := 0x5c

def isDigit (c : UInt8) : Bool := 0x30 ≤ c && c ≤ 0x39

theorem ident_of_digit {c : UInt8} (h : isDigit c = true) : isIdentChar c = true := by
  simp only [isDigit] at h
  simp [isIdentChar, isalnum, h]

theorem not_isKeyword_of_digit {c : UInt8} {w : Bytes} (h : isDigit c = true) :
    isKeyword (c :: w) = false := by
  rw [Bool.eq_false_iff]
  intro hkeyword
  have hletter := head_of_isKeyword hkeyword
  -- no digit is a letter
  simp only [isDigit, Bool.and_eq_true, decide_eq_true_eq] at h
  unfold tolower at hletter
  split_ifs at hletter with hupper
  · simp only [Bool.and_eq_true, decide_eq_true_eq] at hupper
    have hlow : 0x41 ≤ c.toNat := UInt8.le_iff_toNat_le.mp hupper.1
    have hhigh : c.toNat ≤ 0x39 := UInt8.le_iff_toNat_le.mp h.2
    omega
  · subst hletter
    exact absurd h.2 (by decide)

/-- A byte of a dollar-quote tag. -/
def isTagChar (c : UInt8) : Bool := isIdentChar c || 0x80 ≤ c

/-- A byte over which an identifier continues. -/
def isHostIdentChar (c : UInt8) : Bool := isTagChar c || c == dollar

inductive HostKind where
  | lineComment
  | blockComment
  | stringLiteral
  | escapeLiteral
  | dollarLiteral
  | quotedIdentifier
  | number
  | word
  | other
  deriving DecidableEq, Repr

/-- Split behind the `*/` that closes a comment with `depth` comments open inside it. -/
def hostBlockTail (nests : Bool) : ℕ → Bytes → Bytes × Bytes
  | _, [] => ([], [])
  | _, [c] => ([c], [])
  | depth, c :: d :: t =>
    if c = star ∧ d = slash then
      match depth with
      | 0 => ([c, d], t)
      | depth + 1 => (c :: d :: (hostBlockTail nests depth t).1, (hostBlockTail nests depth t).2)
    else if nests ∧ c = slash ∧ d = star then
      (c :: d :: (hostBlockTail nests (depth + 1) t).1, (hostBlockTail nests (depth + 1) t).2)
    else (c :: (hostBlockTail nests depth (d :: t)).1, (hostBlockTail nests depth (d :: t)).2)

/-- Split behind the quote that closes an `E'...'` literal. -/
def escapeTail : Bytes → Bytes × Bytes
  | [] => ([], [])
  | [c] => ([c], [])
  | c :: d :: t =>
    if c = backslash then (c :: d :: (escapeTail t).1, (escapeTail t).2)
    else if c = apostrophe then
      if d = apostrophe then (c :: d :: (escapeTail t).1, (escapeTail t).2)
      else ([c], d :: t)
    else (c :: (escapeTail (d :: t)).1, (escapeTail (d :: t)).2)

/-- The tag of a dollar quote whose first `$` stands in front of `t`. -/
def dollarTag (t : Bytes) : Option Bytes :=
  if (t.head?.all fun c => !isDigit c) ∧
      (t.dropWhile isTagChar).head? = some dollar then
    some (t.takeWhile isTagChar)
  else none

/-- Split behind the next `close`. -/
def dollarTail (close : Bytes) : Bytes → Bytes × Bytes
  | [] => ([], [])
  | c :: t =>
    if close <+: c :: t then (close, (c :: t).drop close.length)
    else (c :: (dollarTail close t).1, (dollarTail close t).2)

/-- Split behind the digits that go on with a number, and behind those of an exponent. -/
def numberTail (t : Bytes) : Bytes × Bytes :=
  match t.dropWhile isDigit with
  | [] => (t, [])
  | c :: u =>
    if (c = 0x45 ∨ c = 0x65) ∧ u.head?.any isDigit then
      (t.takeWhile isDigit ++ c :: u.takeWhile isDigit, u.dropWhile isDigit)
    else (t.takeWhile isDigit, c :: u)

/-- The first token of a text under the host's rules, and what is behind it. -/
def hostNext (nests : Bool) : Bytes → Option (HostKind × Bytes × Bytes)
  | [] => none
  | c :: t =>
    if c = dash ∧ t.head? = some dash then
      some (.lineComment, dash :: dash :: t.tail.takeWhile (· != newline),
        t.tail.dropWhile (· != newline))
    else if c = slash ∧ t.head? = some star then
      some (.blockComment, slash :: star :: (hostBlockTail nests 0 t.tail).1,
        (hostBlockTail nests 0 t.tail).2)
    else if c = apostrophe then
      some (.stringLiteral, c :: (quotedTail c t).1, (quotedTail c t).2)
    else if c = doubleQuote then
      some (.quotedIdentifier, c :: (quotedTail c t).1, (quotedTail c t).2)
    else if (c = 0x45 ∨ c = 0x65) ∧ t.head? = some apostrophe then
      some (.escapeLiteral, c :: apostrophe :: (escapeTail t.tail).1, (escapeTail t.tail).2)
    else if isDigit c then
      some (.number, c :: (numberTail t).1, (numberTail t).2)
    -- the `E` was tried as a prefix before it can start a word
    else if isTagChar c then
      some (.word, (c :: t).takeWhile isHostIdentChar, (c :: t).dropWhile isHostIdentChar)
    else if c = dollar then
      match dollarTag t with
      | some tag =>
        -- the literal ends with its own tag, whatever stands between
        let close := dollar :: (tag ++ [dollar])
        let body := (t.dropWhile isTagChar).tail
        some (.dollarLiteral, close ++ (dollarTail close body).1, (dollarTail close body).2)
      | none => some (.other, [c], t)
    else some (.other, [c], t)

/-! ## The host lexer is well defined -/

theorem hostBlockTail_append (nests : Bool) (depth : ℕ) (t : Bytes) :
    (hostBlockTail nests depth t).1 ++ (hostBlockTail nests depth t).2 = t := by
  fun_induction hostBlockTail nests depth t <;> simp_all

theorem escapeTail_append (t : Bytes) : (escapeTail t).1 ++ (escapeTail t).2 = t := by
  fun_induction escapeTail t <;> simp_all

theorem dollarTail_append (close t : Bytes) :
    (dollarTail close t).1 ++ (dollarTail close t).2 = t := by
  fun_induction dollarTail close t with
  | case1 => rfl
  | case2 c t h =>
    obtain ⟨r, hr⟩ := h
    simp [← hr]
  | case3 c t h ih => simp [ih]

theorem numberTail_append (t : Bytes) : (numberTail t).1 ++ (numberTail t).2 = t := by
  unfold numberTail
  split
  · exact List.append_nil t
  · rename_i c u hrest
    split_ifs
    · rw [List.append_assoc, List.cons_append, List.takeWhile_append_dropWhile, ← hrest,
        List.takeWhile_append_dropWhile]
    · rw [← hrest, List.takeWhile_append_dropWhile]

theorem dollarTag_eq {t tag : Bytes} (h : dollarTag t = some tag) :
    tag ++ dollar :: (t.dropWhile isTagChar).tail = t := by
  unfold dollarTag at h
  split_ifs at h with hcond
  obtain rfl : t.takeWhile isTagChar = tag := by simpa using h
  obtain ⟨r, hr⟩ := List.head?_eq_some_iff.mp hcond.2
  -- the tag is what runs up to the `$`
  rw [hr, List.tail_cons, ← hr, List.takeWhile_append_dropWhile]

theorem hostNext_append {nests : Bool} {q s r : Bytes} {k : HostKind}
    (h : hostNext nests q = some (k, s, r)) : s ++ r = q ∧ s ≠ [] := by
  cases q with
  | nil => simp [hostNext] at h
  | cons c t =>
    simp only [hostNext] at h
    have htail : ∀ b, t.head? = some b → b :: t.tail = t := by
      intro b hb
      obtain ⟨t, rfl⟩ := List.head?_eq_some_iff.mp hb
      rfl
    split_ifs at h with h₁ h₂ h₃ h₄ h₅ h₆ h₇ h₈
    · cases h
      simp [h₁.1, htail dash h₁.2]
    · cases h
      simp [h₂.1, htail star h₂.2, hostBlockTail_append]
    · cases h
      simp [quotedTail_append]
    · cases h
      simp [quotedTail_append]
    · cases h
      simp [escapeTail_append, htail apostrophe h₅.2]
    · cases h
      simp [numberTail_append]
    · cases h
      simp [isHostIdentChar, h₇]
    · -- a dollar quote needs a tag behind its first `$`
      cases htag : dollarTag t with
      | none =>
        simp only [htag] at h
        cases h
        simp
      | some tag =>
        simp only [htag] at h
        cases h
        simp [dollarTail_append, dollarTag_eq htag, h₈]
    · cases h
      simp

/-- DuckDB's lexer, with or without nested block comments. -/
def hostLexer (nests : Bool) : Lexer HostKind UInt8 where
  next := hostNext nests
  next_append h := (hostNext_append h).1
  next_ne_nil h := (hostNext_append h).2
  next_eq_none := by
    intro q h
    cases q with
    | nil => rfl
    | cons c t =>
      simp only [hostNext] at h
      split_ifs at h
      cases htag : dollarTag t <;> simp [htag] at h

/-- The text has `VISUALISE` or `VISUALIZE`, in any letter case, as a token of its own
outside every literal, quoted identifier and comment. -/
def hasHostKeyword (nests : Bool) (q : Bytes) : Bool :=
  ((hostLexer nests).tokens q).any fun t => decide (t.1 = .word) && isKeyword t.2

example : hasHostKeyword true
    (ascii "SELECT $$'$$, E'\\'' /* /* */ ' */, 1e5VISUALISE x") = true := by decide

end GgsqlDuckdb
