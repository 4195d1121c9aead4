import GgsqlDuckdb.Library.Loop
import GgsqlDuckdb.Text

/-!
# The keyword scanner of the parser extension

`src/ggsql_parser.cpp` scans the statement text by position.  Every read `query[k]` goes
through `byteAt`, which faults past the end of the text, and every `while` loop runs with a
budget, so `some b` as the outcome of the scan says that it stayed inside the text, that it
came to an end and that it returned `b`.
-/

namespace GgsqlDuckdb

open Library

/-! ## Bytes the scanner looks for -/

def newline : UInt8 := 0x0a
def dash : UInt8 := 0x2d
def slash : UInt8 := 0x2f
def star : UInt8 := 0x2a
def apostrophe : UInt8 := 0x27
def doubleQuote : UInt8 := 0x22
def semicolon : UInt8 := 0x3b

/-- `IsIdentChar` -/
def isIdentChar (c : UInt8) : Bool := isalnum c || c == 0x5f

/-- `VISUALISE_KEYWORDS` -/
def visualiseKeywords : List Bytes := [ascii "VISUALISE", ascii "VISUALIZE"]

/-- The read `query[k]`. -/
def byteAt (query : Bytes) (k : ℕ) : Option UInt8 := query[k]?

/-! ## Whole-word matching -/

/-- The comparison loop of `MatchesWholeWord`. -/
def matchesNoCase (haystack : Bytes) : ℕ → Bytes → Option Bool
  | _, [] => some true
  | pos, b :: needle => do
    let a ← byteAt haystack pos
    if tolower a ≠ tolower b then some false else matchesNoCase haystack (pos + 1) needle

/-- `MatchesWholeWord` -/
def matchesWholeWord (haystack : Bytes) (pos : ℕ) (needle : Bytes) : Option Bool := do
  if pos + needle.length > haystack.length then return false
  if !(← matchesNoCase haystack pos needle) then return false
  -- word boundary in front
  if pos > 0 then
    if isIdentChar (← byteAt haystack (pos - 1)) then return false
  -- word boundary behind
  let after := pos + needle.length
  if after < haystack.length then
    if isIdentChar (← byteAt haystack after) then return false
  return true

/-- The loop over `VISUALISE_KEYWORDS`. -/
def matchesKeyword (query : Bytes) (i : ℕ) : List Bytes → Option Bool
  | [] => some false
  | kw :: kws => do
    if ← matchesWholeWord query i kw then return true
    matchesKeyword query i kws

/-! ## The loops that skip a segment -/

/-- `while (i < n && p(query[i])) i++`, the shape of two of the loops. -/
def skipWhile (p : UInt8 → Bool) (query : Bytes) : ℕ → Option ℕ :=
  loop (fun i =>
    if i < query.length then
      (byteAt query i).map fun c => if p c then .again (i + 1) else .leave i
    else some (.leave i))
    (query.length + 1)

/-- Skip a line comment, to the next newline or to the end. -/
def skipLineComment : Bytes → ℕ → Option ℕ := skipWhile (· != newline)

/-- Skip to the end of the identifier. -/
def skipIdentifier : Bytes → ℕ → Option ℕ := skipWhile isIdentChar

/-- Search for `*/`; stops at its star, or on the last byte when there is none. -/
def findBlockEnd (query : Bytes) : ℕ → Option ℕ :=
  loop (fun i =>
    if i + 1 < query.length then do
      if (← byteAt query i) = star then
        if (← byteAt query (i + 1)) = slash then return .leave i
      return .again (i + 1)
    else some (.leave i))
    (query.length + 1)

/-- Skip past the `*/`, or to the end. -/
def skipBlockComment (query : Bytes) (i : ℕ) : Option ℕ :=
  (findBlockEnd query i).map fun i => if i + 1 < query.length then i + 2 else query.length

/-- Skip past the closing `quote`; a doubled quote is content. -/
def skipQuoted (quote : UInt8) (query : Bytes) : ℕ → Option ℕ :=
  loop (fun i =>
    if i < query.length then do
      if (← byteAt query i) = quote then
        if i + 1 < query.length then
          if (← byteAt query (i + 1)) = quote then return .again (i + 2)
        return .leave (i + 1)
      return .again (i + 1)
    else some (.leave i))
    (query.length + 1)

/-- The loop of the `'...''...'` branch. -/
def skipStringLiteral : Bytes → ℕ → Option ℕ := skipQuoted apostrophe

/-- The loop of the `"...""..."` branch. -/
def skipQuotedIdentifier : Bytes → ℕ → Option ℕ := skipQuoted doubleQuote

/-! ## The scan -/

/-- `c == a && i + 1 < n && query[i + 1] == b`, for the byte `c` at `i`. -/
def opensWith (query : Bytes) (i : ℕ) (c a b : UInt8) : Option Bool :=
  if c = a ∧ i + 1 < query.length then (byteAt query (i + 1)).map (· == b) else some false

/-- `IsIdentChar(c) && (i == 0 || !IsIdentChar(query[i - 1]))`, for the byte `c` at `i`. -/
def atWordStart (query : Bytes) (i : ℕ) (c : UInt8) : Option Bool :=
  if isIdentChar c then
    if i = 0 then some true else (byteAt query (i - 1)).map fun p => !isIdentChar p
  else some false

/-- One pass of the outer loop of `ContainsVisualiseKeyword`. -/
def scanStep (query : Bytes) (i : ℕ) : Option (Pass ℕ Bool) :=
  if i < query.length then do
    let c ← byteAt query i
    if ← opensWith query i c dash dash then
      return .again (← skipLineComment query (i + 2))
    if ← opensWith query i c slash star then
      return .again (← skipBlockComment query (i + 2))
    if c = apostrophe then
      return .again (← skipStringLiteral query (i + 1))
    if c = doubleQuote then
      return .again (← skipQuotedIdentifier query (i + 1))
    -- only a word start is compared with the keywords
    if ← atWordStart query i c then
      if ← matchesKeyword query i visualiseKeywords then
        return .leave true
      return .again (← skipIdentifier query i)
    return .again (i + 1)
  else some (.leave false)

/-- `ContainsVisualiseKeyword` -/
def containsVisualiseKeyword (query : Bytes) : Option Bool :=
  loop (scanStep query) (query.length + 1) 0

/-! ## The parse function -/

/-- The result of `ParseFunction`: decline the statement, or claim it with a
`GgsqlParseData` that holds the text handed to ggsql. -/
inductive ParseResult where
  | declined
  | claimed (query : Bytes)
  deriving DecidableEq, Repr

/-- Strip trailing whitespace and a single statement terminator. -/
def stripTerminator (query : Bytes) : Bytes :=
  let stripped := query.reverse.dropWhile isspace
  (if stripped.head? = some semicolon then stripped.tail else stripped).reverse

/-- `ParseFunction` -/
def parseFunction (query : Bytes) : Option ParseResult := do
  if !(← containsVisualiseKeyword query) then return .declined
  -- the constructor of `GgsqlParseData` receives the stripped text
  return .claimed (stripTerminator query)

end GgsqlDuckdb
