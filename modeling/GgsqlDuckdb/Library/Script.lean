import GgsqlDuckdb.Library.Base64

/-!
# Script literals and byte arrays

What a browser makes of a double-quoted literal, of `atob` and of a byte array that is filled
from a string, whose elements are its code units.

## Main results

- `stringLiteral_plain`: a literal without quotes, escapes and line ends closes at the next quote.
- `atob_encode`: the text of an encoded byte string comes to its bytes.
-/

namespace Library.Script

/-- The code units of a string. -/
abbrev Units := List UInt16

def quote : UInt8 := 0x22
def backslash : UInt8 := 0x5c
def lineFeed : UInt8 := 0x0a
def carriageReturn : UInt8 := 0x0d

/-! ## §1 Literals -/

/-- Where a literal stands: behind a backslash, behind a line end that one has taken in, or in
neither place. -/
inductive Escape where
  | plain
  | escaped
  | carriage
  deriving DecidableEq, Repr

/-- The source of a literal and the text behind its closing quote; `none` for a literal that its
line does not close. -/
def stringLiteralFrom : Escape → List UInt8 → Option (List UInt8 × List UInt8)
  | _, [] => none
  | state, c :: text =>
    if state = .escaped then
      (stringLiteralFrom (if c = carriageReturn then .carriage else .plain) text).map
        (Prod.map (c :: ·) id)
    else if state = .carriage ∧ c = lineFeed then
      (stringLiteralFrom .plain text).map (Prod.map (c :: ·) id)
    else if c = quote then some ([], text)
    else if c = lineFeed ∨ c = carriageReturn then none
    else
      (stringLiteralFrom (if c = backslash then .escaped else .plain) text).map
        (Prod.map (c :: ·) id)

/-- A literal, from behind its opening quote. -/
def stringLiteral (text : List UInt8) : Option (List UInt8 × List UInt8) :=
  stringLiteralFrom .plain text

/-- A character that stands for itself in a literal. -/
def Plain (c : UInt8) : Prop :=
  c ≠ quote ∧ c ≠ backslash ∧ c ≠ lineFeed ∧ c ≠ carriageReturn

instance (c : UInt8) : Decidable (Plain c) := inferInstanceAs (Decidable (_ ∧ _))

/-- **A literal of plain characters closes at the next quote.** -/
theorem stringLiteral_plain {source : List UInt8} (after : List UInt8)
    (h : ∀ c ∈ source, Plain c) :
    stringLiteral (source ++ quote :: after) = some (source, after) := by
  unfold stringLiteral
  induction source with
  | nil => simp [stringLiteralFrom]
  | cons c source ih =>
    obtain ⟨hquote, hbackslash, hline, hreturn⟩ := h c List.mem_cons_self
    have hrest := ih fun c' hc' => h c' (List.mem_cons_of_mem c hc')
    rw [List.cons_append, stringLiteralFrom, if_neg (by decide), if_neg (by simp), if_neg hquote,
      if_neg (by simp [hline, hreturn]), if_neg hbackslash, hrest]
    rfl

/-- The value of a literal of ASCII characters without escapes.  Others are not followed. -/
def literalValue (source : List UInt8) : Option Units :=
  if source.all fun c => decide (c < 0x80 ∧ c ≠ backslash) then some (source.map UInt8.toUInt16)
  else none

/-! ## §2 `atob` and byte arrays -/

/-- `atob`; `none` where it throws. -/
def atob (text : Units) : Option Units :=
  if text.all fun u => decide (u < 0x100) then
    (Base64.decode (text.map UInt16.toUInt8)).map (List.map UInt8.toUInt16)
  else none

/-- The characters over which a string iterates: a surrogate pair is one of them. -/
def characters : Units → List Units
  | [] => []
  | [u] => [[u]]
  | u :: v :: rest =>
    if (0xd800 ≤ u ∧ u ≤ 0xdbff) ∧ 0xdc00 ≤ v ∧ v ≤ 0xdfff then [u, v] :: characters rest
    else [u] :: characters (v :: rest)

/-- `c.charCodeAt(0)`, as an element of a byte array. -/
def charCode (c : Units) : UInt8 := (c.head?.getD 0).toUInt8

/-- `Uint8Array.from(s, (c) => c.charCodeAt(0))` -/
def byteArrayFrom (s : Units) : List UInt8 := (characters s).map charCode

theorem toUInt16_lt (c : UInt8) : c.toUInt16 < 0x100 := by
  rw [UInt16.lt_iff_toNat_lt, UInt8.toNat_toUInt16]
  exact c.toNat_lt

theorem toUInt16_toUInt8 (bytes : List UInt8) :
    (bytes.map UInt8.toUInt16).map UInt16.toUInt8 = bytes := by
  rw [List.map_map]
  have hid : UInt16.toUInt8 ∘ UInt8.toUInt16 = id := by
    funext c
    exact UInt8.toUInt8_toUInt16 c
  rw [hid, List.map_id]

/-- A string of small code units iterates over them. -/
theorem characters_of_lt {s : Units} (h : ∀ u ∈ s, u < 0x100) :
    characters s = s.map fun u => [u] := by
  fun_induction characters s with
  | case1 => rfl
  | case2 u => rfl
  | case3 u v rest hpair ih =>
    have hu := h u List.mem_cons_self
    have hpair := hpair.1.1
    rw [UInt16.lt_iff_toNat_lt] at hu
    rw [UInt16.le_iff_toNat_le] at hpair
    exact absurd (Nat.lt_of_le_of_lt hpair hu) (by decide)
  | case4 u v rest hpair ih =>
    rw [ih fun w hw => h w (List.mem_cons_of_mem u hw)]
    rfl

/-- The elements of an array filled from bytes are these bytes. -/
theorem byteArrayFrom_bytes (bytes : List UInt8) :
    byteArrayFrom (bytes.map UInt8.toUInt16) = bytes := by
  have hsmall : ∀ u ∈ bytes.map UInt8.toUInt16, u < 0x100 := by
    intro u hu
    obtain ⟨c, -, rfl⟩ := List.mem_map.mp hu
    exact toUInt16_lt c
  unfold byteArrayFrom
  rw [characters_of_lt hsmall, List.map_map]
  exact toUInt16_toUInt8 bytes

/-- **An encoded byte string comes back through `atob`.** -/
theorem atob_encode (bytes : List UInt8) :
    atob ((Base64.encode bytes).map UInt8.toUInt16) = some (bytes.map UInt8.toUInt16) := by
  unfold atob
  rw [if_pos, toUInt16_toUInt8, Base64.decode_encode]
  · rfl
  · apply List.all_eq_true.mpr
    intro u hu
    obtain ⟨c, -, rfl⟩ := List.mem_map.mp hu
    exact decide_eq_true (toUInt16_lt c)

/-- Base64 stands for itself in a literal. -/
theorem plain_encode (bytes : List UInt8) : ∀ c ∈ Base64.encode bytes, Plain c :=
  Base64.forall_mem_encode (by decide) (by decide) bytes

theorem literalValue_encode (bytes : List UInt8) :
    literalValue (Base64.encode bytes) = some ((Base64.encode bytes).map UInt8.toUInt16) := by
  unfold literalValue
  apply if_pos
  apply List.all_eq_true.mpr
  exact Base64.forall_mem_encode (by decide) (by decide) bytes

end Library.Script
