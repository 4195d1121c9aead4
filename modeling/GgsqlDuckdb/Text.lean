import Mathlib.Data.List.Basic
import Mathlib.Tactic.Basic

/-!
# Bytes and text

Statement texts are byte strings (`std::string`), so the parser side works on `Bytes`.  The
character classes are those of `<cctype>` in the C locale.
-/

namespace GgsqlDuckdb

/-- A byte string. -/
abbrev Bytes := List UInt8

/-- The bytes of an ASCII literal. -/
def ascii (s : String) : Bytes := s.toList.map Char.toUInt8

/-! ## Character classes of the C locale -/

/-- `std::isalnum` -/
def isalnum (c : UInt8) : Bool :=
  (0x30 ≤ c && c ≤ 0x39) || (0x41 ≤ c && c ≤ 0x5a) || (0x61 ≤ c && c ≤ 0x7a)

/-- `std::isspace` -/
def isspace (c : UInt8) : Bool := c == 0x20 || (0x09 ≤ c && c ≤ 0x0d)

/-- `std::tolower` -/
def tolower (c : UInt8) : UInt8 := if 0x41 ≤ c && c ≤ 0x5a then c + 0x20 else c

end GgsqlDuckdb
