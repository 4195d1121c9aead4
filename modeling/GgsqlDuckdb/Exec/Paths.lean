import GgsqlDuckdb.Library.Separator
import GgsqlDuckdb.Exec.Config
import GgsqlDuckdb.Parser.Scanner

/-!
# File names

`WriterForPath` of `src/ggsql_exec.cpp` looks for the last dot of the whole path.  A dot of a
directory never decides the format, since no extension it takes has a slash in it.

## Main results

- `extension_eq_some_iff`: the text behind the last dot of a path.
- `writerForPath_iff`: the writer of a path, by the name of its file.
-/

namespace GgsqlDuckdb

open Library

/-- The last component of a path. -/
def fileName (path : Bytes) : Bytes := lastPart slash path

/-- What the extensions stand for, in either letter case. -/
inductive Format (suffix : Bytes) : Bytes → Prop where
  | native (h : lower suffix ∈ [ascii "svg", ascii "pdf", ascii "hep", ascii "html"]) :
      Format suffix (lower suffix)
  | json (h : lower suffix = ascii "json") : Format suffix (ascii "spec")

/-- **The text behind the last dot of a path.** -/
theorem extension_eq_some_iff {path suffix : Bytes} :
    extension path = some suffix ↔ AfterLast dot path suffix := by
  have heq : extension path = afterLast dot path := by
    unfold extension afterLast
    simp only [ne_eq, decide_not, bne, beq_eq_decide]
  rw [heq]
  exact afterLast_eq_some_iff

/-- No letter case turns a slash into anything else. -/
theorem slash_mem_lower {suffix : Bytes} (h : slash ∈ suffix) : slash ∈ lower suffix := by
  have hslash : tolower slash = slash := by decide
  exact List.mem_map.mpr ⟨slash, h, hslash⟩

/-- An extension that is taken has no slash in it. -/
theorem Format.no_slash {suffix w : Bytes} (h : Format suffix w) : slash ∉ suffix := by
  intro hmem
  have hlower : slash ∈ lower suffix := slash_mem_lower hmem
  cases h with
  | native h =>
    have hnone : ∀ ext ∈ [ascii "svg", ascii "pdf", ascii "hep", ascii "html"], slash ∉ ext := by
      decide
    exact hnone _ h hlower
  | json h =>
    rw [h] at hlower
    exact absurd hlower (by decide)

theorem not_format_nil (w : Bytes) : ¬ Format [] w := by
  intro h
  cases h with
  | native h => exact absurd h (by decide)
  | json h => exact absurd h (by decide)

/-- The writer of a path, by the text behind its last dot. -/
theorem writerForPath_eq_ok_iff {path w : Bytes} :
    writerForPath path = .ok w ↔ ∃ suffix, AfterLast dot path suffix ∧ Format suffix w := by
  unfold writerForPath
  split
  · rename_i hnone
    constructor
    · nofun
    · rintro ⟨suffix, hafter, -⟩
      rw [extension_eq_some_iff.mpr hafter] at hnone
      cases hnone
  · rename_i hempty
    constructor
    · nofun
    · rintro ⟨suffix, hafter, hformat⟩
      obtain rfl := hafter.unique (extension_eq_some_iff.mp hempty)
      exact absurd hformat (not_format_nil w)
  · rename_i suffix hne hsuffix
    have hafter := extension_eq_some_iff.mp hsuffix
    -- there is no other text behind the last dot
    have hone : (∃ t, AfterLast dot path t ∧ Format t w) ↔ Format suffix w := by
      constructor
      · rintro ⟨t, ht, hformat⟩
        exact ht.unique hafter ▸ hformat
      · intro hformat
        exact ⟨suffix, hafter, hformat⟩
    rw [hone]
    dsimp only
    split_ifs with hnative hjson
    · constructor
      · intro h
        obtain rfl := Except.ok.inj h
        exact .native (by simpa using hnative)
      · intro h
        cases h with
        | native h => rfl
        | json h => rw [h] at hnative; exact absurd hnative (by decide)
    · constructor
      · intro h
        obtain rfl := Except.ok.inj h
        exact .json hjson
      · intro h
        cases h with
        | native h => exact absurd (by simpa using h) hnative
        | json h => rfl
    · constructor
      · nofun
      · intro h
        cases h with
        | native h => exact absurd (by simpa using h) hnative
        | json h => exact absurd h hjson

/-- A path without a writer is rejected as invalid input. -/
theorem writerForPath_rejects {path : Bytes} {e : ExecError} (h : writerForPath path = .error e) :
    ∃ msg, e = .invalidInput msg := by
  unfold writerForPath at h
  split at h
  · exact ⟨_, (Except.error.inj h).symm⟩
  · exact ⟨_, (Except.error.inj h).symm⟩
  · dsimp only at h
    split_ifs at h
    exact ⟨_, (Except.error.inj h).symm⟩

/-- **The writer of a path is decided by the name of its file**: a path has one if and only if its
last component has a dot with a known extension behind the last one, and every other path is
rejected. -/
theorem writerForPath_iff (path : Bytes) :
    (∀ w, writerForPath path = .ok w ↔
      ∃ suffix, AfterLast dot (fileName path) suffix ∧ Format suffix w) ∧
    ((∃ msg, writerForPath path = .error (.invalidInput msg)) ↔
      ¬ ∃ w suffix, AfterLast dot (fileName path) suffix ∧ Format suffix w) := by
  have hiff : ∀ w, writerForPath path = .ok w ↔
      ∃ suffix, AfterLast dot (fileName path) suffix ∧ Format suffix w := by
    intro w
    rw [writerForPath_eq_ok_iff]
    apply exists_congr
    intro suffix
    apply and_congr_left
    intro hformat
    exact afterLast_iff_lastPart (by decide) hformat.no_slash
  refine ⟨hiff, ?_⟩
  constructor
  · rintro ⟨msg, herror⟩ ⟨w, hformat⟩
    have hok := (hiff w).mpr hformat
    rw [herror] at hok
    cases hok
  · intro hnone
    cases hresult : writerForPath path with
    | ok w => exact absurd ⟨w, (hiff w).mp hresult⟩ hnone
    | error e =>
      obtain ⟨msg, rfl⟩ := writerForPath_rejects hresult
      exact ⟨msg, rfl⟩

example : writerForPath (ascii "out.svg/plot") =
    .error (.invalidInput (unsupportedFormat (ascii "svg/plot") (ascii "out.svg/plot"))) := by
  decide

end GgsqlDuckdb
