import GgsqlDuckdb.Bridge.Invocation

/-!
# Settings and writers

`ResolveOutputConfig` and `WriterForPath` of `src/ggsql_exec.cpp`: what the two session settings
come to, and which writer a path stands for.

## Main results

- `resolveOutputConfig_eq`: the resolver rejects exactly the modes that are not recognised.
- `writerForPath_ok`: a path is rendered by one of the five writers that touch no browser.
-/

namespace GgsqlDuckdb

/-! ## §1 Errors and text -/

/-- The exceptions of `ggsql_exec.cpp`. -/
inductive ExecError where
  | invalidInput (msg : Bytes)
  | io (msg : Bytes)
  | interrupted
  deriving DecidableEq, Repr

/-- `StringUtil::Lower` -/
def lower (s : Bytes) : Bytes := s.map tolower

def dot : UInt8 := 0x2e

/-! ## §2 The output configuration -/

/-- The values of `ggsql_output` and `ggsql_writer_options` in a session. -/
structure Settings where
  output : Option Bytes
  options : Option Bytes
  deriving DecidableEq, Repr

/-- `Value::ToString` of a text value. -/
def valueToString : Option Bytes → Bytes
  | some text => text
  | none => ascii "NULL"

structure OutputConfig where
  writer : Bytes
  options : Bytes
  binary : Bool
  deriving DecidableEq, Repr

def unrecognisedMode (mode : Bytes) : Bytes :=
  ascii "ggsql: unrecognised value for ggsql_output '" ++ mode ++
    ascii "' (expected 'silent', 'url', 'spec', 'html', 'svg', 'pdf', or 'hep')"

/-- The mode of a session: `StringUtil::Lower(value.ToString())`. -/
def Settings.mode (s : Settings) : Bytes := lower (valueToString s.output)

/-- The options of a session: `options.IsNull() ? "" : options.ToString()`. -/
def Settings.writerOptions (s : Settings) : Bytes :=
  match s.options with
  | some text => text
  | none => []

/-- `ResolveOutputConfig` -/
def resolveOutputConfig (s : Settings) : Except ExecError OutputConfig :=
  let binary := decide (s.mode = ascii "pdf" ∨ s.mode = ascii "hep")
  if s.mode ≠ ascii "silent" ∧ s.mode ≠ ascii "url" ∧ s.mode ≠ ascii "spec" ∧
      s.mode ≠ ascii "html" ∧ binary = false ∧ s.mode ≠ ascii "svg" then
    .error (.invalidInput (unrecognisedMode s.mode))
  else .ok { writer := s.mode, options := s.writerOptions, binary := binary }

/-- The modes that `ggsql_output` takes. -/
def outputModes : List Bytes :=
  [ascii "silent", ascii "url", ascii "spec", ascii "html", ascii "svg", ascii "pdf", ascii "hep"]

theorem mem_outputModes (mode : Bytes) : mode ∈ outputModes ↔
    ¬ (mode ≠ ascii "silent" ∧ mode ≠ ascii "url" ∧ mode ≠ ascii "spec" ∧ mode ≠ ascii "html" ∧
      decide (mode = ascii "pdf" ∨ mode = ascii "hep") = false ∧ mode ≠ ascii "svg") := by
  unfold outputModes
  generalize ascii "silent" = m₁
  generalize ascii "url" = m₂
  generalize ascii "spec" = m₃
  generalize ascii "html" = m₄
  generalize ascii "svg" = m₅
  generalize ascii "pdf" = m₆
  generalize ascii "hep" = m₇
  simp only [List.mem_cons, List.not_mem_nil, or_false, decide_eq_false_iff_not]
  tauto

/-- **The resolver rejects exactly the modes that are not recognised.** -/
theorem resolveOutputConfig_eq (s : Settings) :
    resolveOutputConfig s =
      if s.mode ∈ outputModes then
        .ok ⟨s.mode, s.writerOptions, decide (s.mode = ascii "pdf" ∨ s.mode = ascii "hep")⟩
      else .error (.invalidInput (unrecognisedMode s.mode)) := by
  unfold resolveOutputConfig
  by_cases hmem : s.mode ∈ outputModes
  · rw [if_pos hmem, if_neg ((mem_outputModes s.mode).mp hmem)]
  · rw [if_neg hmem, if_pos (not_not.mp (mt (mem_outputModes s.mode).mpr hmem))]

/-- The message of a rejected mode names it. -/
theorem unrecognisedMode_injective {m m' : Bytes} (h : unrecognisedMode m = unrecognisedMode m') :
    m = m' := by
  unfold unrecognisedMode at h
  exact List.append_cancel_left (List.append_cancel_right h)

/-! ## §3 The writer of a path -/

/-- The text behind the last dot of `path`, if there is a dot. -/
def extension (path : Bytes) : Option Bytes :=
  if dot ∈ path then some (path.reverse.takeWhile (· != dot)).reverse else none

def noExtension (path : Bytes) : Bytes :=
  ascii "ggsql: cannot infer an output format from '" ++ path ++ ascii "' " ++ [0xe2, 0x80, 0x94] ++
    ascii " the path has no extension (supported: .svg, .pdf, .hep, .html, .json)"

def unsupportedFormat (ext path : Bytes) : Bytes :=
  ascii "ggsql: unsupported output format '." ++ ext ++ ascii "' in '" ++ path ++
    ascii "' (supported: .svg, .pdf, .hep, .html, .json)"

/-- `WriterForPath` -/
def writerForPath (path : Bytes) : Except ExecError Bytes :=
  match extension path with
  | none | some [] => .error (.invalidInput (noExtension path))
  | some suffix =>
    let ext := lower suffix
    if ext = ascii "svg" ∨ ext = ascii "pdf" ∨ ext = ascii "hep" ∨ ext = ascii "html" then .ok ext
    else if ext = ascii "json" then .ok (ascii "spec")
    else .error (.invalidInput (unsupportedFormat ext path))

/-- A path is saved by a writer that opens no browser. -/
theorem writerForPath_ok {path writer : Bytes} (h : writerForPath path = .ok writer) :
    writer ∈ [ascii "svg", ascii "pdf", ascii "hep", ascii "html", ascii "spec"] := by
  unfold writerForPath at h
  split at h
  · cases h
  · cases h
  · simp only at h
    split_ifs at h with hnative hjson
    · obtain rfl := Except.ok.inj h
      rcases hnative with hext | hext | hext | hext <;> simp [hext]
    · obtain rfl := Except.ok.inj h
      simp

/-- A path is rejected in a message that is not one of the resolver's. -/
theorem writerForPath_error {path : Bytes} {e : ExecError} (h : writerForPath path = .error e) :
    ∀ mode, e ≠ .invalidInput (unrecognisedMode mode) := by
  -- the messages part at the tenth byte, behind `ggsql: un` or earlier
  have hbyte : ∀ mode, (unrecognisedMode mode)[9]? = some 0x72 := by
    intro mode
    rw [unrecognisedMode, List.append_assoc, List.getElem?_append_left (by decide)]
    decide
  have hmissing : (noExtension path)[9]? ≠ some 0x72 := by
    rw [noExtension, List.append_assoc, List.append_assoc, List.append_assoc,
      List.getElem?_append_left (by decide)]
    decide
  have hunsupported : ∀ ext, (unsupportedFormat ext path)[9]? ≠ some 0x72 := by
    intro ext
    rw [unsupportedFormat, List.append_assoc, List.append_assoc, List.append_assoc,
      List.getElem?_append_left (by decide)]
    decide
  intro mode heq
  subst heq
  unfold writerForPath at h
  split at h
  · exact hmissing (ExecError.invalidInput.inj (Except.error.inj h) ▸ hbyte mode)
  · exact hmissing (ExecError.invalidInput.inj (Except.error.inj h) ▸ hbyte mode)
  · simp only at h
    split_ifs at h
    exact hunsupported _ (ExecError.invalidInput.inj (Except.error.inj h) ▸ hbyte mode)

end GgsqlDuckdb
