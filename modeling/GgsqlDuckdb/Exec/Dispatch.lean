import GgsqlDuckdb.Exec.Config
import GgsqlDuckdb.Library.Utf8
import GgsqlDuckdb.Server.Registry
import GgsqlDuckdb.Server.Standalone

/-!
# The Rust dispatcher

`run`, `render_with` and `serve_plot` of `rust/src/lib.rs`.  The ggsql crate and the plot server
answer a call as they like; a `String` of theirs is well-formed text.  Which windows
`serve_plot` opens is left to `Server.spawns`.

## Main results

- `arm_handled_iff`: the writers that are handled are the recognised output modes.
- `run_ends`: how a run ends; the payload of a writer that is not binary is text.
- `returnsRaw_iff`: which writers return what `PdfWriter` or `HepWriter` gave.
-/

namespace GgsqlDuckdb

open Library Library.Utf8

namespace Dispatch

/-! ## §1 Failures -/

/-- How a call into a crate fails: with an error, by its text, or in a panic. -/
inductive CrateFault where
  | error (text : Bytes)
  | panicked
  deriving DecidableEq, Repr

/-- How `run` fails. -/
inductive Fault where
  | error (msg : Bytes)
  | unknownWriter (writer : Bytes)
  | panicked
  | unreachable
  deriving DecidableEq, Repr

/-- What `ggsql_execute` makes of the end of `run`. -/
def rustResult : Except Fault Bytes → RustResult
  | .ok payload => .ok payload
  | .error (.error msg) => .err msg
  | .error (.unknownWriter writer) =>
    .err (ascii "ggsql: unknown writer '" ++ writer ++ ascii "'")
  | .error .panicked => .panic
  | .error .unreachable => .panic

variable {α Options Spec Output : Type}

/-- `map_err` with a text in front of the error. -/
def mapErr (front : Bytes) : Except CrateFault α → Except Fault α
  | .ok a => .ok a
  | .error (.error text) => .error (.error (front ++ text))
  | .error .panicked => .error .panicked

/-! ## §2 The crates -/

/-- A writer of the ggsql crate, kept as the options it is made from. -/
structure Writer (Options Spec Output : Type) where
  fromOptions : Options → Except CrateFault Unit
  render : Options → Spec → Except CrateFault Output

/-- A registration of the plot server, with what `register_plot` reads of it. -/
structure Registration where
  baseUrl : Text
  now : ℕ
  state : Server.State
  id : Server.PlotId

/-- What a call of `ggsql_execute` gets from outside of `lib.rs`. -/
structure Crates (Options Spec : Type) where
  /-- The text of a `Utf8Error`. -/
  utf8Error : Bytes → Bytes
  /-- `CallbackReader::execute` -/
  execute : Bytes → Except CrateFault Spec
  /-- `WriterOptions::parse` -/
  parse : Bytes → Except CrateFault Options
  svgWriter : Writer Options Spec Text
  pdfWriter : Writer Options Spec Bytes
  hepWriter : Writer Options Spec Bytes
  /-- `VegaLiteWriter::render` -/
  vegaLite : Spec → Except CrateFault Text
  /-- `HEP_ASSETS_JS` and `HEP_VIEWER_JS` -/
  assets : Text
  viewer : Text
  registerPlot : Bytes → Except CrateFault Registration

variable (crates : Crates Options Spec)

/-! ## §3 The dispatcher -/

/-- `render_with`; `into` is the conversion of the output. -/
def renderWith (writer : Writer Options Spec Output) (into : Output → Bytes) (spec : Spec)
    (options : Bytes) : Except Fault Bytes := do
  let parsed ← mapErr (ascii "ggsql: ") (crates.parse options)
  mapErr (ascii "ggsql: ") (writer.fromOptions parsed)
  let output ← mapErr (ascii "ggsql: render failed: ") (writer.render parsed spec)
  return into output

/-- `serve_plot` -/
def servePlot (hep mode : Bytes) : Except Fault Bytes := do
  let r ← mapErr (ascii "ggsql: serve failed: ") (crates.registerPlot hep)
  if mode = ascii "url" then
    return (Server.registered r.baseUrl.bytes r.now r.state r.id).plotUrl
  else if mode = ascii "silent" then return []
  else throw .unreachable

def strayOptions : Bytes :=
  ascii "ggsql: ggsql_writer_options does not apply to the 'spec' output mode " ++
    ascii "(options are for the native writers and the browser display)"

/-- The `match` of `run`. -/
def arm (writer : Bytes) (spec : Spec) (options : Bytes) : Except Fault Bytes :=
  if writer = ascii "svg" then renderWith crates crates.svgWriter Text.bytes spec options
  else if writer = ascii "pdf" then renderWith crates crates.pdfWriter id spec options
  else if writer = ascii "hep" then renderWith crates crates.hepWriter id spec options
  else if writer = ascii "html" then do
    let hep ← renderWith crates crates.hepWriter id spec options
    return standaloneHtml crates.assets.bytes crates.viewer.bytes hep
  else if writer = ascii "url" ∨ writer = ascii "silent" then do
    let hep ← renderWith crates crates.hepWriter id spec options
    servePlot crates hep writer
  else if writer = ascii "spec" then
    if blank options then do
      let json ← mapErr (ascii "ggsql: render failed: ") (crates.vegaLite spec)
      return json.bytes
    else throw (.error strayOptions)
  else throw (.unknownWriter writer)

/-- `str::from_utf8` with its `map_err`. -/
def fromUtf8 (front text : Bytes) : Except Fault Unit :=
  if valid text then .ok () else .error (.error (front ++ crates.utf8Error text))

/-- `run` -/
def run (query writer options : Bytes) : Except Fault Bytes := do
  fromUtf8 crates (ascii "ggsql: query is not valid UTF-8: ") query
  fromUtf8 crates (ascii "ggsql: writer name is not valid UTF-8: ") writer
  fromUtf8 crates (ascii "ggsql: writer options are not valid UTF-8: ") options
  let spec ← mapErr (ascii "ggsql: ") (crates.execute query)
  arm crates writer spec options

/-! ## §4 How a call ends -/

/-- A failure that a writer can come to: every one but the arm for unknown writers and the
`unreachable!` of `serve_plot`. -/
def Fault.Handled : Fault → Prop
  | .error _ => True
  | .panicked => True
  | .unknownWriter _ => False
  | .unreachable => False

/-- The value of `r` has `p`, or its failure is handled. -/
def Ends (p : α → Prop) : Except Fault α → Prop
  | .ok a => p a
  | .error f => f.Handled

theorem Ends.bind {p : α → Prop} {p' : Output → Prop} {r : Except Fault α}
    {k : α → Except Fault Output} (hr : Ends p r) (hk : ∀ a, p a → Ends p' (k a)) :
    Ends p' (r >>= k) := by
  cases r with
  | ok a => exact hk a hr
  | error f => exact hr

theorem Ends.imp {p p' : α → Prop} {r : Except Fault α} (hr : Ends p r) (hp : ∀ a, p a → p' a) :
    Ends p' r := by
  cases r with
  | ok a => exact hp a hr
  | error f => exact hr

theorem Ends.handled {p : α → Prop} {r : Except Fault α} {f : Fault} (hr : Ends p r)
    (hf : r = .error f) : f.Handled := by
  rw [hf] at hr
  exact hr

theorem mapErr_ends (front : Bytes) (r : Except CrateFault α) :
    Ends (fun _ => True) (mapErr front r) := by
  cases r with
  | ok a => exact True.intro
  | error f => cases f <;> exact True.intro

variable {writer : Bytes}

theorem renderWith_ends (w : Writer Options Spec Output) (spec : Spec) (options : Bytes)
    {into : Output → Bytes} {p : Bytes → Prop} (hp : ∀ output, p (into output)) :
    Ends p (renderWith crates w into spec options) := by
  apply (mapErr_ends _ _).bind
  intro parsed _
  apply (mapErr_ends _ _).bind
  intro _ _
  apply (mapErr_ends _ _).bind
  intro output _
  exact hp output

/-- The link of a plot is text. -/
theorem plotUrl_wellFormed (r : Registration) :
    WellFormed (Server.registered r.baseUrl.bytes r.now r.state r.id).plotUrl := by
  have hid : WellFormed r.id.text := by
    apply wellFormed_ascii
    intro c hc
    have hchar := r.id.idChar c hc
    simp only [Server.isIdChar, Bool.or_eq_true, Bool.and_eq_true, decide_eq_true_eq, beq_iff_eq]
      at hchar
    rcases hchar with (⟨-, hle⟩ | ⟨-, hle⟩) | rfl
    · exact UInt8.le_trans hle (by decide)
    · exact UInt8.le_trans hle (by decide)
    · decide
  have hmid : WellFormed (ascii "/#plot/") := by decide
  exact (r.baseUrl.wellFormed.append hmid).append hid

theorem servePlot_ends (hep : Bytes) {mode : Bytes}
    (hmode : mode = ascii "url" ∨ mode = ascii "silent") :
    Ends WellFormed (servePlot crates hep mode) := by
  apply (mapErr_ends _ _).bind
  intro r _
  split_ifs with hurl hsilent
  · exact plotUrl_wellFormed r
  · exact WellFormed.nil
  · exact absurd hmode (not_or.mpr ⟨hurl, hsilent⟩)

/-- A self-contained document is text. -/
theorem standaloneHtml_wellFormed (assets viewer : Text) (hep : Bytes) :
    WellFormed (standaloneHtml assets.bytes viewer.bytes hep) := by
  have hopen : WellFormed (ascii "<script>") := by decide
  have hclose : WellFormed (ascii "</script>") := by decide
  have hline : WellFormed [newline] := by decide
  have hbundle : ∀ text : Text,
      WellFormed (ascii "<script>" ++ text.bytes ++ ascii "</script>" ++ [newline]) := fun text =>
    ((hopen.append text.wellFormed).append hclose).append hline
  have hbundles : WellFormed (pageBundles assets.bytes viewer.bytes) :=
    (hbundle assets).append ((hbundle viewer).append .nil)
  have hstyle : WellFormed pageStyle := by decide +kernel
  have hbody : WellFormed pageBody := by decide
  have hhead : WellFormed inlineHead := by decide
  have hquote : WellFormed [Script.quote] := by decide
  have htail : WellFormed inlineTail := by decide
  have hend : WellFormed pageTail := by decide
  have hdoc : WellFormed (Base64.encode hep) :=
    wellFormed_ascii (Base64.forall_mem_encode (by decide) (by decide) hep)
  have hpage : WellFormed (pageHead assets.bytes viewer.bytes) :=
    (hstyle.append hbundles).append hbody
  exact ((((((hpage.append hopen).append hhead).append hdoc).append hquote).append htail).append
    hclose).append hend

/-- **Every recognised mode is handled**, and the payload of one that is not binary is text. -/
theorem arm_ends (spec : Spec) (options : Bytes) (hmode : writer ∈ outputModes) :
    Ends (fun payload => writer ≠ ascii "pdf" → writer ≠ ascii "hep" → WellFormed payload)
      (arm crates writer spec options) := by
  have hrender : ∀ w : Writer Options Spec Bytes,
      Ends (fun _ => True) (renderWith crates w id spec options) :=
    fun w => renderWith_ends crates w spec options fun _ => trivial
  unfold arm
  split_ifs with hsvg hpdf hhep hhtml hserve hspec hblank
  · apply renderWith_ends
    intro output _ _
    exact output.wellFormed
  · apply renderWith_ends
    intro output hne
    exact absurd hpdf hne
  · apply renderWith_ends
    intro output _ hne
    exact absurd hhep hne
  · apply (hrender _).bind
    intro hep _ _ _
    exact standaloneHtml_wellFormed crates.assets crates.viewer hep
  · apply (hrender _).bind
    intro hep _
    apply (servePlot_ends crates hep hserve).imp
    intro payload hpayload _ _
    exact hpayload
  · apply (mapErr_ends _ _).bind
    intro json _ _ _
    exact json.wellFormed
  · exact True.intro
  · -- no recognised mode is left
    obtain ⟨hurl, hsilent⟩ := not_or.mp hserve
    simp only [outputModes, List.mem_cons, List.not_mem_nil, or_false] at hmode
    tauto

/-- **A writer is handled if and only if it is a recognised output mode.** -/
theorem arm_handled_iff (spec : Spec) (options : Bytes) :
    (∀ f, arm crates writer spec options = .error f → f.Handled) ↔ writer ∈ outputModes := by
  constructor
  · intro h
    by_contra hmode
    simp only [outputModes, List.mem_cons, List.not_mem_nil, or_false, not_or] at hmode
    obtain ⟨hsilent, hurl, hspec, hhtml, hsvg, hpdf, hhep⟩ := hmode
    have hunknown : arm crates writer spec options = .error (.unknownWriter writer) := by
      unfold arm
      rw [if_neg hsvg, if_neg hpdf, if_neg hhep, if_neg hhtml,
        if_neg (not_or.mpr ⟨hurl, hsilent⟩), if_neg hspec]
      rfl
    exact h _ hunknown
  · intro hmode f hf
    exact (arm_ends crates spec options hmode).handled hf

theorem fromUtf8_ends (front text : Bytes) : Ends (fun _ => True) (fromUtf8 crates front text) := by
  unfold fromUtf8
  split_ifs <;> exact True.intro

/-- So ends all of `run`. -/
theorem run_ends (query options : Bytes)
    (hmode : writer ∈ outputModes) :
    Ends (fun payload => writer ≠ ascii "pdf" → writer ≠ ascii "hep" → WellFormed payload)
      (run crates query writer options) := by
  apply (fromUtf8_ends crates _ _).bind
  intro _ _
  apply (fromUtf8_ends crates _ _).bind
  intro _ _
  apply (fromUtf8_ends crates _ _).bind
  intro _ _
  apply (mapErr_ends _ _).bind
  intro spec _
  exact arm_ends crates spec options hmode

/-! ## §5 Raw output -/

/-- The arm of `writer` returns what `PdfWriter` or `HepWriter` rendered, as it is. -/
def ReturnsRaw (writer : Bytes) : Prop :=
  (∀ {Options Spec : Type} (crates : Crates Options Spec) (spec : Spec) (options : Bytes),
    arm crates writer spec options = renderWith crates crates.pdfWriter id spec options) ∨
  ∀ {Options Spec : Type} (crates : Crates Options Spec) (spec : Spec) (options : Bytes),
    arm crates writer spec options = renderWith crates crates.hepWriter id spec options

/-- Crates in which the outputs of the binary writers are not those of any other arm. -/
def distinct : Crates Unit Unit where
  utf8Error _ := []
  execute _ := .ok ()
  parse _ := .ok ()
  svgWriter := { fromOptions := fun _ => .ok (), render := fun _ _ => .ok ⟨[], .nil⟩ }
  pdfWriter := { fromOptions := fun _ => .ok (), render := fun _ _ => .ok [1] }
  hepWriter := { fromOptions := fun _ => .ok (), render := fun _ _ => .ok [2] }
  vegaLite _ := .ok ⟨[], .nil⟩
  assets := ⟨[], .nil⟩
  viewer := ⟨[], .nil⟩
  registerPlot _ := .ok ⟨⟨[], .nil⟩, 0, .empty, ⟨[0x61], nofun, List.forall_mem_singleton.mpr rfl⟩⟩

theorem arm_distinct (hpdf : writer ≠ ascii "pdf") (hhep : writer ≠ ascii "hep") :
    arm distinct writer () [] ≠ .ok [1] ∧ arm distinct writer () [] ≠ .ok [2] := by
  unfold arm
  rw [if_neg hpdf, if_neg hhep]
  split_ifs with hsvg hhtml hserve hspec hblank
  · decide
  · decide
  · rcases hserve with rfl | rfl
    · decide
    · decide
  · decide
  · exact absurd rfl hblank
  · exact ⟨nofun, nofun⟩

/-- **The arms that return raw output are those of the binary modes.** -/
theorem returnsRaw_iff : ReturnsRaw writer ↔ writer = ascii "pdf" ∨ writer = ascii "hep" := by
  constructor
  · intro h
    by_contra hbinary
    obtain ⟨hpdf, hhep⟩ := not_or.mp hbinary
    obtain ⟨hone, htwo⟩ := arm_distinct hpdf hhep
    rcases h with h | h
    · exact hone (h distinct () [])
    · exact htwo (h distinct () [])
  · rintro (rfl | rfl)
    · left
      intro Options Spec crates spec options
      unfold arm
      rw [if_neg (by decide), if_pos rfl]
    · right
      intro Options Spec crates spec options
      unfold arm
      rw [if_neg (by decide), if_neg (by decide), if_pos rfl]

end Dispatch

end GgsqlDuckdb
