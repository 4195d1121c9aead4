import GgsqlDuckdb.Library.Script
import GgsqlDuckdb.Library.Separator
import GgsqlDuckdb.Parser.Scanner

/-!
# Self-contained documents

`standalone_html` of `rust/src/server.rs`: the viewer and its assets as two scripts, and the plot as
base64 in the literal of a third one.

## Main results

- `lastScript_standaloneHtml`: the last script of the document is the template's own.
- `standaloneHtml_carries`: what that script computes is the plot.
-/

namespace GgsqlDuckdb

open Library Library.Script

/-! ## §1 The template -/

/-- Lines, each with its line end. -/
def lines (texts : List Bytes) : Bytes := texts.flatMap (· ++ [newline])

def pageStyle : Bytes :=
  lines [
    ascii "<!doctype html>",
    ascii "<html lang=\"en\">",
    ascii "<head>",
    ascii "<meta charset=\"utf-8\">",
    ascii "<title>ggsql</title>",
    ascii "<style>",
    ascii "  html, body \x7b margin: 0; padding: 0; height: 100%; background: #fff; " ++
      ascii "font-family: system-ui, sans-serif; \x7d",
    ascii "  body \x7b display: flex; flex-direction: column; height: 100vh; \x7d",
    ascii "  /* PlotView sizes to its container via a ResizeObserver " ++ [0xe2, 0x80, 0x94] ++
      ascii " give it a flex:1",
    ascii "     child of the body so it fills the viewport. */",
    ascii "  #vis \x7b flex: 1; min-height: 0; padding: 1rem; box-sizing: border-box; \x7d",
    ascii "</style>"]

/-- `assets` and `viewer` are `HEP_ASSETS_JS` and `HEP_VIEWER_JS`. -/
def pageBundles (assets viewer : Bytes) : Bytes :=
  lines [
    ascii "<script>" ++ assets ++ ascii "</script>",
    ascii "<script>" ++ viewer ++ ascii "</script>"]

def pageBody : Bytes :=
  lines [ascii "</head>", ascii "<body>", ascii "<div id=\"vis\"></div>"]

/-- The template up to the last script. -/
def pageHead (assets viewer : Bytes) : Bytes := pageStyle ++ pageBundles assets viewer ++ pageBody

/-- The last script, up to its literal and from behind it. -/
def inlineHead : Bytes := lines [[]] ++ ascii "  const bytes = Uint8Array.from(atob(\""

def inlineTail : Bytes :=
  lines [
    ascii "), (c) => c.charCodeAt(0));",
    ascii "  window.ggsqlRenderHep(document.getElementById(\"vis\"), bytes);"]

def pageTail : Bytes := lines [[], ascii "</body>"] ++ ascii "</html>"

/-- `standalone_html` -/
def standaloneHtml (assets viewer hep : Bytes) : Bytes :=
  pageHead assets viewer ++ ascii "<script>" ++ inlineHead ++ Base64.encode hep ++ [quote] ++
    inlineTail ++ ascii "</script>" ++ pageTail

/-! ## §2 Reading the document -/

def lessThan : UInt8 := 0x3c

/-- The text of a script, from behind its start tag.  Nothing but a `<` leaves it, and none is
followed but that of an end tag. -/
def scriptText (html : Bytes) : Option Bytes :=
  if ascii "</script>" <+: html.dropWhile (· != lessThan) then
    some (html.takeWhile (· != lessThan))
  else none

/-- The last script of a document. -/
def lastScript (html : Bytes) : Option Bytes := (behindLast (ascii "<script>") html).bind scriptText

/-- The array `bytes` of the template's script; `none` for any other script, and where it throws. -/
def inlineBytes (code : Bytes) : Option Bytes :=
  if inlineHead <+: code then
    match stringLiteral (code.drop inlineHead.length) with
    | some (source, after) =>
      if after = inlineTail then ((literalValue source).bind atob).map byteArrayFrom else none
    | none => none
  else none

/-- The plot that a document shows. -/
def shownPlot (html : Bytes) : Option Bytes := (lastScript html).bind inlineBytes

/-! ## §3 The plot comes through -/

theorem lessThan_notMem_encode (hep : Bytes) : lessThan ∉ Base64.encode hep := by
  intro hmem
  have hne : ∀ c ∈ Base64.encode hep, c ≠ lessThan :=
    Base64.forall_mem_encode (by decide) (by decide) hep
  exact hne lessThan hmem rfl

/-- The template's own script holds no `<`. -/
theorem lessThan_notMem_inline (hep : Bytes) :
    lessThan ∉ inlineHead ++ Base64.encode hep ++ [quote] ++ inlineTail := by
  have hhead : lessThan ∉ inlineHead := by decide
  have hquote : lessThan ∉ [quote] := by decide
  have htail : lessThan ∉ inlineTail := by decide
  simp only [List.mem_append, not_or]
  exact ⟨⟨⟨hhead, lessThan_notMem_encode hep⟩, hquote⟩, htail⟩

/-- A script without `<` ends at the end tag that follows it. -/
theorem scriptText_append {code : Bytes} (after : Bytes) (h : lessThan ∉ code) :
    scriptText (code ++ ascii "</script>" ++ after) = some code := by
  have hall : ∀ c ∈ code, (c != lessThan) = true := by
    intro c hc
    rw [bne_iff_ne]
    rintro rfl
    exact h hc
  have htag : ascii "</script>" = lessThan :: ascii "/script>" := by decide
  unfold scriptText
  rw [List.append_assoc, List.dropWhile_append_of_pos hall, List.takeWhile_append_of_pos hall, htag,
    List.cons_append, List.dropWhile_cons_of_neg (by decide),
    List.takeWhile_cons_of_neg (by decide), List.append_nil, if_pos ⟨after, rfl⟩]

/-- **The last script of the document is the template's own**, whatever the two bundles are. -/
theorem lastScript_standaloneHtml (assets viewer hep : Bytes) :
    lastScript (standaloneHtml assets viewer hep) =
      some (inlineHead ++ Base64.encode hep ++ [quote] ++ inlineTail) := by
  have hfree := lessThan_notMem_inline hep
  generalize hcode : inlineHead ++ Base64.encode hep ++ [quote] ++ inlineTail = code at hfree
  have hhtml : standaloneHtml assets viewer hep =
      pageHead assets viewer ++ ascii "<script>" ++ (code ++ (ascii "</script>" ++ pageTail)) := by
    rw [← hcode]
    unfold standaloneHtml
    simp only [List.append_assoc]
  have htag : ascii "<script>" = lessThan :: ascii "script>" := by decide
  -- behind the template's script there is no other
  have hlast : behindLast (ascii "<script>") (code ++ (ascii "</script>" ++ pageTail)) = none := by
    rw [htag, behindLast_append_of_notMem _ hfree]
    decide
  unfold lastScript
  rw [hhtml]
  rw [htag] at hlast ⊢
  rw [behindLast_append _ (by decide) hlast, Option.bind_some, ← List.append_assoc,
    scriptText_append pageTail hfree]

/-- The template's script computes the plot. -/
theorem inlineBytes_encode (hep : Bytes) :
    inlineBytes (inlineHead ++ Base64.encode hep ++ [quote] ++ inlineTail) = some hep := by
  have hcode : inlineHead ++ Base64.encode hep ++ [quote] ++ inlineTail =
      inlineHead ++ (Base64.encode hep ++ quote :: inlineTail) := by
    simp only [List.append_assoc, List.singleton_append]
  unfold inlineBytes
  rw [hcode, if_pos ⟨_, rfl⟩, List.drop_left, stringLiteral_plain _ (plain_encode hep)]
  dsimp only
  rw [if_pos rfl, literalValue_encode, Option.bind_some, atob_encode, Option.map_some,
    byteArrayFrom_bytes]

/-- **A self-contained document carries the exact plot.**  The literal that `atob` is called with
is the encoded plot, from its opening quote to the template's closing one; nothing in it ends the
literal or the script; and the bytes that the last script computes are the plot. -/
theorem standaloneHtml_carries (assets viewer hep : Bytes) :
    (∀ c ∈ Base64.encode hep,
      c ≠ quote ∧ c ≠ Script.backslash ∧ c ≠ lineFeed ∧ c ≠ carriageReturn ∧ c ≠ lessThan) ∧
    (∃ front after, standaloneHtml assets viewer hep =
        front ++ ascii "atob(\"" ++ (Base64.encode hep ++ quote :: after) ∧
      ascii ")" <+: after ∧
      stringLiteral (Base64.encode hep ++ quote :: after) = some (Base64.encode hep, after)) ∧
    lastScript (standaloneHtml assets viewer hep) =
      some (inlineHead ++ Base64.encode hep ++ [quote] ++ inlineTail) ∧
    shownPlot (standaloneHtml assets viewer hep) = some hep := by
  refine ⟨?_, ?_, ?_, ?_⟩
  · exact Base64.forall_mem_encode (by decide) (by decide) hep
  · refine ⟨pageHead assets viewer ++ ascii "<script>" ++ lines [[]] ++
      ascii "  const bytes = Uint8Array.from(", inlineTail ++ ascii "</script>" ++ pageTail, ?_,
      ?_, ?_⟩
    · have hhead : inlineHead =
          lines [[]] ++ (ascii "  const bytes = Uint8Array.from(" ++ ascii "atob(\"") := by decide
      unfold standaloneHtml
      rw [hhead]
      simp only [List.append_assoc, List.cons_append, List.nil_append]
    · rw [List.append_assoc]
      have hparen : ascii ")" <+: inlineTail := by decide
      exact hparen.trans (List.prefix_append _ _)
    · exact stringLiteral_plain _ (plain_encode hep)
  · exact lastScript_standaloneHtml assets viewer hep
  · unfold shownPlot
    rw [lastScript_standaloneHtml, Option.bind_some, inlineBytes_encode]

end GgsqlDuckdb
