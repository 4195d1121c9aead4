import GgsqlDuckdb.Text
import GgsqlDuckdb.Library.Base64
import GgsqlDuckdb.Library.Machine
import GgsqlDuckdb.Library.Roster
import Mathlib.Data.List.Infix

/-!
# The viewer bundle

`tools/hep-viewer/entry.js`: `loadHep`, whose promise is kept, and `ggsqlRenderHep`, which any
number of renders call; and the assets as `tools/hep-viewer/build.mjs` writes them.  A step is what
runs up to the next `await`; `gunzip` is the browser's, and so is what the wasm module throws.

## Main results

- `Sound`: the invariant, with one case for each place in `loadHep`.
- `viewer_loads_once`: one load for all calls, and no view in front of its end.
- `viewer_loads_built`: what the module gets of the assets that are built.
-/

namespace GgsqlDuckdb

open Library

namespace Viewer

/-! ## §1 Faces and assets -/

/-- An entry of `FACES`. -/
structure Face where
  name : Bytes
  weight : ℕ
  style : Bytes
  deriving DecidableEq, Repr

/-- `FACES` -/
def faces : List Face :=
  [⟨ascii "regular", 400, ascii "normal"⟩, ⟨ascii "bold", 700, ascii "normal"⟩,
    ⟨ascii "italic", 400, ascii "italic"⟩, ⟨ascii "bolditalic", 700, ascii "italic"⟩]

/-- `globalThis.ggsqlHepAssets` -/
structure Assets where
  wasm : Bytes
  fonts : List (Bytes × Bytes)
  deriving DecidableEq, Repr

/-- The argument of `decodeBase64(assets.fonts[face])`. -/
def Assets.font (assets : Assets) (face : Bytes) : Bytes :=
  (assets.fonts.lookup face).getD (ascii "undefined")

def fontFile (face : Bytes) : Bytes := ascii "fonts/roboto-" ++ face ++ ascii ".ttf"

def wasmFile : Bytes := ascii "hephaestus_svg_wasm_bg.wasm"

/-- What `build.mjs` writes, from the files of the package. -/
def hepAssets (gzip : Bytes → Bytes) (files : Bytes → Bytes) : Assets where
  wasm := Base64.encode (gzip (files wasmFile))
  fonts := [ascii "regular", ascii "bold", ascii "italic", ascii "bolditalic"].map fun face =>
    (face, Base64.encode (gzip (files (fontFile face))))

/-- The block of a face in the style sheet. -/
def fontFace (face : Face) (url : Bytes) : Bytes :=
  ascii "@font-face\x7bfont-family:'Roboto';font-style:" ++ face.style ++ ascii ";" ++
    ascii "font-weight:" ++ ascii face.weight.repr ++ ascii ";font-display:block;" ++
    ascii "src:url('" ++ url ++ ascii "') format('truetype');\x7d"

/-! ## §2 The state -/

inductive Fault where
  /-- `ggsql: hephaestus assets are missing (globalThis.ggsqlHepAssets is unset)` -/
  | missing
  /-- `atob` rejects its text. -/
  | invalidCharacter
  /-- The stream is no gzip. -/
  | corrupt
  | thrown (e : String)
  deriving DecidableEq, Repr

/-- Where the promise of `loadHep` stands: at an `await`, or settled. -/
inductive LoadPc where
  | gunzipWasm (packed : Bytes)
  | init
  | gunzipFace (face : Face) (rest : List Face) (packed : Bytes)
  | loaded
  | failed (e : Fault)
  deriving DecidableEq, Repr

/-- What the bundle does to the wasm module, to the page and to the console. -/
inductive Effect where
  | init (wasm : Bytes)
  | registerFont (bytes : Bytes)
  | fontFaces (css : Bytes)
  | setGenericFamily (generic : Bytes) (families : List Bytes)
  | create (plot : Bytes)
  | warn (text : Bytes)
  deriving DecidableEq, Repr

/-- Where a call of `ggsqlRenderHep` stands. -/
inductive ViewPc where
  | loading
  | creating
  | done
  | failed (e : Fault)
  deriving DecidableEq, Repr

structure ViewCall where
  plot : Bytes
  pc : ViewPc
  deriving DecidableEq, Repr

end Viewer

open Viewer in
/-- The bundle on a page: the promise of `loadHep`, what it has gathered, and all calls. -/
structure Viewer where
  modulePromise : Option LoadPc
  faceCss : List Bytes
  log : List Effect
  calls : List ViewCall
  deriving DecidableEq, Repr

namespace Viewer

/-- The bundle has been evaluated. -/
def fresh : Viewer where
  modulePromise := none
  faceCss := []
  log := []
  calls := []

def settle (s : Viewer) (pc : LoadPc) : Viewer := { s with modulePromise := some pc }

def act (s : Viewer) (e : Effect) : Viewer := { s with log := s.log ++ [e] }

/-! ## §3 Steps -/

/-- The start of the function in `loadHep`, up to its first `await`. -/
def startLoad : Option Assets → LoadPc
  | none => .failed .missing
  | some assets =>
    match Base64.decode assets.wasm with
    | none => .failed .invalidCharacter
    | some packed => .gunzipWasm packed

/-- Behind the loop; `family` is what `setGenericFamily` throws. -/
def finishLoad (s : Viewer) (family : Option String) : Viewer :=
  let s := s.act (.fontFaces (List.intercalate [0x0a] s.faceCss))
  let s := s.act (.setGenericFamily (ascii "sans-serif") [ascii "Roboto"])
  match family with
  | some e => s.settle (.failed (.thrown e))
  | none => s.settle .loaded

/-- The head of the loop over the faces. -/
def nextFace (assets : Assets) (family : Option String) (s : Viewer) : List Face → Viewer
  | [] => finishLoad s family
  | face :: rest =>
    match Base64.decode (assets.font face.name) with
    | none => s.settle (.failed .invalidCharacter)
    | some packed => s.settle (.gunzipFace face rest packed)

inductive Label where
  | call (plot : Bytes)
  | wasmRead
  | initDone (thrown family : Option String)
  | faceRead (url : Bytes) (thrown family : Option String)
  | resume (k : ℕ)
  | created (k : ℕ) (result : Except String (List Bytes))
  deriving DecidableEq, Repr

def setCall (s : Viewer) (k : ℕ) (pc : ViewPc) : Viewer :=
  { s with calls := s.calls.modify k fun c => { c with pc := pc } }

section Steps

variable (assets : Option Assets) (gunzip : Bytes → Option Bytes)

def step (s : Viewer) : Label → Option Viewer
  | .call plot =>
    -- `loadHep` starts the load if there is no promise yet
    let s := if s.modulePromise.isNone then s.settle (startLoad assets) else s
    some { s with calls := s.calls ++ [⟨plot, .loading⟩] }
  | .wasmRead =>
    match s.modulePromise with
    | some (.gunzipWasm packed) =>
      match gunzip packed with
      | none => some (s.settle (.failed .corrupt))
      | some wasm => some ((s.act (.init wasm)).settle .init)
    | _ => none
  | .initDone thrown family =>
    match s.modulePromise, assets with
    | some .init, some assets =>
      match thrown with
      | some e => some (s.settle (.failed (.thrown e)))
      | none => some (nextFace assets family s faces)
    | _, _ => none
  | .faceRead url thrown family =>
    match s.modulePromise, assets with
    | some (.gunzipFace face rest packed), some assets =>
      match gunzip packed with
      | none => some (s.settle (.failed .corrupt))
      | some bytes =>
        let s := s.act (.registerFont bytes)
        match thrown with
        | some e => some (s.settle (.failed (.thrown e)))
        | none =>
          some (nextFace assets family { s with faceCss := s.faceCss ++ [fontFace face url] } rest)
    | _, _ => none
  | .resume k =>
    match s.calls[k]?, s.modulePromise with
    | some ⟨plot, .loading⟩, some .loaded => some (setCall (s.act (.create plot)) k .creating)
    | some ⟨_, .loading⟩, some (.failed e) => some (setCall s k (.failed e))
    | _, _ => none
  | .created k result =>
    match s.calls[k]? with
    | some ⟨_, .creating⟩ =>
      match result with
      | .error e => some (setCall s k (.failed (.thrown e)))
      | .ok warnings =>
        some (setCall { s with log := s.log ++ warnings.map .warn } k .done)
    | _ => none

/-- Any number of calls of `ggsqlRenderHep` on one page. -/
def viewer : Machine Viewer Label where
  init s := s = fresh
  step := step assets gunzip

end Steps

/-! ## §4 What a load does -/

section Loads

variable (gunzip : Bytes → Option Bytes)

def wasmOf (assets : Assets) : Bytes := ((Base64.decode assets.wasm).bind gunzip).getD []

def fontOf (assets : Assets) (face : Face) : Bytes :=
  ((Base64.decode (assets.font face.name)).bind gunzip).getD []

/-- The effects up to the end of the faces `past`. -/
def effectsUpTo (assets : Assets) (past : List Face) : List Effect :=
  .init (wasmOf gunzip assets) :: past.map fun face => .registerFont (fontOf gunzip assets face)

/-- All effects of a load, with the addresses that the page gave to the fonts. -/
def loadEffects (assets : Assets) (urls : List Bytes) : List Effect :=
  effectsUpTo gunzip assets faces ++
    [.fontFaces (List.intercalate [0x0a] (List.zipWith fontFace faces urls)),
      .setGenericFamily (ascii "sans-serif") [ascii "Roboto"]]

/-- What belongs to a view. -/
def Effect.isView : Effect → Bool
  | .create _ => true
  | .warn _ => true
  | _ => false

/-- Where the load stands, what it has gathered, and what it has done. -/
inductive Loading (assets : Option Assets) : Option LoadPc → List Bytes → List Effect → Prop where
  | idle : Loading assets none [] []
  | missing (hnone : assets = none) : Loading assets (some (.failed .missing)) [] []
  | gunzipWasm {a : Assets} {packed : Bytes} (ha : assets = some a)
      (hpacked : Base64.decode a.wasm = some packed) :
      Loading assets (some (.gunzipWasm packed)) [] []
  | init {a : Assets} (ha : assets = some a) :
      Loading assets (some .init) [] (effectsUpTo gunzip a [])
  | gunzipFace {a : Assets} {past rest : List Face} {face : Face} {packed : Bytes}
      {urls : List Bytes} (ha : assets = some a) (hfaces : faces = past ++ face :: rest)
      (hurls : urls.length = past.length)
      (hpacked : Base64.decode (a.font face.name) = some packed) :
      Loading assets (some (.gunzipFace face rest packed)) (List.zipWith fontFace past urls)
        (effectsUpTo gunzip a past)
  | loaded {a : Assets} {urls css : List Bytes} (ha : assets = some a)
      (hurls : urls.length = faces.length) :
      Loading assets (some .loaded) css (loadEffects gunzip a urls)
  | failed {a : Assets} {urls css : List Bytes} {e : Fault} {log : List Effect}
      (ha : assets = some a) (hurls : urls.length = faces.length)
      (hlog : log <+: loadEffects gunzip a urls) :
      Loading assets (some (.failed e)) css log

variable {gunzip} {assets : Option Assets}

theorem effectsUpTo_append (a : Assets) (past rest : List Face) :
    effectsUpTo gunzip a (past ++ rest) = effectsUpTo gunzip a past ++
      rest.map fun face => .registerFont (fontOf gunzip a face) := by
  simp [effectsUpTo]

theorem effectsUpTo_starts (a : Assets) {past rest : List Face} (hfaces : faces = past ++ rest)
    (urls : List Bytes) : effectsUpTo gunzip a past <+: loadEffects gunzip a urls := by
  unfold loadEffects
  rw [hfaces, effectsUpTo_append, List.append_assoc]
  exact List.prefix_append _ _

/-- A load that fails in front of all effects. -/
theorem Loading.failed_early {a : Assets} (ha : assets = some a) (css : List Bytes) (e : Fault) :
    Loading gunzip assets (some (.failed e)) css [] := by
  have hnames : (faces.map Face.name).length = faces.length := rfl
  exact .failed ha hnames List.nil_prefix

/-- A load that fails behind some of the faces. -/
theorem Loading.failed_behind {a : Assets} (ha : assets = some a) {past rest : List Face}
    (hfaces : faces = past ++ rest) (css : List Bytes) (e : Fault) {log : List Effect}
    (hlog : log = effectsUpTo gunzip a past) :
    Loading gunzip assets (some (.failed e)) css log := by
  have hnames : (faces.map Face.name).length = faces.length := rfl
  rw [hlog]
  exact .failed ha hnames (effectsUpTo_starts a hfaces _)

/-- What a load has done is the start of a whole one. -/
theorem Loading.starts {pc : Option LoadPc} {css : List Bytes} {log : List Effect}
    (h : Loading gunzip assets pc css log) {a : Assets} (ha : assets = some a) :
    ∃ urls, urls.length = faces.length ∧ log <+: loadEffects gunzip a urls := by
  have hsome : ∃ urls : List Bytes, urls.length = faces.length := ⟨faces.map Face.name, rfl⟩
  obtain ⟨urls₀, hurls₀⟩ := hsome
  cases h with
  | idle => exact ⟨urls₀, hurls₀, List.nil_prefix⟩
  | missing => exact ⟨urls₀, hurls₀, List.nil_prefix⟩
  | gunzipWasm => exact ⟨urls₀, hurls₀, List.nil_prefix⟩
  | init ha' =>
    obtain rfl := Option.some.inj (ha'.symm.trans ha)
    exact ⟨urls₀, hurls₀, effectsUpTo_starts _ (List.nil_append faces).symm urls₀⟩
  | gunzipFace ha' hfaces =>
    obtain rfl := Option.some.inj (ha'.symm.trans ha)
    exact ⟨urls₀, hurls₀, effectsUpTo_starts _ hfaces urls₀⟩
  | loaded ha' hurls =>
    obtain rfl := Option.some.inj (ha'.symm.trans ha)
    exact ⟨_, hurls, List.prefix_rfl⟩
  | failed ha' hurls hlog =>
    obtain rfl := Option.some.inj (ha'.symm.trans ha)
    exact ⟨_, hurls, hlog⟩

theorem Loading.log_nil {pc : Option LoadPc} {css : List Bytes} {log : List Effect}
    (h : Loading gunzip assets pc css log) (hnone : assets = none) : log = [] := by
  cases h with
  | idle => rfl
  | missing => rfl
  | gunzipWasm => rfl
  | init ha => rw [hnone] at ha; cases ha
  | gunzipFace ha => rw [hnone] at ha; cases ha
  | loaded ha => rw [hnone] at ha; cases ha
  | failed ha => rw [hnone] at ha; cases ha

/-- A load that went through has done everything. -/
theorem Loading.whole {css : List Bytes} {log : List Effect}
    (h : Loading gunzip assets (some .loaded) css log) :
    ∃ a urls, assets = some a ∧ urls.length = faces.length ∧ log = loadEffects gunzip a urls := by
  cases h with
  | loaded ha hurls => exact ⟨_, _, ha, hurls, rfl⟩

theorem isView_loadEffects (a : Assets) (urls : List Bytes) :
    ∀ e ∈ loadEffects gunzip a urls, e.isView = false := by
  intro e he
  simp only [loadEffects, effectsUpTo, List.mem_append, List.mem_cons, List.mem_map,
    List.not_mem_nil, or_false] at he
  rcases he with (rfl | ⟨face, -, rfl⟩) | rfl | rfl
  all_goals rfl

/-- A load touches no view. -/
theorem Loading.not_view {pc : Option LoadPc} {css : List Bytes} {log : List Effect}
    (h : Loading gunzip assets pc css log) : ∀ e ∈ log, e.isView = false := by
  cases hassets : assets with
  | none =>
    rw [h.log_nil hassets]
    exact nofun
  | some a =>
    obtain ⟨urls, -, hlog⟩ := h.starts hassets
    exact fun e he => isView_loadEffects a urls e (hlog.subset he)

/-! ## §5 The load, step by step -/

theorem startLoad_loading : Loading gunzip assets (some (startLoad assets)) [] [] := by
  unfold startLoad
  cases hassets : assets with
  | none => exact .missing rfl
  | some a =>
    dsimp only
    cases hpacked : Base64.decode a.wasm with
    | none => exact .failed_early rfl [] _
    | some packed => exact .gunzipWasm rfl hpacked

theorem nextFace_frame (a : Assets) (family : Option String) (s : Viewer) (rest : List Face) :
    (∃ pc, (nextFace a family s rest).modulePromise = some pc) ∧
      (nextFace a family s rest).calls = s.calls := by
  cases rest with
  | nil =>
    unfold nextFace finishLoad
    cases family <;> exact ⟨⟨_, rfl⟩, rfl⟩
  | cons face rest =>
    unfold nextFace
    dsimp only
    cases Base64.decode (a.font face.name) <;> exact ⟨⟨_, rfl⟩, rfl⟩

/-- At the head of the loop. -/
theorem nextFace_loading {a : Assets} (ha : assets = some a) (family : Option String)
    {s : Viewer} {past rest : List Face} {urls : List Bytes} (hfaces : faces = past ++ rest)
    (hurls : urls.length = past.length) (hcss : s.faceCss = List.zipWith fontFace past urls)
    (hlog : s.log = effectsUpTo gunzip a past) :
    Loading gunzip assets (nextFace a family s rest).modulePromise
      (nextFace a family s rest).faceCss (nextFace a family s rest).log := by
  cases rest with
  | nil =>
    -- all faces are registered
    rw [List.append_nil] at hfaces
    subst hfaces
    have hall : (s.act (.fontFaces (List.intercalate [0x0a] s.faceCss))).log ++
        [.setGenericFamily (ascii "sans-serif") [ascii "Roboto"]] = loadEffects gunzip a urls := by
      show (s.log ++ [.fontFaces (List.intercalate [0x0a] s.faceCss)]) ++ _ = _
      rw [hlog, hcss, List.append_assoc]
      rfl
    unfold nextFace finishLoad
    cases family with
    | some e =>
      refine .failed ha hurls ?_
      rw [← hall]
      exact List.prefix_rfl
    | none =>
      show Loading gunzip assets (some .loaded) s.faceCss
        ((s.act (.fontFaces (List.intercalate [0x0a] s.faceCss))).log ++
          [.setGenericFamily (ascii "sans-serif") [ascii "Roboto"]])
      rw [hall]
      exact .loaded ha hurls
  | cons face rest =>
    cases hpacked : Base64.decode (a.font face.name) with
    | none =>
      have hnext : nextFace a family s (face :: rest) = s.settle (.failed .invalidCharacter) := by
        simp only [nextFace, hpacked]
      rw [hnext]
      exact .failed_behind ha hfaces _ _ hlog
    | some packed =>
      have hnext : nextFace a family s (face :: rest) =
          s.settle (.gunzipFace face rest packed) := by
        simp only [nextFace, hpacked]
      rw [hnext]
      show Loading gunzip assets (some (.gunzipFace face rest packed)) s.faceCss s.log
      rw [hlog, hcss]
      exact .gunzipFace ha hfaces hurls hpacked

/-- The promise is pending. -/
def LoadPc.isPending : LoadPc → Bool
  | .loaded => false
  | .failed _ => false
  | _ => true

/-- A step of the load. -/
structure LoadStep (gunzip : Bytes → Option Bytes) (assets : Option Assets) (s s' : Viewer) :
    Prop where
  pending : ∃ pc, s.modulePromise = some pc ∧ pc.isPending = true
  promise : ∃ pc, s'.modulePromise = some pc
  calls : s'.calls = s.calls
  loading : Loading gunzip assets s.modulePromise s.faceCss s.log →
    Loading gunzip assets s'.modulePromise s'.faceCss s'.log

variable {s s' : Viewer}

theorem wasmRead_loadStep (h : step assets gunzip s .wasmRead = some s') :
    LoadStep gunzip assets s s' := by
  simp only [step] at h
  split at h
  · rename_i packed hpc
    cases hwasm : gunzip packed with
    | none =>
      rw [hwasm] at h
      obtain rfl := Option.some.inj h
      refine ⟨⟨_, hpc, rfl⟩, ⟨_, rfl⟩, rfl, ?_⟩
      intro hloading
      rw [hpc] at hloading
      generalize hcss : s.faceCss = css at hloading
      generalize hlog : s.log = log at hloading
      cases hloading with
      | gunzipWasm ha =>
        show Loading gunzip assets (some (.failed .corrupt)) s.faceCss s.log
        rw [hlog]
        exact .failed_early ha _ _
    | some wasm =>
      rw [hwasm] at h
      obtain rfl := Option.some.inj h
      refine ⟨⟨_, hpc, rfl⟩, ⟨_, rfl⟩, rfl, ?_⟩
      intro hloading
      rw [hpc] at hloading
      generalize hcss : s.faceCss = css at hloading
      generalize hlog : s.log = log at hloading
      cases hloading with
      | @gunzipWasm a _ ha hpacked =>
        have hbytes : wasmOf gunzip a = wasm := by
          unfold wasmOf
          rw [hpacked, Option.bind_some, hwasm]
          rfl
        show Loading gunzip assets (some .init) s.faceCss (s.log ++ [.init wasm])
        rw [hcss, hlog, ← hbytes]
        exact .init ha
  · cases h

theorem initDone_loadStep {thrown family : Option String}
    (h : step assets gunzip s (.initDone thrown family) = some s') :
    LoadStep gunzip assets s s' := by
  simp only [step] at h
  split at h
  · rename_i a hpc
    -- the module has been initialised, and no face is registered
    have hstart : Loading gunzip (some a) s.modulePromise s.faceCss s.log →
        s.faceCss = [] ∧ s.log = effectsUpTo gunzip a [] := by
      intro hloading
      rw [hpc] at hloading
      generalize s.faceCss = css at hloading
      generalize s.log = log at hloading
      cases hloading with
      | init ha =>
        obtain rfl := Option.some.inj ha
        exact ⟨rfl, rfl⟩
    cases thrown with
    | some e =>
      obtain rfl := Option.some.inj h
      refine ⟨⟨_, hpc, rfl⟩, ⟨_, rfl⟩, rfl, ?_⟩
      intro hloading
      exact .failed_behind rfl (List.nil_append faces).symm _ _ (hstart hloading).2
    | none =>
      obtain rfl := Option.some.inj h
      obtain ⟨hpromise, hcalls⟩ := nextFace_frame a family s faces
      refine ⟨⟨_, hpc, rfl⟩, hpromise, hcalls, ?_⟩
      intro hloading
      obtain ⟨hcss, hlog⟩ := hstart hloading
      have hnone : ([] : List Bytes).length = ([] : List Face).length := rfl
      exact nextFace_loading rfl family (List.nil_append _).symm hnone hcss hlog
  · cases h

theorem faceRead_loadStep {url : Bytes} {thrown family : Option String}
    (h : step assets gunzip s (.faceRead url thrown family) = some s') :
    LoadStep gunzip assets s s' := by
  simp only [step] at h
  split at h
  · rename_i face rest packed a hpc
    -- the faces in front of this one are registered
    have hplace : Loading gunzip (some a) s.modulePromise s.faceCss s.log →
        ∃ past urls, faces = past ++ face :: rest ∧ urls.length = past.length ∧
          Base64.decode (a.font face.name) = some packed ∧
          s.faceCss = List.zipWith fontFace past urls ∧ s.log = effectsUpTo gunzip a past := by
      intro hloading
      rw [hpc] at hloading
      generalize s.faceCss = css at hloading
      generalize s.log = log at hloading
      cases hloading with
      | gunzipFace ha hfaces hurls hpacked =>
        obtain rfl := Option.some.inj ha
        exact ⟨_, _, hfaces, hurls, hpacked, rfl, rfl⟩
    cases hbytes : gunzip packed with
    | none =>
      rw [hbytes] at h
      obtain rfl := Option.some.inj h
      refine ⟨⟨_, hpc, rfl⟩, ⟨_, rfl⟩, rfl, ?_⟩
      intro hloading
      obtain ⟨past, urls, hfaces, -, -, -, hlog⟩ := hplace hloading
      exact .failed_behind rfl hfaces _ _ hlog
    | some bytes =>
      rw [hbytes] at h
      -- one face more
      have hnext : Loading gunzip (some a) s.modulePromise s.faceCss s.log →
          ∃ past urls, faces = (past ++ [face]) ++ rest ∧ urls.length = past.length ∧
            s.faceCss = List.zipWith fontFace past urls ∧
            (s.act (.registerFont bytes)).log = effectsUpTo gunzip a (past ++ [face]) := by
        intro hloading
        obtain ⟨past, urls, hfaces, hurls, hpacked, hcss, hlog⟩ := hplace hloading
        have hfont : fontOf gunzip a face = bytes := by
          unfold fontOf
          rw [hpacked, Option.bind_some, hbytes]
          rfl
        refine ⟨past, urls, by simpa using hfaces, hurls, hcss, ?_⟩
        show s.log ++ [.registerFont bytes] = _
        rw [effectsUpTo_append, hlog, ← hfont]
        rfl
      cases thrown with
      | some e =>
        obtain rfl := Option.some.inj h
        refine ⟨⟨_, hpc, rfl⟩, ⟨_, rfl⟩, rfl, ?_⟩
        intro hloading
        obtain ⟨past, urls, hfaces, -, -, hlog⟩ := hnext hloading
        exact .failed_behind rfl hfaces _ _ hlog
      | none =>
        obtain rfl := Option.some.inj h
        obtain ⟨hpromise, hcalls⟩ := nextFace_frame a family
          { s.act (.registerFont bytes) with faceCss := s.faceCss ++ [fontFace face url] } rest
        refine ⟨⟨_, hpc, rfl⟩, hpromise, hcalls, ?_⟩
        intro hloading
        obtain ⟨past, urls, hfaces, hurls, hcss, hlog⟩ := hnext hloading
        have hlength : (urls ++ [url]).length = (past ++ [face]).length := by simp [hurls]
        refine nextFace_loading rfl family hfaces hlength ?_ hlog
        · show s.faceCss ++ [fontFace face url] = _
          rw [List.zipWith_append hurls.symm, hcss]
          rfl
  · cases h

/-! ## §6 The invariant -/

/-- The document that a call has given to `PlotView.create`, where the load went through. -/
def ViewCall.drawn (c : ViewCall) : Option Bytes := if c.pc = .loading then none else some c.plot

def Effect.created : Effect → Option Bytes
  | .create plot => some plot
  | _ => none

/-- Where a call may stand, by the promise of `loadHep`. -/
def ViewPc.Fits (promise : Option LoadPc) : ViewPc → Prop
  | .loading => promise ≠ none
  | .creating => promise = some .loaded
  | .done => promise = some .loaded
  | .failed e => promise = some .loaded ∨ promise = some (.failed e)

/-- What holds between any two steps: the log is that of one load, and behind it that of the
views. -/
structure Sound (gunzip : Bytes → Option Bytes) (assets : Option Assets) (s : Viewer) : Prop where
  load : ∃ l views, s.log = l ++ views ∧
    Loading gunzip assets s.modulePromise s.faceCss l ∧ (∀ e ∈ views, e.isView = true) ∧
    (views ≠ [] → s.modulePromise = some .loaded)
  calls : ∀ c ∈ s.calls, c.pc.Fits s.modulePromise
  drawn : s.modulePromise = some .loaded →
    (s.log.filterMap Effect.created).Perm (s.calls.filterMap ViewCall.drawn)

theorem Sound.start : Sound gunzip assets fresh where
  load := ⟨[], [], rfl, .idle, nofun, fun h => absurd rfl h⟩
  calls := nofun
  drawn := nofun

/-- While the load is pending, the log is its own and all calls wait. -/
theorem Sound.pending (hs : Sound gunzip assets s) {pc : LoadPc} (hpc : s.modulePromise = some pc)
    (hpending : pc.isPending = true) :
    Loading gunzip assets s.modulePromise s.faceCss s.log ∧ ∀ c ∈ s.calls, c.pc = .loading := by
  obtain ⟨l, views, hlog, hloading, -, hviews⟩ := hs.load
  have hnot : s.modulePromise ≠ some .loaded := by
    rw [hpc]
    rintro ⟨⟩
    cases hpending
  have hnil : views = [] := by
    by_contra hne
    exact hnot (hviews hne)
  rw [hnil, List.append_nil] at hlog
  refine ⟨hlog ▸ hloading, ?_⟩
  intro c hc
  have hfits := hs.calls c hc
  cases hpc' : c.pc with
  | loading => rfl
  | creating => rw [hpc'] at hfits; exact absurd hfits hnot
  | done => rw [hpc'] at hfits; exact absurd hfits hnot
  | failed e =>
    rw [hpc'] at hfits
    rcases hfits with hloaded | hfailed
    · exact absurd hloaded hnot
    · rw [hpc] at hfailed
      cases hfailed
      cases hpending

theorem created_of_not_view {log : List Effect} (h : ∀ e ∈ log, e.isView = false) :
    log.filterMap Effect.created = [] := by
  rw [List.filterMap_eq_nil_iff]
  intro e he
  have hview := h e he
  cases e with
  | create plot => cases hview
  | _ => rfl

/-- A step of the load keeps the invariant. -/
theorem Sound.loadStep (hs : Sound gunzip assets s) (h : LoadStep gunzip assets s s') :
    Sound gunzip assets s' := by
  obtain ⟨pc, hpc, hpending⟩ := h.pending
  obtain ⟨hloading, hwait⟩ := hs.pending hpc hpending
  obtain ⟨pc', hpc'⟩ := h.promise
  have hnext := h.loading hloading
  refine ⟨⟨s'.log, [], (List.append_nil _).symm, hnext, nofun, fun hne => absurd rfl hne⟩, ?_, ?_⟩
  · intro c hc
    rw [h.calls] at hc
    rw [hwait c hc, hpc']
    exact nofun
  · intro _
    rw [created_of_not_view hnext.not_view, h.calls]
    have hnone : s.calls.filterMap ViewCall.drawn = [] := by
      rw [List.filterMap_eq_nil_iff]
      intro c hc
      rw [ViewCall.drawn, if_pos (hwait c hc)]
    rw [hnone]

/-! ## §7 Calls keep the invariant -/

theorem Sound.call (hs : Sound gunzip assets s) {plot : Bytes}
    (h : step assets gunzip s (.call plot) = some s') : Sound gunzip assets s' := by
  obtain rfl := Option.some.inj h
  obtain ⟨l, views, hlog, hloading, hview, hviews⟩ := hs.load
  have hdrawn : (s.calls ++ [(⟨plot, .loading⟩ : ViewCall)]).filterMap ViewCall.drawn =
      s.calls.filterMap ViewCall.drawn := by
    rw [List.filterMap_append]
    exact List.append_nil _
  cases hpromise : s.modulePromise with
  | none =>
    -- the first call of all
    have hcalls : s.calls = [] := by
      rw [List.eq_nil_iff_forall_not_mem]
      intro c hc
      have hfits := hs.calls c hc
      rw [hpromise] at hfits
      cases hpc : c.pc with
      | loading => rw [hpc] at hfits; exact hfits rfl
      | creating => rw [hpc] at hfits; cases hfits
      | done => rw [hpc] at hfits; cases hfits
      | failed e =>
        rw [hpc] at hfits
        rcases hfits with hloaded | hfailed
        · cases hloaded
        · cases hfailed
    have hnil : views = [] := by
      by_contra hne
      have hloaded := hviews hne
      rw [hpromise] at hloaded
      cases hloaded
    rw [hpromise] at hloading
    have hidle : s.faceCss = [] ∧ s.log = [] := by
      rw [hlog, hnil, List.append_nil]
      generalize s.faceCss = css at hloading
      cases hloading
      exact ⟨rfl, rfl⟩
    refine ⟨⟨[], [], hidle.2, ?_, nofun, fun hne => absurd rfl hne⟩, ?_, ?_⟩
    · show Loading gunzip assets (some (startLoad assets)) s.faceCss []
      rw [hidle.1]
      exact startLoad_loading
    · show ∀ c ∈ s.calls ++ [(⟨plot, .loading⟩ : ViewCall)], _
      rw [hcalls]
      intro c hc
      obtain rfl := List.mem_singleton.mp hc
      exact nofun
    · intro _
      show (s.log.filterMap Effect.created).Perm
        ((s.calls ++ [(⟨plot, .loading⟩ : ViewCall)]).filterMap ViewCall.drawn)
      rw [hdrawn, hidle.2, hcalls]
      exact List.Perm.refl _
  | some pc =>
    refine ⟨⟨l, views, hlog, ?_, hview, ?_⟩, ?_, ?_⟩
    · show Loading gunzip assets s.modulePromise s.faceCss l
      exact hloading
    · exact hviews
    · intro c hc
      rcases List.mem_append.mp hc with hold | hnew
      · exact hs.calls c hold
      · obtain rfl := List.mem_singleton.mp hnew
        show s.modulePromise ≠ none
        rw [hpromise]
        exact nofun
    · intro hloaded
      show (s.log.filterMap Effect.created).Perm
        ((s.calls ++ [(⟨plot, .loading⟩ : ViewCall)]).filterMap ViewCall.drawn)
      rw [hdrawn]
      exact hs.drawn hloaded

/-- A call that is changed leaves the others where they stand. -/
theorem Sound.calls_setCall (hs : Sound gunzip assets s) {k : ℕ} {pc : ViewPc}
    (hfits : pc.Fits s.modulePromise) :
    ∀ c ∈ s.calls.modify k (fun c => { c with pc := pc }), c.pc.Fits s.modulePromise := by
  intro c hc
  obtain ⟨j, hj⟩ := List.mem_iff_getElem?.mp hc
  rcases getElem?_modify_cases hj with ⟨-, b, -, rfl⟩ | ⟨-, hold⟩
  · exact hfits
  · exact hs.calls c (List.mem_of_getElem? hold)

theorem Sound.resume (hs : Sound gunzip assets s) {k : ℕ}
    (h : step assets gunzip s (.resume k) = some s') : Sound gunzip assets s' := by
  simp only [step] at h
  split at h
  · rename_i plot hcall hloaded
    obtain rfl := Option.some.inj h
    obtain ⟨l, views, hlog, hloading, hview, -⟩ := hs.load
    refine ⟨⟨l, views ++ [.create plot], ?_, hloading, ?_, fun _ => hloaded⟩,
      hs.calls_setCall hloaded, ?_⟩
    · show s.log ++ [Effect.create plot] = _
      rw [hlog, List.append_assoc]
    · intro e he
      rcases List.mem_append.mp he with hold | hnew
      · exact hview e hold
      · obtain rfl := List.mem_singleton.mp hnew
        rfl
    · intro _
      show ((s.log ++ [Effect.create plot]).filterMap Effect.created).Perm
        ((s.calls.modify k fun c => { c with pc := .creating }).filterMap ViewCall.drawn)
      have hperm := perm_filterMap_modify (f := fun c : ViewCall => { c with pc := .creating })
        (b := plot) hcall (show ViewCall.drawn ⟨plot, .loading⟩ = none from rfl) rfl
      rw [List.filterMap_append]
      refine (List.perm_append_singleton plot _).trans ?_
      exact ((hs.drawn hloaded).cons plot).trans hperm.symm
  · rename_i plot e hcall hfailed
    obtain rfl := Option.some.inj h
    refine ⟨hs.load, hs.calls_setCall (Or.inr hfailed), ?_⟩
    intro hloaded
    rw [show s.modulePromise = some .loaded from hloaded] at hfailed
    cases hfailed
  · cases h

theorem Sound.created (hs : Sound gunzip assets s) {k : ℕ} {result : Except String (List Bytes)}
    (h : step assets gunzip s (.created k result) = some s') : Sound gunzip assets s' := by
  simp only [step] at h
  split at h
  · rename_i plot hcall
    have hloaded : s.modulePromise = some .loaded := hs.calls _ (List.mem_of_getElem? hcall)
    cases result with
    | error e =>
      obtain rfl := Option.some.inj h
      refine ⟨hs.load, hs.calls_setCall (Or.inl hloaded), ?_⟩
      intro _
      show (s.log.filterMap Effect.created).Perm
        ((s.calls.modify k fun c => { c with pc := .failed (.thrown e) }).filterMap ViewCall.drawn)
      rw [filterMap_modify_at hcall rfl]
      exact hs.drawn hloaded
    | ok warnings =>
      obtain rfl := Option.some.inj h
      obtain ⟨l, views, hlog, hloading, hview, -⟩ := hs.load
      refine ⟨⟨l, views ++ warnings.map .warn, ?_, hloading, ?_, fun _ => hloaded⟩,
        hs.calls_setCall hloaded, ?_⟩
      · show s.log ++ warnings.map Effect.warn = _
        rw [hlog, List.append_assoc]
      · intro e he
        rcases List.mem_append.mp he with hold | hnew
        · exact hview e hold
        · obtain ⟨text, -, rfl⟩ := List.mem_map.mp hnew
          rfl
      · intro _
        show ((s.log ++ warnings.map Effect.warn).filterMap Effect.created).Perm
          ((s.calls.modify k fun c => { c with pc := .done }).filterMap ViewCall.drawn)
        have hwarn : (warnings.map Effect.warn).filterMap Effect.created = [] := by
          rw [List.filterMap_eq_nil_iff]
          intro e he
          obtain ⟨text, -, rfl⟩ := List.mem_map.mp he
          rfl
        rw [filterMap_modify_at hcall rfl, List.filterMap_append, hwarn, List.append_nil]
        exact hs.drawn hloaded
  · cases h

theorem sound_step {l : Label} (hs : Sound gunzip assets s)
    (h : (viewer assets gunzip).step s l = some s') : Sound gunzip assets s' := by
  cases l with
  | call plot => exact hs.call h
  | wasmRead => exact hs.loadStep (wasmRead_loadStep h)
  | initDone thrown family => exact hs.loadStep (initDone_loadStep h)
  | faceRead url thrown family => exact hs.loadStep (faceRead_loadStep h)
  | resume k => exact hs.resume h
  | created k result => exact hs.created h

theorem sound_of_reachable (h : (viewer assets gunzip).Reachable s) : Sound gunzip assets s := by
  refine h.invariant (Sound gunzip assets) ?_ fun _ _ _ hs hstep => sound_step hs hstep
  rintro s₀ rfl
  exact Sound.start

/-- Behind a failed load nothing is drawn: the promise stays, and so does the log. -/
theorem failed_step {l : Label} {e : Fault} (hs : Sound gunzip assets s)
    (hfailed : s.modulePromise = some (.failed e))
    (h : (viewer assets gunzip).step s l = some s') :
    s'.modulePromise = some (.failed e) ∧ s'.log = s.log := by
  have hpending : ∀ s', ¬ LoadStep gunzip assets s s' := by
    intro s' hstep
    obtain ⟨pc, hpc, hpending⟩ := hstep.pending
    rw [hfailed] at hpc
    cases hpc
    cases hpending
  cases l with
  | call plot =>
    obtain rfl := Option.some.inj h
    rw [hfailed]
    exact ⟨hfailed, rfl⟩
  | wasmRead => exact absurd (wasmRead_loadStep h) (hpending s')
  | initDone thrown family => exact absurd (initDone_loadStep h) (hpending s')
  | faceRead url thrown family => exact absurd (faceRead_loadStep h) (hpending s')
  | resume k =>
    simp only [viewer, step] at h
    split at h
    · rename_i hloaded
      rw [hfailed] at hloaded
      cases hloaded
    · obtain rfl := Option.some.inj h
      exact ⟨hfailed, rfl⟩
    · cases h
  | created k result =>
    simp only [viewer, step] at h
    split at h
    · rename_i plot hcall
      have hloaded : s.modulePromise = some .loaded := hs.calls _ (List.mem_of_getElem? hcall)
      rw [hfailed] at hloaded
      cases hloaded
    · cases h

end Loads

/-! ## §8 The assets that are built -/

/-- The assets that `build.mjs` writes can be read back. -/
structure Reads (gunzip : Bytes → Option Bytes) (assets : Assets) (files : Bytes → Bytes) :
    Prop where
  wasm : (Base64.decode assets.wasm).bind gunzip = some (files wasmFile)
  font : ∀ face ∈ faces,
    (Base64.decode (assets.font face.name)).bind gunzip = some (files (fontFile face.name))

theorem hepAssets_reads {gzip : Bytes → Bytes} {gunzip : Bytes → Option Bytes}
    (hgzip : ∀ bytes, gunzip (gzip bytes) = some bytes) (files : Bytes → Bytes) :
    Reads gunzip (hepAssets gzip files) files where
  wasm := by
    show (Base64.decode (Base64.encode (gzip (files wasmFile)))).bind gunzip = _
    rw [Base64.decode_encode, Option.bind_some, hgzip]
  font := by
    intro face hface
    have hfont : (hepAssets gzip files).font face.name =
        Base64.encode (gzip (files (fontFile face.name))) := by
      simp only [faces, List.mem_cons, List.not_mem_nil, or_false] at hface
      rcases hface with rfl | rfl | rfl | rfl <;> rfl
    rw [hfont, Base64.decode_encode, Option.bind_some, hgzip]

variable {gunzip : Bytes → Option Bytes} {a : Assets} {files : Bytes → Bytes} {s s' : Viewer}

/-- All effects of a load of assets that can be read. -/
theorem Reads.loadEffects (h : Reads gunzip a files) (urls : List Bytes) :
    loadEffects gunzip a urls =
      .init (files wasmFile) ::
          faces.map (fun face => .registerFont (files (fontFile face.name))) ++
        [.fontFaces (List.intercalate [0x0a] (List.zipWith fontFace faces urls)),
          .setGenericFamily (ascii "sans-serif") [ascii "Roboto"]] := by
  have hwasm : wasmOf gunzip a = files wasmFile := by
    unfold wasmOf
    rw [h.wasm]
    rfl
  have hfonts : faces.map (fun face => Effect.registerFont (fontOf gunzip a face)) =
      faces.map fun face => .registerFont (files (fontFile face.name)) := by
    apply List.map_congr_left
    intro face hface
    unfold fontOf
    rw [h.font face hface]
    rfl
  unfold Viewer.loadEffects effectsUpTo
  rw [hwasm, hfonts]

/-- A step in which nothing throws. -/
def Label.quiet : Label → Bool
  | .wasmRead => true
  | .initDone none none => true
  | .faceRead _ none none => true
  | .resume _ => true
  | .created _ (.ok _) => true
  | _ => false

def LoadPc.work : LoadPc → ℕ
  | .gunzipWasm _ => 10
  | .init => 9
  | .gunzipFace _ rest _ => 1 + rest.length
  | .loaded => 0
  | .failed _ => 0

def ViewPc.work : ViewPc → ℕ
  | .loading => 2
  | .creating => 1
  | .done => 0
  | .failed _ => 0

/-- What is left to do. -/
def work (s : Viewer) : ℕ :=
  (s.modulePromise.map LoadPc.work).getD 0 + (s.calls.map fun c => c.pc.work).sum

/-- The load has not failed. -/
def Alive (s : Viewer) : Prop := ∀ e, s.modulePromise ≠ some (.failed e)

/-- At the head of the loop, where every face can be read. -/
theorem Reads.nextFace (h : Reads gunzip a files) (s : Viewer) {rest : List Face}
    (hrest : ∀ face ∈ rest, face ∈ faces) :
    ∃ pc, (nextFace a none s rest).modulePromise = some pc ∧ (∀ e, pc ≠ .failed e) ∧
      pc.work ≤ rest.length := by
  cases rest with
  | nil => exact ⟨.loaded, rfl, nofun, le_rfl⟩
  | cons face rest =>
    obtain ⟨packed, hpacked, -⟩ :=
      Option.bind_eq_some_iff.mp (h.font face (hrest face List.mem_cons_self))
    refine ⟨.gunzipFace face rest packed, ?_, nofun, ?_⟩
    · simp only [Viewer.nextFace, hpacked]
      rfl
    · exact (Nat.add_comm 1 rest.length).le

theorem work_of_promise {pc pc' : LoadPc} (hpc : s.modulePromise = some pc)
    (hpc' : s'.modulePromise = some pc') (hcalls : s'.calls = s.calls) (hlt : pc'.work < pc.work) :
    work s' < work s := by
  unfold work
  rw [hpc, hpc', hcalls]
  simp only [Option.map_some, Option.getD_some]
  omega

/-- The stream of the wasm binary can be read. -/
theorem Reads.wasm_read (h : Reads gunzip a files) (hs : Sound gunzip (some a) s) {packed : Bytes}
    (hpc : s.modulePromise = some (.gunzipWasm packed)) :
    gunzip packed = some (files wasmFile) := by
  obtain ⟨hloading, -⟩ := hs.pending hpc rfl
  rw [hpc] at hloading
  generalize s.faceCss = css at hloading
  generalize s.log = log at hloading
  cases hloading with
  | gunzipWasm ha hpacked =>
    obtain rfl := Option.some.inj ha
    have hwasm := h.wasm
    rwa [hpacked, Option.bind_some] at hwasm

/-- The stream of a face can be read, and what is left are faces. -/
theorem Reads.font_read (h : Reads gunzip a files) (hs : Sound gunzip (some a) s) {face : Face}
    {rest : List Face} {packed : Bytes}
    (hpc : s.modulePromise = some (.gunzipFace face rest packed)) :
    gunzip packed = some (files (fontFile face.name)) ∧ ∀ f ∈ rest, f ∈ faces := by
  obtain ⟨hloading, -⟩ := hs.pending hpc rfl
  rw [hpc] at hloading
  generalize s.faceCss = css at hloading
  generalize s.log = log at hloading
  cases hloading with
  | @gunzipFace _ past _ _ _ urls ha hfaces hurls hpacked =>
    obtain rfl := Option.some.inj ha
    have hface : face ∈ faces := by
      rw [hfaces]
      exact List.mem_append_right past List.mem_cons_self
    have hfont := h.font face hface
    rw [hpacked, Option.bind_some] at hfont
    refine ⟨hfont, ?_⟩
    intro f hf
    rw [hfaces]
    exact List.mem_append_right past (List.mem_cons_of_mem face hf)

/-- A pending load goes on. -/
theorem Reads.load_progress (h : Reads gunzip a files) (hs : Sound gunzip (some a) s) {pc : LoadPc}
    (hpc : s.modulePromise = some pc) (hpending : pc.isPending = true) :
    ∃ l s', Label.quiet l = true ∧ (viewer (some a) gunzip).step s l = some s' ∧ Alive s' ∧
      work s' < work s := by
  cases pc with
  | loaded => cases hpending
  | failed e => cases hpending
  | gunzipWasm packed =>
    refine ⟨.wasmRead, (s.act (.init (files wasmFile))).settle .init, rfl, ?_, nofun, ?_⟩
    · simp only [viewer, step, hpc, h.wasm_read hs hpc]
    · exact work_of_promise hpc rfl rfl (by exact (by decide : 9 < 10))
  | init =>
    obtain ⟨pc', hpc', halive, hwork⟩ := h.nextFace s fun face (hface : face ∈ faces) => hface
    refine ⟨.initDone none none, Viewer.nextFace a none s faces, rfl, ?_, ?_, ?_⟩
    · simp only [viewer, step, hpc]
    · intro e he
      exact halive e (Option.some.inj (hpc'.symm.trans he))
    · apply work_of_promise hpc hpc' (nextFace_frame a none s faces).2
      exact lt_of_le_of_lt hwork (by decide)
  | gunzipFace face rest packed =>
    obtain ⟨hread, hrest⟩ := h.font_read hs hpc
    let s₁ : Viewer := { s.act (.registerFont (files (fontFile face.name))) with
      faceCss := s.faceCss ++ [fontFace face []] }
    obtain ⟨pc', hpc', halive, hwork⟩ := h.nextFace s₁ hrest
    refine ⟨.faceRead [] none none, Viewer.nextFace a none s₁ rest, rfl, ?_, ?_, ?_⟩
    · simp only [viewer, step, hpc, hread]
      rfl
    · intro e he
      exact halive e (Option.some.inj (hpc'.symm.trans he))
    · apply work_of_promise hpc hpc' (nextFace_frame a none s₁ rest).2
      show pc'.work < 1 + rest.length
      omega

theorem work_setCall {k : ℕ} {c : ViewCall} {pc : ViewPc} (hc : s.calls[k]? = some c)
    (hpromise : s'.modulePromise = s.modulePromise)
    (hcalls : s'.calls = s.calls.modify k fun c => { c with pc := pc })
    (hlt : pc.work < c.pc.work) : work s' < work s := by
  have hsum := sum_map_modify (fun c : ViewCall => { c with pc := pc }) (fun c => c.pc.work) hc
  unfold work
  rw [hpromise, hcalls]
  dsimp only at hsum
  omega

/-- **As long as a call waits, something can be done that is left to do.** -/
theorem Reads.progress (h : Reads gunzip a files) (hs : Sound gunzip (some a) s) (halive : Alive s)
    (hopen : ¬ ∀ c ∈ s.calls, c.pc ≠ .loading ∧ c.pc ≠ .creating) :
    ∃ l s', Label.quiet l = true ∧ (viewer (some a) gunzip).step s l = some s' ∧ Alive s' ∧
      work s' < work s := by
  push Not at hopen
  obtain ⟨c, hc, hwait⟩ := hopen
  obtain ⟨k, hk⟩ := List.mem_iff_getElem?.mp hc
  have hfits := hs.calls c hc
  cases hpromise : s.modulePromise with
  | none =>
    rw [hpromise] at hfits
    cases hpc : c.pc with
    | loading => rw [hpc] at hfits; exact absurd rfl hfits
    | creating => rw [hpc] at hfits; cases hfits
    | done => rw [hpc] at hfits; cases hfits
    | failed e => rw [hpc] at hfits; rcases hfits with hfits | hfits <;> cases hfits
  | some pc =>
    cases hpending : pc.isPending with
    | true => exact h.load_progress hs hpromise hpending
    | false =>
      -- the load is through, and the call can go on
      have hloaded : s.modulePromise = some .loaded := by
        cases pc with
        | loaded => exact hpromise
        | failed e => exact absurd hpromise (halive e)
        | _ => cases hpending
      obtain ⟨plot, pcs⟩ := c
      by_cases hloading : pcs = .loading
      · subst hloading
        refine ⟨.resume k, setCall (s.act (.create plot)) k .creating, rfl, ?_, halive, ?_⟩
        · simp only [viewer, step, hk, hloaded]
        · exact work_setCall hk rfl rfl (by exact (by decide : 1 < 2))
      · have hcreating : pcs = .creating := hwait hloading
        subst hcreating
        refine ⟨.created k (.ok []), setCall { s with log := s.log ++ [] } k .done, rfl, ?_, halive,
          ?_⟩
        · simp only [viewer, step, hk, List.map_nil]
        · exact work_setCall hk rfl rfl (by exact (by decide : 0 < 1))

/-- The call once it has got its view, if it does not fail. -/
def ViewCall.through (c : ViewCall) : ViewCall :=
  match c.pc with
  | .failed _ => c
  | _ => { c with pc := .done }

theorem through_of_ended {c : ViewCall} (hended : c.pc ≠ .loading ∧ c.pc ≠ .creating) :
    c.through = c := by
  obtain ⟨plot, pc⟩ := c
  cases pc with
  | loading => exact absurd rfl hended.1
  | creating => exact absurd rfl hended.2
  | done => rfl
  | failed e => rfl

theorem through_setCall {calls : List ViewCall} {k : ℕ} {c : ViewCall} {pc : ViewPc}
    (hc : calls[k]? = some c) (hpc : ({ c with pc := pc } : ViewCall).through = c.through) :
    (calls.modify k fun c => { c with pc := pc }).map ViewCall.through =
      calls.map ViewCall.through := by
  apply List.ext_getElem?
  intro j
  rw [List.getElem?_map, List.getElem?_map, List.getElem?_modify]
  by_cases hkj : k = j
  · subst hkj
    rw [hc]
    simpa using hpc
  · simp [hkj]

/-- **Where nothing throws, every step keeps what becomes of the calls.** -/
theorem through_step {assets : Option Assets} {l : Label} (halive : Alive s)
    (hquiet : Label.quiet l = true) (hstep : (viewer assets gunzip).step s l = some s') :
    s'.calls.map ViewCall.through = s.calls.map ViewCall.through := by
  have hstep : step assets gunzip s l = some s' := hstep
  cases l with
  | call plot => cases hquiet
  | wasmRead => rw [(wasmRead_loadStep hstep).calls]
  | initDone thrown family => rw [(initDone_loadStep hstep).calls]
  | faceRead url thrown family => rw [(faceRead_loadStep hstep).calls]
  | resume k =>
    simp only [step] at hstep
    split at hstep
    · rename_i plot hk hloaded
      obtain rfl := Option.some.inj hstep
      exact through_setCall hk rfl
    · rename_i plot e hk hfailed
      exact absurd hfailed (halive e)
    · cases hstep
  | created k result =>
    simp only [step] at hstep
    split at hstep
    · rename_i plot hk
      cases result with
      | error e => cases hquiet
      | ok warnings =>
        obtain rfl := Option.some.inj hstep
        exact through_setCall hk rfl
    · cases hstep

/-- A load fails by what the module throws. -/
def ByModule (s : Viewer) : Prop :=
  ∀ e, s.modulePromise = some (.failed e) → ∃ text, e = .thrown text

theorem Reads.nextFace_byModule (h : Reads gunzip a files) (family : Option String) (s : Viewer)
    {rest : List Face} (hrest : ∀ face ∈ rest, face ∈ faces) :
    ByModule (Viewer.nextFace a family s rest) := by
  cases rest with
  | nil =>
    cases family with
    | none => exact nofun
    | some text =>
      rintro e ⟨⟩
      exact ⟨text, rfl⟩
  | cons face rest =>
    obtain ⟨packed, hpacked, -⟩ :=
      Option.bind_eq_some_iff.mp (h.font face (hrest face List.mem_cons_self))
    intro e he
    simp only [Viewer.nextFace, hpacked] at he
    cases he

theorem Reads.byModule_step (h : Reads gunzip a files) (hs : Sound gunzip (some a) s)
    (hmodule : ByModule s) {l : Label} (hstep : (viewer (some a) gunzip).step s l = some s') :
    ByModule s' := by
  have hnothing : ∀ {e : String} {s₁ : Viewer}, ByModule (s₁.settle (.failed (.thrown e))) := by
    rintro e s₁ _ ⟨⟩
    exact ⟨e, rfl⟩
  cases l with
  | call plot =>
    obtain rfl := Option.some.inj hstep
    intro e he
    cases hpromise : s.modulePromise with
    | none =>
      obtain ⟨packed, hpacked, -⟩ := Option.bind_eq_some_iff.mp h.wasm
      rw [hpromise] at he
      have hstart : startLoad (some a) = .failed e := Option.some.inj he
      simp only [startLoad, hpacked] at hstart
      cases hstart
    | some pc =>
      rw [hpromise] at he
      apply hmodule e
      rw [hpromise]
      exact hpromise.symm.trans he
  | wasmRead =>
    simp only [viewer, step] at hstep
    split at hstep
    · rename_i packed hpc
      rw [h.wasm_read hs hpc] at hstep
      obtain rfl := Option.some.inj hstep
      exact nofun
    · cases hstep
  | initDone thrown family =>
    simp only [viewer, step] at hstep
    split at hstep
    · rename_i a' hpc ha
      obtain rfl := Option.some.inj ha
      cases thrown with
      | some text =>
        obtain rfl := Option.some.inj hstep
        exact hnothing
      | none =>
        obtain rfl := Option.some.inj hstep
        exact h.nextFace_byModule family s fun _ hface => hface
    · cases hstep
  | faceRead url thrown family =>
    simp only [viewer, step] at hstep
    split at hstep
    · rename_i face rest packed a' hpc ha
      obtain rfl := Option.some.inj ha
      obtain ⟨hread, hrest⟩ := h.font_read hs hpc
      rw [hread] at hstep
      cases thrown with
      | some text =>
        obtain rfl := Option.some.inj hstep
        exact hnothing
      | none =>
        obtain rfl := Option.some.inj hstep
        exact h.nextFace_byModule family _ hrest
    · cases hstep
  | resume k =>
    simp only [viewer, step] at hstep
    split at hstep
    · obtain rfl := Option.some.inj hstep
      exact hmodule
    · obtain rfl := Option.some.inj hstep
      exact hmodule
    · cases hstep
  | created k result =>
    simp only [viewer, step] at hstep
    split at hstep
    · cases result with
      | error text =>
        obtain rfl := Option.some.inj hstep
        exact hmodule
      | ok warnings =>
        obtain rfl := Option.some.inj hstep
        exact hmodule
    · cases hstep

end Viewer

open Viewer

/-- **One load for all calls.**  However many renders call the viewer, and in whatever order its
promises settle: the module is initialised once and in front of everything else, each face is
registered once and in the order of `FACES`, and no view is created before the last of this is
done; every view is that of one call, with the document of this call.  A load that fails keeps
failing: nothing is done any more, and no later call ends but in the error of the first. -/
theorem viewer_loads_once (gunzip : Bytes → Option Bytes) (assets : Option Assets) {s : Viewer}
    (hs : (viewer assets gunzip).Reachable s) :
    (∃ l views, s.log = l ++ views ∧ (∀ e ∈ l, e.isView = false) ∧
      (∀ e ∈ views, e.isView = true) ∧ (assets = none → s.log = []) ∧
      ∀ a, assets = some a → ∃ urls, urls.length = faces.length ∧
        l <+: loadEffects gunzip a urls ∧
        (s.modulePromise = some .loaded → l = loadEffects gunzip a urls) ∧
        (views ≠ [] → s.modulePromise = some .loaded)) ∧
    (s.modulePromise = some .loaded →
      (s.log.filterMap Effect.created).Perm (s.calls.filterMap ViewCall.drawn)) ∧
    ∀ e, s.modulePromise = some (.failed e) → ∀ tr s', (viewer assets gunzip).run s tr = some s' →
      s'.modulePromise = some (.failed e) ∧ s'.log = s.log ∧
      ∀ c ∈ s'.calls, c.pc = .loading ∨ c.pc = .failed e := by
  have hsound := sound_of_reachable hs
  refine ⟨?_, hsound.drawn, ?_⟩
  · obtain ⟨l, views, hlog, hloading, hview, hviews⟩ := hsound.load
    refine ⟨l, views, hlog, hloading.not_view, hview, ?_, ?_⟩
    · intro hnone
      have hnil : views = [] := by
        by_contra hne
        rw [hviews hne] at hloading
        obtain ⟨a, -, ha, -⟩ := hloading.whole
        rw [hnone] at ha
        cases ha
      rw [hlog, hloading.log_nil hnone, hnil]
      rfl
    · intro a ha
      by_cases hloaded : s.modulePromise = some .loaded
      · rw [hloaded] at hloading
        obtain ⟨a', urls, ha', hurls, rfl⟩ := hloading.whole
        obtain rfl := Option.some.inj (ha'.symm.trans ha)
        exact ⟨urls, hurls, List.prefix_rfl, fun _ => rfl, hviews⟩
      · obtain ⟨urls, hurls, hstarts⟩ := hloading.starts ha
        exact ⟨urls, hurls, hstarts, fun h => absurd h hloaded, hviews⟩
  · intro e hfailed tr s' hrun
    obtain ⟨hsound', hfailed', hlog⟩ := Machine.run_invariant
      (M := viewer assets gunzip)
      (fun t => Sound gunzip assets t ∧ t.modulePromise = some (.failed e) ∧ t.log = s.log)
      (fun t l t' ht hstep => by
        obtain ⟨hpromise, hlog⟩ := failed_step ht.1 ht.2.1 hstep
        exact ⟨sound_step ht.1 hstep, hpromise, hlog.trans ht.2.2⟩)
      ⟨hsound, hfailed, rfl⟩ hrun
    refine ⟨hfailed', hlog, ?_⟩
    intro c hc
    have hfits := hsound'.calls c hc
    rw [hfailed'] at hfits
    cases hpc : c.pc with
    | loading => exact Or.inl rfl
    | creating => rw [hpc] at hfits; cases hfits
    | done => rw [hpc] at hfits; cases hfits
    | failed e' =>
      rw [hpc] at hfits
      rcases hfits with hloaded | hsame
      · cases hloaded
      · cases hsame
        exact Or.inr rfl

/-- A package whose files hold their own names, without compression. -/
def namedAssets : Assets := hepAssets id id

/-- Two calls wait for one load, and the second goes on first. -/
def twoCalls : List Label :=
  [.call [1], .call [2], .wasmRead, .initDone none none] ++
    List.replicate 4 (.faceRead (ascii "blob:") none none) ++
    [.resume 1, .created 1 (.ok [ascii "late"]), .resume 0]

theorem twoCalls_run : ∃ s, (viewer (some namedAssets) some).run fresh twoCalls = some s ∧
    s.modulePromise = some .loaded ∧ s.calls = [⟨[1], .creating⟩, ⟨[2], .done⟩] ∧
    s.log.length = 10 :=
  Machine.run_decided
    (fun s : Viewer => s.modulePromise = some .loaded ∧
      s.calls = [⟨[1], .creating⟩, ⟨[2], .done⟩] ∧ s.log.length = 10)
    (show (((viewer (some namedAssets) some).run fresh twoCalls).any _) = true by decide +kernel)

theorem reachable_twoCalls {s : Viewer}
    (hrun : (viewer (some namedAssets) some).run fresh twoCalls = some s) :
    (viewer (some namedAssets) some).Reachable s := ⟨fresh, twoCalls, rfl, hrun⟩

theorem viewer_loads_once_two :
    ∃ s, (viewer (some namedAssets) some).run fresh twoCalls = some s ∧
      (∃ urls, s.log.take 7 = loadEffects some namedAssets urls) ∧
      (s.log.filterMap Effect.created).Perm [[1], [2]] := by
  obtain ⟨s, hrun, hloaded, hcalls, hlength⟩ := twoCalls_run
  obtain ⟨⟨l, views, hlog, -, -, -, hload⟩, hdrawn, -⟩ :=
    viewer_loads_once some (some namedAssets) (reachable_twoCalls hrun)
  obtain ⟨urls, hurls, -, hwhole, -⟩ := hload namedAssets rfl
  refine ⟨s, hrun, ⟨urls, ?_⟩, ?_⟩
  · have hl : l.length = 7 := by
      rw [hwhole hloaded]
      rfl
    rw [hlog, ← hl, List.take_left', hwhole hloaded]
    rfl
  · have hperm := hdrawn hloaded
    rw [hcalls] at hperm
    exact hperm

/-- **The assets that are built load.**  Of the assets that `build.mjs` writes, whose gzip the
browser undoes, the module gets exactly the file of the wasm binary and then those of the four
faces, in their order; only the module itself can make a load fail; and as long as it does not, a
run in which nothing throws takes every call that has not failed to its view. -/
theorem viewer_loads_built {gzip : Bytes → Bytes} {gunzip : Bytes → Option Bytes}
    (hgzip : ∀ bytes, gunzip (gzip bytes) = some bytes) (files : Bytes → Bytes) {s : Viewer}
    (hs : (viewer (some (hepAssets gzip files)) gunzip).Reachable s) :
    (∃ urls l views, s.log = l ++ views ∧ (∀ e ∈ views, e.isView = true) ∧
      l <+: .init (files wasmFile) ::
          faces.map (fun face => .registerFont (files (fontFile face.name))) ++
        [.fontFaces (List.intercalate [0x0a] (List.zipWith fontFace faces urls)),
          .setGenericFamily (ascii "sans-serif") [ascii "Roboto"]]) ∧
    (∀ e, s.modulePromise = some (.failed e) → ∃ text, e = .thrown text) ∧
    (Alive s → ∃ tr s', (∀ l ∈ tr, Label.quiet l = true) ∧
      (viewer (some (hepAssets gzip files)) gunzip).run s tr = some s' ∧ Alive s' ∧
      s'.calls = s.calls.map ViewCall.through) := by
  have hreads := hepAssets_reads hgzip files
  have hsound := sound_of_reachable hs
  refine ⟨?_, ?_, ?_⟩
  · obtain ⟨l, views, hlog, hloading, hview, -⟩ := hsound.load
    obtain ⟨urls, -, hstarts⟩ := hloading.starts rfl
    rw [hreads.loadEffects] at hstarts
    exact ⟨urls, l, views, hlog, hview, hstarts⟩
  · have hboth : Sound gunzip (some (hepAssets gzip files)) s ∧ ByModule s := by
      refine hs.invariant (fun s => Sound gunzip (some (hepAssets gzip files)) s ∧ ByModule s) ?_
        fun _ _ _ h hstep => ⟨sound_step h.1 hstep, hreads.byModule_step h.1 h.2 hstep⟩
      rintro s₀ rfl
      exact ⟨Sound.start, nofun⟩
    exact hboth.2
  · intro halive
    obtain ⟨tr, s', hquiet, hrun, ⟨-, halive', hthrough⟩, hended⟩ := Machine.exists_run_to
      (M := viewer (some (hepAssets gzip files)) gunzip) Label.quiet work
      (I := fun t => Sound gunzip (some (hepAssets gzip files)) t ∧ Alive t ∧
        t.calls.map ViewCall.through = s.calls.map ViewCall.through)
      (fun t h hopen => by
        obtain ⟨l, t', hquiet, hstep, halive', hless⟩ := hreads.progress h.1 h.2.1 hopen
        have hthrough := (through_step h.2.1 hquiet hstep).trans h.2.2
        exact ⟨l, t', hquiet, hstep, ⟨sound_step h.1 hstep, halive', hthrough⟩, hless⟩)
      ⟨hsound, halive, rfl⟩
    refine ⟨tr, s', hquiet, hrun, halive', ?_⟩
    -- the calls have come to their ends
    rw [← hthrough]
    exact (List.map_id' s'.calls).symm.trans
      (List.map_congr_left fun c hc => (through_of_ended (hended c hc)).symm)

theorem viewer_loads_built_two :
    ∃ s, (viewer (some namedAssets) some).run fresh twoCalls = some s ∧ Alive s ∧
      ∃ tr s', (∀ l ∈ tr, Label.quiet l = true) ∧
        (viewer (some namedAssets) some).run s tr = some s' ∧ Alive s' ∧
        s'.calls = [⟨[1], .done⟩, ⟨[2], .done⟩] := by
  obtain ⟨s, hrun, hloaded, hcalls, -⟩ := twoCalls_run
  have halive : Alive s := by
    intro e he
    rw [hloaded] at he
    cases he
  have hgzip : ∀ bytes : Bytes, some (id bytes) = some bytes := fun _ => rfl
  obtain ⟨-, -, hgo⟩ := viewer_loads_built hgzip id (reachable_twoCalls hrun)
  rw [hcalls] at hgo
  exact ⟨s, hrun, halive, hgo halive⟩

end GgsqlDuckdb
