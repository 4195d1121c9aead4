import GgsqlDuckdb.Text
import GgsqlDuckdb.Library.Machine
import GgsqlDuckdb.Library.Roster

/-!
# The pictures of the viewer

`PlotView` of `rust/assets/hep-viewer.js`, as the bundle and the page use it: views that share one
container, each with a document in the wasm module, an animation frame, a `ResizeObserver` and a
listener for the color scheme of the system.  Whether an emission throws, what the browser measures
and when it calls back are the environment's.

## Main results

- `Sound`: which callbacks are pending, and which documents and renders are freed.
- `views_use_no_freed_document`: only `isDark` and `hints` can reach a freed document.
- `freed_view_rests`: behind `free` a view changes nothing any more.
- `picture_is_current`: what is skipped is never missed.
-/

namespace GgsqlDuckdb

open Library

/-! ## §1 Documents and views -/

/-- A `PlotDocument` of the wasm module, with the number of times it was freed. -/
structure PlotDocument where
  doc : Bytes
  hintWidth : Option ℕ
  hintHeight : Option ℕ
  dark : Bool
  transparent : Bool
  pickIds : Bool
  frees : ℕ
  deriving DecidableEq, Repr

/-- The markup of an `SvgRender`, by all that `toSvg` draws it from. -/
structure Markup where
  doc : Bytes
  dark : Bool
  transparent : Bool
  pickIds : Bool
  width : ℕ
  height : ℕ
  idPrefix : Bytes
  deriving DecidableEq, Repr

namespace PlotDocument

/-- `PlotDocument.load` -/
def load (doc : Bytes) (hints : Option ℕ × Option ℕ) : PlotDocument where
  doc := doc
  hintWidth := hints.1
  hintHeight := hints.2
  dark := false
  transparent := false
  pickIds := true
  frees := 0

/-- `toSvg` -/
def toSvg (plot : PlotDocument) (width height : ℕ) (idPrefix : Bytes) : Markup where
  doc := plot.doc
  dark := plot.dark
  transparent := plot.transparent
  pickIds := plot.pickIds
  width := width
  height := height
  idPrefix := idPrefix

end PlotDocument

/-- `PlotViewOptions` -/
structure PlotViewOptions where
  idPrefix : Option Bytes
  /-- `Math.round(width / aspect)` -/
  aspect : Option (ℕ → ℕ)
  picking : Bool
  transparent : Bool
  colorScheme : Option Bytes
  autoResize : Bool

structure PlotView where
  plot : PlotDocument
  warnings : List Bytes
  idPrefix : Bytes
  aspect : Option (ℕ → ℕ)
  frame : Option ℕ
  /-- The observer is connected. -/
  observer : Bool
  /-- The listener is attached. -/
  media : Bool
  lastSize : Option (ℕ × ℕ)
  freed : Bool
  scheme : Bytes
  /-- What the view has put into its container last. -/
  shown : Option Markup

/-- The views of a page, and what the browser and the wasm module hold for them. -/
structure Pictures where
  views : List PlotView
  /-- The pending animation frames, with the view of each. -/
  frames : List (ℕ × ℕ)
  nextFrame : ℕ
  nextViewId : ℕ
  /-- The number of times each `SvgRender` was freed. -/
  renders : List ℕ
  container : Option (ℕ × Markup)
  /-- A freed document was used. -/
  fault : Bool

namespace Pictures

/-! ## §2 Methods -/

/-- `this.plot` is used. -/
def touch (s : Pictures) (plot : PlotDocument) : Pictures :=
  { s with fault := s.fault || decide (plot.frees ≠ 0) }

def put (s : Pictures) (k : ℕ) (v : PlotView) : Pictures := { s with views := s.views.set k v }

/-- `cancelAnimationFrame`; a frame that runs is taken out in the same way. -/
def cancel (s : Pictures) (handle : ℕ) : Pictures :=
  { s with frames := s.frames.filter fun x => x.1 ≠ handle }

/-- `_emit`; without `warnings` the `try` block throws. -/
def emit (s : Pictures) (k : ℕ) (v : PlotView) (width height : ℕ)
    (warnings : Option (List Bytes)) : Pictures :=
  let s := s.touch v.plot
  let markup := v.plot.toSvg width height v.idPrefix
  let render := s.renders.length
  let s := { s with renders := s.renders ++ [0] }
  let s := match warnings with
    | none => s
    | some warnings =>
      { s.put k { v with
          warnings := warnings, lastSize := some (width, height), shown := some markup } with
        container := some (k, markup) }
  -- `finally`
  { s with renders := s.renders.modify render (· + 1) }

/-- `Math.max(1, Math.round(client || hint || 1))` -/
def measure (client : ℕ) (hint : Option ℕ) : ℕ :=
  max 1 (if client ≠ 0 then client else if hint.getD 0 ≠ 0 then hint.getD 0 else 1)

/-- `_sizeAndEmit` -/
def sizeAndEmit (s : Pictures) (k : ℕ) (v : PlotView) (client : ℕ × ℕ)
    (warnings : Option (List Bytes)) : Pictures :=
  let width := measure client.1 v.plot.hintWidth
  let height := match v.aspect with
    | some ratio => max 1 (ratio width)
    | none => measure client.2 v.plot.hintHeight
  s.emit k v width height warnings

/-- `_draw` -/
def draw (s : Pictures) (k : ℕ) (v : PlotView) (width height : ℕ)
    (warnings : Option (List Bytes)) : Pictures :=
  let h := match v.aspect with
    | some ratio => max 1 (ratio width)
    | none => height
  if v.lastSize = some (width, h) then s else s.emit k v width h warnings

/-- `resize`, and `_onObserved` -/
def resize (s : Pictures) (k : ℕ) (v : PlotView) (size : ℕ × ℕ)
    (warnings : Option (List Bytes)) : Pictures :=
  if v.freed then s else s.draw k v (max 1 size.1) (max 1 size.2) warnings

/-- `_renderNow` -/
def renderNow (s : Pictures) (k : ℕ) (v : PlotView) (client : ℕ × ℕ)
    (warnings : Option (List Bytes)) : Pictures :=
  if v.freed then s
  else match v.frame with
    | none => s.sizeAndEmit k v client warnings
    | some handle =>
      let v := { v with frame := none }
      ((s.cancel handle).put k v).sizeAndEmit k v client warnings

/-- `_schedule` -/
def schedule (s : Pictures) (k : ℕ) (v : PlotView) : Pictures :=
  if v.freed ∨ v.frame.isSome then s
  else { s.put k { v with frame := some s.nextFrame } with
    frames := s.frames ++ [(s.nextFrame, k)]
    nextFrame := s.nextFrame + 1 }

/-- `this.plot.setDark`, and a frame. -/
def darken (s : Pictures) (k : ℕ) (v : PlotView) (dark : Bool) : Pictures :=
  let s := s.touch v.plot
  let v := { v with plot := { v.plot with dark := dark } }
  (s.put k v).schedule k v

def colorSchemes : List Bytes := [ascii "light", ascii "dark", ascii "auto"]

/-- `setColorScheme`; `none` if it throws.  The system is in its dark scheme if `dark`. -/
def setColorScheme (s : Pictures) (k : ℕ) (v : PlotView) (scheme : Bytes) (dark : Bool) :
    Option Pictures :=
  if v.freed then some s
  else if scheme ∉ colorSchemes then none
  else
    -- the old listener is detached, and a new one attached for `auto`
    let auto := decide (scheme = ascii "auto")
    let v := { v with media := auto, scheme := scheme }
    let dark := if auto then dark else decide (scheme = ascii "dark")
    some ((s.put k v).darken k v dark)

/-- `free` -/
def free (s : Pictures) (k : ℕ) (v : PlotView) : Pictures :=
  if v.freed then s
  else
    let s := match v.frame with
      | some handle => s.cancel handle
      | none => s
    let s := s.touch v.plot
    s.put k { v with
      freed := true, observer := false, media := false,
      plot := { v.plot with frees := v.plot.frees + 1 } }

/-- The fields of a new view, up to `setColorScheme`. -/
def newView (s : Pictures) (doc : Bytes) (hints : Option ℕ × Option ℕ) (opts : PlotViewOptions) :
    PlotView where
  plot := { PlotDocument.load doc hints with
    pickIds := opts.picking, transparent := opts.transparent }
  warnings := []
  idPrefix := opts.idPrefix.getD (ascii "hep" ++ ascii s.nextViewId.repr ++ ascii "-")
  aspect := opts.aspect
  frame := none
  observer := false
  media := false
  lastSize := none
  freed := false
  scheme := []
  shown := none

/-- `PlotView.create`, of a document that can be loaded. -/
def create (s : Pictures) (doc : Bytes) (hints : Option ℕ × Option ℕ) (opts : PlotViewOptions)
    (dark : Bool) (client : ℕ × ℕ) (warnings : Option (List Bytes)) : Pictures :=
  let v := s.newView doc hints opts
  let k := s.views.length
  let s := { s with nextViewId := s.nextViewId + if opts.idPrefix.isSome then 0 else 1 }
  let scheme := opts.colorScheme.getD (ascii "light")
  match { s with views := s.views ++ [v] }.setColorScheme k v scheme dark with
  -- the constructor throws, and nothing refers to the view
  | none => s
  | some s =>
    match s.views[k]? with
    | none => s
    | some v =>
      let v := { v with observer := opts.autoResize }
      (s.put k v).renderNow k v client warnings

end Pictures

/-! ## §3 Steps -/

namespace Pictures

/-- What the page calls, and what the browser calls back. -/
inductive Label where
  | create (doc : Bytes) (hints : Option ℕ × Option ℕ) (opts : PlotViewOptions) (dark : Bool)
      (client : ℕ × ℕ) (warnings : Option (List Bytes))
  | redraw (k : ℕ) (client : ℕ × ℕ) (warnings : Option (List Bytes))
  | resize (k : ℕ) (size : ℕ × ℕ) (warnings : Option (List Bytes))
  | setColorScheme (k : ℕ) (scheme : Bytes) (dark : Bool)
  | isDark (k : ℕ)
  | hints (k : ℕ)
  | free (k : ℕ)
  /-- The page empties the container. -/
  | clear
  | frame (handle : ℕ) (client : ℕ × ℕ) (warnings : Option (List Bytes))
  | observed (k : ℕ) (size : ℕ × ℕ) (warnings : Option (List Bytes))
  | media (k : ℕ) (dark : Bool)

/-- The callback of a frame. -/
def runFrame (s : Pictures) (handle k : ℕ) (v : PlotView) (client : ℕ × ℕ)
    (warnings : Option (List Bytes)) : Pictures :=
  let v := { v with frame := none }
  let s := (s.cancel handle).put k v
  if v.freed then s else s.sizeAndEmit k v client warnings

def step (s : Pictures) : Label → Option Pictures
  | .create doc hints opts dark client warnings =>
    some (s.create doc hints opts dark client warnings)
  | .redraw k client warnings => (s.views[k]?).map fun v => s.renderNow k v client warnings
  | .resize k size warnings => (s.views[k]?).map fun v => s.resize k v size warnings
  | .setColorScheme k scheme dark =>
    (s.views[k]?).map fun v => (s.setColorScheme k v scheme dark).getD s
  | .isDark k => (s.views[k]?).map fun v => s.touch v.plot
  | .hints k => (s.views[k]?).map fun v => s.touch v.plot
  | .free k => (s.views[k]?).map fun v => s.free k v
  | .clear => some { s with container := none }
  | .frame handle client warnings =>
    (s.frames.lookup handle).bind fun k =>
      (s.views[k]?).map fun v => s.runFrame handle k v client warnings
  -- a callback of an observer that is not connected any more is not ruled out
  | .observed k size warnings => (s.views[k]?).map fun v => s.resize k v size warnings
  | .media k dark =>
    (s.views[k]?).bind fun v => if v.media then some (s.darken k v dark) else none

/-- A page without views. -/
def blank : Pictures where
  views := []
  frames := []
  nextFrame := 1
  nextViewId := 0
  renders := []
  container := none
  fault := false

end Pictures

/-- Any number of views of one page. -/
def pictures : Machine Pictures Pictures.Label where
  init s := s = Pictures.blank
  step := Pictures.step

namespace Pictures

variable {s s' : Pictures} {k : ℕ} {v : PlotView}

/-! ## §4 Callbacks and documents -/

/-- Where a view stands: alive, or freed with all that the browser held for it. -/
inductive Whole (v : PlotView) : Prop where
  | alive (hfreed : v.freed = false) (hfrees : v.plot.frees = 0) : Whole v
  | freed (hfreed : v.freed = true) (hfrees : v.plot.frees = 1) (hobserver : v.observer = false)
      (hmedia : v.media = false) : Whole v

/-- The frame of a view that is alive. -/
def pending (v : PlotView) : Option ℕ := if v.freed then none else v.frame

/-- The invariant: a frame is pending if and only if a view that is alive has asked for it. -/
structure Sound (s : Pictures) : Prop where
  handles : (s.frames.map Prod.fst).Nodup
  fresh : ∀ x ∈ s.frames, x.1 < s.nextFrame
  wired : ∀ handle k, (handle, k) ∈ s.frames ↔
    ∃ v, s.views[k]? = some v ∧ pending v = some handle
  renders : ∀ r ∈ s.renders, r = 1
  whole : ∀ (k : ℕ) (v : PlotView), s.views[k]? = some v → Whole v

theorem Whole.of_alive (h : Whole v) (hfreed : v.freed = false) : v.plot.frees = 0 := by
  cases h with
  | alive _ hfrees => exact hfrees
  | freed hfreed' => rw [hfreed] at hfreed'; cases hfreed'

theorem touch_of_alive {plot : PlotDocument} (h : plot.frees = 0) : s.touch plot = s := by
  unfold touch
  rw [decide_eq_false (by simp [h]), Bool.or_false]

theorem put_views (hk : s.views[k]? = some v) (w : PlotView) : (s.put k w).views[k]? = some w := by
  have hlt := (List.getElem?_eq_some_iff.mp hk).1
  unfold put
  rw [List.getElem?_set_self hlt]

theorem put_views_ne {j : ℕ} (hj : j ≠ k) (w : PlotView) : (s.put k w).views[j]? = s.views[j]? :=
  List.getElem?_set_ne (Ne.symm hj)

/-- What a view has put into its container last. -/
def shownBy (s : Pictures) (k : ℕ) : Option Markup := (s.views[k]?).bind PlotView.shown

/-- What one view does to the others: nothing, and to the container no more than to draw. -/
structure Turn (k : ℕ) (s s' : Pictures) : Prop where
  sound : Sound s'
  fault : s'.fault = s.fault
  others : ∀ j, j ≠ k → s'.views[j]? = s.views[j]?
  length : s'.views.length = s.views.length
  container : (s'.container = s.container ∧ shownBy s' k = shownBy s k) ∨
    ∃ m, s'.container = some (k, m) ∧ shownBy s' k = some m

theorem Turn.refl (hs : Sound s) : Turn k s s :=
  ⟨hs, rfl, fun _ _ => rfl, rfl, Or.inl ⟨rfl, rfl⟩⟩

theorem Turn.trans {s₁ s₂ s₃ : Pictures} (h : Turn k s₁ s₂) (h' : Turn k s₂ s₃) :
    Turn k s₁ s₃ where
  sound := h'.sound
  fault := h'.fault.trans h.fault
  others j hj := (h'.others j hj).trans (h.others j hj)
  length := h'.length.trans h.length
  container := by
    rcases h'.container with ⟨hcontainer, hshown⟩ | hdrawn
    · rw [hcontainer, hshown]
      exact h.container
    · exact Or.inr hdrawn

theorem shownBy_put (hk : s.views[k]? = some v) {w : PlotView} (hshown : w.shown = v.shown) :
    shownBy (s.put k w) k = shownBy s k := by
  unfold shownBy
  rw [put_views hk, hk]
  exact hshown

/-- The frames of the other views do not see a change of one. -/
theorem wired_put (hs : Sound s) (hk : s.views[k]? = some v) {w : PlotView}
    (hpending : pending w = pending v) (handle j : ℕ) :
    (handle, j) ∈ s.frames ↔ ∃ u, (s.put k w).views[j]? = some u ∧ pending u = some handle := by
  rw [hs.wired]
  by_cases hj : j = k
  · subst hj
    rw [hk, put_views hk]
    simp [hpending]
  · rw [put_views_ne hj]

theorem whole_put (hs : Sound s) (hk : s.views[k]? = some v) {w : PlotView} (hw : Whole w)
    (j : ℕ) (u : PlotView) (hu : (s.put k w).views[j]? = some u) : Whole u := by
  by_cases hj : j = k
  · subst hj
    rw [put_views hk] at hu
    exact Option.some.inj hu ▸ hw
  · rw [put_views_ne hj] at hu
    exact hs.whole j u hu

/-- A view changes, but not in what the browser waits for. -/
theorem turn_put (hs : Sound s) (hk : s.views[k]? = some v) {w : PlotView}
    (hpending : pending w = pending v) (hshown : w.shown = v.shown) (hw : Whole w) :
    Turn k s (s.put k w) where
  sound := ⟨hs.handles, hs.fresh, wired_put hs hk hpending, hs.renders, whole_put hs hk hw⟩
  fault := rfl
  others _ hj := put_views_ne hj w
  length := List.length_set
  container := Or.inl ⟨rfl, shownBy_put hk hshown⟩

/-- An emission, whether or not it throws. -/
theorem turn_emit (hs : Sound s) (hk : s.views[k]? = some v) (hfreed : v.freed = false)
    (width height : ℕ) (warnings : Option (List Bytes)) :
    Turn k s (s.emit k v width height warnings) := by
  have hfrees := (hs.whole k v hk).of_alive hfreed
  have hrenders : ∀ r ∈ (s.renders ++ [0]).modify s.renders.length (· + 1), r = 1 := by
    intro r hr
    obtain ⟨i, hi⟩ := List.mem_iff_getElem?.mp hr
    rcases getElem?_modify_cases hi with ⟨rfl, a, ha, rfl⟩ | ⟨hne, hold⟩
    · obtain rfl : 0 = a := by simpa using ha
      rfl
    · rcases getElem?_concat_cases hold with hold | ⟨hlast, -⟩
      · exact hs.renders r (List.mem_of_getElem? hold)
      · exact absurd hlast.symm hne
  unfold emit
  rw [touch_of_alive hfrees]
  cases warnings with
  | none => exact ⟨⟨hs.handles, hs.fresh, hs.wired, hrenders, hs.whole⟩, rfl, fun _ _ => rfl, rfl,
      Or.inl ⟨rfl, rfl⟩⟩
  | some warnings =>
    refine ⟨⟨hs.handles, hs.fresh, wired_put hs hk rfl, hrenders,
      whole_put hs hk (.alive hfreed hfrees)⟩, rfl, fun _ hj => put_views_ne hj _,
      List.length_set, Or.inr ⟨_, rfl, ?_⟩⟩
    exact congrArg (Option.bind · PlotView.shown) (put_views hk _)

theorem turn_sizeAndEmit (hs : Sound s) (hk : s.views[k]? = some v) (hfreed : v.freed = false)
    (client : ℕ × ℕ) (warnings : Option (List Bytes)) :
    Turn k s (s.sizeAndEmit k v client warnings) :=
  turn_emit hs hk hfreed _ _ warnings

theorem turn_resize (hs : Sound s) (hk : s.views[k]? = some v) (size : ℕ × ℕ)
    (warnings : Option (List Bytes)) : Turn k s (s.resize k v size warnings) := by
  unfold resize
  split_ifs with hfreed
  · exact .refl hs
  · unfold draw
    dsimp only
    split_ifs
    · exact .refl hs
    · exact turn_emit hs hk (Bool.not_eq_true _ ▸ hfreed) _ _ warnings

/-- The frame of a view is taken out, and the view knows it. -/
theorem turn_cancel (hs : Sound s) (hk : s.views[k]? = some v) {handle : ℕ}
    (hpending : pending v = some handle) {w : PlotView} (hnone : pending w = none)
    (hshown : w.shown = v.shown) (hw : Whole w) : Turn k s ((s.cancel handle).put k w) := by
  have hmem : ∀ h j, (h, j) ∈ (s.cancel handle).frames ↔ (h, j) ∈ s.frames ∧ h ≠ handle := by
    intro h j
    simp [cancel]
  -- the handle is that of no other view
  have hown : ∀ j, (handle, j) ∈ s.frames → j = k := by
    intro j hj
    have hk' : (handle, k) ∈ s.frames := (hs.wired handle k).mpr ⟨v, hk, hpending⟩
    have hsame := List.inj_on_of_nodup_map hs.handles hj hk' rfl
    exact congrArg Prod.snd hsame
  refine ⟨⟨?_, ?_, ?_, hs.renders, ?_⟩, rfl, fun _ hj => put_views_ne hj w, List.length_set,
    Or.inl ⟨rfl, shownBy_put hk hshown⟩⟩
  · exact hs.handles.sublist (List.filter_sublist.map _)
  · intro x hx
    exact hs.fresh x (List.mem_of_mem_filter hx)
  · intro h j
    show (h, j) ∈ (s.cancel handle).frames ↔ ∃ u, (s.put k w).views[j]? = some u ∧ _
    rw [hmem]
    by_cases hj : j = k
    · subst hj
      rw [put_views hk, hs.wired, hk]
      simp only [Option.some.injEq, exists_eq_left', hpending, hnone]
      constructor
      · rintro ⟨hsame, hne⟩
        exact absurd hsame.symm hne
      · rintro ⟨⟩
    · rw [put_views_ne hj, hs.wired]
      constructor
      · rintro ⟨hold, -⟩
        exact hold
      · intro hold
        refine ⟨hold, ?_⟩
        rintro rfl
        exact hj (hown j ((hs.wired h j).mpr hold))
  · exact whole_put hs hk hw

theorem turn_renderNow (hs : Sound s) (hk : s.views[k]? = some v) (client : ℕ × ℕ)
    (warnings : Option (List Bytes)) : Turn k s (s.renderNow k v client warnings) := by
  unfold renderNow
  split_ifs with hfreed
  · exact .refl hs
  · have halive : v.freed = false := Bool.not_eq_true _ ▸ hfreed
    cases hframe : v.frame with
    | none => exact turn_sizeAndEmit hs hk halive client warnings
    | some handle =>
      have hpending : pending v = some handle := by
        unfold pending
        rw [if_neg hfreed, hframe]
      have hnone : pending { v with frame := none } = none := ite_self _
      have hcancel := turn_cancel hs hk hpending hnone rfl
        (.alive halive ((hs.whole k v hk).of_alive halive))
      exact hcancel.trans (turn_sizeAndEmit hcancel.sound
        (put_views (s := s.cancel handle) hk _) halive client warnings)

theorem turn_schedule (hs : Sound s) (hk : s.views[k]? = some v) :
    Turn k s (s.schedule k v) := by
  unfold schedule
  split_ifs with hbusy
  · exact .refl hs
  · obtain ⟨hfreed, hframe⟩ := not_or.mp hbusy
    have halive : v.freed = false := Bool.not_eq_true _ ▸ hfreed
    have hnone : pending v = none := by
      unfold pending
      rw [if_neg hfreed]
      simpa using hframe
    have hsome : pending { v with frame := some s.nextFrame } = some s.nextFrame := if_neg hfreed
    -- the handle is new
    have hnew : ∀ j, (s.nextFrame, j) ∉ s.frames := fun j hj => Nat.lt_irrefl _ (hs.fresh _ hj)
    refine ⟨⟨?_, ?_, ?_, hs.renders, ?_⟩, rfl, fun _ hj => put_views_ne hj _, List.length_set,
      Or.inl ⟨rfl, shownBy_put hk rfl⟩⟩
    · show ((s.frames ++ [(s.nextFrame, k)]).map Prod.fst).Nodup
      rw [List.map_append, List.nodup_append]
      refine ⟨hs.handles, List.nodup_singleton _, ?_⟩
      intro h hh h' hh'
      obtain ⟨x, hx, rfl⟩ := List.mem_map.mp hh
      obtain rfl : h' = s.nextFrame := by simpa using hh'
      exact Nat.ne_of_lt (hs.fresh x hx)
    · intro x hx
      rcases List.mem_append.mp hx with hold | hlast
      · exact Nat.lt_succ_of_lt (hs.fresh x hold)
      · rw [List.mem_singleton.mp hlast]
        exact Nat.lt_succ_self _
    · intro h j
      show (h, j) ∈ s.frames ++ [(s.nextFrame, k)] ↔ ∃ u, (s.put k _).views[j]? = some u ∧ _
      rw [List.mem_append, List.mem_singleton, Prod.mk.injEq]
      by_cases hj : j = k
      · subst hj
        rw [put_views hk, hs.wired, hk]
        simp only [Option.some.injEq, exists_eq_left', hnone, hsome, and_true, reduceCtorEq,
          false_or]
        exact eq_comm
      · rw [put_views_ne hj, hs.wired]
        simp [hj]
    · exact whole_put hs hk (.alive halive ((hs.whole k v hk).of_alive halive))

theorem turn_darken (hs : Sound s) (hk : s.views[k]? = some v) (hfreed : v.freed = false)
    (dark : Bool) : Turn k s (s.darken k v dark) := by
  have hfrees := (hs.whole k v hk).of_alive hfreed
  unfold darken
  rw [touch_of_alive hfrees]
  have hput := turn_put hs hk (w := { v with plot := { v.plot with dark := dark } }) rfl rfl
    (.alive hfreed hfrees)
  exact hput.trans (turn_schedule hput.sound (put_views hk _))

theorem turn_setColorScheme (hs : Sound s) (hk : s.views[k]? = some v) (scheme : Bytes)
    (dark : Bool) (h : s.setColorScheme k v scheme dark = some s') : Turn k s s' := by
  unfold setColorScheme at h
  split_ifs at h with hfreed hknown
  · exact Option.some.inj h ▸ .refl hs
  · have halive : v.freed = false := Bool.not_eq_true _ ▸ hfreed
    have hfrees := (hs.whole k v hk).of_alive halive
    obtain rfl := Option.some.inj h
    have hput := turn_put hs hk (w := { v with
      media := decide (scheme = ascii "auto"), scheme := scheme }) rfl rfl
      (.alive halive hfrees)
    exact hput.trans (turn_darken hput.sound (put_views hk _) halive _)

theorem turn_free (hs : Sound s) (hk : s.views[k]? = some v) : Turn k s (s.free k v) := by
  unfold free
  split_ifs with hfreed
  · exact .refl hs
  · have halive : v.freed = false := Bool.not_eq_true _ ▸ hfreed
    have hfrees := (hs.whole k v hk).of_alive halive
    have hframe : pending v = v.frame := if_neg hfreed
    have hwhole : ∀ frame, Whole { v with
        frame := frame, freed := true, observer := false, media := false,
        plot := { v.plot with frees := v.plot.frees + 1 } } :=
      fun _ => .freed rfl (by simp [hfrees]) rfl rfl
    dsimp only
    rw [touch_of_alive hfrees]
    cases hv : v.frame with
    | none =>
      refine turn_put hs hk ?_ rfl (hwhole none)
      rw [hframe, hv]
      rfl
    | some handle => exact turn_cancel hs hk (hframe.trans hv) rfl rfl (hwhole _)

theorem mem_of_lookup {frames : List (ℕ × ℕ)} {handle : ℕ} (h : frames.lookup handle = some k) :
    (handle, k) ∈ frames := by
  obtain ⟨l₁, l₂, hl, -⟩ := List.lookup_eq_some_iff.mp h
  rw [hl]
  simp

theorem turn_runFrame (hs : Sound s) {handle : ℕ} (hlookup : s.frames.lookup handle = some k)
    (hk : s.views[k]? = some v) (client : ℕ × ℕ) (warnings : Option (List Bytes)) :
    Turn k s (s.runFrame handle k v client warnings) := by
  obtain ⟨u, hu, hpending⟩ := (hs.wired handle k).mp (mem_of_lookup hlookup)
  obtain rfl : v = u := Option.some.inj (hk.symm.trans hu)
  have halive : v.freed = false := by
    by_contra hfreed
    rw [pending, if_pos (by simpa using hfreed)] at hpending
    cases hpending
  have hnone : pending { v with frame := none } = none := ite_self _
  have hcancel := turn_cancel hs hk hpending hnone rfl
    (.alive halive ((hs.whole k v hk).of_alive halive))
  unfold runFrame
  dsimp only
  rw [if_neg (by simp [halive])]
  exact hcancel.trans (turn_sizeAndEmit hcancel.sound (put_views (s := s.cancel handle) hk _)
    halive client warnings)

/-! ## §5 What a view shows -/

/-- A view that is alive waits for a frame, or has drawn its document as it is. -/
def Current (v : PlotView) : Prop :=
  v.freed = true ∨ v.frame.isSome = true ∨
    ∃ width height, v.lastSize = some (width, height) ∧
      v.shown = some (v.plot.toSvg width height v.idPrefix)

def CurrentAt (k : ℕ) (s : Pictures) : Prop := ∀ v, s.views[k]? = some v → Current v

/-- The view has just drawn. -/
def Drew (k : ℕ) (s : Pictures) : Prop :=
  ∃ v width height, s.views[k]? = some v ∧ v.lastSize = some (width, height) ∧
    v.shown = some (v.plot.toSvg width height v.idPrefix) ∧
    s.container = some (k, v.plot.toSvg width height v.idPrefix)

theorem Drew.current (h : Drew k s) : CurrentAt k s := by
  obtain ⟨v, width, height, hk, hsize, hshown, -⟩ := h
  intro u hu
  obtain rfl : v = u := Option.some.inj (hk.symm.trans hu)
  exact Or.inr (Or.inr ⟨width, height, hsize, hshown⟩)

theorem emit_drew (hk : s.views[k]? = some v) (width height : ℕ) (warnings : List Bytes) :
    Drew k (s.emit k v width height (some warnings)) :=
  ⟨_, width, height, put_views (s := s.touch v.plot) hk _, rfl, rfl, rfl⟩

theorem sizeAndEmit_drew (hk : s.views[k]? = some v) (client : ℕ × ℕ) (warnings : List Bytes) :
    Drew k (s.sizeAndEmit k v client (some warnings)) :=
  emit_drew hk _ _ warnings

theorem renderNow_drew (hk : s.views[k]? = some v) (hfreed : v.freed = false) (client : ℕ × ℕ)
    (warnings : List Bytes) : Drew k (s.renderNow k v client (some warnings)) := by
  unfold renderNow
  rw [if_neg (by simp [hfreed])]
  cases v.frame with
  | none => exact sizeAndEmit_drew hk client warnings
  | some handle =>
    exact sizeAndEmit_drew (put_views (s := s.cancel handle) hk _) client warnings

theorem runFrame_drew (hk : s.views[k]? = some v) (hfreed : v.freed = false) (handle : ℕ)
    (client : ℕ × ℕ) (warnings : List Bytes) :
    Drew k (s.runFrame handle k v client (some warnings)) := by
  unfold runFrame
  dsimp only
  rw [if_neg (by simp [hfreed])]
  exact sizeAndEmit_drew (put_views (s := s.cancel handle) hk _) client warnings

/-- **What is skipped is not missed**: the size is the same, and so is the document, or a frame is
pending. -/
theorem resize_current (hk : s.views[k]? = some v) (hv : Current v) (size : ℕ × ℕ)
    (warnings : List Bytes) : CurrentAt k (s.resize k v size (some warnings)) := by
  have hsame : CurrentAt k s := by
    intro u hu
    exact Option.some.inj (hk.symm.trans hu) ▸ hv
  unfold resize
  split_ifs
  · exact hsame
  · unfold draw
    dsimp only
    split_ifs
    · exact hsame
    · exact (emit_drew hk _ _ warnings).current

/-- Behind `_schedule` a frame is pending. -/
theorem schedule_current (hk : s.views[k]? = some v) : CurrentAt k (s.schedule k v) := by
  intro u hu
  unfold schedule at hu
  split_ifs at hu with hbusy
  · obtain rfl : v = u := Option.some.inj (hk.symm.trans hu)
    rcases hbusy with hfreed | hframe
    · exact Or.inl hfreed
    · exact Or.inr (Or.inl hframe)
  · have hput : u = { v with frame := some s.nextFrame } :=
      Option.some.inj (hu.symm.trans (put_views hk _))
    rw [hput]
    exact Or.inr (Or.inl rfl)

theorem darken_current (hk : s.views[k]? = some v) (dark : Bool) :
    CurrentAt k (s.darken k v dark) :=
  schedule_current (put_views (s := s.touch v.plot) hk _)

theorem setColorScheme_current (hk : s.views[k]? = some v) (hv : Current v) (scheme : Bytes)
    (dark : Bool) (h : s.setColorScheme k v scheme dark = some s') : CurrentAt k s' := by
  unfold setColorScheme at h
  split_ifs at h
  · obtain rfl := Option.some.inj h
    intro u hu
    exact Option.some.inj (hk.symm.trans hu) ▸ hv
  · exact Option.some.inj h ▸ darken_current (put_views hk _) _

theorem free_current (hk : s.views[k]? = some v) : CurrentAt k (s.free k v) := by
  intro u hu
  unfold free at hu
  split_ifs at hu with hfreed
  · obtain rfl : v = u := Option.some.inj (hk.symm.trans hu)
    exact Or.inl hfreed
  · have hput : ∀ t : Pictures, t.views = s.views → ∀ w : PlotView, w.freed = true →
        (t.put k w).views[k]? = some u → Current u := by
      intro t ht w hw hu
      obtain rfl : w = u := Option.some.inj ((put_views (ht ▸ hk) w).symm.trans hu)
      exact Or.inl hw
    cases hframe : v.frame with
    | none =>
      rw [hframe] at hu
      exact hput (s.touch v.plot) rfl _ rfl hu
    | some handle =>
      rw [hframe] at hu
      exact hput ((s.cancel handle).touch v.plot) rfl _ rfl hu

/-! ## §6 All that a step can do -/

/-- The emission of a step, if there is one, does not throw. -/
def Label.draws : Label → Bool
  | .create _ _ _ _ _ warnings => warnings.isSome
  | .redraw _ _ warnings => warnings.isSome
  | .resize _ _ warnings => warnings.isSome
  | .frame _ _ warnings => warnings.isSome
  | .observed _ _ warnings => warnings.isSome
  | _ => true

/-- `isDark` or `hints` is asked of a freed view. -/
def asksFreed (s : Pictures) : Label → Bool
  | .isDark k => (s.views[k]?).any PlotView.freed
  | .hints k => (s.views[k]?).any PlotView.freed
  | _ => false

/-- A new view behind the others. -/
def appended (s : Pictures) (v : PlotView) (nextViewId : ℕ) : Pictures :=
  { s with views := s.views ++ [v], nextViewId := nextViewId }

/-- What a step does: to a view that is alive, or to a new one, or to none. -/
inductive Effect (s : Pictures) (l : Label) : Pictures → Prop where
  | turn (k : ℕ) (v : PlotView) (s' : Pictures) (hk : s.views[k]? = some v)
      (hfreed : v.freed = false) (hturn : Turn k s s')
      (hcurrent : l.draws = true → Current v → CurrentAt k s') (hasks : asksFreed s l = false) :
      Effect s l s'
  | create (v : PlotView) (n : ℕ) (s' : Pictures) (hfreed : v.freed = false)
      (hl : ∃ doc hints opts dark client warnings,
        l = .create doc hints opts dark client warnings)
      (hturn : Turn s.views.length (s.appended v n) s')
      (hdrew : l.draws = true → Drew s.views.length s') : Effect s l s'
  | refuse (n : ℕ) (hasks : asksFreed s l = false) : Effect s l { s with nextViewId := n }
  | clear (hl : l = .clear) : Effect s l { s with container := none }
  | ask (k : ℕ) (v : PlotView) (hk : s.views[k]? = some v) (hl : l = .isDark k ∨ l = .hints k) :
      Effect s l (s.touch v.plot)

/-- A method of a freed view returns at once. -/
theorem Effect.still {l : Label} (hasks : asksFreed s l = false) : Effect s l s :=
  .refuse s.nextViewId hasks

theorem sound_appended (hs : Sound s) {v : PlotView} (hframe : v.frame = none)
    (hfreed : v.freed = false) (hfrees : v.plot.frees = 0) (n : ℕ) : Sound (s.appended v n) := by
  refine ⟨hs.handles, hs.fresh, ?_, hs.renders, ?_⟩
  · intro handle k
    show (handle, k) ∈ s.frames ↔ _
    rw [hs.wired]
    constructor
    · rintro ⟨u, hu, hpending⟩
      have hlt := (List.getElem?_eq_some_iff.mp hu).1
      exact ⟨u, (List.getElem?_append_left hlt).trans hu, hpending⟩
    · rintro ⟨u, hu, hpending⟩
      rcases getElem?_concat_cases hu with hold | ⟨-, rfl⟩
      · exact ⟨u, hold, hpending⟩
      · -- the new view waits for no frame
        rw [pending, hframe, ite_self] at hpending
        cases hpending
  · intro k u hu
    rcases getElem?_concat_cases hu with hold | ⟨-, rfl⟩
    · exact hs.whole k u hold
    · exact .alive hfreed hfrees

/-- What a frame and a color scheme leave of a view. -/
structure SameView (v u : PlotView) : Prop where
  freed : u.freed = v.freed
  frees : u.plot.frees = v.plot.frees

theorem schedule_same (hk : s.views[k]? = some v) :
    ∃ u, (s.schedule k v).views[k]? = some u ∧ SameView v u := by
  unfold schedule
  split_ifs
  · exact ⟨v, hk, rfl, rfl⟩
  · exact ⟨_, put_views hk _, rfl, rfl⟩

theorem setColorScheme_same (hk : s.views[k]? = some v) {scheme : Bytes} {dark : Bool}
    (h : s.setColorScheme k v scheme dark = some s') :
    ∃ u, s'.views[k]? = some u ∧ SameView v u := by
  unfold setColorScheme at h
  split_ifs at h
  · exact ⟨v, Option.some.inj h ▸ hk, rfl, rfl⟩
  · obtain rfl := Option.some.inj h
    obtain ⟨u, hu, hsame⟩ := schedule_same
      (put_views (s := (s.put k _).touch v.plot) (put_views hk _) _)
    exact ⟨u, hu, hsame.freed, hsame.frees⟩

/-- The constructor behind its choice of a scheme: the observer is connected, and the first picture
drawn. -/
theorem turn_construct (hs : Sound s) (hframe : v.frame = none) (hfreed : v.freed = false)
    (hfrees : v.plot.frees = 0) {n : ℕ} {scheme : Bytes} {dark : Bool} {s₁ : Pictures}
    (hscheme : (s.appended v n).setColorScheme s.views.length v scheme dark = some s₁) :
    ∃ u, s₁.views[s.views.length]? = some u ∧ u.freed = false ∧
      ∀ (observer : Bool) (client : ℕ × ℕ) (warnings : Option (List Bytes)),
        Turn s.views.length (s.appended v n)
          ((s₁.put s.views.length { u with observer := observer }).renderNow s.views.length
            { u with observer := observer } client warnings) := by
  have hstart := sound_appended hs hframe hfreed hfrees n
  have hk : (s.appended v n).views[s.views.length]? = some v := List.getElem?_concat_length
  have hcolored := turn_setColorScheme hstart hk scheme dark hscheme
  obtain ⟨u, hu, hsame⟩ := setColorScheme_same hk hscheme
  have halive : u.freed = false := hsame.freed.trans hfreed
  refine ⟨u, hu, halive, ?_⟩
  intro observer client warnings
  have hobserved := turn_put hcolored.sound hu (w := { u with observer := observer }) rfl rfl
    (.alive halive (hsame.frees.trans hfrees))
  exact hcolored.trans (hobserved.trans
    (turn_renderNow hobserved.sound (put_views hu _) client warnings))

theorem create_effect (hs : Sound s) (doc : Bytes) (hints : Option ℕ × Option ℕ)
    (opts : PlotViewOptions) (dark : Bool) (client : ℕ × ℕ) (warnings : Option (List Bytes)) :
    Effect s (.create doc hints opts dark client warnings)
      (s.create doc hints opts dark client warnings) := by
  unfold create
  dsimp only
  generalize hv : s.newView doc hints opts = v
  generalize s.nextViewId + (if opts.idPrefix.isSome then 0 else 1) = n
  generalize opts.colorScheme.getD (ascii "light") = scheme
  have hfreed : v.freed = false := hv ▸ rfl
  show Effect s _ (match (s.appended v n).setColorScheme s.views.length v scheme dark with
    | none => _
    | some s' => _)
  cases hscheme : (s.appended v n).setColorScheme s.views.length v scheme dark with
  | none => exact .refuse n rfl
  | some s₁ =>
    obtain ⟨u, hu, halive, hturn⟩ :=
      turn_construct hs (hv ▸ rfl : v.frame = none) hfreed (hv ▸ rfl) hscheme
    dsimp only
    rw [hu]
    refine .create v n _ hfreed ⟨doc, hints, opts, dark, client, warnings, rfl⟩
      (hturn _ client warnings) ?_
    intro hdraws
    obtain ⟨ws, rfl⟩ := Option.isSome_iff_exists.mp hdraws
    exact renderNow_drew (put_views hu { u with observer := opts.autoResize }) halive client ws

/-- A freed view has no frame pending and no listener attached. -/
theorem Sound.rests (hs : Sound s) (hk : s.views[k]? = some v) (hfreed : v.freed = true) :
    v.media = false ∧ ∀ handle, (handle, k) ∉ s.frames := by
  refine ⟨?_, ?_⟩
  · cases hs.whole k v hk with
    | alive halive => rw [hfreed] at halive; cases halive
    | freed _ _ _ hmedia => exact hmedia
  · intro handle hmem
    obtain ⟨u, hu, hpending⟩ := (hs.wired handle k).mp hmem
    obtain rfl : v = u := Option.some.inj (hk.symm.trans hu)
    rw [pending, if_pos hfreed] at hpending
    cases hpending

/-- A method of one view. -/
theorem method_effect {l : Label} (hk : s.views[k]? = some v)
    {op : Pictures} (hasks : asksFreed s l = false) (hfreed : v.freed = true → op = s)
    (hturn : Turn k s op) (hcurrent : l.draws = true → Current v → CurrentAt k op) :
    Effect s l op := by
  cases hv : v.freed with
  | true =>
    rw [hfreed hv]
    exact .still hasks
  | false => exact .turn k v op hk hv hturn hcurrent hasks

/-- **All that a step can do.** -/
theorem effect_of_step {l : Label} (hs : Sound s) (h : pictures.step s l = some s') :
    Effect s l s' := by
  have h : s.step l = some s' := h
  cases l with
  | create doc hints opts dark client warnings =>
    obtain rfl := Option.some.inj h
    exact create_effect hs doc hints opts dark client warnings
  | redraw k client warnings =>
    obtain ⟨v, hk, rfl⟩ := Option.map_eq_some_iff.mp h
    refine method_effect hk rfl (fun hfreed => if_pos hfreed)
      (turn_renderNow hs hk client warnings) ?_
    intro hdraws hv
    obtain ⟨ws, rfl⟩ := Option.isSome_iff_exists.mp hdraws
    cases hfreed : v.freed with
    | true =>
      have hsame : s.renderNow k v client (some ws) = s := if_pos hfreed
      intro u hu
      rw [hsame] at hu
      exact Option.some.inj (hk.symm.trans hu) ▸ hv
    | false => exact (renderNow_drew hk hfreed client ws).current
  | resize k size warnings =>
    obtain ⟨v, hk, rfl⟩ := Option.map_eq_some_iff.mp h
    refine method_effect hk rfl (fun hfreed => if_pos hfreed) (turn_resize hs hk size warnings)
      ?_
    intro hdraws hv
    obtain ⟨ws, rfl⟩ := Option.isSome_iff_exists.mp hdraws
    exact resize_current hk hv size ws
  | observed k size warnings =>
    obtain ⟨v, hk, rfl⟩ := Option.map_eq_some_iff.mp h
    refine method_effect hk rfl (fun hfreed => if_pos hfreed) (turn_resize hs hk size warnings)
      ?_
    intro hdraws hv
    obtain ⟨ws, rfl⟩ := Option.isSome_iff_exists.mp hdraws
    exact resize_current hk hv size ws
  | setColorScheme k scheme dark =>
    obtain ⟨v, hk, rfl⟩ := Option.map_eq_some_iff.mp h
    cases hscheme : s.setColorScheme k v scheme dark with
    | none => exact .still rfl
    | some s₁ =>
      refine method_effect hk rfl ?_ (turn_setColorScheme hs hk scheme dark hscheme)
        fun _ hv => setColorScheme_current hk hv scheme dark hscheme
      intro hfreed
      have hsame : s.setColorScheme k v scheme dark = some s := if_pos hfreed
      exact (Option.some.inj (hsame.symm.trans hscheme)).symm
  | free k =>
    obtain ⟨v, hk, rfl⟩ := Option.map_eq_some_iff.mp h
    exact method_effect hk rfl (fun hfreed => if_pos hfreed) (turn_free hs hk)
      fun _ _ => free_current hk
  | isDark k =>
    obtain ⟨v, hk, rfl⟩ := Option.map_eq_some_iff.mp h
    exact .ask k v hk (Or.inl rfl)
  | hints k =>
    obtain ⟨v, hk, rfl⟩ := Option.map_eq_some_iff.mp h
    exact .ask k v hk (Or.inr rfl)
  | clear =>
    obtain rfl := Option.some.inj h
    exact .clear rfl
  | frame handle client warnings =>
    obtain ⟨k, hlookup, hframe⟩ := Option.bind_eq_some_iff.mp h
    obtain ⟨v, hk, rfl⟩ := Option.map_eq_some_iff.mp hframe
    -- the view of a pending frame is alive
    have halive : v.freed = false := by
      by_contra hfreed
      exact (hs.rests hk (by simpa using hfreed)).2 handle (mem_of_lookup hlookup)
    refine .turn k v _ hk halive (turn_runFrame hs hlookup hk client warnings) ?_ rfl
    intro hdraws _
    obtain ⟨ws, rfl⟩ := Option.isSome_iff_exists.mp hdraws
    exact (runFrame_drew hk halive handle client ws).current
  | media k dark =>
    obtain ⟨v, hk, hmedia⟩ := Option.bind_eq_some_iff.mp h
    obtain ⟨hattached, hdark⟩ := Option.ite_none_right_eq_some.mp hmedia
    obtain rfl := Option.some.inj hdark
    -- so is one with a listener
    have halive : v.freed = false := by
      by_contra hfreed
      rw [(hs.rests hk (by simpa using hfreed)).1] at hattached
      cases hattached
    exact .turn k v _ hk halive (turn_darken hs hk halive dark)
      (fun _ _ => darken_current hk dark) rfl

/-! ## §7 Runs -/

theorem sound_step {l : Label} (hs : Sound s) (h : pictures.step s l = some s') : Sound s' := by
  cases effect_of_step hs h with
  | turn k v s' hk hfreed hturn => exact hturn.sound
  | create v n s' hfreed hl hturn => exact hturn.sound
  | refuse n => exact ⟨hs.handles, hs.fresh, hs.wired, hs.renders, hs.whole⟩
  | clear => exact ⟨hs.handles, hs.fresh, hs.wired, hs.renders, hs.whole⟩
  | ask k v => exact ⟨hs.handles, hs.fresh, hs.wired, hs.renders, hs.whole⟩

theorem sound_blank : Sound blank := by
  refine ⟨List.nodup_nil, by simp [blank], ?_, by simp [blank], by simp [blank]⟩
  intro handle k
  simp [blank]

/-- A step uses a freed document if and only if it asks one. -/
theorem fault_step {l : Label} (hs : Sound s) (h : pictures.step s l = some s') :
    s'.fault = (s.fault || asksFreed s l) := by
  cases effect_of_step hs h with
  | turn k v s' hk hfreed hturn hcurrent hasks =>
    rw [hturn.fault, hasks, Bool.or_false]
  | create v n s' hfreed hl hturn =>
    obtain ⟨doc, hints, opts, dark, client, warnings, rfl⟩ := hl
    exact hturn.fault.trans (Bool.or_false _).symm
  | refuse n hasks => rw [hasks, Bool.or_false]
  | clear hl =>
    subst hl
    exact (Bool.or_false _).symm
  | ask k v hk hl =>
    have hasks : asksFreed s l = v.freed := by
      rcases hl with rfl | rfl
      · simp [asksFreed, hk]
      · simp [asksFreed, hk]
    have hfrees : decide (v.plot.frees ≠ 0) = v.freed := by
      cases hs.whole k v hk with
      | alive hfreed hfrees => rw [hfreed, hfrees]; rfl
      | freed hfreed hfrees => rw [hfreed, hfrees]; rfl
    show (s.fault || decide (v.plot.frees ≠ 0)) = _
    rw [hasks, hfrees]

/-- So does a run, by induction over its steps. -/
theorem fault_run {tr : List Label} (hs : Sound s) (h : pictures.run s tr = some s') :
    s'.fault = false ↔
      s.fault = false ∧ pictures.Along (fun s l => asksFreed s l = false) s tr := by
  induction tr generalizing s with
  | nil =>
    obtain rfl : s = s' := Option.some.inj h
    simp
  | cons l tr ih =>
    obtain ⟨m, hm, hr⟩ := Machine.run_cons_eq_some.mp h
    rw [ih (sound_step hs hm) hr, fault_step hs hm, Bool.or_eq_false_iff, and_assoc]
    refine and_congr_right fun _ => and_congr_right fun _ => ?_
    constructor
    · intro hrest m' hm'
      exact Option.some.inj (hm.symm.trans hm') ▸ hrest
    · intro hrest
      exact hrest m hm

/-- A freed view, and the picture it may have left. -/
structure Rested (k : ℕ) (v : PlotView) (start s : Pictures) : Prop where
  sound : Sound s
  view : s.views[k]? = some v
  container : ∀ m, s.container = some (k, m) → start.container = some (k, m)

theorem Rested.turn {start t u : Pictures} {j : ℕ} (h : Rested k v start t) (hj : k ≠ j)
    (hturn : Turn j t u) : Rested k v start u := by
  refine ⟨hturn.sound, (hturn.others k hj).trans h.view, ?_⟩
  intro m hm
  rcases hturn.container with ⟨hsame, -⟩ | ⟨m', hdrawn, -⟩
  · exact h.container m (hsame ▸ hm)
  · rw [hdrawn] at hm
    exact absurd (Prod.mk.inj (Option.some.inj hm)).1.symm hj

theorem Rested.step {start : Pictures} {l : Label} (hfreed : v.freed = true)
    (h : Rested k v start s) (hstep : pictures.step s l = some s') : Rested k v start s' := by
  cases effect_of_step h.sound hstep with
  | turn j u s' hu halive hturn =>
    refine h.turn ?_ hturn
    rintro rfl
    obtain rfl : v = u := Option.some.inj (h.view.symm.trans hu)
    rw [hfreed] at halive
    cases halive
  | create u n s' halive hl hturn =>
    have hlt := (List.getElem?_eq_some_iff.mp h.view).1
    have hview : (s.appended u n).views[k]? = some v :=
      (List.getElem?_append_left hlt).trans h.view
    refine ⟨hturn.sound, (hturn.others k (Nat.ne_of_lt hlt)).trans hview, ?_⟩
    intro m hm
    rcases hturn.container with ⟨hsame, -⟩ | ⟨m', hdrawn, -⟩
    · exact h.container m (hsame ▸ hm)
    · rw [hdrawn] at hm
      exact absurd (Prod.mk.inj (Option.some.inj hm)).1.symm (Nat.ne_of_lt hlt)
  | refuse n => exact ⟨sound_step h.sound hstep, h.view, h.container⟩
  | clear => exact ⟨sound_step h.sound hstep, h.view, nofun⟩
  | ask j u => exact ⟨sound_step h.sound hstep, h.view, h.container⟩

/-- Every view is current. -/
theorem current_step {l : Label} (hs : Sound s) (hdraws : l.draws = true)
    (h : ∀ k, CurrentAt k s) (hstep : pictures.step s l = some s') (k : ℕ) : CurrentAt k s' := by
  cases effect_of_step hs hstep with
  | turn j v s' hj hfreed hturn hcurrent =>
    by_cases hkj : k = j
    · subst hkj
      exact hcurrent hdraws (h k v hj)
    · intro u hu
      exact h k u ((hturn.others k hkj).symm.trans hu)
  | create v n s' hfreed hl hturn hdrew =>
    by_cases hkj : k = s.views.length
    · subst hkj
      exact (hdrew hdraws).current
    · intro u hu
      rcases getElem?_concat_cases ((hturn.others k hkj).symm.trans hu) with hold | ⟨hlast, -⟩
      · exact h k u hold
      · exact absurd hlast hkj
  | refuse n => exact h k
  | clear => exact h k
  | ask j v => exact h k

/-- The container is taken over. -/
def Label.takesOver : Label → Bool
  | .create _ _ _ _ _ _ => true
  | .clear => true
  | _ => false

/-- The page makes a view, and empties the container, behind `free` for all views before. -/
def InTurn (s : Pictures) (l : Label) : Prop :=
  l.takesOver = true → ∀ v ∈ s.views, v.freed = true

instance (s : Pictures) (l : Label) : Decidable (InTurn s l) :=
  inferInstanceAs (Decidable (l.takesOver = true → ∀ v ∈ s.views, v.freed = true))

/-- One view at most is alive, and the container shows what it has drawn last. -/
structure Alone (s : Pictures) : Prop where
  unique : ∀ (i j : ℕ) (u v : PlotView), s.views[i]? = some u → s.views[j]? = some v →
    u.freed = false → v.freed = false → i = j
  shows : ∀ (k : ℕ) (v : PlotView), s.views[k]? = some v → v.freed = false →
    ∃ m, v.shown = some m ∧ s.container = some (k, m)

theorem Alone.of_freed (h : ∀ v ∈ s.views, v.freed = true) : Alone s := by
  have hnone : ∀ (k : ℕ) (v : PlotView), s.views[k]? = some v → v.freed ≠ false := by
    intro k v hk
    rw [h v (List.mem_of_getElem? hk)]
    exact Bool.noConfusion
  refine ⟨?_, ?_⟩
  · intro i j u v hi hj hu
    exact absurd hu (hnone i u hi)
  · intro k v hk hv
    exact absurd hv (hnone k v hk)

theorem shownBy_eq (hk : s.views[k]? = some v) : shownBy s k = v.shown := by
  rw [shownBy, hk, Option.bind_some]

/-- A view acts that is the only one alive. -/
theorem Alone.turn {t u : Pictures} (halone : ∀ (j : ℕ) (w : PlotView), j ≠ k →
      t.views[j]? = some w → w.freed = true) (hturn : Turn k t u)
    (hshows : ∀ w, u.views[k]? = some w → w.freed = false →
      ∃ m, w.shown = some m ∧ u.container = some (k, m)) : Alone u := by
  have honly : ∀ (j : ℕ) (w : PlotView), u.views[j]? = some w → w.freed = false → j = k := by
    intro j w hj hw
    by_contra hne
    have hfreed := halone j w hne ((hturn.others j hne).symm.trans hj)
    rw [hw] at hfreed
    cases hfreed
  refine ⟨?_, ?_⟩
  · intro i j a b hi hj ha hb
    rw [honly i a hi ha, honly j b hj hb]
  · intro j w hj hw
    obtain rfl := honly j w hj hw
    exact hshows w hj hw

theorem Alone.step {l : Label} (hs : Sound s) (h : Alone s) (hdraws : l.draws = true)
    (hturn : InTurn s l) (hstep : pictures.step s l = some s') : Alone s' := by
  cases effect_of_step hs hstep with
  | turn k v s' hk hfreed hact =>
    refine Alone.turn ?_ hact ?_
    · intro j w hj hw
      by_contra hne
      exact hj (h.unique j k w v hw hk (by simpa using hne) hfreed)
    · intro w hw hwfreed
      obtain ⟨m, hshown, hcontainer⟩ := h.shows k v hk hfreed
      rcases hact.container with ⟨hsame, hby⟩ | ⟨m', hdrawn, hby⟩
      · refine ⟨m, ?_, hsame.trans hcontainer⟩
        rw [← shownBy_eq hw, hby, shownBy_eq hk, hshown]
      · exact ⟨m', (shownBy_eq hw).symm.trans hby, hdrawn⟩
  | create v n s' hfreed hl hact hdrew =>
    obtain ⟨doc, hints, opts, dark, client, warnings, rfl⟩ := hl
    have hall : ∀ v ∈ s.views, v.freed = true := hturn rfl
    refine Alone.turn ?_ hact ?_
    · intro j w hj hw
      rcases getElem?_concat_cases hw with hold | ⟨hlast, -⟩
      · exact hall w (List.mem_of_getElem? hold)
      · exact absurd hlast hj
    · intro w hw _
      obtain ⟨u, width, height, hu, -, hshown, hcontainer⟩ := hdrew hdraws
      obtain rfl : w = u := Option.some.inj (hw.symm.trans hu)
      exact ⟨_, hshown, hcontainer⟩
  | refuse n => exact ⟨h.unique, h.shows⟩
  | clear hl =>
    subst hl
    exact .of_freed (hturn rfl)
  | ask k v => exact ⟨h.unique, h.shows⟩

end Pictures

/-! ## §8 Views and pictures -/

open Pictures

/-- **No freed document is used**, in any order of calls and callbacks, unless `isDark` or `hints`
is asked of a freed view.  Every document is freed with its view, once; every `SvgRender` has been
freed once, whether or not its emission has thrown; and a frame is pending if and only if a view
that is alive waits for it. -/
theorem views_use_no_freed_document {s₀ s : Pictures} {tr : List Label}
    (h₀ : pictures.init s₀) (hrun : pictures.run s₀ tr = some s) :
    (s.fault = false ↔ pictures.Along (fun s l => asksFreed s l = false) s₀ tr) ∧
    (∀ (k : ℕ) (v : PlotView), s.views[k]? = some v →
      v.plot.frees = (if v.freed then 1 else 0) ∧ (v.freed = true → v.media = false) ∧
      ∀ handle, (handle, k) ∈ s.frames ↔ v.freed = false ∧ v.frame = some handle) ∧
    (∀ x ∈ s.frames, (s.views[x.2]?).isSome = true) ∧ ∀ r ∈ s.renders, r = 1 := by
  obtain rfl : s₀ = blank := h₀
  have hsound : Sound s :=
    Machine.run_invariant Sound (fun _ _ _ hs hstep => sound_step hs hstep) sound_blank hrun
  refine ⟨?_, ?_, ?_, hsound.renders⟩
  · rw [fault_run sound_blank hrun]
    exact and_iff_right rfl
  · intro k v hk
    have hframes : ∀ handle, (handle, k) ∈ s.frames ↔ pending v = some handle := by
      intro handle
      rw [hsound.wired, hk]
      simp
    cases hsound.whole k v hk with
    | alive hfreed hfrees =>
      refine ⟨by rw [hfrees, hfreed]; rfl, by simp [hfreed], ?_⟩
      intro handle
      rw [hframes, pending, hfreed]
      simp
    | freed hfreed hfrees hobserver hmedia =>
      refine ⟨by rw [hfrees, hfreed]; rfl, fun _ => hmedia, ?_⟩
      intro handle
      rw [hframes, pending, hfreed]
      simp
  · intro x hx
    obtain ⟨v, hk, -⟩ := (hsound.wired x.1 x.2).mp hx
    rw [hk]
    rfl

/-- The options of the bundle, which passes only `defaultFont`. -/
def bundleOptions : PlotViewOptions where
  idPrefix := none
  aspect := none
  picking := true
  transparent := false
  colorScheme := none
  autoResize := true

/-- A picture in its light and its dark scheme, and at a size that it has. -/
def firstPicture : List Label :=
  [.create (ascii "a") (none, none) bundleOptions false (600, 400) (some []),
    .setColorScheme 0 (ascii "dark") false, .observed 0 (600, 400) (some []),
    .frame 2 (600, 400) (some []), .free 0]

/-- Another one in its place. -/
def secondPicture : List Label :=
  [.clear, .create (ascii "b") (none, none) bundleOptions false (600, 400) (some []),
    .observed 0 (300, 200) (some [])]

theorem run_firstPicture : ∃ s, pictures.run blank firstPicture = some s ∧
    s.container = some (0, ⟨ascii "a", true, false, true, 600, 400, ascii "hep0-"⟩) ∧
      ((s.views[0]?).map PlotView.freed) = some true :=
  Machine.run_decided _ (by decide)

theorem run_secondPicture : ∃ s, pictures.run blank (firstPicture ++ secondPicture) = some s ∧
    ((s.views[1]?).map fun v => (v.freed, v.frame)) = some (false, none) :=
  Machine.run_decided _ (by decide)

theorem views_use_no_freed_document_two :
    ∃ s, pictures.run blank (firstPicture ++ secondPicture) = some s ∧ s.fault = false := by
  obtain ⟨s, hrun, -⟩ := run_secondPicture
  exact ⟨s, hrun, (views_use_no_freed_document rfl hrun).1.mpr (by decide)⟩

/-- **A freed view rests.**  Whatever the page calls and the browser calls back, it changes nothing
of itself, and draws nothing into the container. -/
theorem freed_view_rests {s s' : Pictures} (hs : pictures.Reachable s) {k : ℕ} {v : PlotView}
    (hk : s.views[k]? = some v) (hfreed : v.freed = true) {tr : List Label}
    (hrun : pictures.run s tr = some s') :
    s'.views[k]? = some v ∧ ∀ m, s'.container = some (k, m) → s.container = some (k, m) := by
  have hsound : Sound s := by
    refine hs.invariant Sound ?_ fun _ _ _ hs hstep => sound_step hs hstep
    rintro s₀ rfl
    exact sound_blank
  have hstart : Rested k v s s := ⟨hsound, hk, fun _ hm => hm⟩
  have hend := Machine.run_invariant (Rested k v s)
    (fun _ _ _ h hstep => h.step hfreed hstep) hstart hrun
  exact ⟨hend.view, hend.container⟩

theorem freed_view_rests_two :
    ∃ s s' v, pictures.run blank firstPicture = some s ∧ pictures.run s secondPicture = some s' ∧
      s.views[0]? = some v ∧ s'.views[0]? = some v := by
  obtain ⟨s, hrun, -, hfreed⟩ := run_firstPicture
  obtain ⟨v, hk, hv⟩ := Option.map_eq_some_iff.mp hfreed
  obtain ⟨s', hrun', -⟩ := run_secondPicture
  obtain ⟨t, ht, hrest⟩ := Machine.run_append_eq_some.mp hrun'
  obtain rfl : s = t := Option.some.inj (hrun.symm.trans ht)
  exact ⟨s, s', v, hrun, hrest, hk,
    (freed_view_rests ⟨blank, firstPicture, rfl, hrun⟩ hk hv hrest).1⟩

/-- **The picture is current.**  As long as no emission throws, every view that is alive waits for
a frame or has drawn its document as it is, at its last size, although a draw is skipped where the
size is the same; and where each view is made behind `free` for the ones before, the container shows
the picture of the one that is alive. -/
theorem picture_is_current {s₀ s : Pictures} {tr : List Label} (h₀ : pictures.init s₀)
    (hrun : pictures.run s₀ tr = some s) (hdraws : ∀ l ∈ tr, l.draws = true) :
    (∀ (k : ℕ) (v : PlotView), s.views[k]? = some v → Current v) ∧
    (pictures.Along InTurn s₀ tr → ∀ (k : ℕ) (v : PlotView), s.views[k]? = some v →
      v.freed = false → (∃ m, v.shown = some m ∧ s.container = some (k, m)) ∧
        (v.frame = none → ∃ width height, v.lastSize = some (width, height) ∧
          s.container = some (k, v.plot.toSvg width height v.idPrefix))) := by
  obtain rfl : s₀ = blank := h₀
  have hdraws' : pictures.Along (fun _ l => l.draws = true) blank tr :=
    Machine.along_of_forall (fun l hl _ => hdraws l hl) blank
  have hcurrent : Sound s ∧ ∀ k, CurrentAt k s := by
    refine Machine.run_invariant_along (fun s => Sound s ∧ ∀ k, CurrentAt k s)
      (fun _ l => l.draws = true) ?_ ⟨sound_blank, ?_⟩ hdraws' hrun
    · intro s l s' hs hl hstep
      exact ⟨sound_step hs.1 hstep, current_step hs.1 hl hs.2 hstep⟩
    · intro k v hk
      simp [blank] at hk
  refine ⟨fun k v hk => hcurrent.2 k v hk, ?_⟩
  intro hturn k v hk hfreed
  have halone : Sound s ∧ Alone s := by
    refine Machine.run_invariant_along (fun s => Sound s ∧ Alone s)
      (fun s l => InTurn s l ∧ l.draws = true) ?_ ⟨sound_blank, ?_⟩
      (Machine.along_and hturn hdraws') hrun
    · intro s l s' hs hl hstep
      exact ⟨sound_step hs.1 hstep, hs.2.step hs.1 hl.2 hl.1 hstep⟩
    · exact .of_freed (by simp [blank])
  obtain ⟨m, hshown, hcontainer⟩ := halone.2.shows k v hk hfreed
  refine ⟨⟨m, hshown, hcontainer⟩, ?_⟩
  intro hframe
  rcases hcurrent.2 k v hk with hdone | hwaits | ⟨width, height, hsize, hdrawn⟩
  · rw [hfreed] at hdone
    cases hdone
  · rw [hframe] at hwaits
    cases hwaits
  · refine ⟨width, height, hsize, ?_⟩
    rw [hcontainer, ← Option.some.inj (hshown.symm.trans hdrawn)]

theorem picture_is_current_two :
    ∃ s v width height, pictures.run blank (firstPicture ++ secondPicture) = some s ∧
      s.views[1]? = some v ∧ s.container = some (1, v.plot.toSvg width height v.idPrefix) := by
  obtain ⟨s, hrun, hlast⟩ := run_secondPicture
  obtain ⟨v, hk, hv⟩ := Option.map_eq_some_iff.mp hlast
  obtain ⟨hfreed, hframe⟩ := Prod.mk.inj hv
  have hinTurn : pictures.Along InTurn blank (firstPicture ++ secondPicture) := by decide
  obtain ⟨-, hshows⟩ := picture_is_current rfl hrun (by decide)
  obtain ⟨width, height, -, hcontainer⟩ := (hshows hinTurn 1 v hk hfreed).2 hframe
  exact ⟨s, v, width, height, hrun, hk, hcontainer⟩

end GgsqlDuckdb
