import GgsqlDuckdb.Page.Navigation
import GgsqlDuckdb.Page.Pictures
import GgsqlDuckdb.Page.Views
import GgsqlDuckdb.Server.Sessions

/-!
# What `#vis` shows

`renderPlot` numbers its views and says of each that it draws once; a `PlotView` draws whenever the
browser calls it back.  Here the page makes and frees the views of `Page/Pictures.lean`, and its
steps come between their callbacks.

## Main results

- `Linked`: what the page and the browser know of the same views.
- `page_frees_once`: the page frees views once and uses none of them behind that.
- `picture_of_slot`: when the picture stays that of the view in the slot.
- `screen_shows`: the picture is the one that the page takes it for.
- `address_shows`: the picture is that of the plot in the address bar.
-/

namespace GgsqlDuckdb

open Library

/-! ## §1 What a view keeps -/

namespace Pictures

variable {s s' : Pictures} {k : ℕ} {v u : PlotView}

/-- What drawing leaves of a view, and where its picture comes from. -/
structure Keeps (v u : PlotView) : Prop where
  freed : u.freed = v.freed
  observer : u.observer = v.observer
  doc : u.plot.doc = v.plot.doc
  shown : u.shown = v.shown ∨ ∃ m, u.shown = some m ∧ m.doc = v.plot.doc

/-- The view `k` is still the view `v`. -/
def Kept (k : ℕ) (v : PlotView) (s : Pictures) : Prop := ∃ u, s.views[k]? = some u ∧ Keeps v u

theorem Keeps.refl (v : PlotView) : Keeps v v := ⟨rfl, rfl, rfl, Or.inl rfl⟩

theorem Keeps.trans {w : PlotView} (h : Keeps v u) (h' : Keeps u w) : Keeps v w := by
  refine ⟨h'.freed.trans h.freed, h'.observer.trans h.observer, h'.doc.trans h.doc, ?_⟩
  rcases h'.shown with hsame | ⟨m, hm, hdoc⟩
  · rw [hsame]
    exact h.shown
  · exact Or.inr ⟨m, hm, hdoc.trans h.doc⟩

theorem kept_self (hk : s.views[k]? = some v) : Kept k v s := ⟨v, hk, .refl v⟩

theorem kept_put (hk : s.views[k]? = some u) {w : PlotView} (h : Keeps v w) :
    Kept k v (s.put k w) := ⟨w, put_views hk w, h⟩

theorem Kept.of_keeps (h : Kept k u s) (hkeeps : Keeps v u) : Kept k v s := by
  obtain ⟨w, hw, hlater⟩ := h
  exact ⟨w, hw, hkeeps.trans hlater⟩

theorem kept_emit (hk : s.views[k]? = some v) (width height : ℕ)
    (warnings : Option (List Bytes)) : Kept k v (s.emit k v width height warnings) := by
  cases warnings with
  | none => exact kept_self hk
  | some warnings =>
    exact kept_put (s := s.touch v.plot) hk ⟨rfl, rfl, rfl, Or.inr ⟨_, rfl, rfl⟩⟩

theorem kept_sizeAndEmit (hk : s.views[k]? = some v) (client : ℕ × ℕ)
    (warnings : Option (List Bytes)) : Kept k v (s.sizeAndEmit k v client warnings) :=
  kept_emit hk _ _ warnings

theorem kept_resize (hk : s.views[k]? = some v) (size : ℕ × ℕ)
    (warnings : Option (List Bytes)) : Kept k v (s.resize k v size warnings) := by
  unfold resize
  split_ifs
  · exact kept_self hk
  · unfold draw
    dsimp only
    split_ifs
    · exact kept_self hk
    · exact kept_emit hk _ _ warnings

theorem Keeps.frame (v : PlotView) (frame : Option ℕ) : Keeps v { v with frame := frame } :=
  ⟨rfl, rfl, rfl, Or.inl rfl⟩

/-- A frame is taken out, and the view draws. -/
theorem kept_cancel (hk : s.views[k]? = some v) (handle : ℕ) (client : ℕ × ℕ)
    (warnings : Option (List Bytes)) :
    Kept k v (((s.cancel handle).put k { v with frame := none }).sizeAndEmit k
      { v with frame := none } client warnings) :=
  (kept_sizeAndEmit (put_views (s := s.cancel handle) hk _) client warnings).of_keeps
    (.frame v none)

theorem kept_renderNow (hk : s.views[k]? = some v) (client : ℕ × ℕ)
    (warnings : Option (List Bytes)) : Kept k v (s.renderNow k v client warnings) := by
  unfold renderNow
  split_ifs
  · exact kept_self hk
  · cases v.frame with
    | none => exact kept_sizeAndEmit hk client warnings
    | some handle => exact kept_cancel hk handle client warnings

theorem kept_schedule (hk : s.views[k]? = some v) : Kept k v (s.schedule k v) := by
  unfold schedule
  split_ifs
  · exact kept_self hk
  · exact kept_put hk (.frame v _)

theorem kept_darken (hk : s.views[k]? = some v) (dark : Bool) : Kept k v (s.darken k v dark) :=
  (kept_schedule (put_views (s := s.touch v.plot) hk _)).of_keeps ⟨rfl, rfl, rfl, Or.inl rfl⟩

theorem kept_setColorScheme (hk : s.views[k]? = some v) {scheme : Bytes} {dark : Bool}
    (h : s.setColorScheme k v scheme dark = some s') : Kept k v s' := by
  unfold setColorScheme at h
  split_ifs at h
  · exact Option.some.inj h ▸ kept_self hk
  · obtain rfl := Option.some.inj h
    exact (kept_darken (put_views hk _) _).of_keeps ⟨rfl, rfl, rfl, Or.inl rfl⟩

theorem kept_runFrame (hk : s.views[k]? = some v) (handle : ℕ) (client : ℕ × ℕ)
    (warnings : Option (List Bytes)) : Kept k v (s.runFrame handle k v client warnings) := by
  unfold runFrame
  dsimp only
  split_ifs
  · exact kept_put (s := s.cancel handle) hk (.frame v none)
  · exact kept_cancel hk handle client warnings

/-- A view that is alive is observed, and what a view has drawn is its document. -/
structure Fit (v : PlotView) : Prop where
  observed : v.freed = false → v.observer = true
  drawn : ∀ m, v.shown = some m → m.doc = v.plot.doc

theorem Fit.keeps (h : Fit v) (hkeeps : Keeps v u) : Fit u := by
  refine ⟨?_, ?_⟩
  · intro hfreed
    rw [hkeeps.observer]
    exact h.observed (hkeeps.freed.symm.trans hfreed)
  · intro m hm
    rw [hkeeps.doc]
    rcases hkeeps.shown with hsame | ⟨m', hm', hdoc⟩
    · exact h.drawn m (hsame ▸ hm)
    · exact Option.some.inj (hm'.symm.trans hm) ▸ hdoc

/-- A view acts that is alive, and stays so. -/
structure Act (k : ℕ) (v : PlotView) (s s' : Pictures) : Prop where
  view : s.views[k]? = some v
  alive : v.freed = false
  turn : Turn k s s'
  kept : Kept k v s'

/-- What the browser calls back: a frame that is pending, or a connected observer or listener. -/
def callsBack (s : Pictures) : Label → Bool
  | .frame _ _ _ => true
  | .observed k _ _ => (s.views[k]?).any PlotView.observer
  | .media _ _ => true
  | _ => false

/-- **A callback is the act of one view that is alive.** -/
theorem act_of_callback {l : Label} (hs : Sound s) (hl : s.callsBack l = true)
    (h : pictures.step s l = some s') : ∃ k v, Act k v s s' := by
  have h : s.step l = some s' := h
  cases l with
  | frame handle client warnings =>
    obtain ⟨k, hlookup, hframe⟩ := Option.bind_eq_some_iff.mp h
    obtain ⟨v, hk, rfl⟩ := Option.map_eq_some_iff.mp hframe
    refine ⟨k, v, hk, ?_, turn_runFrame hs hlookup hk client warnings,
      kept_runFrame hk handle client warnings⟩
    by_contra hfreed
    exact (hs.rests hk (by simpa using hfreed)).2 handle (mem_of_lookup hlookup)
  | observed k size warnings =>
    obtain ⟨v, hk, rfl⟩ := Option.map_eq_some_iff.mp h
    refine ⟨k, v, hk, ?_, turn_resize hs hk size warnings, kept_resize hk size warnings⟩
    -- `free` has disconnected the observers of the others
    have hobserver : v.observer = true := by simpa [callsBack, hk] using hl
    cases hs.whole k v hk with
    | alive hfreed => exact hfreed
    | freed _ _ hoff => rw [hobserver] at hoff; cases hoff
  | media k dark =>
    obtain ⟨v, hk, hmedia⟩ := Option.bind_eq_some_iff.mp h
    obtain ⟨hattached, hdark⟩ := Option.ite_none_right_eq_some.mp hmedia
    obtain rfl := Option.some.inj hdark
    have halive : v.freed = false := by
      by_contra hfreed
      rw [(hs.rests hk (by simpa using hfreed)).1] at hattached
      cases hattached
    exact ⟨k, v, hk, halive, turn_darken hs hk halive dark, kept_darken hk dark⟩
  | _ => cases hl

/-- At a size of its own a view draws. -/
theorem resize_drew (hk : s.views[k]? = some v) (hfreed : v.freed = false)
    (warnings : List Bytes) : ∃ size, Drew k (s.resize k v size (some warnings)) := by
  -- wider than before
  refine ⟨((v.lastSize.map Prod.fst).getD 0 + 1, 1), ?_⟩
  unfold resize draw
  dsimp only
  rw [if_neg (by simp [hfreed]), if_neg ?_]
  · exact emit_drew hk _ _ warnings
  · intro hsame
    rw [hsame] at hsame
    simp at hsame

/-- The container shows what some view has drawn that is alive. -/
def Placed (s : Pictures) : Prop :=
  ∀ k m, s.container = some (k, m) →
    ∃ v, s.views[k]? = some v ∧ v.freed = false ∧ v.shown = some m

theorem Act.placed (hs : Placed s) (h : Act k v s s') : Placed s' := by
  obtain ⟨u, hu, hkeeps⟩ := h.kept
  have halive : u.freed = false := hkeeps.freed.trans h.alive
  intro j m hj
  rcases h.turn.container with ⟨hsame, hby⟩ | ⟨m', hdrawn, hby⟩
  · obtain ⟨w, hw, hwfreed, hshown⟩ := hs j m (hsame ▸ hj)
    by_cases hne : j = k
    · subst hne
      obtain rfl : v = w := Option.some.inj (h.view.symm.trans hw)
      refine ⟨u, hu, halive, ?_⟩
      rw [← shownBy_eq hu, hby, shownBy_eq h.view, hshown]
    · exact ⟨w, (h.turn.others j hne).trans hw, hwfreed, hshown⟩
  · obtain ⟨rfl, rfl⟩ := Prod.mk.inj (Option.some.inj (hdrawn.symm.trans hj))
    exact ⟨u, hu, halive, (shownBy_eq hu).symm.trans hby⟩

/-- A view behind an act is what it was, or has drawn. -/
theorem Act.keeps (h : Act k v s s') {j : ℕ} {w : PlotView} (hj : s'.views[j]? = some w) :
    ∃ w₀, s.views[j]? = some w₀ ∧ Keeps w₀ w := by
  by_cases hne : j = k
  · subst hne
    obtain ⟨u, hu, hkeeps⟩ := h.kept
    obtain rfl : u = w := Option.some.inj (hu.symm.trans hj)
    exact ⟨v, h.view, hkeeps⟩
  · exact ⟨w, (h.turn.others j hne).symm.trans hj, .refl w⟩

/-- What `PlotView.create` makes of a document with the options of the bundle. -/
structure Created (s : Pictures) (doc : Bytes) (s' : Pictures) : Prop where
  sound : Sound s'
  fault : s'.fault = s.fault
  length : s'.views.length = s.views.length + 1
  others : ∀ j < s.views.length, s'.views[j]? = s.views[j]?
  view : ∃ u, s'.views[s.views.length]? = some u ∧ u.freed = false ∧ u.plot.doc = doc ∧ Fit u ∧
    (s'.container = s.container ∨
      ∃ m, s'.container = some (s.views.length, m) ∧ u.shown = some m)

theorem create_spec (hs : Sound s) (doc : Bytes) (hints : Option ℕ × Option ℕ) (dark : Bool)
    (client : ℕ × ℕ) (warnings : Option (List Bytes)) :
    Created s doc (s.create doc hints bundleOptions dark client warnings) ∧
      (warnings.isSome = true → Drew s.views.length
        (s.create doc hints bundleOptions dark client warnings)) := by
  generalize hs' : s.create doc hints bundleOptions dark client warnings = s'
  unfold create at hs'
  dsimp only at hs'
  generalize hv : s.newView doc hints bundleOptions = v at hs'
  generalize s.nextViewId + (if bundleOptions.idPrefix.isSome then 0 else 1) = n at hs'
  have hfreed : v.freed = false := hv ▸ rfl
  have hk : (s.appended v n).views[s.views.length]? = some v := List.getElem?_concat_length
  split at hs'
  · -- the scheme is one of the three
    rename_i hscheme
    have hscheme : (s.appended v n).setColorScheme s.views.length v (ascii "light") dark = none :=
      hscheme
    unfold setColorScheme at hscheme
    rw [if_neg (by simp [hfreed]), if_neg (by decide)] at hscheme
    cases hscheme
  · rename_i s₁ hscheme
    obtain ⟨u, hu, halive, hturn⟩ :=
      turn_construct (n := n) hs (hv ▸ rfl : v.frame = none) hfreed (hv ▸ rfl) hscheme
    obtain ⟨u', hu', hcolored⟩ := kept_setColorScheme hk hscheme
    obtain rfl : u = u' := Option.some.inj (hu.symm.trans hu')
    rw [hu] at hs'
    dsimp only at hs'
    have hput := put_views hu { u with observer := bundleOptions.autoResize }
    obtain ⟨w, hw, hdrawn⟩ := kept_renderNow hput client warnings
    have hact := hturn bundleOptions.autoResize client warnings
    rw [hs'] at hw hact
    have hdoc : u.plot.doc = doc := by
      rw [hcolored.doc, ← hv]
      rfl
    have hblank : Fit { u with observer := bundleOptions.autoResize } := by
      refine ⟨fun _ => rfl, ?_⟩
      intro m hm
      rcases hcolored.shown with hsame | ⟨m', hm', hdoc'⟩
      · have hnone : v.shown = none := hv ▸ rfl
        exact absurd (hm.symm.trans (hsame.trans hnone)) (by simp)
      · rw [show m = m' from Option.some.inj (hm.symm.trans hm'), hdoc', ← hcolored.doc]
    refine ⟨⟨hact.sound, hact.fault, ?_, ?_, w, hw, hdrawn.freed.trans halive,
      hdrawn.doc.trans hdoc, hblank.keeps hdrawn, ?_⟩, ?_⟩
    · rw [hact.length]
      simp [appended]
    · intro j hj
      exact (hact.others j (Nat.ne_of_lt hj)).trans (List.getElem?_append_left hj)
    · rcases hact.container with ⟨hsame, -⟩ | ⟨m, hm, hby⟩
      · exact Or.inl hsame
      · exact Or.inr ⟨m, hm, (shownBy_eq hw).symm.trans hby⟩
    · intro hdraws
      obtain ⟨ws, rfl⟩ := Option.isSome_iff_exists.mp hdraws
      exact hs' ▸ renderNow_drew hput halive client ws

/-- `free` leaves a freed view with what it has drawn. -/
theorem freed_of_free (hk : s.views[k]? = some v) (hfit : Fit v) :
    ∃ u, (s.free k v).views[k]? = some u ∧ u.freed = true ∧ Fit u := by
  unfold free
  split_ifs with hfreed
  · exact ⟨v, hk, hfreed, hfit⟩
  · have hput : ∀ t : Pictures, t.views = s.views → ∀ w : PlotView, w.freed = true →
        w.shown = v.shown → w.plot.doc = v.plot.doc →
        ∃ u, (t.put k w).views[k]? = some u ∧ u.freed = true ∧ Fit u := by
      intro t ht w hwfreed hshown hdoc
      refine ⟨w, put_views (ht ▸ hk) w, hwfreed, ?_, ?_⟩
      · intro halive
        rw [hwfreed] at halive
        cases halive
      · intro m hm
        rw [hdoc]
        exact hfit.drawn m (hshown ▸ hm)
    cases v.frame with
    | none => exact hput (s.touch v.plot) rfl _ rfl rfl rfl
    | some handle => exact hput ((s.cancel handle).touch v.plot) rfl _ rfl rfl rfl

end Pictures

/-! ## §2 The documents of the calls -/

/-- The page asks for a plot under one segment of a path, whatever the id. -/
theorem plain_encodeURIComponent (uuid : Bytes) :
    ∀ c ∈ encodeURIComponent uuid, c ≠ 0x3f ∧ c ≠ 0x2f := by
  -- what one byte is written as
  have hbyte : ∀ n < 256,
      (encodeURIComponent [UInt8.ofNat n]).all (fun c => c != 0x3f && c != 0x2f) = true := by
    decide +kernel
  intro c hc
  obtain ⟨b, -, hb⟩ := List.mem_flatMap.mp hc
  have hplain := List.all_eq_true.mp (hbyte b.toNat b.toNat_lt) c (by
    rw [UInt8.ofNat_toNat]
    exact List.mem_flatMap.mpr ⟨b, List.mem_singleton_self b, hb⟩)
  simpa using hplain

theorem plotResponse_eq (st : Server.State) (uuid : Bytes) :
    Page.plotResponse st uuid = st.respond (.plot (encodeURIComponent uuid)) := by
  rw [Page.plotResponse, Server.routeOf_plot_of_plain (plain_encodeURIComponent uuid)]

/-- The document under the name that the page asks for. -/
def Server.State.document (st : Server.State) (uuid : Bytes) : Option Bytes :=
  st.plots (encodeURIComponent uuid)

theorem document_of_ok {st : Server.State} {uuid : Bytes}
    (h : Page.ok (Page.plotResponse st uuid).status = true) :
    ∃ doc, (Page.plotResponse st uuid).body = .bytes doc ∧ st.document uuid = some doc := by
  rw [plotResponse_eq] at h ⊢
  cases hplot : st.plots (encodeURIComponent uuid) with
  | none =>
    have hresp : st.respond (.plot (encodeURIComponent uuid)) = Server.notFound := by
      simp only [Server.State.respond, hplot]
    rw [hresp] at h
    exact absurd h (by decide)
  | some doc =>
    have hresp : st.respond (.plot (encodeURIComponent uuid)) = Server.binaryResponse doc := by
      simp only [Server.State.respond, hplot]
    rw [hresp]
    exact ⟨doc, rfl, hplot⟩

/-- A document stays under its name. -/
theorem document_step {s s' : Server.Registry} {l : Server.RegistryLabel}
    (hs : Server.registry.Reachable s) (h : Server.registry.step s l = some s') {uuid doc : Bytes}
    (hdoc : s.state.document uuid = some doc) : s'.state.document uuid = some doc := by
  obtain ⟨k, c, hk, hid, hhep, hrank⟩ := (Server.Registry.plots_iff hs _ doc).mp hdoc
  obtain ⟨pc, hk', hlater⟩ := (Server.Registry.effect_of_step h).advance hk
  have hs' : Server.registry.Reachable s' := hs.run (Machine.run_single.mpr h)
  exact (Server.Registry.plots_iff hs' _ doc).mpr ⟨k, _, hk', hid, hhep, hrank.trans hlater⟩

/-- The document that a call has read, or is about to read. -/
def RenderPc.body : RenderPc → Option Server.Body
  | .reading body => some body
  | .rendering body => some body
  | _ => none

namespace Tab

variable {s s' : Tab}

/-- What the calls of `renderPlot` have read is on the server. -/
structure Supplied (s : Tab) : Prop where
  server : Server.registry.Reachable s.server
  bodies : ∀ call ∈ s.page.calls, ∀ body, call.pc.body = some body →
    ∃ doc, body = .bytes doc ∧ s.server.state.document call.uuid = some doc

theorem bodies_setCall {st : Server.State} {p : Page} {k : ℕ} {caller : Caller} {uuid : Bytes}
    {pc pc' : RenderPc} (hk : p.calls[k]? = some ⟨caller, uuid, pc⟩)
    (hp : ∀ call ∈ p.calls, ∀ body, call.pc.body = some body →
      ∃ doc, body = .bytes doc ∧ st.document call.uuid = some doc)
    (hpc : ∀ body, pc'.body = some body →
      ∃ doc, body = .bytes doc ∧ st.document uuid = some doc) :
    ∀ call ∈ (p.setCall k pc').calls, ∀ body, call.pc.body = some body →
      ∃ doc, body = .bytes doc ∧ st.document call.uuid = some doc := by
  intro call hcall
  obtain ⟨j, hj⟩ := List.mem_iff_getElem?.mp hcall
  rcases getElem?_modify_cases hj with ⟨rfl, before, hbefore, rfl⟩ | ⟨-, hold⟩
  · obtain rfl := Option.some.inj (hk.symm.trans hbefore)
    exact hpc
  · exact hp call (List.mem_of_getElem? hold)

theorem Supplied.stage {l : Page.Label} {k : ℕ} {caller : Caller} {uuid : Bytes} {pc : RenderPc}
    {p : Page} (hs : s.Supplied) (hk : s.page.calls[k]? = some ⟨caller, uuid, pc⟩)
    (h : Page.Stage s.server.state l s.page p k caller uuid pc) :
    ∀ call ∈ p.calls, ∀ body, call.pc.body = some body →
      ∃ doc, body = .bytes doc ∧ s.server.state.document call.uuid = some doc := by
  cases h with
  | respond hl hpc hok hp' =>
    subst hp'
    refine bodies_setCall hk hs.bodies ?_
    rintro body ⟨⟩
    exact document_of_ok hok
  | enter body hl hpc hp' =>
    subst hp' hpc
    refine bodies_setCall hk hs.bodies ?_
    rintro body ⟨⟩
    exact hs.bodies _ (List.mem_of_getElem? hk) body rfl
  -- behind the other stages the call has no use for its document
  | refuse code hl hpc hp' =>
    subst hp'
    rw [show (Page.refuse _ _ _ _).calls = _ from Page.calls_resumeCaller _ _]
    exact bodies_setCall hk hs.bodies (by simp [RenderPc.body])
  | throws e hl hpc hp' =>
    subst hp'
    rw [show (Page.rescue _ _ _ _ _).calls = _ from Page.calls_resumeCaller _ _]
    exact bodies_setCall hk hs.bodies (by simp [RenderPc.body])
  | paint body hl hpc hp' =>
    subst hp'
    exact bodies_setCall hk hs.bodies (by simp [RenderPc.body])
  | crash body e hl hpc hp' =>
    subst hp'
    rw [show (Page.rescue _ _ _ _ _).calls = _ from Page.calls_resumeCaller _ _]
    exact bodies_setCall hk hs.bodies (by simp [RenderPc.body])
  | abandon body e hl hpc hp' =>
    subst hp'
    rw [show (Page.rescue _ _ _ _ _).calls = _ from Page.calls_resumeCaller _ _]
    exact bodies_setCall hk hs.bodies (by simp [RenderPc.body])
  | settle view hl hpc hp' =>
    subst hp'
    rw [show (Page.settle _ _ _ _ _).calls = _ from Page.calls_resumeCaller _ _]
    exact bodies_setCall hk hs.bodies (by simp [RenderPc.body])

/-- A call of `renderPlot` begins without a document. -/
theorem calls_renderPlot {p : Page} {caller : Caller} {uuid : Bytes} {call : RenderCall}
    (h : call ∈ (p.renderPlot caller uuid).calls) : call ∈ p.calls ∨ call.pc = .fetching := by
  unfold Page.renderPlot at h
  split_ifs at h
  · exact Or.inl (Page.calls_resumeCaller p caller ▸ h)
  · rcases List.mem_append.mp h with hold | hnew
    · exact Or.inl hold
    · exact Or.inr (congrArg RenderCall.pc (List.mem_singleton.mp hnew))

theorem calls_renderForCurrentLocation {p : Page} {o : Origin} {call : RenderCall}
    (h : call ∈ (p.renderForCurrentLocation o).calls) : call ∈ p.calls ∨ call.pc = .fetching := by
  unfold Page.renderForCurrentLocation at h
  split at h
  · rename_i uuid huuid
    have hcalls : (p.normalise uuid).calls = p.calls :=
      congrArg Canvas.calls (p.canvas_normalise uuid)
    exact hcalls ▸ calls_renderPlot h
  · exact Or.inl h

theorem Supplied.page (hs : s.Supplied) {l : Page.Label} {p : Page}
    (h : s.page.step s.server.state l = some p) :
    ∀ call ∈ p.calls, ∀ body, call.pc.body = some body →
      ∃ doc, body = .bytes doc ∧ s.server.state.document call.uuid = some doc := by
  have hkeep : (∀ call ∈ p.calls, call ∈ s.page.calls ∨ call.pc = .fetching) →
      ∀ call ∈ p.calls, ∀ body, call.pc.body = some body →
        ∃ doc, body = .bytes doc ∧ s.server.state.document call.uuid = some doc := by
    intro hcalls call hcall body hbody
    rcases hcalls call hcall with hold | hfetching
    · exact hs.bodies call hold body hbody
    · rw [hfetching] at hbody
      cases hbody
  cases Page.move_step h with
  | call k caller uuid pc hk hstage => exact hs.stage hk hstage
  | rest poll hl hstarted hidle hp' =>
    subst hp'
    exact hkeep fun call hcall => Or.inl hcall
  | load promise hl hp' =>
    subst hp'
    exact hkeep fun call hcall => Or.inl hcall
  | visit hist hl hp' =>
    subst hp'
    refine hkeep ?_
    intro call hcall
    have hnew := calls_renderForCurrentLocation hcall
    exact hnew
  | askLanding k o hl hk hp' =>
    subst hp'
    exact hkeep fun call hcall => Or.inl hcall
  | land k o latest hl hk hp' =>
    subst hp'
    refine hkeep ?_
    intro call hcall
    unfold Page.land at hcall
    split at hcall
    · have hnew := calls_renderPlot hcall
      exact hnew
    · rw [Page.calls_resumeCaller] at hcall
      exact Or.inl hcall
  | abandon k o pc e hl hk hpc hp' =>
    subst hp'
    refine hkeep fun call hcall => Or.inl ?_
    rw [Page.calls_resumeCaller] at hcall
    exact hcall
  | ask hl hpoll hp' =>
    subst hp'
    exact hkeep fun call hcall => Or.inl hcall
  | hear latest hl hpoll hp' =>
    subst hp'
    refine hkeep ?_
    intro call hcall
    unfold Page.advance at hcall
    split at hcall
    · rename_i uuid huuid
      split_ifs at hcall
      · have hnew := calls_renderPlot hcall
        exact s.page.calls_commit uuid ▸ hnew
      · exact Or.inl hcall
    · exact Or.inl hcall

theorem Supplied.step {l : TabLabel} (hs : s.Supplied) (h : s.step l = some s') :
    s'.Supplied := by
  cases l with
  | server l =>
    obtain ⟨hserver, hpage⟩ := step_server h
    refine ⟨hs.server.run (Machine.run_single.mpr hserver), ?_⟩
    rw [hpage]
    intro call hcall body hbody
    obtain ⟨doc, hdoc, hstored⟩ := hs.bodies call hcall body hbody
    exact ⟨doc, hdoc, document_step hs.server hserver hstored⟩
  | page l =>
    obtain ⟨hpage, hserver⟩ := step_page h
    exact ⟨hserver ▸ hs.server, hserver ▸ hs.page hpage⟩

theorem supplied_of_init (h : tab.init s) : s.Supplied := by
  obtain ⟨hserver, l, hl⟩ := h
  refine ⟨hserver, ?_⟩
  intro call hcall body hbody
  rw [hl] at hcall
  -- the page has begun one call at most
  rcases calls_renderForCurrentLocation hcall with hold | hfetching
  · cases hold
  · rw [hfetching] at hbody
    cases hbody

end Tab

/-! ## §3 The page and its views -/

/-- A tab with the views in its container `#vis`. -/
structure Screen where
  tab : Tab
  vis : Pictures
  /-- The `PlotView` behind each view of the page. -/
  views : List ℕ

inductive ScreenLabel where
  /-- A step of the tab that makes no view. -/
  | tab (l : TabLabel)
  | create (k : ℕ) (hints : Option ℕ × Option ℕ) (dark : Bool) (client : ℕ × ℕ)
      (warnings : List Bytes)
  /-- The constructor throws while it draws. -/
  | createThrows (k : ℕ) (e : String) (hints : Option ℕ × Option ℕ) (dark : Bool)
      (client : ℕ × ℕ)
  | callback (l : Pictures.Label)

/-- The step makes a view. -/
def TabLabel.creates : TabLabel → Bool
  | .page (.paint _) => true
  | .page (.drawThrows _ _) => true
  | _ => false

/-- The step of the tab in a step of the screen. -/
def ScreenLabel.onTab : ScreenLabel → Option TabLabel
  | .tab l => some l
  | .create k _ _ _ _ => some (.page (.paint k))
  | .createThrows k e _ _ _ => some (.page (.drawThrows k e))
  | .callback _ => none

/-- The step is the callback of a view. -/
def ScreenLabel.isCallback : ScreenLabel → Bool
  | .callback _ => true
  | _ => false

namespace Screen

/-- The view in the slot of the page. -/
def slot (s : Screen) : Option ℕ := s.tab.page.view.bind fun i => s.views[i]?

/-- `view.free()` and `vis.replaceChildren()` of `renderPlot`. -/
def emptied (s : Screen) : Pictures :=
  let vis := match s.slot with
    | some r => ((s.vis.views[r]?).map fun v => s.vis.free r v).getD s.vis
    | none => s.vis
  { vis with container := none }

/-- The document that the call `k` of `renderPlot` hands to `ggsqlRenderHep`. -/
def document (s : Screen) (k : ℕ) : Option Bytes :=
  match s.tab.page.calls[k]? with
  | some ⟨_, _, .rendering (.bytes doc)⟩ => some doc
  | _ => none

/-- The views behind a step of the tab. -/
def visBehind (s : Screen) : TabLabel → Pictures
  | .page (.bodyRead _) => s.emptied
  | _ => s.vis

def step (s : Screen) : ScreenLabel → Option Screen
  | .tab l =>
    if l.creates then none
    else (s.tab.step l).map fun t => { s with tab := t, vis := s.visBehind l }
  | .create k hints dark client warnings =>
    (s.document k).bind fun doc => (s.tab.step (.page (.paint k))).map fun t =>
      { tab := t
        vis := s.vis.create doc hints bundleOptions dark client (some warnings)
        views := s.views ++ [s.vis.views.length] }
  -- nothing refers to the new view, which is observed all the same
  | .createThrows k e hints dark client =>
    (s.document k).bind fun doc => (s.tab.step (.page (.drawThrows k e))).map fun t =>
      { tab := t
        vis := s.vis.create doc hints bundleOptions dark client none
        views := s.views ++ [s.vis.views.length] }
  | .callback l =>
    if s.vis.callsBack l then (pictures.step s.vis l).map fun vis => { s with vis := vis }
    else none

end Screen

/-- Every interleaving of a tab with the callbacks of its views, which may come here even while
microtasks are left to run. -/
def screen : Machine Screen ScreenLabel where
  init s := tab.init s.tab ∧ s.vis = Pictures.blank ∧ s.views = []
  step := Screen.step

namespace Screen

variable {s s' : Screen}

theorem step_tab {l : TabLabel} (h : screen.step s (.tab l) = some s') :
    s.tab.step l = some s'.tab := by
  have h : s.step (.tab l) = some s' := h
  obtain ⟨t, ht, rfl⟩ := Option.map_eq_some_iff.mp (Option.ite_none_left_eq_some.mp h).2
  exact ht

/-- What a step of the screen is to the tab and to the views. -/
inductive Effect (s : Screen) (l : ScreenLabel) : Screen → Prop where
  | tab (t : TabLabel) (tab' : Tab) (hl : l = .tab t) (ht : s.tab.step t = some tab')
      (hcreates : t.creates = false) (henter : ∀ k, t ≠ .page (.bodyRead k)) :
      Effect s l { s with tab := tab' }
  | enter (k : ℕ) (tab' : Tab) (hl : l = .tab (.page (.bodyRead k)))
      (ht : s.tab.step (.page (.bodyRead k)) = some tab') :
      Effect s l { s with tab := tab', vis := s.emptied }
  | create (k : ℕ) (doc : Bytes) (tab' : Tab) (vis' : Pictures)
      (hl : ∃ hints dark client warnings, l = .create k hints dark client warnings)
      (hdoc : s.document k = some doc) (ht : s.tab.step (.page (.paint k)) = some tab')
      (hcreate : ∃ c, pictures.step s.vis c = some vis')
      (hvis : Pictures.Created s.vis doc vis') (hdrew : Pictures.Drew s.vis.views.length vis') :
      Effect s l { tab := tab', vis := vis', views := s.views ++ [s.vis.views.length] }
  | crash (k : ℕ) (e : String) (doc : Bytes) (tab' : Tab) (vis' : Pictures)
      (hl : ∃ hints dark client, l = .createThrows k e hints dark client)
      (ht : s.tab.step (.page (.drawThrows k e)) = some tab')
      (hcreate : ∃ c, pictures.step s.vis c = some vis')
      (hvis : Pictures.Created s.vis doc vis') :
      Effect s l { tab := tab', vis := vis', views := s.views ++ [s.vis.views.length] }
  | callback (r : ℕ) (v : PlotView) (c : Pictures.Label) (vis' : Pictures) (hl : l = .callback c)
      (hstep : pictures.step s.vis c = some vis') (hact : Pictures.Act r v s.vis vis') :
      Effect s l { s with vis := vis' }

theorem effect_of_step {l : ScreenLabel} (hs : Pictures.Sound s.vis)
    (h : screen.step s l = some s') : Effect s l s' := by
  have h : s.step l = some s' := h
  cases l with
  | tab t =>
    obtain ⟨hcreates, hmap⟩ := Option.ite_none_left_eq_some.mp h
    obtain ⟨tab', ht, rfl⟩ := Option.map_eq_some_iff.mp hmap
    by_cases henter : ∃ k, t = .page (.bodyRead k)
    · obtain ⟨k, rfl⟩ := henter
      exact .enter k tab' rfl ht
    · have hvis : s.visBehind t = s.vis := by
        unfold visBehind
        split
        · exact absurd ⟨_, rfl⟩ henter
        · rfl
      rw [hvis]
      exact .tab t tab' rfl ht (by simpa using hcreates) fun k hk => henter ⟨k, hk⟩
  | create k hints dark client warnings =>
    obtain ⟨doc, hdoc, hmap⟩ := Option.bind_eq_some_iff.mp h
    obtain ⟨tab', ht, rfl⟩ := Option.map_eq_some_iff.mp hmap
    obtain ⟨hcreated, hdrew⟩ := Pictures.create_spec hs doc hints dark client (some warnings)
    exact .create k doc tab' _ ⟨hints, dark, client, warnings, rfl⟩ hdoc ht
      ⟨.create doc hints bundleOptions dark client (some warnings), rfl⟩ hcreated (hdrew rfl)
  | createThrows k e hints dark client =>
    obtain ⟨doc, -, hmap⟩ := Option.bind_eq_some_iff.mp h
    obtain ⟨tab', ht, rfl⟩ := Option.map_eq_some_iff.mp hmap
    exact .crash k e doc tab' _ ⟨hints, dark, client, rfl⟩ ht
      ⟨.create doc hints bundleOptions dark client none, rfl⟩
      (Pictures.create_spec hs doc hints dark client none).1
  | callback c =>
    obtain ⟨hcall, hmap⟩ := Option.ite_none_right_eq_some.mp h
    obtain ⟨vis', hstep, rfl⟩ := Option.map_eq_some_iff.mp hmap
    obtain ⟨r, v, hact⟩ := Pictures.act_of_callback hs hcall hstep
    exact .callback r v c vis' rfl hstep hact

/-! ## §4 The same views -/

/-- The invariant: the page and the browser know the same of the same views. -/
structure Linked (s : Screen) : Prop where
  sound : Pictures.Sound s.vis
  fault : s.vis.fault = false
  placed : Pictures.Placed s.vis
  fit : ∀ (r : ℕ) (v : PlotView), s.vis.views[r]? = some v → Pictures.Fit v
  account : Canvas.Accounted s.tab.page.canvas
  length : s.views.length = s.tab.page.created
  nodup : s.views.Nodup
  bound : ∀ r ∈ s.views, r < s.vis.views.length
  freed : ∀ (r : ℕ) (v : PlotView), s.vis.views[r]? = some v →
    (v.freed = true ↔ ∃ i ∈ s.tab.page.freed, s.views[i]? = some r)

theorem accounted_step {t t' : Tab} {l : TabLabel} (ht : Canvas.Accounted t.page.canvas)
    (h : t.step l = some t') : Canvas.Accounted t'.page.canvas := by
  cases l with
  | server l => rwa [(Tab.step_server h).2]
  | page l => exact ht.step (Page.canvas_step (Tab.step_page h).1)

/-- Only `paint` and a throwing constructor make a view, only `paint` shows one, and only `bodyRead`
takes one away. -/
theorem spared_of_effect {st : Server.State} {l : Page.Label} {c c' : Canvas}
    (h : Canvas.Effect st l c c') (hcreates : (TabLabel.page l).creates = false)
    (henter : ∀ k, l ≠ .bodyRead k) :
    c'.created = c.created ∧ c'.freed = c.freed ∧ c'.shown = c.shown := by
  cases h with
  | abandon k caller uuid body hl =>
    obtain ⟨e, rfl⟩ := hl
    cases hcreates
  | paint k caller uuid body hl =>
    subst hl
    cases hcreates
  | enter k caller uuid body hl => exact absurd hl (henter k)
  | still h => rw [h]; exact ⟨rfl, rfl, rfl⟩
  | idle k hl h => rw [h]; exact ⟨rfl, rfl, rfl⟩
  | start caller uuid hne h => rw [h]; exact ⟨rfl, rfl, rfl⟩
  | respond k caller uuid body hl hk hok h => rw [h]; exact ⟨rfl, rfl, rfl⟩
  | refuse k caller uuid hl hk h => rw [h]; exact ⟨rfl, rfl, rfl⟩
  | throws k caller uuid pc hl hk hpc h => rw [h]; exact ⟨rfl, rfl, rfl⟩
  | crash k caller uuid body hl hk h => rw [h]; exact ⟨rfl, rfl, rfl⟩
  | settle k caller uuid view hl hk h => rw [h]; exact ⟨rfl, rfl, rfl⟩

theorem spared_step {t t' : Tab} {l : TabLabel} (h : t.step l = some t')
    (hcreates : l.creates = false) (henter : ∀ k, l ≠ .page (.bodyRead k)) :
    t'.page.created = t.page.created ∧ t'.page.freed = t.page.freed ∧
      t'.page.shown = t.page.shown := by
  cases l with
  | server l =>
    rw [(Tab.step_server h).2]
    exact ⟨rfl, rfl, rfl⟩
  | page l =>
    refine spared_of_effect (Page.canvas_step (Tab.step_page h).1) hcreates ?_
    rintro k rfl
    exact henter k rfl

theorem page_enter {t t' : Tab} {k : ℕ} (h : t.step (.page (.bodyRead k)) = some t') :
    ∃ caller uuid body, t.page.calls[k]? = some ⟨caller, uuid, .reading body⟩ ∧
      t' = { t with page := t.page.enterRender k body } := by
  obtain ⟨page, hpage, rfl⟩ := Option.map_eq_some_iff.mp h
  have hperform := (Page.perform_of_step hpage).2
  simp only [Page.perform] at hperform
  split at hperform
  · rename_i caller uuid body hk
    exact ⟨caller, uuid, body, hk, by rw [Option.some.inj hperform]⟩
  · cases hperform

theorem page_paint {t t' : Tab} {k : ℕ} (h : t.step (.page (.paint k)) = some t') :
    ∃ caller uuid body, t.page.calls[k]? = some ⟨caller, uuid, .rendering body⟩ ∧
      t' = { t with page := t.page.paint k uuid } := by
  obtain ⟨page, hpage, rfl⟩ := Option.map_eq_some_iff.mp h
  have hperform := (Page.perform_of_step hpage).2
  simp only [Page.perform] at hperform
  split at hperform
  · rename_i caller uuid body hk
    obtain ⟨-, hpage'⟩ := Option.ite_none_right_eq_some.mp hperform
    exact ⟨caller, uuid, body, hk, by rw [Option.some.inj hpage']⟩
  · cases hperform

theorem page_drawThrows {t t' : Tab} {k : ℕ} {e : String}
    (h : t.step (.page (.drawThrows k e)) = some t') :
    (∃ caller uuid body, t.page.calls[k]? = some ⟨caller, uuid, .rendering body⟩) ∧
      t'.page.canvas = { t.page.canvas.setCall k (.failed true) with
        created := t.page.created + 1 } := by
  have hpage := (Tab.step_page h).1
  refine ⟨?_, Page.canvas_drawThrows hpage⟩
  have hperform := (Page.perform_of_step hpage).2
  simp only [Page.perform] at hperform
  split at hperform
  · rename_i caller uuid body hk
    exact ⟨caller, uuid, body, hk⟩
  · cases hperform

/-- The slot is freed and the container empty. -/
structure Emptied (s : Screen) (vis' : Pictures) : Prop where
  sound : Pictures.Sound vis'
  fault : vis'.fault = s.vis.fault
  length : vis'.views.length = s.vis.views.length
  container : vis'.container = none
  others : ∀ r, s.slot ≠ some r → vis'.views[r]? = s.vis.views[r]?
  slot : ∀ r, s.slot = some r →
    ∃ u, vis'.views[r]? = some u ∧ u.freed = true ∧ Pictures.Fit u

/-- A view of the page is a view of the container. -/
theorem Linked.view_of_slot (hs : s.Linked) {i : ℕ} (hview : s.tab.page.view = some i) :
    ∃ r v, s.views[i]? = some r ∧ s.slot = some r ∧ s.vis.views[r]? = some v := by
  have hlt : i < s.views.length := hs.length ▸ (hs.account.slot i hview).1
  have hi : s.views[i]? = some s.views[i] := List.getElem?_eq_getElem hlt
  have hbound : s.views[i] < s.vis.views.length := hs.bound _ (List.getElem_mem hlt)
  refine ⟨s.views[i], s.vis.views[s.views[i]], hi, ?_, List.getElem?_eq_getElem hbound⟩
  rw [slot, hview]
  exact hi

theorem Linked.emptied (hs : s.Linked) : s.Emptied s.emptied := by
  have hclear : ∀ vis : Pictures, Pictures.Sound vis →
      Pictures.Sound { vis with container := none } :=
    fun vis h => ⟨h.handles, h.fresh, h.wired, h.renders, h.whole⟩
  unfold Screen.emptied
  cases hview : s.tab.page.view with
  | none =>
    have hslot : s.slot = none := by rw [slot, hview]; rfl
    rw [hslot]
    exact ⟨hclear _ hs.sound, rfl, rfl, rfl, fun _ _ => rfl, by simp [hslot]⟩
  | some i =>
    obtain ⟨r, v, hr, hslot, hv⟩ := hs.view_of_slot hview
    rw [hslot]
    dsimp only
    rw [hv]
    have hturn := Pictures.turn_free hs.sound hv
    refine ⟨hclear _ hturn.sound, hturn.fault, hturn.length, rfl, ?_, ?_⟩
    · intro j hj
      exact hturn.others j fun h => hj (hslot.trans (h ▸ rfl))
    · intro j hj
      obtain rfl : r = j := Option.some.inj (hslot.symm.trans hj)
      exact Pictures.freed_of_free hv (hs.fit r v hv)

/-- The views of the page are different ones. -/
theorem Linked.injective (hs : s.Linked) {i j r : ℕ} (hi : s.views[i]? = some r)
    (hj : s.views[j]? = some r) : i = j :=
  (List.getElem?_inj (List.getElem?_eq_some_iff.mp hi).1 hs.nodup).mp (hi.trans hj.symm)

/-- A view that the page has numbered is older than the next one to be made. -/
theorem Linked.fresh (hs : s.Linked) {i : ℕ} : s.views[i]? ≠ some s.vis.views.length := by
  intro hi
  exact Nat.lt_irrefl _ (hs.bound _ (List.mem_of_getElem? hi))

/-- A new view: all that was known of the others is still so. -/
theorem Linked.created (hs : s.Linked) {doc : Bytes} {vis' : Pictures}
    (h : Pictures.Created s.vis doc vis') :
    Pictures.Sound vis' ∧ vis'.fault = false ∧ Pictures.Placed vis' ∧
      (∀ (r : ℕ) (v : PlotView), vis'.views[r]? = some v → Pictures.Fit v) ∧
      ∀ (r : ℕ) (v : PlotView), vis'.views[r]? = some v →
        (v.freed = true ↔ ∃ i ∈ s.tab.page.freed, s.views[i]? = some r) := by
  obtain ⟨u, hu, halive, -, hfit, hcontainer⟩ := h.view
  -- an entry is an old one, or the new one at the end
  have hcases : ∀ (r : ℕ) (v : PlotView), vis'.views[r]? = some v →
      s.vis.views[r]? = some v ∨ r = s.vis.views.length ∧ v = u := by
    intro r v hr
    have hlt := (List.getElem?_eq_some_iff.mp hr).1
    rw [h.length] at hlt
    rcases Nat.lt_succ_iff_lt_or_eq.mp hlt with hold | rfl
    · exact Or.inl ((h.others r hold).symm.trans hr)
    · exact Or.inr ⟨rfl, Option.some.inj (hr.symm.trans hu)⟩
  refine ⟨h.sound, h.fault.trans hs.fault, ?_, ?_, ?_⟩
  · intro r m hm
    rcases hcontainer with hsame | ⟨m', hm', hshown⟩
    · obtain ⟨v, hv, hfreed, hdrawn⟩ := hs.placed r m (hsame ▸ hm)
      exact ⟨v, (h.others r (List.getElem?_eq_some_iff.mp hv).1).trans hv, hfreed, hdrawn⟩
    · obtain ⟨rfl, rfl⟩ := Prod.mk.inj (Option.some.inj (hm'.symm.trans hm))
      exact ⟨u, hu, halive, hshown⟩
  · intro r v hr
    rcases hcases r v hr with hold | ⟨-, rfl⟩
    · exact hs.fit r v hold
    · exact hfit
  · intro r v hr
    rcases hcases r v hr with hold | ⟨rfl, rfl⟩
    · exact hs.freed r v hold
    · rw [halive]
      constructor
      · rintro ⟨⟩
      · rintro ⟨i, -, hi⟩
        exact absurd hi hs.fresh

/-- The page and the browser number a new view alike. -/
theorem Linked.grown (hs : s.Linked) {doc : Bytes} {vis' : Pictures} {tab' : Tab}
    (h : Pictures.Created s.vis doc vis') (haccount : Canvas.Accounted tab'.page.canvas)
    (hcreated : tab'.page.created = s.tab.page.created + 1)
    (hfreed : tab'.page.freed = s.tab.page.freed) :
    Linked { tab := tab', vis := vis', views := s.views ++ [s.vis.views.length] } := by
  obtain ⟨hsound, hfault, hplaced, hfit, hsame⟩ := hs.created h
  refine ⟨hsound, hfault, hplaced, hfit, haccount, ?_, ?_, ?_, ?_⟩
  · show (s.views ++ [s.vis.views.length]).length = tab'.page.created
    rw [List.length_append, hs.length, hcreated]
    rfl
  · rw [List.nodup_append]
    refine ⟨hs.nodup, List.nodup_singleton _, ?_⟩
    intro r hr r' hr'
    rw [List.mem_singleton.mp hr']
    exact Nat.ne_of_lt (hs.bound r hr)
  · intro r hr
    rw [h.length]
    rcases List.mem_append.mp hr with hold | hnew
    · exact Nat.lt_succ_of_lt (hs.bound r hold)
    · rw [List.mem_singleton.mp hnew]
      exact Nat.lt_succ_self _
  · intro r v hr
    rw [hsame r v hr, hfreed]
    -- the views freed so far are numbered as before
    refine exists_congr fun i => and_congr_right fun hi => ?_
    have hlt : i < s.views.length := hs.length ▸ hs.account.freed i hi
    show _ ↔ (s.views ++ [s.vis.views.length])[i]? = some r
    rw [List.getElem?_append_left hlt]

theorem Linked.step {l : ScreenLabel} (hs : s.Linked) (h : screen.step s l = some s') :
    s'.Linked := by
  cases effect_of_step hs.sound h with
  | tab t tab' hl ht hcreates henter =>
    obtain ⟨hcreated, hfreed, -⟩ := spared_step ht hcreates henter
    refine ⟨hs.sound, hs.fault, hs.placed, hs.fit, accounted_step hs.account ht, ?_, hs.nodup,
      hs.bound, ?_⟩
    · exact hs.length.trans hcreated.symm
    · intro r v hr
      rw [hfreed]
      exact hs.freed r v hr
  | enter k tab' hl ht =>
    have haccount := accounted_step hs.account ht
    obtain ⟨caller, uuid, body, hk, rfl⟩ := page_enter ht
    have hempty := hs.emptied
    -- the view in the slot has been freed, on both sides
    have hmem : ∀ i, i ∈ (s.tab.page.enterRender k body).freed ↔
        i ∈ s.tab.page.freed ∨ s.tab.page.view = some i := by
      intro i
      show i ∈ s.tab.page.freed ++ s.tab.page.view.toList ↔ _
      simp
    have hslot : ∀ i r, s.tab.page.view = some i → s.views[i]? = some r → s.slot = some r := by
      intro i r hview hi
      rw [slot, hview]
      exact hi
    refine ⟨hempty.sound, hempty.fault.trans hs.fault, ?_, ?_, haccount, hs.length, hs.nodup, ?_,
      ?_⟩
    · intro r m hm
      rw [show s.emptied.container = none from rfl] at hm
      cases hm
    · intro r v hr
      by_cases hr' : s.slot = some r
      · obtain ⟨u, hu, -, hfit⟩ := hempty.slot r hr'
        exact Option.some.inj (hu.symm.trans hr) ▸ hfit
      · exact hs.fit r v ((hempty.others r hr').symm.trans hr)
    · intro r hr
      show r < s.emptied.views.length
      rw [hempty.length]
      exact hs.bound r hr
    · intro r v hr
      have hr : s.emptied.views[r]? = some v := hr
      by_cases hr' : s.slot = some r
      · obtain ⟨u, hu, hfreed, -⟩ := hempty.slot r hr'
        obtain rfl : u = v := Option.some.inj (hu.symm.trans hr)
        obtain ⟨i, hview, hi⟩ := Option.bind_eq_some_iff.mp hr'
        exact iff_of_true hfreed ⟨i, (hmem i).mpr (Or.inr hview), hi⟩
      · rw [hs.freed r v ((hempty.others r hr').symm.trans hr)]
        constructor
        · rintro ⟨i, hfreed, hi⟩
          exact ⟨i, (hmem i).mpr (Or.inl hfreed), hi⟩
        · rintro ⟨i, hfreed, hi⟩
          rcases (hmem i).mp hfreed with hold | hview
          · exact ⟨i, hold, hi⟩
          · exact absurd (hslot i r hview hi) hr'
  | create k doc tab' vis' hl hdoc ht hcreate hvis hdrew =>
    have haccount := accounted_step hs.account ht
    obtain ⟨caller, uuid, body, hk, rfl⟩ := page_paint ht
    exact hs.grown hvis haccount rfl rfl
  | crash k e doc tab' vis' hl ht hcreate hvis =>
    have hcanvas := (page_drawThrows ht).2
    exact hs.grown hvis (accounted_step hs.account ht) (congrArg Canvas.created hcanvas)
      (congrArg Canvas.freed hcanvas)
  | callback r v c vis' hl hstep hact =>
    refine ⟨hact.turn.sound, hact.turn.fault.trans hs.fault, hact.placed hs.placed, ?_, hs.account,
      hs.length, hs.nodup, ?_, ?_⟩
    · intro j w hj
      obtain ⟨w₀, hw₀, hkeeps⟩ := hact.keeps hj
      exact (hs.fit j w₀ hw₀).keeps hkeeps
    · intro j hj
      rw [hact.turn.length]
      exact hs.bound j hj
    · intro j w hj
      obtain ⟨w₀, hw₀, hkeeps⟩ := hact.keeps hj
      rw [hkeeps.freed]
      exact hs.freed j w₀ hw₀

theorem linked_of_init (h : screen.init s) : s.Linked := by
  obtain ⟨htab, hvis, hviews⟩ := h
  have haccount := accounted_of_run htab (Machine.run_nil s.tab)
  obtain ⟨-, l, hl⟩ := htab
  -- the page starts without views
  have hcreated : s.tab.page.created = 0 := by
    rw [hl]
    exact (spared_of_effect (Page.canvas_load .empty .pollWake l) rfl (by simp)).1
  refine ⟨hvis ▸ Pictures.sound_blank, hvis ▸ rfl, ?_, ?_, haccount, ?_, ?_, ?_, ?_⟩
  · rw [hvis]
    rintro r m ⟨⟩
  · rw [hvis]
    rintro r v ⟨⟩
  · rw [hviews, hcreated]
    rfl
  · rw [hviews]
    exact List.nodup_nil
  · rw [hviews]
    rintro r ⟨⟩
  · rw [hvis]
    rintro r v ⟨⟩

/-! ## §5 Views within reach -/

/-- No view is overwritten in the slot, and none is left behind by its constructor. -/
def Careful (s : Screen) : ScreenLabel → Prop
  | .tab (.page (.resume _)) => s.tab.page.view = none
  | .createThrows _ _ _ _ _ => False
  | _ => True

instance (s : Screen) : (l : ScreenLabel) → Decidable (Careful s l)
  | .tab l => by unfold Careful; split <;> infer_instance
  | .create _ _ _ _ _ => isTrue trivial
  | .createThrows _ _ _ _ _ => isFalse id
  | .callback _ => isTrue trivial

theorem kept_step {t t' : Tab} {l : TabLabel} (ht : Canvas.Kept t.page.canvas)
    (h : t.step l = some t') (hl : LosesNone t l) : Canvas.Kept t'.page.canvas := by
  cases l with
  | server l => rwa [(Tab.step_server h).2]
  | page l =>
    apply ht.step (Page.canvas_step (Tab.step_page h).1)
    · rintro k rfl
      exact hl.1 rfl
    · rintro k e rfl
      cases hl.2

theorem lost_step {t t' : Tab} {l : TabLabel} {i : ℕ} (ht : Canvas.Lost t.page.canvas i)
    (h : t.step l = some t') : Canvas.Lost t'.page.canvas i := by
  cases l with
  | server l => rwa [(Tab.step_server h).2]
  | page l => exact ht.step (Page.canvas_step (Tab.step_page h).1)

/-- The page can free every view that is alive. -/
structure Within (s : Screen) : Prop where
  kept : Canvas.Kept s.tab.page.canvas
  numbered : ∀ r < s.vis.views.length, r ∈ s.views

theorem Within.step {l : ScreenLabel} (hs : s.Linked) (hw : s.Within) (hl : Careful s l)
    (h : screen.step s l = some s') : s'.Within := by
  cases effect_of_step hs.sound h with
  | tab t tab' hlabel ht hcreates henter =>
    refine ⟨kept_step hw.kept ht ⟨?_, ?_⟩, hw.numbered⟩
    · intro hresumes
      subst hlabel
      unfold TabLabel.resumes at hresumes
      split at hresumes
      · exact hl
      · cases hresumes
    · unfold TabLabel.abandons
      split
      · cases hcreates
      · rfl
  | enter k tab' hlabel ht =>
    refine ⟨kept_step hw.kept ht ⟨by simp [TabLabel.resumes], rfl⟩, ?_⟩
    intro r hr
    exact hw.numbered r (hs.emptied.length ▸ hr)
  | create k doc tab' vis' hlabel hdoc ht hcreate hvis hdrew =>
    refine ⟨kept_step hw.kept ht ⟨by simp [TabLabel.resumes], rfl⟩, ?_⟩
    intro r hr
    have hr : r < vis'.views.length := hr
    rw [hvis.length] at hr
    rcases Nat.lt_succ_iff_lt_or_eq.mp hr with hold | rfl
    · exact List.mem_append_left _ (hw.numbered r hold)
    · exact List.mem_append_right _ (List.mem_singleton_self _)
  | crash k e doc tab' vis' hlabel =>
    obtain ⟨hints, dark, client, rfl⟩ := hlabel
    exact hl.elim
  | callback r v c vis' hlabel hstep hact =>
    refine ⟨hw.kept, ?_⟩
    intro j hj
    exact hw.numbered j (hact.turn.length ▸ hj)

/-- A view that is alive is in the slot, or on its way to it. -/
theorem Within.alive (hs : s.Linked) (hw : s.Within) {r : ℕ} {v : PlotView}
    (hr : s.vis.views[r]? = some v) (halive : v.freed = false) :
    ∃ i, s.views[i]? = some r ∧ (s.tab.page.view = some i ∨
      ∃ (k : ℕ) (call : RenderCall), s.tab.page.calls[k]? = some call ∧ call.pc = .painted i) := by
  obtain ⟨i, hi⟩ := List.mem_iff_getElem?.mp
    (hw.numbered r (List.getElem?_eq_some_iff.mp hr).1)
  refine ⟨i, hi, ?_⟩
  have hlt : i < s.tab.page.created := hs.length ▸ (List.getElem?_eq_some_iff.mp hi).1
  rcases hw.kept i hlt with hfreed | hreach
  · rw [(hs.freed r v hr).mpr ⟨i, hfreed, hi⟩] at halive
    cases halive
  · exact hreach

/-- A view that is alive and that the page cannot free any more. -/
structure Loose (s : Screen) (r : ℕ) : Prop where
  alive : ∃ v, s.vis.views[r]? = some v ∧ v.freed = false
  lost : ∀ i, s.views[i]? = some r → Canvas.Lost s.tab.page.canvas i

theorem Loose.step {l : ScreenLabel} {r : ℕ} (hs : s.Linked) (hr : s.Loose r)
    (h : screen.step s l = some s') : s'.Loose r := by
  obtain ⟨v, hv, halive⟩ := hr.alive
  have hlt := (List.getElem?_eq_some_iff.mp hv).1
  cases effect_of_step hs.sound h with
  | tab t tab' hlabel ht => exact ⟨hr.alive, fun i hi => lost_step (hr.lost i hi) ht⟩
  | enter k tab' hlabel ht =>
    refine ⟨⟨v, (hs.emptied.others r ?_).trans hv, halive⟩,
      fun i hi => lost_step (hr.lost i hi) ht⟩
    -- it is not the view that is freed
    intro hslot
    obtain ⟨i, hview, hi⟩ := Option.bind_eq_some_iff.mp hslot
    exact (hr.lost i hi).slot hview
  | create k doc tab' vis' hlabel hdoc ht hcreate hvis hdrew =>
    refine ⟨⟨v, (hvis.others r hlt).trans hv, halive⟩, ?_⟩
    intro i hi
    rcases getElem?_concat_cases hi with hold | ⟨-, hnew⟩
    · exact lost_step (hr.lost i hold) ht
    · exact absurd hnew (Nat.ne_of_lt hlt)
  | crash k e doc tab' vis' hlabel ht hcreate hvis =>
    refine ⟨⟨v, (hvis.others r hlt).trans hv, halive⟩, ?_⟩
    intro i hi
    rcases getElem?_concat_cases hi with hold | ⟨-, hnew⟩
    · exact lost_step (hr.lost i hold) ht
    · exact absurd hnew (Nat.ne_of_lt hlt)
  | callback j w c vis' hlabel hstep hact =>
    refine ⟨?_, hr.lost⟩
    by_cases hne : r = j
    · subst hne
      obtain ⟨u, hu, hkeeps⟩ := hact.kept
      exact ⟨u, hu, hkeeps.freed.trans hact.alive⟩
    · exact ⟨v, (hact.turn.others r hne).trans hv, halive⟩

/-- A step that is not careful makes a view loose. -/
theorem loose_of_step {l : ScreenLabel} (hs : s.Linked) (hl : ¬ Careful s l)
    (h : screen.step s l = some s') : ∃ r, s'.Loose r := by
  cases effect_of_step hs.sound h with
  | tab t tab' hlabel ht =>
    subst hlabel
    unfold Careful at hl
    split at hl
    · rename_i k heq
      obtain rfl := ScreenLabel.tab.inj heq
      -- the view in the slot is overwritten
      obtain ⟨i, hview⟩ := Option.ne_none_iff_exists'.mp hl
      obtain ⟨r, v, hi, -, hv⟩ := hs.view_of_slot hview
      obtain ⟨caller, uuid, view, hk, hcanvas⟩ := Page.canvas_resume (Tab.step_page ht).1
      refine ⟨r, ⟨v, hv, ?_⟩, ?_⟩
      · by_contra hfreed
        obtain ⟨j, hj, hjr⟩ := (hs.freed r v hv).mp (by simpa using hfreed)
        obtain rfl := hs.injective hi hjr
        exact (hs.account.slot i hview).2 hj
      · intro j hj
        obtain rfl := hs.injective hi hj
        exact Canvas.lost_of_resume hs.account hk hview hcanvas
    · cases ‹ScreenLabel.tab _ = _›
    · exact absurd trivial hl
  | crash k e doc tab' vis' hlabel ht hcreate hvis =>
    -- the new view is observed, and nothing refers to it
    obtain ⟨u, hu, halive, -⟩ := hvis.view
    refine ⟨s.vis.views.length, ⟨u, hu, halive⟩, ?_⟩
    intro i hi
    rcases getElem?_concat_cases hi with hold | ⟨rfl, -⟩
    · exact absurd hold hs.fresh
    · rw [hs.length]
      exact Canvas.lost_of_abandon hs.account (page_drawThrows ht).2
  | enter k tab' hlabel => exact absurd (hlabel ▸ trivial) hl
  | create k doc tab' vis' hlabel =>
    obtain ⟨hints, dark, client, warnings, rfl⟩ := hlabel
    exact absurd trivial hl
  | callback r v c vis' hlabel => exact absurd (hlabel ▸ trivial) hl

/-! ## §6 Runs -/

theorem linked_of_run {s₀ : Screen} {tr : List ScreenLabel} (h₀ : screen.init s₀)
    (hr : screen.run s₀ tr = some s) : s.Linked :=
  Machine.run_invariant Linked (fun _ _ _ hs h => hs.step h) (linked_of_init h₀) hr

theorem within_of_init (h : screen.init s) : s.Within := by
  obtain ⟨htab, hvis, -⟩ := h
  refine ⟨kept_of_run htab (Machine.run_nil s.tab) trivial, ?_⟩
  rw [hvis]
  rintro r ⟨⟩

theorem within_of_run {s₀ : Screen} {tr : List ScreenLabel} (h₀ : screen.init s₀)
    (hr : screen.run s₀ tr = some s) (hC : screen.Along Careful s₀ tr) : s.Within := by
  refine (Machine.run_invariant_along (fun s => s.Linked ∧ s.Within) Careful ?_
    ⟨linked_of_init h₀, within_of_init h₀⟩ hC hr).2
  intro s l s' hs hl h
  exact ⟨hs.1.step h, hs.2.step hs.1 hl h⟩

/-- A run that is not careful ends with a loose view. -/
theorem loose_of_run {s₀ : Screen} {tr : List ScreenLabel} (h₀ : screen.init s₀)
    (hr : screen.run s₀ tr = some s) (hC : ¬ screen.Along Careful s₀ tr) : ∃ r, s.Loose r := by
  obtain ⟨tr₁, l, tr₂, m, m', rfl, hr₁, hl, hstep, hr₂⟩ := Machine.run_split_of_not_along hr hC
  have hm := linked_of_run h₀ hr₁
  obtain ⟨r, hr⟩ := loose_of_step hm hl hstep
  refine ⟨r, (Machine.run_invariant (fun s => s.Linked ∧ s.Loose r) ?_
    ⟨hm.step hstep, hr⟩ hr₂).2⟩
  intro s l s' hs h
  exact ⟨hs.1.step h, hs.2.step hs.1 h⟩

/-- Callbacks leave the page alone, and its views within reach. -/
theorem within_of_callbacks {tr : List ScreenLabel} (hs : s.Linked) (hw : s.Within)
    (htr : ∀ l ∈ tr, l.isCallback = true) (hr : screen.run s tr = some s') :
    s'.Linked ∧ s'.Within ∧ s'.tab = s.tab ∧ s'.views = s.views := by
  refine Machine.run_invariant_along
    (fun t => t.Linked ∧ t.Within ∧ t.tab = s.tab ∧ t.views = s.views)
    (fun _ l => l.isCallback = true) ?_ ⟨hs, hw, rfl, rfl⟩
    (Machine.along_of_forall (fun l hl _ => htr l hl) s) hr
  rintro t l t' ⟨ht, hwithin, htab, hviews⟩ hl h
  have hcareful : Careful t l := by
    cases l with
    | callback c => exact trivial
    | _ => cases hl
  refine ⟨ht.step h, hwithin.step ht hcareful h, ?_⟩
  cases effect_of_step ht.sound h with
  | callback r v c vis' hlabel => exact ⟨htab, hviews⟩
  | tab t tab' hlabel => subst hlabel; cases hl
  | enter k tab' hlabel => subst hlabel; cases hl
  | create k doc tab' vis' hlabel => obtain ⟨_, _, _, _, rfl⟩ := hlabel; cases hl
  | crash k e doc tab' vis' hlabel => obtain ⟨_, _, _, rfl⟩ := hlabel; cases hl

/-- Whoever observes a loose view draws it. -/
theorem Loose.drawn {r : ℕ} (hs : s.Linked) (hr : s.Loose r) :
    ∃ l s' m, l.isCallback = true ∧ screen.step s l = some s' ∧
      s'.vis.container = some (r, m) := by
  obtain ⟨v, hv, halive⟩ := hr.alive
  obtain ⟨size, u, width, height, -, -, -, hcontainer⟩ := Pictures.resize_drew hv halive []
  refine ⟨.callback (.observed r size (some [])),
    { s with vis := s.vis.resize r v size (some []) }, _, rfl, ?_, hcontainer⟩
  have hcall : s.vis.callsBack (.observed r size (some [])) = true := by
    simp [Pictures.callsBack, hv, (hs.fit r v hv).observed halive]
  have hstep : pictures.step s.vis (.observed r size (some [])) =
      some (s.vis.resize r v size (some [])) :=
    congrArg (Option.map fun v => s.vis.resize r v size (some [])) hv
  refine (if_pos hcall).trans ?_
  rw [hstep]
  rfl

/-! ## §7 The two sides -/

theorem tab_of_step {l : ScreenLabel} (hs : s.Linked) (h : screen.step s l = some s') :
    ∃ tr, GgsqlDuckdb.tab.run s.tab tr = some s'.tab := by
  cases effect_of_step hs.sound h with
  | tab t tab' hl ht => exact ⟨[t], Machine.run_single.mpr ht⟩
  | enter k tab' hl ht => exact ⟨[.page (.bodyRead k)], Machine.run_single.mpr ht⟩
  | create k doc tab' vis' hl hdoc ht => exact ⟨[.page (.paint k)], Machine.run_single.mpr ht⟩
  | crash k e doc tab' vis' hl ht => exact ⟨[.page (.drawThrows k e)], Machine.run_single.mpr ht⟩
  | callback r v c vis' => exact ⟨[], rfl⟩

/-- The slot is freed and the container emptied by methods of the views. -/
theorem run_emptied (s : Screen) : ∃ tr, pictures.run s.vis tr = some s.emptied := by
  unfold emptied
  cases s.slot with
  | none => exact ⟨[.clear], rfl⟩
  | some r =>
    dsimp only
    cases hv : s.vis.views[r]? with
    | none => exact ⟨[.clear], rfl⟩
    | some v =>
      have hfree : pictures.step s.vis (.free r) = some (s.vis.free r v) :=
        congrArg (Option.map fun v => s.vis.free r v) hv
      exact ⟨[.free r, .clear], Machine.run_cons_eq_some.mpr ⟨_, hfree, rfl⟩⟩

theorem vis_of_step {l : ScreenLabel} (hs : s.Linked) (h : screen.step s l = some s') :
    ∃ tr, pictures.run s.vis tr = some s'.vis := by
  cases effect_of_step hs.sound h with
  | tab t tab' => exact ⟨[], rfl⟩
  | enter k tab' => exact s.run_emptied
  | create k doc tab' vis' hl hdoc ht hcreate =>
    obtain ⟨c, hc⟩ := hcreate
    exact ⟨[c], Machine.run_single.mpr hc⟩
  | crash k e doc tab' vis' hl ht hcreate =>
    obtain ⟨c, hc⟩ := hcreate
    exact ⟨[c], Machine.run_single.mpr hc⟩
  | callback r v c vis' hl hstep => exact ⟨[c], Machine.run_single.mpr hstep⟩

/-- What the tab can do the screen can do: a document that is to be drawn is at hand. -/
theorem step_of_tab {t : Tab} {l : TabLabel} (hs : s.tab.Supplied) (h : s.tab.step l = some t) :
    ∃ l' s', screen.step s l' = some s' ∧ s'.tab = t := by
  -- a call that is about to draw has its document
  have hdocument : ∀ k, (∃ caller uuid body,
      s.tab.page.calls[k]? = some ⟨caller, uuid, .rendering body⟩) →
      ∃ doc, s.document k = some doc := by
    rintro k ⟨caller, uuid, body, hk⟩
    obtain ⟨doc, rfl, -⟩ := hs.bodies _ (List.mem_of_getElem? hk) body rfl
    refine ⟨doc, ?_⟩
    unfold document
    rw [hk]
  cases hcreates : l.creates with
  | false =>
    refine ⟨.tab l, { s with tab := t, vis := s.visBehind l }, ?_, rfl⟩
    refine (if_neg (by simp [hcreates])).trans ?_
    rw [h]
    rfl
  | true =>
    unfold TabLabel.creates at hcreates
    split at hcreates
    · rename_i k
      obtain ⟨caller, uuid, body, hk, -⟩ := page_paint h
      obtain ⟨doc, hdoc⟩ := hdocument k ⟨caller, uuid, body, hk⟩
      refine ⟨.create k (none, none) false (0, 0) [],
        { tab := t
          vis := s.vis.create doc (none, none) bundleOptions false (0, 0) (some [])
          views := s.views ++ [s.vis.views.length] }, ?_, rfl⟩
      refine (congrArg (Option.bind · _) hdoc).trans ?_
      rw [Option.bind_some, h]
      rfl
    · rename_i k e
      obtain ⟨doc, hdoc⟩ := hdocument k (page_drawThrows h).1
      refine ⟨.createThrows k e (none, none) false (0, 0),
        { tab := t
          vis := s.vis.create doc (none, none) bundleOptions false (0, 0) none
          views := s.views ++ [s.vis.views.length] }, ?_, rfl⟩
      refine (congrArg (Option.bind · _) hdoc).trans ?_
      rw [Option.bind_some, h]
      rfl
    · cases hcreates

end Screen

/-! ## §8 One call at a time -/

namespace Canvas

variable {st : Server.State} {l : Page.Label} {c c' : Canvas}

/-- One call at most awaits `ggsqlRenderHep`, and the slot is empty meanwhile. -/
structure Single (c : Canvas) : Prop where
  one : ∀ (j k : ℕ) (a b : RenderCall), c.calls[j]? = some a → c.calls[k]? = some b →
    a.pc.awaits = true → b.pc.awaits = true → j = k
  slot : ∀ (k : ℕ) (a : RenderCall), c.calls[k]? = some a → a.pc.awaits = true → c.view = none
  blank : ∀ (k : ℕ) (a : RenderCall) (body : Server.Body), c.calls[k]? = some a →
    a.pc = .rendering body → c.shown = none

/-- Calls that await nothing new. -/
theorem Single.of_calls (hc : Single c) (hview : c'.view = c.view) (hshown : c'.shown = c.shown)
    (hcalls : ∀ (k : ℕ) (a : RenderCall), c'.calls[k]? = some a → a.pc.awaits = true →
      c.calls[k]? = some a) : Single c' := by
  refine ⟨?_, ?_, ?_⟩
  · intro j k a b hj hk ha hb
    exact hc.one j k a b (hcalls j a hj ha) (hcalls k b hk hb) ha hb
  · intro k a hk ha
    rw [hview]
    exact hc.slot k a (hcalls k a hk ha) ha
  · intro k a body hk ha
    rw [hshown]
    exact hc.blank k a body (hcalls k a hk (by rw [ha]; rfl)) ha

theorem Single.of_setCall (hc : Single c) {k : ℕ} {pc : RenderPc} (hpc : pc.awaits = false)
    (hview : c'.view = c.view) (hshown : c'.shown = c.shown)
    (hcalls : c'.calls = (c.setCall k pc).calls) : Single c' := by
  refine hc.of_calls hview hshown ?_
  intro j a hj ha
  rw [hcalls] at hj
  rcases call_of_setCall hj with ⟨-, hnew⟩ | ⟨-, hold⟩
  · rw [hnew, hpc] at ha
    cases ha
  · exact hold

theorem Single.step (hc : Single c) (h : Effect st l c c')
    (hl : ∀ k, l = .bodyRead k → ∀ a ∈ c.calls, a.pc.awaits = false) : Single c' := by
  cases h with
  | still h => exact h ▸ hc
  | idle k hlabel h =>
    subst h
    exact ⟨hc.one, hc.slot, hc.blank⟩
  | start caller uuid hne h =>
    subst h
    refine hc.of_calls rfl rfl ?_
    intro k a hk ha
    rcases call_of_start hk with hold | ⟨-, rfl⟩
    · exact hold
    · cases ha
  | respond k caller uuid body hlabel hk hok h =>
    subst h
    exact hc.of_setCall rfl rfl rfl rfl
  | refuse k caller uuid hlabel hk h =>
    subst h
    exact hc.of_setCall rfl rfl rfl rfl
  | throws k caller uuid pc hlabel hk hpc h =>
    subst h
    exact hc.of_setCall rfl rfl rfl rfl
  | crash k caller uuid body hlabel hk h =>
    subst h
    exact hc.of_setCall rfl rfl rfl rfl
  | abandon k caller uuid body hlabel hk h =>
    subst h
    exact hc.of_setCall rfl rfl rfl rfl
  | enter k caller uuid body hlabel hk h =>
    -- no other call is there
    subst h
    have honly : ∀ (j : ℕ) (a : RenderCall),
        (c.setCall k (.rendering body)).calls[j]? = some a → a.pc.awaits = true → j = k := by
      intro j a hj ha
      rcases call_of_setCall hj with ⟨rfl, -⟩ | ⟨-, hold⟩
      · rfl
      · rw [hl k hlabel a (List.mem_of_getElem? hold)] at ha
        cases ha
    refine ⟨?_, fun _ _ _ _ => rfl, fun _ _ _ _ _ => rfl⟩
    intro j j' a b hj hj' ha hb
    exact (honly j a hj ha).trans (honly j' b hj' hb).symm
  | paint k caller uuid body hlabel hk h =>
    -- the call awaits what it did
    subst h
    have hold : ∀ (j : ℕ) (a : RenderCall),
        (c.setCall k (.painted c.created)).calls[j]? = some a → a.pc.awaits = true → j = k := by
      intro j a hj ha
      rcases call_of_setCall hj with ⟨rfl, -⟩ | ⟨-, hold⟩
      · rfl
      · exact hc.one j k a _ hold hk ha rfl
    refine ⟨?_, ?_, ?_⟩
    · intro j j' a b hj hj' ha hb
      exact (hold j a hj ha).trans (hold j' b hj' hb).symm
    · intro j a hj ha
      exact hc.slot k _ hk rfl
    · intro j a body' hj ha
      rcases call_of_setCall hj with ⟨-, hnew⟩ | ⟨hne, hold'⟩
      · rw [hnew] at ha
        cases ha
      · exact absurd (hc.one j k a _ hold' hk (by rw [ha]; rfl) rfl).symm hne
  | settle k caller uuid view hlabel hk h =>
    -- behind the only one no call is left
    subst h
    have hnone : ∀ (j : ℕ) (a : RenderCall), (c.setCall k .finished).calls[j]? = some a →
        a.pc.awaits ≠ true := by
      intro j a hj ha
      rcases call_of_setCall hj with ⟨-, hnew⟩ | ⟨hne, hold⟩
      · rw [hnew] at ha
        cases ha
      · exact absurd (hc.one j k a _ hold hk ha rfl).symm hne
    refine ⟨?_, ?_, ?_⟩
    · intro j j' a b hj hj' ha
      exact absurd ha (hnone j a hj)
    · intro j a hj ha
      exact absurd ha (hnone j a hj)
    · intro j a body hj ha
      exact absurd (by rw [ha]; rfl) (hnone j a hj)

end Canvas

/-- The emission of a step, if there is one, does not throw. -/
def ScreenLabel.draws : ScreenLabel → Bool
  | .createThrows _ _ _ _ _ => false
  | .callback l => l.draws
  | _ => true

namespace Screen

variable {s s' : Screen}

/-- A call goes on to `ggsqlRenderHep` only while no other one awaits it. -/
def Solo (s : Screen) : ScreenLabel → Prop
  | .tab (.page (.bodyRead _)) => ∀ a ∈ s.tab.page.calls, a.pc.awaits = false
  | _ => True

instance (s : Screen) : (l : ScreenLabel) → Decidable (Solo s l)
  | .tab l => by unfold Solo; split <;> infer_instance
  | .create _ _ _ _ _ => isTrue trivial
  | .createThrows _ _ _ _ _ => isTrue trivial
  | .callback _ => isTrue trivial

/-- What the page shows is in the container, as the only view drew it that is alive. -/
structure Steady (s : Screen) : Prop where
  supplied : s.tab.Supplied
  single : Canvas.Single s.tab.page.canvas
  within : s.Within
  current : ∀ r, Pictures.CurrentAt r s.vis
  blank : s.tab.page.shown = none →
    s.vis.container = none ∧ ∀ (r : ℕ) (v : PlotView), s.vis.views[r]? = some v → v.freed = true
  shown : ∀ uuid, s.tab.page.shown = some uuid → ∃ r v m, s.vis.container = some (r, m) ∧
    s.vis.views[r]? = some v ∧ v.freed = false ∧
      s.tab.server.state.document uuid = some v.plot.doc

theorem single_step {t t' : Tab} {l : TabLabel} (ht : Canvas.Single t.page.canvas)
    (h : t.step l = some t')
    (hl : ∀ k, l = .page (.bodyRead k) → ∀ a ∈ t.page.calls, a.pc.awaits = false) :
    Canvas.Single t'.page.canvas := by
  cases l with
  | server l => rwa [(Tab.step_server h).2]
  | page l =>
    refine ht.step (Page.canvas_step (Tab.step_page h).1) ?_
    rintro k rfl
    exact hl k rfl

/-- Two views are not alive at a time. -/
theorem Steady.unique (hs : s.Linked) (h : s.Steady) {r r' : ℕ} {v v' : PlotView}
    (hr : s.vis.views[r]? = some v) (hr' : s.vis.views[r']? = some v') (hv : v.freed = false)
    (hv' : v'.freed = false) : r = r' := by
  have hsame : ∀ {i j : ℕ}, s.views[i]? = some r → s.views[j]? = some r' → i = j → r = r' := by
    rintro i j hi hj rfl
    exact Option.some.inj (hi.symm.trans hj)
  obtain ⟨i, hi, hslot | ⟨k, a, hk, ha⟩⟩ := h.within.alive hs hr hv <;>
    obtain ⟨j, hj, hslot' | ⟨k', b, hk', hb⟩⟩ := h.within.alive hs hr' hv'
  · exact hsame hi hj (Option.some.inj (hslot.symm.trans hslot'))
  -- the slot is empty while a call awaits its view
  · have hempty : s.tab.page.view = none := h.single.slot k' b hk' (by rw [hb]; rfl)
    rw [hslot] at hempty
    cases hempty
  · have hempty : s.tab.page.view = none := h.single.slot k a hk (by rw [ha]; rfl)
    rw [hslot'] at hempty
    cases hempty
  · obtain rfl := h.single.one k k' a b hk hk' (by rw [ha]; rfl) (by rw [hb]; rfl)
    obtain rfl : a = b := Option.some.inj (hk.symm.trans hk')
    exact hsame hi hj (RenderPc.painted.inj (ha.symm.trans hb))

/-- No view is overwritten: the slot is empty while a call awaits its view. -/
theorem Steady.careful {l : ScreenLabel} (h : s.Steady) (hdraws : l.draws = true)
    (hstep : screen.step s l = some s') : Careful s l := by
  unfold Careful
  split
  · rename_i k
    obtain ⟨caller, uuid, view, hk, -⟩ := Page.canvas_resume (Tab.step_page (step_tab hstep)).1
    exact h.single.slot k _ hk rfl
  · cases hdraws
  · exact trivial

theorem document_of_step {t t' : Tab} {l : TabLabel} (ht : t.Supplied) (h : t.step l = some t')
    {uuid doc : Bytes} (hdoc : t.server.state.document uuid = some doc) :
    t'.server.state.document uuid = some doc := by
  cases l with
  | server l => exact document_step ht.server (Tab.step_server h).1 hdoc
  | page l => rwa [(Tab.step_page h).2]

theorem Steady.step {l : ScreenLabel} (hs : s.Linked) (h : s.Steady) (hdraws : l.draws = true)
    (hsolo : Solo s l) (hstep : screen.step s l = some s') : s'.Steady := by
  have hs' := hs.step hstep
  have hwithin := h.within.step hs (h.careful hdraws hstep) hstep
  cases effect_of_step hs.sound hstep with
  | tab t tab' hl ht hcreates henter =>
    obtain ⟨-, -, hshown⟩ := spared_step ht hcreates henter
    refine ⟨h.supplied.step ht, single_step h.single ht fun k hk => absurd hk (henter k), hwithin,
      h.current, ?_, ?_⟩
    · intro hnone
      exact h.blank (hshown ▸ hnone)
    · intro uuid huuid
      obtain ⟨r, v, m, hcontainer, hr, halive, hdoc⟩ := h.shown uuid (hshown ▸ huuid)
      exact ⟨r, v, m, hcontainer, hr, halive, document_of_step h.supplied ht hdoc⟩
  | enter k tab' hl ht =>
    subst hl
    have hsingle := single_step h.single ht fun _ _ => hsolo
    have hsupplied := h.supplied.step ht
    obtain ⟨caller, uuid, body, hk, rfl⟩ := page_enter ht
    have hcall : (s.tab.page.enterRender k body).calls[k]? =
        some ⟨caller, uuid, .rendering body⟩ := Page.call_setCall hk _
    refine ⟨hsupplied, hsingle, hwithin, ?_, fun _ => ⟨rfl, ?_⟩, ?_⟩
    · intro r v hr
      by_cases hslot : s.slot = some r
      · obtain ⟨u, hu, hfreed, -⟩ := hs.emptied.slot r hslot
        exact Or.inl (Option.some.inj (hu.symm.trans hr) ▸ hfreed)
      · exact h.current r v ((hs.emptied.others r hslot).symm.trans hr)
    · -- the call that goes on has no view yet
      intro r v hr
      by_contra halive
      obtain ⟨i, -, hslot | ⟨j, a, hj, ha⟩⟩ := hwithin.alive hs' hr (by simpa using halive)
      · cases hslot
      · obtain rfl := hsingle.one j k a _ hj hcall (by rw [ha]; rfl) rfl
        rw [Option.some.inj (hj.symm.trans hcall)] at ha
        cases ha
    · intro uuid' huuid'
      cases huuid'
  | create k doc tab' vis' hl hdoc ht hcreate hvis hdrew =>
    have hsingle := single_step h.single ht (by simp)
    have hsupplied := h.supplied.step ht
    obtain ⟨caller, uuid, body, hk, rfl⟩ := page_paint ht
    refine ⟨hsupplied, hsingle, hwithin, ?_, ?_, ?_⟩
    · intro r v hr
      rcases Nat.lt_or_ge r s.vis.views.length with hold | hnew
      · exact h.current r v ((hvis.others r hold).symm.trans hr)
      · have hlt := (List.getElem?_eq_some_iff.mp hr).1
        have hlt : r < vis'.views.length := hlt
        rw [hvis.length] at hlt
        obtain rfl : r = s.vis.views.length := by omega
        exact hdrew.current v hr
    · intro hnone
      cases hnone
    · intro uuid' huuid'
      obtain rfl : uuid = uuid' := Option.some.inj huuid'
      obtain ⟨u, hu, halive, hudoc, -, -⟩ := hvis.view
      obtain ⟨w, width, height, -, -, -, hcontainer⟩ := hdrew
      refine ⟨_, u, _, hcontainer, hu, halive, ?_⟩
      -- the document is the one that the call has read
      obtain ⟨doc', rfl, hstored⟩ := h.supplied.bodies _ (List.mem_of_getElem? hk) body rfl
      have hsame : s.document k = some doc' := by
        unfold document
        rw [hk]
      rw [hudoc, ← Option.some.inj (hsame.symm.trans hdoc)]
      exact hstored
  | crash k e doc tab' vis' hl =>
    obtain ⟨hints, dark, client, rfl⟩ := hl
    cases hdraws
  | callback r v c vis' hl hcall hact =>
    subst hl
    refine ⟨h.supplied, h.single, hwithin,
      fun j => Pictures.current_step hs.sound hdraws h.current hcall j, ?_, ?_⟩
    · intro hnone
      have hfreed := (h.blank hnone).2 r v hact.view
      rw [hact.alive] at hfreed
      cases hfreed
    · intro uuid huuid
      obtain ⟨j, w, m, hcontainer, hj, halive, hdoc⟩ := h.shown uuid huuid
      -- it is the view in the container that acts
      obtain rfl := h.unique hs hj hact.view halive hact.alive
      obtain rfl : w = v := Option.some.inj (hj.symm.trans hact.view)
      obtain ⟨u, hu, hkeeps⟩ := hact.kept
      obtain ⟨m', hm'⟩ : ∃ m', vis'.container = some (j, m') := by
        rcases hact.turn.container with ⟨hsame, -⟩ | ⟨m', hdrawn, -⟩
        · exact ⟨m, hsame.trans hcontainer⟩
        · exact ⟨m', hdrawn⟩
      exact ⟨j, u, m', hm', hu, hkeeps.freed.trans halive, hkeeps.doc ▸ hdoc⟩

theorem steady_of_run {s₀ : Screen} {tr : List ScreenLabel} (h₀ : screen.init s₀)
    (hr : screen.run s₀ tr = some s) (hdraws : ∀ l ∈ tr, l.draws = true)
    (hsolo : screen.Along Solo s₀ tr) : s.Steady := by
  have hblank : s₀.Steady := by
    have hwithin := within_of_init h₀
    obtain ⟨htab, hvis, -⟩ := h₀
    have hsupplied := Tab.supplied_of_init htab
    obtain ⟨-, l, hl⟩ := htab
    have hcanvas := Page.canvas_load .empty .pollWake l
    have hshown : s₀.tab.page.shown = none := by
      rw [hl]
      exact (spared_of_effect hcanvas rfl (by simp)).2.2
    have hsingle : Canvas.Single s₀.tab.page.canvas := by
      rw [hl]
      refine Canvas.Single.step (c := Canvas.blank) ?_ hcanvas (by simp)
      constructor <;> simp [Canvas.blank]
    refine ⟨hsupplied, hsingle, hwithin, ?_, fun _ => ⟨hvis ▸ rfl, ?_⟩, ?_⟩
    · rw [hvis]
      rintro r v ⟨⟩
    · rw [hvis]
      rintro r v ⟨⟩
    · rw [hshown]
      rintro uuid ⟨⟩
  refine (Machine.run_invariant_along (fun s => s.Linked ∧ s.Steady)
    (fun s l => l.draws = true ∧ Solo s l) ?_ ⟨linked_of_init h₀, hblank⟩
    (Machine.along_and (Machine.along_of_forall (fun l hl _ => hdraws l hl) s₀) hsolo) hr).2
  intro s l s' hs hl h
  exact ⟨hs.1.step h, hs.2.step hs.1 hl.1 hl.2 h⟩

/-- Nothing fails, and the calls of `renderPlot` draw and end in order. -/
def Orderly (s : Screen) (l : ScreenLabel) : Prop :=
  ∀ t ∈ l.onTab, Tab.Smooth s.tab t ∧ Tab.InOrder s.tab t

instance (s : Screen) (l : ScreenLabel) : Decidable (Orderly s l) :=
  inferInstanceAs (Decidable (∀ t ∈ l.onTab, _ ∧ _))

theorem tracked_step {l : ScreenLabel} (hs : s.Linked) (ht : s.tab.Tracked) (hl : Orderly s l)
    (h : screen.step s l = some s') : s'.tab.Tracked := by
  cases effect_of_step hs.sound h with
  | tab t tab' hlabel hstep =>
    subst hlabel
    exact ht.step (hl t rfl) hstep
  | enter k tab' hlabel hstep =>
    subst hlabel
    exact ht.step (hl _ rfl) hstep
  | create k doc tab' vis' hlabel hdoc hstep =>
    obtain ⟨hints, dark, client, warnings, rfl⟩ := hlabel
    exact ht.step (hl _ rfl) hstep
  | crash k e doc tab' vis' hlabel hstep =>
    obtain ⟨hints, dark, client, rfl⟩ := hlabel
    exact ht.step (hl _ rfl) hstep
  | callback r v c vis' => exact ht

theorem tracked_of_run {s₀ : Screen} {tr : List ScreenLabel} (h₀ : screen.init s₀)
    (hr : screen.run s₀ tr = some s) (horder : screen.Along Orderly s₀ tr) : s.tab.Tracked := by
  refine (Machine.run_invariant_along (fun s => s.Linked ∧ s.tab.Tracked) Orderly ?_
    ⟨linked_of_init h₀, Tab.tracked_of_init h₀.1⟩ horder hr).2
  intro s l s' hs hl h
  exact ⟨hs.1.step h, tracked_step hs.1 hs.2 hl h⟩

/-- While no call is under way the only view that is alive is in the slot. -/
theorem slot_of_alive (hs : s.Linked) (hw : s.Within) (hquiet : s.tab.page.Quiet) {r : ℕ}
    {v : PlotView} (hr : s.vis.views[r]? = some v) (halive : v.freed = false) :
    s.slot = some r := by
  obtain ⟨i, hi, hview | ⟨k, call, hk, hpc⟩⟩ := hw.alive hs hr halive
  · rw [slot, hview]
    exact hi
  · -- no call is on its way to the slot
    have hdone := hquiet call (List.mem_of_getElem? hk)
    rw [hpc] at hdone
    cases hdone

end Screen

/-! ## §9 What a user sees -/

open Screen

namespace Screen

/-- A page that opens `l` on a server without plots. -/
def opened (l : Location) : Screen where
  tab := .opened l
  vis := .blank
  views := []

theorem opened_init (l : Location) : screen.init (opened l) := ⟨Tab.opened_init l, rfl, rfl⟩

/-- A call draws and ends, in a container of the size `client`. -/
def drawing (k : ℕ) (client : ℕ × ℕ) : List ScreenLabel :=
  [.create k (none, none) false client [], .tab (.page (.resume k))]

/-- A plot is drawn, and drawn again when the window changes. -/
def firstPlot : List ScreenLabel :=
  (Tab.publishing 0 Server.somePlot ++ Tab.landing 0 ++ Tab.fetching 0 ++ Tab.loading).map .tab ++
    drawing 0 (600, 400) ++ [.callback (.observed 0 (300, 200) (some []))]

/-- A second one takes its place. -/
def secondPlot : List ScreenLabel :=
  (Tab.publishing 1 Server.otherPlot ++ Tab.polling ++ Tab.fetching 1).map .tab ++
    drawing 1 (300, 200)

theorem run_plots : ∃ s, screen.run (opened Tab.appRoot) (firstPlot ++ secondPlot) = some s ∧
    s.tab.page.Quiet ∧
      uuidFromLocation s.tab.page.history.here = some Server.otherPlot.text ∧
      s.tab.page.shown = some Server.otherPlot.text ∧ s.tab.page.freed = [0] ∧
      s.vis.views.length = 2 ∧ s.views = [0, 1] :=
  Machine.run_decided _ (by decide +kernel)

end Screen

/-- **The page frees its views once, and uses none behind that.**  Whatever the page does and the
browser calls back, the tab does what a tab does and the views what views do; no freed document is
used; and a document is freed, and no more than once, if and only if the page has freed the view.
Nothing that the tab can do is held up by its views. -/
theorem page_frees_once {s : Screen} (h : screen.Reachable s) :
    tab.Reachable s.tab ∧ pictures.Reachable s.vis ∧ s.vis.fault = false ∧
    (∀ (r : ℕ) (v : PlotView), s.vis.views[r]? = some v → v.plot.frees ≤ 1 ∧
      (v.plot.frees = 1 ↔ ∃ i ∈ s.tab.page.freed, s.views[i]? = some r)) ∧
    ∀ l t, s.tab.step l = some t → ∃ l' s', screen.step s l' = some s' ∧ s'.tab = t := by
  obtain ⟨s₀, tr, h₀, hr⟩ := h
  have hlinked := linked_of_run h₀ hr
  have htab : tab.Reachable s.tab := by
    obtain ⟨tr', t, ht, -, rfl⟩ := Machine.run_simulation (A := tab)
      (fun (s : Screen) t => s.Linked ∧ s.tab = t) (by
        rintro s l s' t ⟨hs, rfl⟩ h
        obtain ⟨tr, ht⟩ := tab_of_step hs h
        exact ⟨tr, _, ht, hs.step h, rfl⟩) ⟨linked_of_init h₀, rfl⟩ hr
    exact ⟨s₀.tab, tr', h₀.1, ht⟩
  have hvis : pictures.Reachable s.vis := by
    obtain ⟨tr', t, ht, -, rfl⟩ := Machine.run_simulation (A := pictures)
      (fun (s : Screen) t => s.Linked ∧ s.vis = t) (by
        rintro s l s' t ⟨hs, rfl⟩ h
        obtain ⟨tr, ht⟩ := vis_of_step hs h
        exact ⟨tr, _, ht, hs.step h, rfl⟩) ⟨linked_of_init h₀, rfl⟩ hr
    exact ⟨s₀.vis, tr', h₀.2.1, ht⟩
  have hsupplied : s.tab.Supplied := htab.invariant Tab.Supplied
    (fun _ h => Tab.supplied_of_init h) fun _ _ _ hs h => hs.step h
  refine ⟨htab, hvis, hlinked.fault, ?_, fun l t ht => step_of_tab hsupplied ht⟩
  intro r v hv
  rw [← hlinked.freed r v hv]
  cases hlinked.sound.whole r v hv with
  | alive hfreed hfrees => simp [hfreed, hfrees]
  | freed hfreed hfrees => simp [hfreed, hfrees]

theorem page_frees_once_plots : ∃ s v,
    screen.run (Screen.opened Tab.appRoot) (firstPlot ++ secondPlot) = some s ∧
      s.vis.fault = false ∧ s.vis.views[0]? = some v ∧ v.plot.frees = 1 := by
  obtain ⟨s, hr, -, -, -, hfreed, hlength, hviews⟩ := run_plots
  obtain ⟨-, -, hfault, hfrees, -⟩ :=
    page_frees_once ⟨_, _, Screen.opened_init Tab.appRoot, hr⟩
  have hv : s.vis.views[0]? = some s.vis.views[0] := List.getElem?_eq_getElem (by omega)
  refine ⟨s, _, hr, hfault, hv, (hfrees 0 _ hv).2.mpr ⟨0, ?_, ?_⟩⟩
  · rw [hfreed]
    exact List.mem_singleton_self 0
  · rw [hviews]
    rfl

/-- **The picture stays that of the view in the slot.**  When no call of `renderPlot` is under way,
no callback puts the picture of another view into the container if and only if each call so far
that resumed from `ggsqlRenderHep` found the slot free, and no constructor has thrown while it
drew. -/
theorem picture_of_slot {s₀ s : Screen} {tr : List ScreenLabel} (h₀ : screen.init s₀)
    (hr : screen.run s₀ tr = some s) (hquiet : s.tab.page.Quiet) :
    (∀ tr' s', (∀ l ∈ tr', l.isCallback = true) → screen.run s tr' = some s' →
      ∀ r m, s'.vis.container = some (r, m) → s'.slot = some r) ↔
      screen.Along Careful s₀ tr := by
  have hlinked := linked_of_run h₀ hr
  constructor
  · intro hslot
    by_contra hC
    obtain ⟨r, hloose⟩ := loose_of_run h₀ hr hC
    obtain ⟨l, s', m, hl, hstep, hcontainer⟩ := hloose.drawn hlinked
    have hr' : s'.slot = some r :=
      hslot [l] s' (by simpa using hl) (Machine.run_single.mpr hstep) r m hcontainer
    -- a loose view is not in the slot
    obtain ⟨i, hview, hi⟩ := Option.bind_eq_some_iff.mp hr'
    exact ((hloose.step hlinked hstep).lost i hi).slot hview
  · intro hC tr' s' htr' hrun r m hcontainer
    obtain ⟨hlinked', hwithin, htab, -⟩ :=
      within_of_callbacks hlinked (within_of_run h₀ hr hC) htr' hrun
    obtain ⟨v, hv, halive, -⟩ := hlinked'.placed r m hcontainer
    exact slot_of_alive hlinked' hwithin (htab ▸ hquiet) hv halive

theorem picture_of_slot_plots : ∃ s,
    screen.run (Screen.opened Tab.appRoot) (firstPlot ++ secondPlot) = some s ∧
      ∀ tr' s', (∀ l ∈ tr', l.isCallback = true) → screen.run s tr' = some s' →
        ∀ r m, s'.vis.container = some (r, m) → s'.slot = some r := by
  obtain ⟨s, hr, hquiet, -⟩ := run_plots
  have hC : screen.Along Careful (Screen.opened Tab.appRoot) (firstPlot ++ secondPlot) := by
    decide +kernel
  exact ⟨s, hr, (picture_of_slot (Screen.opened_init Tab.appRoot) hr hquiet).mpr hC⟩

/-- **The page shows what it takes to be shown.**  In a run in which no emission throws and one
call of `renderPlot` at most awaits `ggsqlRenderHep` at a time, the container is empty where the
page shows no plot; where it shows one, the container holds a picture of the document that the
server has under its name, drawn by the only view that is alive, and drawn as it is now unless a
frame is pending. -/
theorem screen_shows {s₀ s : Screen} {tr : List ScreenLabel} (h₀ : screen.init s₀)
    (hr : screen.run s₀ tr = some s) (hdraws : ∀ l ∈ tr, l.draws = true)
    (hsolo : screen.Along Solo s₀ tr) :
    (s.tab.page.shown = none → s.vis.container = none) ∧
    ∀ uuid, s.tab.page.shown = some uuid → ∃ r v m, s.vis.container = some (r, m) ∧
      s.tab.server.state.document uuid = some m.doc ∧ s.vis.views[r]? = some v ∧
      (∀ (j : ℕ) (w : PlotView), s.vis.views[j]? = some w → (w.freed = false ↔ j = r)) ∧
      (v.frame = none → ∃ width height, v.lastSize = some (width, height) ∧
        m = v.plot.toSvg width height v.idPrefix) := by
  have hlinked := linked_of_run h₀ hr
  have hsteady := steady_of_run h₀ hr hdraws hsolo
  refine ⟨fun hnone => (hsteady.blank hnone).1, ?_⟩
  intro uuid huuid
  obtain ⟨r, v, m, hcontainer, hv, halive, hdoc⟩ := hsteady.shown uuid huuid
  obtain ⟨w, hw, -, hshown⟩ := hlinked.placed r m hcontainer
  obtain rfl : v = w := Option.some.inj (hv.symm.trans hw)
  refine ⟨r, v, m, hcontainer, ?_, hv, ?_, ?_⟩
  · rw [(hlinked.fit r v hv).drawn m hshown]
    exact hdoc
  · intro j w hj
    constructor
    · intro hfreed
      exact hsteady.unique hlinked hj hv hfreed halive
    · rintro rfl
      exact Option.some.inj (hv.symm.trans hj) ▸ halive
  · intro hframe
    rcases hsteady.current r v hv with hfreed | hwaits | ⟨width, height, hsize, hdrawn⟩
    · rw [halive] at hfreed
      cases hfreed
    · rw [hframe] at hwaits
      cases hwaits
    · exact ⟨width, height, hsize, Option.some.inj (hshown.symm.trans hdrawn)⟩

theorem screen_shows_plots : ∃ s r m,
    screen.run (Screen.opened Tab.appRoot) (firstPlot ++ secondPlot) = some s ∧
      s.vis.container = some (r, m) ∧
      s.tab.server.state.document Server.otherPlot.text = some m.doc := by
  obtain ⟨s, hr, -, -, hshown, -⟩ := run_plots
  obtain ⟨-, hshows⟩ :=
    screen_shows (Screen.opened_init Tab.appRoot) hr (by decide) (by decide +kernel)
  obtain ⟨r, v, m, hcontainer, hdoc, -⟩ := hshows _ hshown
  exact ⟨s, r, m, hr, hcontainer, hdoc⟩

/-- **The picture is that of the plot in the address bar**, when no call of `renderPlot` is under
way, in a run in which moreover nothing fails and the calls draw and end in order; without such a
plot the container is hidden. -/
theorem address_shows {s₀ s : Screen} {tr : List ScreenLabel} (h₀ : screen.init s₀)
    (hr : screen.run s₀ tr = some s) (hdraws : ∀ l ∈ tr, l.draws = true)
    (hsolo : screen.Along Solo s₀ tr) (horder : screen.Along Orderly s₀ tr)
    (hquiet : s.tab.page.Quiet) :
    s.tab.page.visHidden = (uuidFromLocation s.tab.page.history.here).isNone ∧
    ∀ uuid, uuidFromLocation s.tab.page.history.here = some uuid →
      ∃ r m, s.vis.container = some (r, m) ∧ s.slot = some r ∧
        s.tab.server.state.plots uuid = some m.doc := by
  have hlinked := linked_of_run h₀ hr
  have hsteady := steady_of_run h₀ hr hdraws hsolo
  have htracked := tracked_of_run h₀ hr horder
  rcases htracked.phase with hbare | hnamed
  · rw [hbare.here]
    refine ⟨congrArg Canvas.visHidden hbare.canvas, ?_⟩
    rintro uuid ⟨⟩
  · obtain ⟨hshowing, -⟩ := hnamed.rest htracked.tidy hquiet
    obtain ⟨uuid, huuid⟩ := Option.isSome_iff_exists.mp hnamed.entries.here
    rw [huuid] at hshowing ⊢
    have hvisible : s.tab.page.visHidden = false := by
      by_contra hhidden
      rw [Page.showing, if_pos (by simpa using hhidden)] at hshowing
      cases hshowing
    rw [Page.showing, if_neg (by simp [hvisible])] at hshowing
    refine ⟨hvisible, ?_⟩
    rintro uuid' ⟨⟩
    obtain ⟨r, v, m, hcontainer, hv, halive, hdoc⟩ := hsteady.shown uuid hshowing
    obtain ⟨w, hw, -, hshown⟩ := hlinked.placed r m hcontainer
    obtain rfl : v = w := Option.some.inj (hv.symm.trans hw)
    refine ⟨r, m, hcontainer, slot_of_alive hlinked hsteady.within hquiet hv halive, ?_⟩
    -- the page asks for the plot under its plain name
    rw [(hlinked.fit r v hv).drawn m hshown, ← hdoc, Server.State.document,
      encodeURIComponent_name (isName_of_location huuid)]

theorem address_shows_plots : ∃ s r m,
    screen.run (Screen.opened Tab.appRoot) (firstPlot ++ secondPlot) = some s ∧
      s.tab.page.visHidden = false ∧ s.vis.container = some (r, m) ∧
      s.tab.server.state.plots Server.otherPlot.text = some m.doc := by
  obtain ⟨s, hr, hquiet, hhere, -⟩ := run_plots
  obtain ⟨hvisible, hshows⟩ := address_shows (Screen.opened_init Tab.appRoot) hr (by decide)
    (by decide +kernel) (by decide +kernel) hquiet
  obtain ⟨r, m, hcontainer, -, hdoc⟩ := hshows _ hhere
  rw [hhere] at hvisible
  exact ⟨s, r, m, hr, hvisible, hcontainer, hdoc⟩

end GgsqlDuckdb
