import GgsqlDuckdb.Page.Readers

/-!
# Locations that name a plot

Where the page writes a URL for a plot, `uuidFromLocation` reads the plot back.  The ids of the
server are all fit for such a URL, and so is every id that was read from one.

## Main results

- `uuidFromLocation_withPlot`, `uuidFromLocation_root`: the URLs the page writes.
- `isName_of_location`, `isName_of_plotId`: the ids it writes there.
- `OneReader.inTurn`: with a single reader of `/api/latest`, all answers come in turn.
-/

namespace GgsqlDuckdb

open Library

/-! ## §1 Ids in URLs -/

/-- An id that a URL can name. -/
structure IsName (uuid : Bytes) : Prop where
  ne_nil : uuid ≠ []
  idChar : ∀ c ∈ uuid, isUrlIdChar c = true

theorem urlId_of_isName {uuid : Bytes} (h : IsName uuid) : urlId uuid = some uuid := by
  have htake : uuid.takeWhile isUrlIdChar = uuid := List.takeWhile_eq_self_iff.mpr h.idChar
  have hdrop : uuid.dropWhile isUrlIdChar = [] := List.dropWhile_eq_nil_iff.mpr h.idChar
  simp [urlId, htake, hdrop, h.ne_nil]

theorem isName_of_urlId {rest uuid : Bytes} (h : urlId rest = some uuid) : IsName uuid := by
  unfold urlId at h
  obtain ⟨⟨hne, -⟩, huuid⟩ := Option.ite_none_right_eq_some.mp h
  obtain rfl := Option.some.inj huuid
  exact ⟨hne, fun c hc => List.mem_takeWhile_imp hc⟩

theorem isName_of_location {l : Location} {uuid : Bytes} (h : uuidFromLocation l = some uuid) :
    IsName uuid := by
  unfold uuidFromLocation at h
  split at h
  · rename_i id hid
    obtain rfl := Option.some.inj h
    obtain ⟨rest, -, hrest⟩ := Option.bind_eq_some_iff.mp hid
    exact isName_of_urlId hrest
  · obtain ⟨rest, -, hrest⟩ := Option.bind_eq_some_iff.mp h
    exact isName_of_urlId hrest

theorem uuidFromLocation_hash {pathname uuid : Bytes} (h : IsName uuid) :
    uuidFromLocation ⟨pathname, ascii "#plot/" ++ uuid⟩ = some uuid := by
  unfold uuidFromLocation
  rw [Server.stripPrefix_append, Option.bind_some, urlId_of_isName h]

theorem uuidFromLocation_withPlot {uuid : Bytes} (h : IsName uuid) (l : Location) :
    uuidFromLocation (l.withPlot uuid) = some uuid := uuidFromLocation_hash h

theorem uuidFromLocation_root {uuid : Bytes} (h : IsName uuid) :
    uuidFromLocation (.root uuid) = some uuid := uuidFromLocation_hash h

theorem isUrlIdChar_of_isIdChar {c : UInt8} (h : Server.isIdChar c = true) :
    isalnum c = true ∨ c = 0x2d := by
  unfold Server.isIdChar at h
  unfold isalnum
  simp only [Bool.or_eq_true, Bool.and_eq_true, decide_eq_true_eq, beq_iff_eq] at h ⊢
  rcases h with (hdigit | ⟨hlow, hhigh⟩) | hdash
  · exact Or.inl (Or.inl (Or.inl hdigit))
  -- `a` to `f` are among `a` to `z`
  · exact Or.inl (Or.inr ⟨hlow, UInt8.le_trans hhigh (show (0x66 : UInt8) ≤ 0x7a by decide)⟩)
  · exact Or.inr hdash

theorem isName_of_plotId (id : Server.PlotId) : IsName id.text := by
  refine ⟨id.ne_nil, ?_⟩
  intro c hc
  rcases isUrlIdChar_of_isIdChar (id.idChar c hc) with halnum | rfl
  · simp [isUrlIdChar, halnum]
  · rfl

theorem truthy_of_isName {uuid : Bytes} (h : IsName uuid) :
    Page.truthy (some uuid) = some uuid := by
  simp [Page.truthy, h.ne_nil]

/-- The page asks for a plot under its plain id. -/
theorem encodeURIComponent_name {uuid : Bytes} (h : IsName uuid) :
    encodeURIComponent uuid = uuid := by
  -- every byte of an id is one of those left as they are
  have hplain : ∀ text : Bytes, (∀ c ∈ text, isUrlIdChar c = true) →
      encodeURIComponent text = text := by
    intro text
    induction text with
    | nil => intro _; rfl
    | cons c text ih =>
      intro h
      have hkeep : (isalnum c || (ascii "-_.!~*'()").contains c) = true := by
        have hc : isUrlIdChar c = true := h c (by simp)
        unfold isUrlIdChar at hc
        rcases Bool.or_eq_true _ _ |>.mp hc with halnum | hdash
        · simp [halnum]
        · rw [beq_iff_eq.mp hdash]
          decide
      have hrest := ih fun d hd => h d (List.mem_cons_of_mem c hd)
      unfold encodeURIComponent at hrest ⊢
      rw [List.flatMap_cons, if_pos hkeep, hrest]
      rfl
  exact hplain uuid h.idChar

theorem encodeURIComponent_plotId (id : Server.PlotId) : encodeURIComponent id.text = id.text :=
  encodeURIComponent_name (isName_of_plotId id)

/-- The server looks up the id the page asks for. -/
theorem plotResponse_name {st : Server.State} {uuid : Bytes} (h : IsName uuid) :
    Page.plotResponse st uuid = st.respond (.plot uuid) := by
  rw [Page.plotResponse, encodeURIComponent_name h, Server.routeOf_plot_of_plain]
  intro c hc
  have hchar := h.idChar c hc
  constructor <;> rintro rfl <;> exact absurd hchar (by decide)

/-- A request for a stored plot succeeds. -/
theorem plotResponse_ok {st : Server.State} {id : Server.PlotId} {hep : Bytes}
    (h : st.plots id.text = some hep) :
    Page.plotResponse st id.text = Server.binaryResponse hep := by
  rw [plotResponse_name (isName_of_plotId id), Server.State.respond, h]

namespace Tab

/-- An answer in flight names a plot of the server. -/
theorem Current.plotId {s : Tab} (hs : s.Current) {w : Bytes} (hw : w ∈ s.page.course.inFlight) :
    ∃ id : Server.PlotId, id.text = w := by
  obtain ⟨k, c, -, hid, -⟩ := hs.sound.consistent.published w (hs.ordered.announced w hw)
  exact ⟨c.id, hid⟩

theorem Current.isName {s : Tab} (hs : s.Current) {w : Bytes} (hw : w ∈ s.page.course.inFlight) :
    IsName w := by
  obtain ⟨id, rfl⟩ := hs.plotId hw
  exact isName_of_plotId id

end Tab

/-! ## §2 History entries -/

namespace History

/-- Every entry satisfies `P`. -/
structure All (P : Location → Prop) (h : History) : Prop where
  back : ∀ l ∈ h.back, P l
  here : P h.here
  forward : ∀ l ∈ h.forward, P l

theorem All.goBack {P : Location → Prop} {n : ℕ} {h h' : History} (hP : h.All P)
    (hgo : h.goBack n = some h') : h'.All P := by
  induction n generalizing h with
  | zero => exact (Option.some.inj hgo) ▸ hP
  | succ n ih =>
    cases hback : h.back with
    | nil => simp [History.goBack, hback] at hgo
    | cons l rest =>
      simp only [History.goBack, hback] at hgo
      have hl : P l ∧ ∀ x ∈ rest, P x := by
        simpa [hback] using hP.back
      -- one entry back, the current one becomes the nearest ahead
      refine ih ⟨hl.2, hl.1, ?_⟩ hgo
      intro x hx
      rcases List.mem_cons.mp hx with rfl | hx
      · exact hP.here
      · exact hP.forward x hx

theorem All.goForward {P : Location → Prop} {n : ℕ} {h h' : History} (hP : h.All P)
    (hgo : h.goForward n = some h') : h'.All P := by
  induction n generalizing h with
  | zero => exact (Option.some.inj hgo) ▸ hP
  | succ n ih =>
    cases hforward : h.forward with
    | nil => simp [History.goForward, hforward] at hgo
    | cons l rest =>
      simp only [History.goForward, hforward] at hgo
      have hl : P l ∧ ∀ x ∈ rest, P x := by
        simpa [hforward] using hP.forward
      -- one entry forward, the current one becomes the nearest behind
      refine ih ⟨?_, hl.1, hl.2⟩ hgo
      intro x hx
      rcases List.mem_cons.mp hx with rfl | hx
      · exact hP.here
      · exact hP.back x hx

theorem All.replaceState {P : Location → Prop} {h : History} {l : Location} (hP : h.All P)
    (hl : P l) : (h.replaceState l).All P := ⟨hP.back, hl, hP.forward⟩

theorem All.pushState {P : Location → Prop} {h : History} {l : Location} (hP : h.All P)
    (hl : P l) : (h.pushState l).All P := by
  refine ⟨?_, hl, by simp [History.pushState]⟩
  intro x hx
  rcases List.mem_cons.mp hx with rfl | hx
  · exact hP.here
  · exact hP.back x hx

end History

/-! ## §3 Opening a tab, and hearing of a plot -/

namespace Page

variable {uuid : Bytes}

/-- A page that calls `renderPlot` for the plot of its link. -/
def linked (l : Location) (h : History) (uuid : Bytes) : Page :=
  { initial l with history := h, calls := [⟨.location .load, uuid, .fetching⟩] }

theorem load_linked {l : Location} (hl : uuidFromLocation l = some uuid) :
    ∃ h : History, h.back = [] ∧ h.forward = [] ∧ uuidFromLocation h.here = some uuid ∧
      load l = linked l h uuid := by
  unfold load renderForCurrentLocation
  rw [show uuidFromLocation (initial l).history.here = _ from hl]
  show ∃ h : History, _ ∧ _ ∧ _ ∧ ((initial l).normalise uuid).renderPlot (.location .load) uuid = _
  unfold normalise
  -- a legacy URL is rewritten to one that names the same plot
  split_ifs
  · exact ⟨_, rfl, rfl, uuidFromLocation_root (isName_of_location hl), rfl⟩
  · exact ⟨_, rfl, rfl, hl, rfl⟩

/-- The call of `renderPlot` leaves the history as the rewriting of a legacy URL made it. -/
theorem renderForCurrentLocation_history {p : Page} {o : Origin}
    (h : uuidFromLocation p.history.here = some uuid) :
    (p.renderForCurrentLocation o).history = (p.normalise uuid).history := by
  unfold renderForCurrentLocation
  rw [h]
  show ((p.normalise uuid).renderPlot (.location o) uuid).history = _
  unfold renderPlot
  split_ifs
  · cases o <;> rfl
  · rfl

theorem uuidFromLocation_normalise {p : Page} (h : uuidFromLocation p.history.here = some uuid) :
    uuidFromLocation (p.normalise uuid).history.here = some uuid := by
  unfold normalise
  split_ifs
  · exact uuidFromLocation_root (isName_of_location h)
  · exact h

theorem load_unlinked {l : Location} (hl : uuidFromLocation l = none) :
    load l = { initial l with landings := [⟨.load, .requested⟩] } := by
  unfold load renderForCurrentLocation
  rw [show uuidFromLocation (initial l).history.here = _ from hl]
  rfl

theorem land_some (p : Page) (o : Origin) (hname : IsName uuid) :
    p.land o (some uuid) = (p.adopt uuid).renderPlot (.landing o) uuid := by
  rw [land, truthy_of_isName hname]

theorem advance_some (p : Page) (hname : IsName uuid) :
    p.advance (some uuid) =
      if some uuid ≠ p.latestKnown then
        ((p.commit uuid).setPoll .rendering).renderPlot .poll uuid
      else p.setPoll .sleeping := by
  rw [advance, truthy_of_isName hname]

end Page

/-! ## §4 A single reader -/

namespace Page

/-- Only one of the two readers of `/api/latest` is under way. -/
def OneReader (p : Page) : Prop :=
  (∀ a ∈ p.landings, a.pc = .done) ∨ p.poll = .notStarted ∧ ∃ a, p.landings = [a]

theorem OneReader.landings_done {p : Page} (h : p.OneReader) (hpoll : p.poll ≠ .notStarted) :
    ∀ a ∈ p.landings, a.pc = .done := by
  rcases h with hdone | ⟨hfirst, -⟩
  · exact hdone
  · exact absurd hfirst hpoll

theorem inFlight_of_done {p : Page} (h : ∀ a ∈ p.landings, a.pc = .done) :
    (p.setPoll .sleeping).course.inFlight = [] := by
  have hlandings : (p.landings.filterMap fun a => a.pc.answer) = [] := by
    rw [List.filterMap_eq_nil_iff]
    intro a ha
    rw [h a ha]
    rfl
  exact hlandings

theorem OneReader.inTurn {p : Page} (h : p.OneReader) (log : List Bytes) (l : Label) :
    p.InTurn log l := by
  rintro ⟨u, rest⟩ hd w hw
  -- no other answer is in flight when one is delivered
  have hempty : rest = [] := by
    cases l with
    | pollDelivered =>
      obtain ⟨v, hv, hrest⟩ := Option.map_eq_some_iff.mp hd
      obtain rfl := (Prod.mk.inj hrest).2
      rcases h with hdone | ⟨hpoll, -⟩
      · exact inFlight_of_done hdone
      · rw [hpoll] at hv
        cases hv
    | landingDelivered k =>
      obtain ⟨v, hv, hrest⟩ := Option.map_eq_some_iff.mp hd
      obtain rfl := (Prod.mk.inj hrest).2
      obtain ⟨a, ha, hanswer⟩ := Option.bind_eq_some_iff.mp hv
      rcases h with hdone | ⟨hpoll, b, hb⟩
      · rw [hdone a (List.mem_of_getElem? ha)] at hanswer
        cases hanswer
      · -- the landing that ends here was the only one
        have hk : k = 0 := by
          by_contra hk
          rw [hb, List.getElem?_eq_none (by simp; omega)] at ha
          cases ha
        subst hk
        simp [course, setLanding, hb, hpoll, Course.inFlight, PollPc.answer, AskPc.answer]
    | _ => cases hd
  rw [hempty] at hw
  cases hw

end Page

end GgsqlDuckdb
