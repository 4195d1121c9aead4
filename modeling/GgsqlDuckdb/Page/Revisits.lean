import GgsqlDuckdb.Page.Locations

/-!
# Navigations one at a time

A user visits plots one after the other, some of which the server does not have, and each visit
is over before the next begins.  A visit of a missing plot hides `#vis` and leaves `currentUuid`
at the plot before it, so a return to that plot ends at the early exit of `renderPlot`.

## Main results

- `Display`: what the page shows behind a list of visits.
- `location_followed_iff`: the lists of visits behind which it shows the plot of the location.
-/

namespace GgsqlDuckdb

open Library

/-! ## §1 Lists of visits -/

section Lists

variable (known : Bytes → Bool)

/-- The last plot visited that exists. -/
def lastKnown (visited : List Bytes) : Option Bytes := (visited.filter known).getLast?

/-- A missing plot was visited, and since then no existing one but the last in front of it. -/
def Missed (visited : List Bytes) : Prop :=
  ∃ (before : List Bytes) (missing : Bytes) (since : List Bytes),
    visited = before ++ missing :: since ∧ known missing = false ∧
      ∀ uuid ∈ since, known uuid = true → lastKnown known before = some uuid

/-- The last visit returned to the last existing plot in front of a missing one. -/
def CameBack (visited : List Bytes) : Prop :=
  ∃ (before : List Bytes) (missing : Bytes) (since : List Bytes) (uuid : Bytes),
    visited = before ++ missing :: (since ++ [uuid]) ∧ known missing = false ∧
      lastKnown known before = some uuid ∧ ∀ u ∈ since, known u = true → u = uuid

variable {known}

theorem lastKnown_concat (visited : List Bytes) (uuid : Bytes) :
    lastKnown known (visited ++ [uuid]) =
      if known uuid = true then some uuid else lastKnown known visited := by
  unfold lastKnown
  rw [List.filter_append]
  split_ifs with h
  · simp [h]
  · simp [h]

theorem known_of_lastKnown {visited : List Bytes} {uuid : Bytes}
    (h : lastKnown known visited = some uuid) : known uuid = true := by
  have hmem : uuid ∈ visited.filter known := List.mem_of_getLast? h
  exact (List.mem_filter.mp hmem).2

/-- The visits since the missing plot leave the last existing one in place. -/
theorem lastKnown_since {before since : List Bytes} {missing : Bytes}
    (hmissing : known missing = false)
    (hsince : ∀ uuid ∈ since, known uuid = true → lastKnown known before = some uuid) :
    lastKnown known (before ++ missing :: since) = lastKnown known before := by
  induction since using List.reverseRecOn with
  | nil => rw [lastKnown_concat, if_neg (by simp [hmissing])]
  | append_singleton since uuid ih =>
    have hrest := ih fun u hu => hsince u (List.mem_append_left _ hu)
    rw [← List.cons_append, ← List.append_assoc, lastKnown_concat]
    split_ifs with hknown
    · exact (hsince uuid (by simp) hknown).symm
    · exact hrest

theorem Missed.nil : ¬ Missed known [] := by
  rintro ⟨before, missing, since, h, -⟩
  cases before <;> cases h

theorem missed_of_missing {visited : List Bytes} {uuid : Bytes} (h : known uuid = false) :
    Missed known (visited ++ [uuid]) := ⟨visited, uuid, [], rfl, h, by simp⟩

/-- A split of a longer list around a missing plot, seen from its last visit. -/
theorem missed_concat {visited : List Bytes} {uuid : Bytes} (huuid : known uuid = true) :
    Missed known (visited ++ [uuid]) ↔
      Missed known visited ∧ lastKnown known visited = some uuid := by
  constructor
  · rintro ⟨before, missing, since, hsplit, hmissing, hsince⟩
    induction since using List.reverseRecOn with
    | nil =>
      -- the last visit is not the missing one
      obtain ⟨-, rfl⟩ := List.append_inj' hsplit rfl |>.imp_right List.singleton_inj.mp
      rw [huuid] at hmissing
      cases hmissing
    | append_singleton since u =>
      rw [← List.cons_append, ← List.append_assoc] at hsplit
      obtain ⟨rfl, hlast⟩ := List.append_inj' hsplit rfl
      obtain rfl := List.singleton_inj.mp hlast
      have hbefore : ∀ w ∈ since, known w = true → lastKnown known before = some w :=
        fun w hw => hsince w (List.mem_append_left _ hw)
      refine ⟨⟨before, missing, since, rfl, hmissing, hbefore⟩, ?_⟩
      rw [lastKnown_since hmissing hbefore]
      exact hsince uuid (by simp) huuid
  · rintro ⟨⟨before, missing, since, rfl, hmissing, hsince⟩, hlast⟩
    rw [lastKnown_since hmissing hsince] at hlast
    refine ⟨before, missing, since ++ [uuid], by simp, hmissing, ?_⟩
    intro w hw hknown
    rcases List.mem_append.mp hw with hw | hw
    · exact hsince w hw hknown
    · rw [List.mem_singleton.mp hw]
      exact hlast

theorem cameBack_concat {visited : List Bytes} {uuid : Bytes} (huuid : known uuid = true) :
    CameBack known (visited ++ [uuid]) ↔ Missed known (visited ++ [uuid]) := by
  constructor
  · rintro ⟨before, missing, since, u, hsplit, hmissing, hlast, hsince⟩
    refine ⟨before, missing, since ++ [u], hsplit, hmissing, ?_⟩
    intro w hw hknown
    rcases List.mem_append.mp hw with hw | hw
    · rw [hsince w hw hknown]
      exact hlast
    · rw [List.mem_singleton.mp hw]
      exact hlast
  · intro h
    obtain ⟨⟨before, missing, since, rfl, hmissing, hsince⟩, hlast⟩ := (missed_concat huuid).mp h
    rw [lastKnown_since hmissing hsince] at hlast
    refine ⟨before, missing, since, uuid, by simp, hmissing, hlast, ?_⟩
    intro u hu hknown
    exact Option.some.inj ((hsince u hu hknown).symm.trans hlast)

theorem not_cameBack_of_missing {visited : List Bytes} {uuid : Bytes} (h : known uuid = false) :
    ¬ CameBack known (visited ++ [uuid]) := by
  rintro ⟨before, missing, since, u, hsplit, -, hlast, -⟩
  rw [← List.cons_append, ← List.append_assoc] at hsplit
  obtain rfl := List.singleton_inj.mp (List.append_inj' hsplit rfl).2
  rw [known_of_lastKnown hlast] at h
  cases h

end Lists

/-! ## §2 Visits one at a time -/

/-- A page, and the plots visited so far. -/
structure Visits where
  page : Page
  visited : List Bytes
  deriving DecidableEq, Repr

namespace Page

/-- No request fails, the viewer draws what it is given, and the poll loop leaves the tab where
it is. -/
def Undisturbed (p p' : Page) : Label → Prop
  | .fetchStatus _ _ | .fetchThrows _ _ | .bodyThrows _ _ => False
  | .loadFails | .renderThrows _ _ | .drawThrows _ _ => False
  | .landingAnswered _ | .landingDelivered _ | .landingFails _ _ => False
  | .pollDelivered => p'.history = p.history ∧ p'.calls = p.calls
  | _ => True

instance (p p' : Page) (l : Label) : Decidable (p.Undisturbed p' l) := by
  unfold Undisturbed
  split <;> infer_instance

/-- The plot exists on the server. -/
def known (st : Server.State) (uuid : Bytes) : Bool := (st.plots uuid).isSome

/-- The page shows what its location names: the plot if it exists, or else that it is missing. -/
def Follows (st : Server.State) (p : Page) : Prop :=
  ∀ uuid, uuidFromLocation p.history.here = some uuid →
    if known st uuid = true then p.showing = some uuid
    else p.visHidden = true ∧ p.emptyHidden = false ∧ p.emptyText = "Plot not found."

/-- Where a row of visits begins: a tab that opens a link, or a page at rest that shows the plot
of its location if it shows any. -/
inductive Starts (st : Server.State) : Visits → Prop
  | opened (l : Location) (uuid : Bytes) (hl : uuidFromLocation l = some uuid) :
      Starts st ⟨load l, [uuid]⟩
  | atRest (p : Page) (hquiet : p.Quiet)
      (hshown : ∀ uuid, p.currentUuid = some uuid → uuidFromLocation p.history.here = some uuid ∧
        known st uuid = true ∧ p.showing = some uuid) :
      Starts st ⟨p, p.currentUuid.toList⟩

end Page

/-- A navigation goes to a location that names a plot, and waits for the visit before it. -/
def Visits.step (st : Server.State) (s : Visits) (l : Page.Label) : Option Visits :=
  (s.page.step st l).bind fun p =>
    match s.page.destination l with
    | some h =>
      if s.page.Quiet then
        (uuidFromLocation h.here).map fun uuid => { page := p, visited := s.visited ++ [uuid] }
      else none
    | none => if s.page.Undisturbed p l then some { s with page := p } else none

def visits (st : Server.State) : Machine Visits Page.Label where
  init := Page.Starts st
  step := Visits.step st

/-! ## §3 What the page shows -/

/-- What a reader of the page sees, and the plot it believes to show. -/
structure Face where
  currentUuid : Option Bytes
  showing : Option Bytes
  visHidden : Bool
  emptyHidden : Bool
  emptyText : String

namespace Page

variable {st : Server.State}

def face (p : Page) : Face where
  currentUuid := p.currentUuid
  showing := p.showing
  visHidden := p.visHidden
  emptyHidden := p.emptyHidden
  emptyText := p.emptyText

theorem face_resumeCaller (p : Page) (caller : Caller) : (p.resumeCaller caller).face = p.face := by
  cases caller with
  | location o => cases o <;> rfl
  | landing o => cases o <;> rfl
  | poll => rfl

theorem face_normalise (p : Page) (uuid : Bytes) : (p.normalise uuid).face = p.face := by
  unfold normalise
  split_ifs <;> rfl

theorem face_renderPlot (p : Page) (caller : Caller) (uuid : Bytes) :
    (p.renderPlot caller uuid).face = p.face := by
  unfold renderPlot
  split_ifs
  · exact p.face_resumeCaller caller
  · rfl

theorem face_advance (p : Page) (latest : Option Bytes) : (p.advance latest).face = p.face := by
  unfold advance
  split
  · split_ifs
    · rw [face_renderPlot]
      unfold commit
      split_ifs <;> rfl
    · rfl
  · rfl

/-- What a page shows behind the visits `visited`. -/
structure Display (st : Server.State) (visited : List Bytes) (f : Face) : Prop where
  current : f.currentUuid = lastKnown (known st) visited
  lost : Missed (known st) visited →
    f.visHidden = true ∧ f.emptyHidden = false ∧ f.emptyText = "Plot not found."
  kept : ¬ Missed (known st) visited → ∀ uuid, f.currentUuid = some uuid → f.showing = some uuid

/-- A page on its way to `uuid`, behind the visits `before`. -/
def Visiting (st : Server.State) (before : List Bytes) (uuid : Bytes) (f : Face) : RenderPc → Prop
  | .fetching => Display st before f ∧ f.currentUuid ≠ some uuid
  | .reading _ => Display st before f ∧ f.currentUuid ≠ some uuid ∧ known st uuid = true
  | .rendering _ =>
    lastKnown (known st) before ≠ some uuid ∧ known st uuid = true ∧ f.visHidden = false
  | .painted _ =>
    lastKnown (known st) before ≠ some uuid ∧ known st uuid = true ∧ f.showing = some uuid
  | .finished => False
  | .failed _ => False

/-- A return to the plot last shown leaves everything as it is. -/
theorem Display.back {visited : List Bytes} {f : Face} {uuid : Bytes} (hd : Display st visited f)
    (hcurrent : f.currentUuid = some uuid) : Display st (visited ++ [uuid]) f := by
  have hlast : lastKnown (known st) visited = some uuid := hd.current ▸ hcurrent
  have hknown : known st uuid = true := known_of_lastKnown hlast
  have hmissed := @missed_concat _ visited _ hknown
  refine ⟨?_, ?_, ?_⟩
  · rw [lastKnown_concat, if_pos hknown, hcurrent]
  · intro h
    exact hd.lost (hmissed.mp h).1
  · intro h
    apply hd.kept
    intro hbefore
    exact h (hmissed.mpr ⟨hbefore, hlast⟩)

/-- A missing plot hides `#vis` and leaves the plot last shown where it was. -/
theorem Display.miss {visited : List Bytes} {f f' : Face} {uuid : Bytes} (hd : Display st visited f)
    (hknown : known st uuid = false) (hcurrent : f'.currentUuid = f.currentUuid)
    (hface : f'.visHidden = true ∧ f'.emptyHidden = false ∧ f'.emptyText = "Plot not found.") :
    Display st (visited ++ [uuid]) f' := by
  refine ⟨?_, fun _ => hface, ?_⟩
  · rw [lastKnown_concat, if_neg (by simp [hknown]), hcurrent, hd.current]
  · intro h
    exact absurd (missed_of_missing hknown) h

/-- An existing plot that is not the one last shown is drawn. -/
theorem display_of_drawn {before : List Bytes} {f : Face} {uuid : Bytes}
    (hlast : lastKnown (known st) before ≠ some uuid) (hknown : known st uuid = true)
    (hcurrent : f.currentUuid = some uuid) (hshowing : f.showing = some uuid) :
    Display st (before ++ [uuid]) f := by
  refine ⟨?_, ?_, ?_⟩
  · rw [lastKnown_concat, if_pos hknown, hcurrent]
  · intro h
    exact absurd ((missed_concat hknown).mp h).2 hlast
  · intro _ u hu
    rw [hshowing, ← hcurrent, hu]

/-- The server answers the request for a plot by whether it has it. -/
theorem plotResponse_known {uuid : Bytes} (hname : IsName uuid) :
    ok (plotResponse st uuid).status = known st uuid ∧
      (known st uuid = false → (plotResponse st uuid).status = 404) := by
  rw [plotResponse_name hname]
  unfold known
  cases hplot : st.plots uuid with
  | none =>
    have hresp : st.respond (.plot uuid) = Server.notFound := by
      simp only [Server.State.respond, hplot]
    rw [hresp]
    exact ⟨by decide, fun _ => rfl⟩
  | some hep =>
    have hresp : st.respond (.plot uuid) = Server.binaryResponse hep := by
      simp only [Server.State.respond, hplot]
    rw [hresp]
    exact ⟨rfl, fun h => by cases h⟩

end Page

/-! ## §4 The visits of a run -/

/-- The place of a page between and within its visits. -/
inductive Visits.Phase (st : Server.State) (s : Visits) : Prop
  | rest (hquiet : s.page.Quiet) (hdisplay : Page.Display st s.visited s.page.face)
  | visiting (before : List Bytes) (uuid : Bytes) (k : ℕ) (caller : Caller) (pc : RenderPc)
      (hvisited : s.visited = before ++ [uuid])
      (hk : s.page.calls[k]? = some ⟨caller, uuid, pc⟩)
      (hothers : ∀ j c, s.page.calls[j]? = some c → j ≠ k → c.pc.isDone = true)
      (hface : Page.Visiting st before uuid s.page.face pc)

/-- The invariant of a row of visits. -/
structure Visits.Placed (st : Server.State) (s : Visits) : Prop where
  phase : s.Phase st
  located : ∀ uuid, s.visited.getLast? = some uuid →
    uuidFromLocation s.page.history.here = some uuid

namespace Visits

variable {st : Server.State} {s s' : Visits}

/-- The page comes to rest where the caller of a call that has ended goes on. -/
theorem phase_of_resume {q : Page} (caller : Caller) {visited : List Bytes} (hquiet : q.Quiet)
    (hdisplay : Page.Display st visited q.face) : Phase st ⟨q.resumeCaller caller, visited⟩ := by
  apply Phase.rest
  · show ∀ c ∈ (q.resumeCaller caller).calls, _
    rw [Page.calls_resumeCaller]
    exact hquiet
  · show Page.Display st visited (q.resumeCaller caller).face
    rw [Page.face_resumeCaller]
    exact hdisplay

theorem quiet_of_others {p : Page} {k : ℕ} {pc : RenderPc} (hpc : pc.isDone = true)
    (hothers : ∀ j c, p.calls[j]? = some c → j ≠ k → c.pc.isDone = true) :
    (p.setCall k pc).Quiet := by
  intro c hc
  obtain ⟨j, hj⟩ := List.mem_iff_getElem?.mp hc
  rcases Canvas.call_of_setCall (c := p.canvas) hj with ⟨-, hdone⟩ | ⟨hne, hbefore⟩
  · rw [hdone]
    exact hpc
  · exact hothers j c hbefore (Ne.symm hne)

theorem others_of_setCall {p : Page} {k : ℕ} {pc : RenderPc}
    (hothers : ∀ j c, p.calls[j]? = some c → j ≠ k → c.pc.isDone = true) :
    ∀ j c, (p.setCall k pc).calls[j]? = some c → j ≠ k → c.pc.isDone = true := by
  intro j c hj hne
  rcases Canvas.call_of_setCall (c := p.canvas) hj with ⟨rfl, -⟩ | ⟨-, hbefore⟩
  · exact absurd rfl hne
  · exact hothers j c hbefore hne

/-- Steps that leave the calls and the face of the page alone keep its place. -/
theorem Phase.of_face {p : Page} (h : Phase st s) (hcalls : p.calls = s.page.calls)
    (hface : p.face = s.page.face) : Phase st { s with page := p } := by
  cases h with
  | rest hquiet hdisplay =>
    refine .rest ?_ ?_
    · show ∀ c ∈ p.calls, _
      rw [hcalls]
      exact hquiet
    · show Page.Display st s.visited p.face
      rw [hface]
      exact hdisplay
  | visiting before uuid k caller pc hvisited hk hothers hv =>
    refine .visiting before uuid k caller pc hvisited ?_ ?_ ?_
    · show p.calls[k]? = _
      rw [hcalls]
      exact hk
    · show ∀ j c, p.calls[j]? = some c → _
      rw [hcalls]
      exact hothers
    · show Page.Visiting st before uuid p.face pc
      rw [hface]
      exact hv

theorem not_done_of_visiting {before : List Bytes} {uuid : Bytes} {f : Face} {pc : RenderPc}
    (h : Page.Visiting st before uuid f pc) : pc.isDone = false := by
  cases pc with
  | finished => cases h
  | failed wiped => cases h
  | _ => rfl

/-- A page without a call under way is at rest. -/
theorem Phase.display (h : Phase st s) (hquiet : s.page.Quiet) :
    Page.Display st s.visited s.page.face := by
  cases h with
  | rest _ hdisplay => exact hdisplay
  | visiting before uuid k caller pc _ hk _ hface =>
    have hdone := hquiet _ (List.mem_of_getElem? hk)
    rw [show pc.isDone = false from not_done_of_visiting hface] at hdone
    cases hdone

/-- A visit starts: it ends at once at the plot last shown, and asks for any other one. -/
theorem phase_of_enter {p : Page} {visited : List Bytes} {uuid : Bytes} (o : Origin)
    (hquiet : p.Quiet) (hd : Page.Display st visited p.face)
    (hloc : uuidFromLocation p.history.here = some uuid) :
    Phase st ⟨p.renderForCurrentLocation o, visited ++ [uuid]⟩ := by
  have hface := p.face_normalise uuid
  have hcanvas := p.canvas_normalise uuid
  have hcalls : (p.normalise uuid).calls = p.calls := congrArg Canvas.calls hcanvas
  have hcurrent : (p.normalise uuid).currentUuid = p.currentUuid :=
    congrArg Canvas.currentUuid hcanvas
  have hrender : p.renderForCurrentLocation o =
      (p.normalise uuid).renderPlot (.location o) uuid := by
    unfold Page.renderForCurrentLocation
    rw [hloc]
  rw [hrender]
  unfold Page.renderPlot
  split_ifs with hsame <;> rw [hcurrent] at hsame
  · apply phase_of_resume
    · intro c hc
      exact hquiet c (hcalls ▸ hc)
    · rw [hface]
      exact hd.back hsame.symm
  · -- the new call is the last one
    refine .visiting visited uuid p.calls.length (.location o) .fetching rfl ?_ ?_ ?_
    · simp [hcalls]
    · intro j c hj hne
      simp only [hcalls] at hj
      rcases Canvas.call_of_start (c := p.canvas) hj with hbefore | ⟨hlast, -⟩
      · exact hquiet c (List.mem_of_getElem? hbefore)
      · exact absurd hlast hne
    · refine ⟨?_, ?_⟩
      · show Page.Display st visited (p.normalise uuid).face
        rw [hface]
        exact hd
      · show (p.normalise uuid).currentUuid ≠ some uuid
        rw [hcurrent]
        exact fun h => hsame h.symm

/-- A stage of the call of a visit. -/
theorem phase_of_stage {p p' : Page} {l : Page.Label} {before : List Bytes} {uuid : Bytes} {k : ℕ}
    {caller : Caller} {pc : RenderPc} (hname : IsName uuid)
    (hk : p.calls[k]? = some ⟨caller, uuid, pc⟩)
    (hothers : ∀ j c, p.calls[j]? = some c → j ≠ k → c.pc.isDone = true)
    (hv : Page.Visiting st before uuid p.face pc) (hl : p.Undisturbed p' l)
    (h : p.step st l = some p') (hstage : Page.Stage st l p p' k caller uuid pc) :
    Phase st ⟨p', before ++ [uuid]⟩ := by
  obtain ⟨hanswer, hmissing⟩ := @Page.plotResponse_known st _ hname
  cases hstage with
  | respond hlabel hpc hok hp' =>
    subst hpc hp'
    refine .visiting before uuid k caller _ rfl (Page.call_setCall hk _)
      (others_of_setCall hothers) ?_
    exact ⟨hv.1, hv.2, hanswer ▸ hok⟩
  | refuse code hlabel hpc hp' =>
    subst hpc
    rcases hlabel with ⟨rfl, hok⟩ | rfl
    · -- the server does not have the plot
      have hunknown : Page.known st uuid = false := hanswer ▸ hok
      have hrefused : p' = p.refuse k caller 404 := by
        have hperform := (Page.perform_of_step h).2
        simp only [Page.perform, hk, hmissing hunknown] at hperform
        exact (Option.some.inj hperform).symm
      subst hrefused
      apply phase_of_resume
      · exact quiet_of_others rfl hothers
      · exact hv.1.miss hunknown rfl ⟨rfl, rfl, rfl⟩
    · cases hl
  | throws e hlabel hpc hp' =>
    rcases hlabel with rfl | rfl <;> cases hl
  | enter body hlabel hpc hp' =>
    subst hpc hp'
    refine .visiting before uuid k caller _ rfl (Page.call_setCall hk _)
      (others_of_setCall hothers) ?_
    exact ⟨fun hlast => hv.2.1 (hv.1.current.trans hlast), hv.2.2, rfl⟩
  | paint body hlabel hpc hp' =>
    subst hpc hp'
    refine .visiting before uuid k caller _ rfl (Page.call_setCall hk _)
      (others_of_setCall hothers) ?_
    refine ⟨hv.1, hv.2.1, ?_⟩
    -- `#vis` is visible since the bytes were read
    show (if p.visHidden = true then none else some uuid) = some uuid
    rw [if_neg (by simp [show p.visHidden = false from hv.2.2])]
  | crash body e hlabel hpc hp' =>
    rw [hlabel] at hl
    cases hl
  | abandon body e hlabel hpc hp' =>
    rw [hlabel] at hl
    cases hl
  | settle view hlabel hpc hp' =>
    subst hpc hp'
    apply phase_of_resume
    · exact quiet_of_others rfl hothers
    · exact Page.display_of_drawn hv.1 hv.2.1 rfl hv.2.2

/-- A navigation makes the page run `renderForCurrentLocation` at its destination. -/
theorem step_of_destination {p p' : Page} {l : Page.Label} {h : History}
    (hd : p.destination l = some h) (hstep : p.step st l = some p') :
    p' = { p with history := h }.renderForCurrentLocation .popstate := by
  cases Page.move_step hstep with
  | visit h' hd' hp' =>
    obtain rfl : h' = h := Option.some.inj (hd'.symm.trans hd)
    exact hp'
  | call k caller uuid pc hk hstage =>
    cases hstage with
    | refuse code hl => rcases hl with ⟨rfl, -⟩ | rfl <;> cases hd
    | throws e hl => rcases hl with rfl | rfl <;> cases hd
    | respond hl => rw [hl] at hd; cases hd
    | enter body hl => rw [hl] at hd; cases hd
    | paint body hl => rw [hl] at hd; cases hd
    | crash body e hl => rw [hl] at hd; cases hd
    | abandon body e hl => rw [hl] at hd; cases hd
    | settle view hl => rw [hl] at hd; cases hd
  | rest poll hl => rcases hl with ⟨rfl, -⟩ | ⟨rfl, -⟩ <;> cases hd
  | load promise hl => rcases hl with rfl | rfl <;> cases hd
  | askLanding k o hl => rw [hl] at hd; cases hd
  | land k o latest hl => rw [hl] at hd; cases hd
  | abandon k o pc e hl => rw [hl] at hd; cases hd
  | ask hl => rw [hl] at hd; cases hd
  | hear latest hl => rw [hl] at hd; cases hd

/-- **One step of a row of visits keeps the page in its place.** -/
theorem Placed.step {l : Page.Label} (hs : s.Placed st) (h : s.step st l = some s') :
    s'.Placed st := by
  obtain ⟨p, hp, h⟩ := Option.bind_eq_some_iff.mp h
  cases hd : s.page.destination l with
  | some hist =>
    rw [hd] at h
    obtain ⟨hquiet, h⟩ := Option.ite_none_right_eq_some.mp h
    obtain ⟨uuid, hloc, rfl⟩ := Option.map_eq_some_iff.mp h
    have hdisplay := hs.phase.display hquiet
    rw [step_of_destination hd hp]
    refine ⟨phase_of_enter (p := { s.page with history := hist }) .popstate hquiet hdisplay
      hloc, ?_⟩
    intro u hu
    obtain rfl : uuid = u := by simpa using hu
    show uuidFromLocation (Page.renderForCurrentLocation _ _).history.here = some uuid
    rw [Page.renderForCurrentLocation_history hloc]
    exact Page.uuidFromLocation_normalise hloc
  | none =>
    rw [hd] at h
    obtain ⟨hl, h⟩ := Option.ite_none_right_eq_some.mp h
    obtain rfl := Option.some.inj h
    -- whatever else happens, the location stays, and so do the calls or the face
    have hstay : p.history = s.page.history → ({ s with page := p } : Visits).Phase st →
        ({ s with page := p } : Visits).Placed st := by
      intro hhistory hphase
      refine ⟨hphase, ?_⟩
      intro u hu
      show uuidFromLocation p.history.here = some u
      rw [hhistory]
      exact hs.located u hu
    cases Page.move_step hp with
    | call k caller uuid pc hk hstage =>
      obtain ⟨hdone, _, -, hcourse⟩ := hstage.spec
      apply hstay
      · exact congrArg Course.history hcourse
      · cases hs.phase with
        | rest hquiet _ =>
          rw [show pc.isDone = true from hquiet _ (List.mem_of_getElem? hk)] at hdone
          cases hdone
        | visiting before u j caller' pc' hvisited hj hothers hface =>
          -- only the call of the visit is under way
          obtain rfl : k = j := by
            by_contra hne
            rw [show pc.isDone = true from hothers k _ hk hne] at hdone
            cases hdone
          obtain ⟨rfl, rfl, rfl⟩ : caller' = caller ∧ u = uuid ∧ pc' = pc := by
            simpa using hj.symm.trans hk
          have hname : IsName u := isName_of_location (hs.located u (by simp [hvisited]))
          have hphase := phase_of_stage hname hk hothers hface hl hp hstage
          rw [← hvisited] at hphase
          exact hphase
    | rest poll _ _ _ hp' =>
      subst hp'
      exact hstay rfl (hs.phase.of_face rfl rfl)
    | load promise _ hp' =>
      subst hp'
      exact hstay rfl (hs.phase.of_face rfl rfl)
    | visit hist hdest => rw [hd] at hdest; cases hdest
    | askLanding k o hlabel => rw [hlabel] at hl; cases hl
    | land k o latest hlabel => rw [hlabel] at hl; cases hl
    | abandon k o pc e hlabel => rw [hlabel] at hl; cases hl
    | ask _ _ hp' =>
      subst hp'
      exact hstay rfl (hs.phase.of_face rfl rfl)
    | hear latest hlabel hpoll hp' =>
      subst hlabel hp'
      exact hstay hl.1 (hs.phase.of_face hl.2 (s.page.face_advance latest))

theorem placed_of_starts (h : Page.Starts st s) : s.Placed st := by
  cases h with
  | opened l uuid hl =>
    have hquiet : (Page.initial l).Quiet := by
      intro c hc
      cases hc
    have hdisplay : Page.Display st [] (Page.initial l).face := by
      refine ⟨rfl, fun h => absurd h Missed.nil, ?_⟩
      intro _ u hu
      cases hu
    refine ⟨phase_of_enter .load hquiet hdisplay hl, ?_⟩
    intro u hu
    obtain rfl : uuid = u := by simpa using hu
    obtain ⟨h, -, -, hhere, hload⟩ := Page.load_linked hl
    show uuidFromLocation (Page.load l).history.here = some uuid
    rw [hload]
    exact hhere
  | atRest p hquiet hshown =>
    cases hcurrent : p.currentUuid with
    | none =>
      refine ⟨.rest hquiet ⟨hcurrent, fun h => absurd h Missed.nil, ?_⟩, by simp⟩
      intro _ u hu
      cases hcurrent.symm.trans hu
    | some uuid =>
      obtain ⟨hloc, hknown, hshowing⟩ := hshown uuid hcurrent
      have hlast : lastKnown (Page.known st) [] ≠ some uuid := by
        intro h
        cases h
      have hdisplay : Page.Display st ([] ++ [uuid]) p.face :=
        Page.display_of_drawn hlast hknown hcurrent hshowing
      refine ⟨.rest hquiet hdisplay, ?_⟩
      intro u hu
      obtain rfl : uuid = u := by simpa [hcurrent] using hu
      exact hloc

end Visits

/-- **What the page shows behind a row of visits.**  It shows what its location names unless the
last visit returned to the last existing plot in front of a missing one. -/
theorem location_followed_iff {st : Server.State} {s₀ s : Visits} {tr : List Page.Label}
    (h₀ : (visits st).init s₀) (hr : (visits st).run s₀ tr = some s) (hquiet : s.page.Quiet)
    (hvisited : s.visited ≠ []) :
    s.page.Follows st ↔ ¬ CameBack (Page.known st) s.visited := by
  have hplaced : s.Placed st :=
    Machine.run_invariant (M := visits st) (Visits.Placed st) (fun _ _ _ hs h => hs.step h)
      (Visits.placed_of_starts h₀) hr
  have hdisplay := hplaced.phase.display hquiet
  obtain ⟨before, uuid, hsplit⟩ : ∃ before uuid, s.visited = before ++ [uuid] :=
    ⟨_, _, (List.dropLast_append_getLast hvisited).symm⟩
  have hloc := hplaced.located uuid (by simp [hsplit])
  have hfollows : s.page.Follows st ↔ if Page.known st uuid = true then
      s.page.showing = some uuid else
      s.page.visHidden = true ∧ s.page.emptyHidden = false ∧
        s.page.emptyText = "Plot not found." := by
    constructor
    · intro h
      exact h uuid hloc
    · intro h u hu
      obtain rfl : uuid = u := Option.some.inj (hloc.symm.trans hu)
      exact h
  rw [hfollows, hsplit]
  rw [hsplit] at hdisplay
  split_ifs with hknown
  · -- an existing plot is shown unless a missing one is remembered
    have hcurrent : s.page.currentUuid = some uuid := by
      have hlast := hdisplay.current
      rwa [lastKnown_concat, if_pos hknown] at hlast
    rw [cameBack_concat hknown]
    constructor
    · intro hshowing hmissed
      have hhidden : s.page.visHidden = true := (hdisplay.lost hmissed).1
      rw [Page.showing, if_pos hhidden] at hshowing
      cases hshowing
    · intro hmissed
      exact hdisplay.kept hmissed uuid hcurrent
  · have hunknown : Page.known st uuid = false := by simpa using hknown
    constructor
    · intro _
      exact not_cameBack_of_missing hunknown
    · intro _
      exact hdisplay.lost (missed_of_missing hunknown)

/-- A tab that opens a plot, goes on to a missing one, and goes back. -/
def missingAndBack : List Page.Label :=
  [.fetchAnswered 0, .bodyRead 0, .loaded, .paint 0, .resume 0, .fragment (ascii "#plot/ff"),
    .fetchAnswered 1, .goBack 0]

/-- The server of `missingAndBack` has a single plot. -/
def onePlot : Server.State := Server.State.empty.insertPlot Server.somePlot.text [7]

/-- Behind the return the page still says that the plot is missing. -/
theorem location_not_followed : ∃ s₀ s, (visits onePlot).init s₀ ∧
    (visits onePlot).run s₀ missingAndBack = some s ∧ s.page.Quiet ∧ s.visited ≠ [] ∧
    ¬ s.page.Follows onePlot := by
  obtain ⟨s, hr, hquiet, hvisited, hloc, hshowing⟩ := Machine.run_decided (fun s : Visits =>
      s.page.Quiet ∧ s.visited ≠ [] ∧
        uuidFromLocation s.page.history.here = some Server.somePlot.text ∧ s.page.showing = none)
    (show ((visits onePlot).run ⟨Page.load (.root Server.somePlot.text), [Server.somePlot.text]⟩
      missingAndBack).any _ = true by decide +kernel)
  refine ⟨_, s, .opened (.root Server.somePlot.text) Server.somePlot.text
    (uuidFromLocation_root (isName_of_plotId _)), hr, hquiet, hvisited, ?_⟩
  intro h
  have hshown := h _ hloc
  rw [if_pos (by decide), hshowing] at hshown
  cases hshown

/-- Without the way back, the page says so rightly. -/
theorem location_followed_missing : ∃ s₀ s, (visits onePlot).init s₀ ∧
    (visits onePlot).run s₀ missingAndBack.dropLast = some s ∧
    (s.page.Follows onePlot ↔ ¬ CameBack (Page.known onePlot) s.visited) := by
  obtain ⟨s, hr, hquiet, hvisited⟩ := Machine.run_decided (fun s : Visits =>
      s.page.Quiet ∧ s.visited ≠ [])
    (show ((visits onePlot).run ⟨Page.load (.root Server.somePlot.text), [Server.somePlot.text]⟩
      missingAndBack.dropLast).any _ = true by decide +kernel)
  have h₀ : (visits onePlot).init
      ⟨Page.load (.root Server.somePlot.text), [Server.somePlot.text]⟩ :=
    .opened (.root Server.somePlot.text) Server.somePlot.text
      (uuidFromLocation_root (isName_of_plotId _))
  exact ⟨_, s, h₀, hr, location_followed_iff h₀ hr hquiet hvisited⟩

end GgsqlDuckdb
