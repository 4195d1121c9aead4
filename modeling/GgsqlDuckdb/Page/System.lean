import GgsqlDuckdb.Page.Model
import GgsqlDuckdb.Server.Consistency

/-!
# A tab and its server

The page runs against the registry of `Server/Registry.lean`: registrations and requests of
other clients come between any two of its steps, and a request of the page is answered from
the state the registry has at that moment.  (The heartbeat such a request leaves behind does
not change any answer and is not repeated here.)

What a step does is said once, in `Page.Move` and `Page.Stage`, and what that means for the
drawing side of the page in `Canvas.Effect`; the invariants of the page are derived from these.
-/

namespace GgsqlDuckdb

open Library

/-! ## §1 The drawing side -/

/-- What the calls of `renderPlot` read and write. -/
structure Canvas where
  currentUuid : Option Bytes
  view : Option ℕ
  shown : Option Bytes
  visHidden : Bool
  created : ℕ
  freed : List ℕ
  calls : List RenderCall

namespace Canvas

/-- The canvas in front of the first `renderForCurrentLocation`. -/
def blank : Canvas where
  currentUuid := none
  view := none
  shown := none
  visHidden := true
  created := 0
  freed := []
  calls := []

def setCall (c : Canvas) (k : ℕ) (pc : RenderPc) : Canvas :=
  { c with calls := c.calls.modify k fun call => { call with pc := pc } }

/-- What a step with the label `l` does to the canvas. -/
inductive Effect (st : Server.State) (l : Page.Label) (c c' : Canvas) : Prop
  | still (h : c' = c)
  | idle (k : ℕ) (hl : l = .landingDelivered k) (h : c' = { c with visHidden := true })
  | start (caller : Caller) (uuid : Bytes) (hne : some uuid ≠ c.currentUuid)
      (h : c' = { c with calls := c.calls ++ [⟨caller, uuid, .fetching⟩] })
  | respond (k : ℕ) (caller : Caller) (uuid : Bytes) (body : Server.Body)
      (hl : l = .fetchAnswered k) (hk : c.calls[k]? = some ⟨caller, uuid, .fetching⟩)
      (hok : Page.ok (Page.plotResponse st uuid).status = true)
      (h : c' = c.setCall k (.reading body))
  | refuse (k : ℕ) (caller : Caller) (uuid : Bytes)
      (hl : l = .fetchAnswered k ∧ Page.ok (Page.plotResponse st uuid).status = false ∨
        ∃ code, l = .fetchStatus k code)
      (hk : c.calls[k]? = some ⟨caller, uuid, .fetching⟩)
      (h : c' = { c.setCall k (.failed true) with visHidden := true })
  | throws (k : ℕ) (caller : Caller) (uuid : Bytes) (pc : RenderPc)
      (hl : (∃ e, l = .fetchThrows k e) ∨ ∃ e, l = .bodyThrows k e)
      (hk : c.calls[k]? = some ⟨caller, uuid, pc⟩)
      (hpc : pc = .fetching ∨ ∃ body, pc = .reading body)
      (h : c' = c.setCall k (.failed false))
  | enter (k : ℕ) (caller : Caller) (uuid : Bytes) (body : Server.Body) (hl : l = .bodyRead k)
      (hk : c.calls[k]? = some ⟨caller, uuid, .reading body⟩)
      (h : c' = { c.setCall k (.rendering body) with
        visHidden := false, freed := c.freed ++ c.view.toList, view := none, shown := none })
  | paint (k : ℕ) (caller : Caller) (uuid : Bytes) (body : Server.Body) (hl : l = .paint k)
      (hk : c.calls[k]? = some ⟨caller, uuid, .rendering body⟩)
      (h : c' = { c.setCall k (.painted c.created) with
        created := c.created + 1, shown := some uuid })
  | crash (k : ℕ) (caller : Caller) (uuid : Bytes) (body : Server.Body)
      (hl : ∃ e, l = .renderThrows k e)
      (hk : c.calls[k]? = some ⟨caller, uuid, .rendering body⟩)
      (h : c' = c.setCall k (.failed true))
  | abandon (k : ℕ) (caller : Caller) (uuid : Bytes) (body : Server.Body)
      (hl : ∃ e, l = .drawThrows k e)
      (hk : c.calls[k]? = some ⟨caller, uuid, .rendering body⟩)
      (h : c' = { c.setCall k (.failed true) with created := c.created + 1 })
  | settle (k : ℕ) (caller : Caller) (uuid : Bytes) (view : ℕ) (hl : l = .resume k)
      (hk : c.calls[k]? = some ⟨caller, uuid, .painted view⟩)
      (h : c' = { c.setCall k .finished with view := some view, currentUuid := some uuid })

theorem getElem?_setCall (c : Canvas) (j k : ℕ) (pc : RenderPc) :
    (c.setCall k pc).calls[j]? =
      c.calls[j]?.map fun call => if k = j then { call with pc := pc } else call := by
  simp [setCall, List.getElem?_modify]

variable {c : Canvas}

/-- A call behind a step is new, untouched, or the one the step is about. -/
theorem call_of_setCall {k j : ℕ} {pc : RenderPc} {call : RenderCall}
    (h : (c.setCall k pc).calls[j]? = some call) :
    (k = j ∧ call.pc = pc) ∨ (k ≠ j ∧ c.calls[j]? = some call) := by
  rw [getElem?_setCall] at h
  obtain ⟨before, hbefore, rfl⟩ := Option.map_eq_some_iff.mp h
  by_cases hkj : k = j
  · exact Or.inl ⟨hkj, by simp [hkj]⟩
  · exact Or.inr ⟨hkj, by simpa [hkj] using hbefore⟩

theorem call_of_start {caller : Caller} {uuid : Bytes} {j : ℕ} {call : RenderCall}
    (h : (c.calls ++ [⟨caller, uuid, .fetching⟩])[j]? = some call) :
    c.calls[j]? = some call ∨ (j = c.calls.length ∧ call = ⟨caller, uuid, .fetching⟩) := by
  rw [List.getElem?_append] at h
  split_ifs at h with hlt
  · exact Or.inl h
  · obtain ⟨hzero, rfl⟩ : j - c.calls.length = 0 ∧ _ = call := by
      simpa [List.getElem?_singleton] using h
    exact Or.inr ⟨by omega, rfl⟩

/-- The calls a step leaves alone stay where they were. -/
theorem getElem?_setCall_of_ne {j k : ℕ} {pc : RenderPc} {call : RenderCall} (hne : k ≠ j)
    (h : c.calls[j]? = some call) : (c.setCall k pc).calls[j]? = some call := by
  rw [getElem?_setCall, h]
  simp [hne]

end Canvas

namespace Page

def canvas (p : Page) : Canvas where
  currentUuid := p.currentUuid
  view := p.view
  shown := p.shown
  visHidden := p.visHidden
  created := p.created
  freed := p.freed
  calls := p.calls

@[simp] theorem canvas_resumeCaller (p : Page) (caller : Caller) :
    (p.resumeCaller caller).canvas = p.canvas := by
  cases caller with
  | location o => cases o <;> rfl
  | landing o => cases o <;> rfl
  | poll => rfl

theorem call_setCall {p : Page} {k : ℕ} {caller : Caller} {uuid : Bytes} {pc : RenderPc}
    (hk : p.calls[k]? = some ⟨caller, uuid, pc⟩) (pc' : RenderPc) :
    (p.setCall k pc').calls[k]? = some ⟨caller, uuid, pc'⟩ := by
  rw [show (p.setCall k pc').calls[k]? = _ from p.canvas.getElem?_setCall k k pc',
    show p.canvas.calls[k]? = _ from hk]
  simp

theorem canvas_renderPlot {st : Server.State} {l : Label} {p q : Page}
    (hq : q.canvas = p.canvas) (caller : Caller) (uuid : Bytes) :
    Canvas.Effect st l p.canvas (q.renderPlot caller uuid).canvas := by
  unfold renderPlot
  split_ifs with hcurrent
  · exact .still (by rw [canvas_resumeCaller, hq])
  · refine .start caller uuid ?_ (by rw [← hq]; rfl)
    rw [← hq]
    exact hcurrent

theorem canvas_normalise (p : Page) (uuid : Bytes) : (p.normalise uuid).canvas = p.canvas := by
  unfold normalise
  split_ifs <;> rfl

theorem canvas_commit (p : Page) (uuid : Bytes) : (p.commit uuid).canvas = p.canvas := by
  unfold commit
  split_ifs <;> rfl

theorem latestKnown_commit (p : Page) (uuid : Bytes) : (p.commit uuid).latestKnown = some uuid := by
  unfold commit
  split_ifs <;> rfl

theorem landings_commit (p : Page) (uuid : Bytes) : (p.commit uuid).landings = p.landings := by
  unfold commit
  split_ifs <;> rfl

theorem calls_commit (p : Page) (uuid : Bytes) : (p.commit uuid).calls = p.calls :=
  congrArg Canvas.calls (p.canvas_commit uuid)

theorem currentUuid_commit (p : Page) (uuid : Bytes) :
    (p.commit uuid).currentUuid = p.currentUuid :=
  congrArg Canvas.currentUuid (p.canvas_commit uuid)

theorem canvas_renderForCurrentLocation {st : Server.State} {l : Label} {p q : Page}
    (hq : q.canvas = p.canvas) (o : Origin) :
    Canvas.Effect st l p.canvas (q.renderForCurrentLocation o).canvas := by
  unfold renderForCurrentLocation
  split
  · exact canvas_renderPlot (by rw [canvas_normalise, hq]) _ _
  · exact .still hq

theorem canvas_load (st : Server.State) (label : Label) (l : Location) :
    Canvas.Effect st label Canvas.blank (load l).canvas :=
  canvas_renderForCurrentLocation (p := initial l) rfl .load

end Page

/-! ## §2 The asking side -/

/-- What `renderForCurrentLocation` and `pollLoop` read and write around their calls of
`renderPlot`. -/
structure Course where
  history : History
  latestKnown : Option Bytes
  landings : List Landing
  poll : PollPc
  pushed : List Bytes

namespace Page

def course (p : Page) : Course where
  history := p.history
  latestKnown := p.latestKnown
  landings := p.landings
  poll := p.poll
  pushed := p.pushed

/-- The history behind a navigation of the user. -/
def destination (p : Page) : Label → Option History
  | .goBack n => p.history.goBack (n + 1)
  | .goForward n => p.history.goForward (n + 1)
  | .fragment hash => some (p.history.pushState { p.history.here with hash := hash })
  | _ => none

/-- The plots of the calls of `renderPlot`, in the order in which they started. -/
def uuids (p : Page) : List Bytes := p.calls.map RenderCall.uuid

theorem uuids_setCall (p : Page) (k : ℕ) (pc : RenderPc) : (p.setCall k pc).uuids = p.uuids := by
  apply List.ext_getElem?
  intro j
  show ((p.canvas.setCall k pc).calls.map RenderCall.uuid)[j]? =
    (p.canvas.calls.map RenderCall.uuid)[j]?
  rw [List.getElem?_map, List.getElem?_map, Canvas.getElem?_setCall, Option.map_map]
  congr 1
  funext call
  show RenderCall.uuid (if k = j then _ else call) = call.uuid
  -- a stage changes only the place of a call
  split <;> rfl

theorem calls_resumeCaller (p : Page) (caller : Caller) : (p.resumeCaller caller).calls = p.calls :=
  congrArg Canvas.calls (p.canvas_resumeCaller caller)

/-- Where the poll loop is behind a call of `renderPlot`. -/
def pollBehind (p : Page) : Caller → PollPc
  | .poll => .sleeping
  | .location .load => .requested
  | .landing .load => .requested
  | .location .popstate => p.poll
  | .landing .popstate => p.poll

theorem course_resumeCaller (p : Page) (caller : Caller) :
    (p.resumeCaller caller).course = { p.course with poll := p.pollBehind caller } := by
  cases caller with
  | location o => cases o <;> rfl
  | landing o => cases o <;> rfl
  | poll => rfl

/-- The call `k` of `renderPlot` goes from the place `pc` to its next `await`, or to its end. -/
inductive Stage (st : Server.State) (l : Label) (p p' : Page) (k : ℕ) (caller : Caller)
    (uuid : Bytes) (pc : RenderPc) : Prop
  | respond (hl : l = .fetchAnswered k) (hpc : pc = .fetching)
      (hok : ok (plotResponse st uuid).status = true)
      (hp' : p' = p.setCall k (.reading (plotResponse st uuid).body))
  | refuse (code : ℕ)
      (hl : l = .fetchAnswered k ∧ ok (plotResponse st uuid).status = false ∨
        l = .fetchStatus k code)
      (hpc : pc = .fetching) (hp' : p' = p.refuse k caller code)
  | throws (e : String) (hl : l = .fetchThrows k e ∨ l = .bodyThrows k e)
      (hpc : pc = .fetching ∨ ∃ body, pc = .reading body) (hp' : p' = p.rescue k caller false e)
  | enter (body : Server.Body) (hl : l = .bodyRead k) (hpc : pc = .reading body)
      (hp' : p' = p.enterRender k body)
  | paint (body : Server.Body) (hl : l = .paint k) (hpc : pc = .rendering body)
      (hp' : p' = p.paint k uuid)
  | crash (body : Server.Body) (e : String) (hl : l = .renderThrows k e)
      (hpc : pc = .rendering body) (hp' : p' = p.rescue k caller true e)
  | abandon (body : Server.Body) (e : String) (hl : l = .drawThrows k e)
      (hpc : pc = .rendering body) (hp' : p' = p.abandonView.rescue k caller true e)
  | settle (view : ℕ) (hl : l = .resume k) (hpc : pc = .painted view)
      (hp' : p' = p.settle k caller uuid view)

/-- What a step does: it takes a call of `renderPlot` one stage further, sends the poll loop to
sleep or wakes it, settles `loadHep`, is a navigation, or is a stage of one of the two readers of
`/api/latest`. -/
inductive Move (st : Server.State) (l : Label) (p p' : Page) : Prop
  | call (k : ℕ) (caller : Caller) (uuid : Bytes) (pc : RenderPc)
      (hk : p.calls[k]? = some ⟨caller, uuid, pc⟩) (hstage : Stage st l p p' k caller uuid pc)
  | rest (poll : PollPc)
      (hl : l = .pollWake ∧ poll = .requested ∨ l = .pollFails ∧ poll = .sleeping)
      (hstarted : p.poll ≠ .notStarted) (hidle : p.poll ≠ .rendering) (hp' : p' = p.setPoll poll)
  | load (promise : ModulePromise) (hl : l = .loaded ∨ l = .loadFails)
      (hp' : p' = { p with modulePromise := promise })
  | visit (h : History) (hl : p.destination l = some h)
      (hp' : p' = { p with history := h }.renderForCurrentLocation .popstate)
  | askLanding (k : ℕ) (o : Origin) (hl : l = .landingAnswered k)
      (hk : p.landings[k]? = some ⟨o, .requested⟩) (hp' : p' = p.setLanding k (.answered st.latest))
  | land (k : ℕ) (o : Origin) (latest : Option Bytes) (hl : l = .landingDelivered k)
      (hk : p.landings[k]? = some ⟨o, .answered latest⟩)
      (hp' : p' = (p.setLanding k .done).land o latest)
  | abandon (k : ℕ) (o : Origin) (pc : AskPc) (e : String) (hl : l = .landingFails k e)
      (hk : p.landings[k]? = some ⟨o, pc⟩) (hpc : pc ≠ .done)
      (hp' : p' = { p.setLanding k .done with status := ("ggsql · " ++ e, true) }.resumeCaller
        (.landing o))
  | ask (hl : l = .pollAnswered) (hpoll : p.poll = .requested)
      (hp' : p' = p.setPoll (.answered st.latest))
  | hear (latest : Option Bytes) (hl : l = .pollDelivered) (hpoll : p.poll = .answered latest)
      (hp' : p' = p.advance latest)

/-- **The inversion of a step.** -/
theorem move_step {st : Server.State} {p p' : Page} {l : Label} (h : p.step st l = some p') :
    Move st l p p' := by
  obtain ⟨-, h⟩ := perform_of_step h
  cases l with
  | goBack n =>
    obtain ⟨hist, hhist, rfl⟩ := Option.map_eq_some_iff.mp h
    exact .visit hist hhist rfl
  | goForward n =>
    obtain ⟨hist, hhist, rfl⟩ := Option.map_eq_some_iff.mp h
    exact .visit hist hhist rfl
  | fragment hash =>
    cases h
    exact .visit _ rfl rfl
  -- the requests of `renderForCurrentLocation`
  | landingAnswered k =>
    simp only [perform] at h
    split at h
    · rename_i o hk
      cases h
      exact .askLanding k o rfl hk rfl
    · cases h
  | landingDelivered k =>
    simp only [perform] at h
    split at h
    · rename_i o latest hk
      cases h
      exact .land k o latest rfl hk rfl
    · cases h
  | landingFails k e =>
    simp only [perform] at h
    split at h
    · rename_i o hk
      cases h
      exact .abandon k o _ e rfl hk (by simp) rfl
    · rename_i o latest hk
      cases h
      exact .abandon k o _ e rfl hk (by simp) rfl
    · cases h
  -- the stages of a call of `renderPlot`
  | fetchAnswered k =>
    simp only [perform] at h
    split at h
    · rename_i caller uuid hk
      split_ifs at h with hok
      · cases h
        exact .call k caller uuid _ hk (.respond rfl rfl hok rfl)
      · cases h
        exact .call k caller uuid _ hk (.refuse _ (Or.inl ⟨rfl, by simpa using hok⟩) rfl rfl)
    · cases h
  | fetchStatus k code =>
    simp only [perform] at h
    split at h
    · rename_i caller uuid hk
      split_ifs at h with hok
      cases h
      exact .call k caller uuid _ hk (.refuse code (Or.inr rfl) rfl rfl)
    · cases h
  | fetchThrows k e =>
    simp only [perform] at h
    split at h
    · rename_i caller uuid hk
      cases h
      exact .call k caller uuid _ hk (.throws e (Or.inl rfl) (Or.inl rfl) rfl)
    · cases h
  | bodyRead k =>
    simp only [perform] at h
    split at h
    · rename_i caller uuid body hk
      cases h
      exact .call k caller uuid _ hk (.enter body rfl rfl rfl)
    · cases h
  | bodyThrows k e =>
    simp only [perform] at h
    split at h
    · rename_i caller uuid body hk
      cases h
      exact .call k caller uuid _ hk (.throws e (Or.inr rfl) (Or.inr ⟨body, rfl⟩) rfl)
    · cases h
  | loaded =>
    obtain ⟨-, hp'⟩ := Option.ite_none_right_eq_some.mp h
    exact .load .fulfilled (Or.inl rfl) (Option.some.inj hp').symm
  | loadFails =>
    obtain ⟨-, hp'⟩ := Option.ite_none_right_eq_some.mp h
    exact .load .rejected (Or.inr rfl) (Option.some.inj hp').symm
  | paint k =>
    simp only [perform] at h
    split at h
    · rename_i caller uuid body hk
      obtain ⟨-, hp'⟩ := Option.ite_none_right_eq_some.mp h
      exact .call k caller uuid _ hk (.paint body rfl rfl (Option.some.inj hp').symm)
    · cases h
  | renderThrows k e =>
    simp only [perform] at h
    split at h
    · rename_i caller uuid body hk
      cases h
      exact .call k caller uuid _ hk (.crash body e rfl rfl rfl)
    · cases h
  | drawThrows k e =>
    simp only [perform] at h
    split at h
    · rename_i caller uuid body hk
      obtain ⟨-, hp'⟩ := Option.ite_none_right_eq_some.mp h
      exact .call k caller uuid _ hk (.abandon body e rfl rfl (Option.some.inj hp').symm)
    · cases h
  | resume k =>
    simp only [perform] at h
    split at h
    · rename_i caller uuid view hk
      cases h
      exact .call k caller uuid _ hk (.settle view rfl rfl rfl)
    · cases h
  -- the poll loop
  | pollAnswered =>
    obtain ⟨hpoll, hp'⟩ := Option.ite_none_right_eq_some.mp h
    cases hp'
    exact .ask rfl hpoll rfl
  | pollDelivered =>
    simp only [perform] at h
    split at h
    · rename_i latest hpoll
      cases h
      exact .hear latest rfl hpoll rfl
    · cases h
  | pollFails =>
    simp only [perform] at h
    split at h
    · rename_i hpoll
      cases h
      exact .rest .sleeping (Or.inr ⟨rfl, rfl⟩) (by simp [hpoll]) (by simp [hpoll]) rfl
    · rename_i latest hpoll
      cases h
      exact .rest .sleeping (Or.inr ⟨rfl, rfl⟩) (by simp [hpoll]) (by simp [hpoll]) rfl
    · cases h
  | pollWake =>
    obtain ⟨hpoll, hp'⟩ := Option.ite_none_right_eq_some.mp h
    cases hp'
    exact .rest .requested (Or.inl ⟨rfl, rfl⟩) (by simp [hpoll]) (by simp [hpoll]) rfl

/-! ## §3 What a step does to either side -/

theorem effect_of_stage {st : Server.State} {l : Label} {p p' : Page} {k : ℕ} {caller : Caller}
    {uuid : Bytes} {pc : RenderPc} (hk : p.calls[k]? = some ⟨caller, uuid, pc⟩)
    (h : Stage st l p p' k caller uuid pc) : Canvas.Effect st l p.canvas p'.canvas := by
  cases h with
  | respond hl hpc hok hp' =>
    subst hpc hp'
    exact .respond k caller uuid _ hl hk hok rfl
  -- behind the end of a call its caller runs on, off the canvas
  | refuse code hl hpc hp' =>
    subst hpc hp'
    exact .refuse k caller uuid (hl.imp_right fun h => ⟨code, h⟩) hk
      (by rw [refuse, canvas_resumeCaller]; rfl)
  | throws e hl hpc hp' =>
    subst hp'
    exact .throws k caller uuid pc (hl.imp (fun h => ⟨e, h⟩) fun h => ⟨e, h⟩) hk hpc
      (by rw [rescue, canvas_resumeCaller]; rfl)
  | enter body hl hpc hp' =>
    subst hpc hp'
    exact .enter k caller uuid body hl hk rfl
  | paint body hl hpc hp' =>
    subst hpc hp'
    exact .paint k caller uuid body hl hk rfl
  | crash body e hl hpc hp' =>
    subst hpc hp'
    exact .crash k caller uuid body ⟨e, hl⟩ hk (by rw [rescue, canvas_resumeCaller]; rfl)
  | abandon body e hl hpc hp' =>
    subst hpc hp'
    exact .abandon k caller uuid body ⟨e, hl⟩ hk (by rw [rescue, canvas_resumeCaller]; rfl)
  | settle view hl hpc hp' =>
    subst hpc hp'
    exact .settle k caller uuid view hl hk (by rw [settle, canvas_resumeCaller]; rfl)

/-- **The drawing side of a step.** -/
theorem canvas_step {st : Server.State} {p p' : Page} {l : Label} (h : p.step st l = some p') :
    Canvas.Effect st l p.canvas p'.canvas := by
  cases move_step h with
  | call k caller uuid pc hk hstage => exact effect_of_stage hk hstage
  | rest poll hl hstarted hidle hp' => exact .still (hp' ▸ rfl)
  | load promise hl hp' => exact .still (hp' ▸ rfl)
  | visit hist hl hp' =>
    subst hp'
    exact canvas_renderForCurrentLocation (by rfl) _
  | askLanding k o hl hk hp' => exact .still (hp' ▸ rfl)
  | land k o latest hl hk hp' =>
    -- either a call of `renderPlot` or the page without a plot
    subst hp'
    unfold land
    split
    · exact canvas_renderPlot (by rfl) _ _
    · exact .idle k hl (by rw [canvas_resumeCaller]; rfl)
  | abandon k o pc e hl hk hpc hp' =>
    subst hp'
    exact .still (by rw [canvas_resumeCaller]; rfl)
  | ask hl hpoll hp' => exact .still (hp' ▸ rfl)
  | hear latest hl hpoll hp' =>
    -- only a new plot reaches `renderPlot`
    subst hp'
    unfold advance
    split
    · split_ifs
      · apply canvas_renderPlot
        exact canvas_commit p _
      · exact .still rfl
    · exact .still rfl

/-- A call that resumes from `ggsqlRenderHep` stores its view. -/
theorem canvas_resume {st : Server.State} {p p' : Page} {k : ℕ}
    (h : p.step st (.resume k) = some p') :
    ∃ caller uuid view, p.canvas.calls[k]? = some ⟨caller, uuid, .painted view⟩ ∧
      p'.canvas = { p.canvas.setCall k .finished with
        view := some view, currentUuid := some uuid } := by
  have h := (perform_of_step h).2
  simp only [perform] at h
  split at h
  · rename_i caller uuid view hk
    cases h
    exact ⟨caller, uuid, view, hk, by rw [settle, canvas_resumeCaller]; rfl⟩
  · cases h

/-- A constructor that throws leaves a view which no call carries. -/
theorem canvas_drawThrows {st : Server.State} {p p' : Page} {k : ℕ} {e : String}
    (h : p.step st (.drawThrows k e) = some p') :
    p'.canvas = { p.canvas.setCall k (.failed true) with created := p.canvas.created + 1 } := by
  have h := (perform_of_step h).2
  simp only [perform] at h
  split at h
  · obtain ⟨-, hp'⟩ := Option.ite_none_right_eq_some.mp h
    cases hp'
    rw [rescue, canvas_resumeCaller]
    rfl
  · cases h

/-- A stage takes one call further, and leaves the asking side alone unless the call ends. -/
theorem Stage.spec {st : Server.State} {l : Label} {p p' : Page} {k : ℕ} {caller : Caller}
    {uuid : Bytes} {pc : RenderPc} (h : Stage st l p p' k caller uuid pc) :
    pc.isDone = false ∧ ∃ pc', p'.calls = (p.setCall k pc').calls ∧ p'.course =
      { p.course with poll := if pc'.isDone then p.pollBehind caller else p.poll } := by
  cases h with
  -- a call that goes on leaves the asking side alone, one that ends resumes its caller
  | respond hl hpc hok hp' =>
    subst hpc hp'
    exact ⟨rfl, _, rfl, rfl⟩
  | refuse code hl hpc hp' =>
    subst hpc hp'
    exact ⟨rfl, _, calls_resumeCaller _ _, course_resumeCaller _ _⟩
  | throws e hl hpc hp' =>
    subst hp'
    refine ⟨?_, _, calls_resumeCaller _ _, course_resumeCaller _ _⟩
    rcases hpc with rfl | ⟨body, rfl⟩ <;> rfl
  | enter body hl hpc hp' =>
    subst hpc hp'
    exact ⟨rfl, _, rfl, rfl⟩
  | paint body hl hpc hp' =>
    subst hpc hp'
    exact ⟨rfl, _, rfl, rfl⟩
  | crash body e hl hpc hp' =>
    subst hpc hp'
    exact ⟨rfl, _, calls_resumeCaller _ _, course_resumeCaller _ _⟩
  | abandon body e hl hpc hp' =>
    subst hpc hp'
    exact ⟨rfl, _, calls_resumeCaller _ _, course_resumeCaller _ _⟩
  | settle view hl hpc hp' =>
    subst hpc hp'
    exact ⟨rfl, _, calls_resumeCaller _ _, course_resumeCaller _ _⟩

end Page

/-! ## §4 The tab -/

structure Tab where
  server : Server.Registry
  page : Page

inductive TabLabel where
  | server (l : Server.RegistryLabel)
  | page (l : Page.Label)

def Tab.step (s : Tab) : TabLabel → Option Tab
  | .server l => (s.server.step l).map fun server => { s with server := server }
  | .page l => (s.page.step s.server.state l).map fun page => { s with page := page }

/-- Every interleaving of the page with its user and with the registrations and requests that
reach the server.  The page may be opened at any time. -/
def tab : Machine Tab TabLabel where
  init s := Server.registry.Reachable s.server ∧ ∃ l, s.page = Page.load l
  step := Tab.step

namespace Tab

variable {s s' : Tab}

theorem step_server {l : Server.RegistryLabel} (h : tab.step s (.server l) = some s') :
    Server.registry.step s.server l = some s'.server ∧ s'.page = s.page := by
  obtain ⟨server, hserver, rfl⟩ := Option.map_eq_some_iff.mp h
  exact ⟨hserver, rfl⟩

theorem step_page {l : Page.Label} (h : tab.step s (.page l) = some s') :
    s.page.step s.server.state l = some s'.page ∧ s'.server = s.server := by
  obtain ⟨page, hpage, rfl⟩ := Option.map_eq_some_iff.mp h
  exact ⟨hpage, rfl⟩

/-! ## §5 Pieces of runs -/

/-- A tab that opens `l` on a server without plots. -/
def opened (l : Location) : Tab where
  server := Server.idle
  page := Page.load l

theorem opened_init (l : Location) : tab.init (opened l) :=
  ⟨.of_init ⟨rfl, rfl, rfl, rfl⟩, l, rfl⟩

/-- The URL of the app, `/`. -/
def appRoot : Location where
  pathname := ascii "/"
  hash := []

/-- The `k`-th registration, up to the announcement of its id. -/
def publishing (k : ℕ) (id : Server.PlotId) : List TabLabel :=
  [.server (.begin id [7]), .server (.insert k), .server (.publish k)]

/-- The `k`-th `renderForCurrentLocation` that asks for the latest plot hears of it. -/
def landing (k : ℕ) : List TabLabel := [.page (.landingAnswered k), .page (.landingDelivered k)]

/-- The poll loop asks for the latest plot and hears of it. -/
def polling : List TabLabel := [.page .pollAnswered, .page .pollDelivered]

/-- The `k`-th call of `renderPlot` up to the document it has read. -/
def fetching (k : ℕ) : List TabLabel := [.page (.fetchAnswered k), .page (.bodyRead k)]

/-- `loadHep` comes to its end. -/
def loading : List TabLabel := [.page .loaded]

/-- The rest of the `k`-th call of `renderPlot`. -/
def drawing (k : ℕ) : List TabLabel := [.page (.paint k), .page (.resume k)]

end Tab

end GgsqlDuckdb
