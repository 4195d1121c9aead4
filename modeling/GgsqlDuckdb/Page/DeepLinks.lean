import GgsqlDuckdb.Page.Navigation

/-!
# Deep links

A tab opened under the URL of a plot renders that plot without a word to `latestKnown`.  The
first answer the poll loop hears is thus always news, and it takes the tab to the latest plot
whenever the link is to another one.

## Main results

- `Anchored`: what a tab keeps that was opened under the URL of the latest plot.
- `deep_link_stable_iff`: a deep link is stable exactly when it is to the latest plot.
- `deep_link_replaced`: the first poll replaces the link to an older one.
-/

namespace GgsqlDuckdb

open Library

/-! ## §1 Tabs anchored to a plot -/

namespace Page

/-- A tab opened under the URL of `uuid` that has heard of nothing else: its only call of
`renderPlot` is the first one. -/
structure Anchored (uuid : Bytes) (p : Page) : Prop where
  here : uuidFromLocation p.history.here = some uuid
  known : p.latestKnown = none ∨ p.latestKnown = some uuid
  answer : ∀ latest, p.poll = .answered latest → latest = none ∨ latest = some uuid
  call : ∃ pc, p.calls = [⟨.location .load, uuid, pc⟩] ∧ (pc.isDone = true ∨ p.poll = .notStarted)

variable {uuid : Bytes} {st : Server.State} {l : Label} {p p' : Page}

theorem Anchored.quiet (hp : p.Anchored uuid) (hpoll : p.poll ≠ .notStarted) : p.Quiet := by
  obtain ⟨pc, hcalls, hdone⟩ := hp.call
  intro c hc
  rw [hcalls] at hc
  obtain rfl := List.mem_singleton.mp hc
  exact hdone.resolve_right hpoll

theorem Anchored.heard (hp : p.Anchored uuid) {u : Bytes} (hu : p.poll.answer = some u) :
    u = uuid := by
  cases hpoll : p.poll with
  | answered latest =>
    rw [hpoll] at hu
    obtain rfl : latest = some u := hu
    rcases hp.answer _ hpoll with hnone | hsome
    · cases hnone
    · exact Option.some.inj hsome
  | _ => rw [hpoll] at hu; cases hu

/-- A single call is never overtaken, and no other plot is asked for. -/
theorem Anchored.inOrder (hp : p.Anchored uuid) (hstay : p.destination l = none) :
    p.InOrder l := by
  obtain ⟨pc, hcalls, -⟩ := hp.call
  refine ⟨?_, ?_⟩
  · intro u hu _
    -- without a navigation only the poll loop can ask for a plot
    by_cases hpolled : l = .pollDelivered
    · subst hpolled
      obtain ⟨hanswer, -⟩ := Option.filter_eq_some_iff.mp hu
      rw [hp.heard (truthy_eq_some hanswer), uuids, hcalls]
      rfl
    · rw [requested_eq_none hstay hpolled] at hu
      cases hu
  · have hnone : ∀ k f, p.canvas.overtakenBy k f = none := by
      intro k f
      unfold Canvas.overtakenBy
      rw [show p.canvas.calls = _ from hcalls]
      simp
    intro d hd
    unfold Canvas.overtaken at hd
    split at hd
    · rw [hnone] at hd
      cases hd
    · rw [hnone] at hd
      cases hd
    · cases hd

theorem Anchored.step (hp : p.Anchored uuid) (hnamed : p.Named) (htidy : p.canvas.Tidy)
    (hlatest : st.latest = none ∨ st.latest = some uuid) (h : p.step st l = some p')
    (hl : l.smooth st p.calls = true) (hstay : p.destination l = none) : p'.Anchored uuid := by
  obtain ⟨pc, hcalls, hpc⟩ := hp.call
  cases move_step h with
  | call k caller uuid' pc₀ hk hstage =>
    obtain ⟨hpc₀, pc', hcalls', hcourse⟩ := hstage.spec
    -- the call under way is the first one, so the poll loop has not started
    have hzero : k = 0 := by
      by_contra hne
      rw [hcalls, List.getElem?_eq_none (by simp; omega)] at hk
      cases hk
    subst hzero
    rw [hcalls] at hk
    cases hk
    have hpoll : p.poll = .notStarted := by
      apply hpc.resolve_left
      rw [hpc₀]
      simp
    have hpoll' : p'.poll = if pc'.isDone then .requested else .notStarted := by
      rw [← hpoll]
      exact congrArg Course.poll hcourse
    have hhere : p'.history = p.history := congrArg Course.history hcourse
    have hknown : p'.latestKnown = p.latestKnown := congrArg Course.latestKnown hcourse
    -- the loop starts behind the end of the call, with no answer yet
    refine ⟨hhere ▸ hp.here, hknown ▸ hp.known, ?_, pc', ?_, ?_⟩
    · intro latest hanswered
      rw [hpoll'] at hanswered
      split_ifs at hanswered
    · rw [hcalls', setCall, hcalls]
      rfl
    · rw [hpoll']
      cases pc'.isDone with
      | true => exact Or.inl rfl
      | false => exact Or.inr rfl
  | rest poll hlabel hstarted hidle hp' =>
    subst hp'
    refine ⟨hp.here, hp.known, ?_, pc, hcalls, Or.inl (hpc.resolve_right hstarted)⟩
    intro latest hanswered
    rcases hlabel with ⟨-, rfl⟩ | ⟨-, rfl⟩ <;> cases hanswered
  | load promise hlabel hp' =>
    subst hp'
    exact ⟨hp.here, hp.known, hp.answer, pc, hcalls, hpc⟩
  | visit hist hdest hp' =>
    rw [hstay] at hdest
    cases hdest
  | askLanding k o hlabel hk hp' => cases hnamed.landings _ (List.mem_of_getElem? hk)
  | land k o latest hlabel hk hp' => cases hnamed.landings _ (List.mem_of_getElem? hk)
  | abandon k o pc₀ e hlabel hk hpc₀ hp' =>
    subst hlabel
    cases hl
  | ask hlabel hpoll hp' =>
    -- the answer given now names the plot of the link or none
    subst hp'
    refine ⟨hp.here, hp.known, ?_, pc, hcalls, Or.inl (hpc.resolve_right (by simp [hpoll]))⟩
    intro latest hanswered
    obtain rfl := PollPc.answered.inj hanswered
    exact hlatest
  | hear latest hlabel hpoll hp' =>
    subst hp'
    have hdone := hpc.resolve_right (by simp [hpoll])
    have hname := isName_of_location hp.here
    -- the first call has finished, so `currentUuid` is the plot of the link
    have hcurrent : p.currentUuid = some uuid :=
      (hnamed.rest htidy (hp.quiet (by simp [hpoll]))).2.trans hp.here
    have hsleep : ∀ answer, PollPc.sleeping = .answered answer →
        answer = none ∨ answer = some uuid := by
      intro answer h
      cases h
    rcases hp.answer latest hpoll with rfl | rfl
    · exact ⟨hp.here, hp.known, hsleep, pc, hcalls, Or.inl hdone⟩
    · rw [p.advance_some hname]
      split_ifs with hnew
      -- the plot is adopted once, and `renderPlot` takes its early exit
      · have hfirst : p.latestKnown = none := hp.known.resolve_right fun h => hnew h.symm
        have hadopt : p.commit uuid = p.adopt uuid := if_pos hfirst
        have hexit : ((p.adopt uuid).setPoll .rendering).renderPlot .poll uuid =
            (p.adopt uuid).setPoll .sleeping := if_pos hcurrent.symm
        rw [hadopt, hexit]
        exact ⟨uuidFromLocation_withPlot hname _, Or.inr rfl, hsleep, pc, hcalls, Or.inl hdone⟩
      · exact ⟨hp.here, hp.known, hsleep, pc, hcalls, Or.inl hdone⟩

theorem anchored_load {l : Location} (hl : uuidFromLocation l = some uuid) :
    (load l).Anchored uuid := by
  obtain ⟨h, -, -, hhere, hload⟩ := load_linked hl
  rw [hload]
  refine ⟨hhere, Or.inl rfl, ?_, .fetching, rfl, Or.inr rfl⟩
  intro latest hanswered
  cases hanswered

end Page

/-! ## §2 Tabs that nobody disturbs -/

/-- The step announces a plot. -/
def Server.RegistryLabel.announces : Server.RegistryLabel → Bool
  | .publish _ => true
  | _ => false

namespace Tab

/-- No plot is announced, nothing fails, and the user does not navigate. -/
def Calm (s : Tab) : TabLabel → Prop
  | .server l => l.announces = false
  | .page l => l.smooth s.server.state s.page.calls = true ∧ s.page.destination l = none

instance (s : Tab) : (l : TabLabel) → Decidable (Calm s l)
  | .server l => inferInstanceAs (Decidable (l.announces = false))
  | .page l => inferInstanceAs (Decidable (l.smooth s.server.state s.page.calls = true ∧
      s.page.destination l = none))

theorem latest_step {r r' : Server.Registry} {l : Server.RegistryLabel}
    (hl : l.announces = false) (h : Server.registry.step r l = some r') :
    r'.state.latest = r.state.latest := by
  have h : r.step l = some r' := h
  cases l with
  | tick d =>
    cases h
    rfl
  | begin id hep =>
    obtain ⟨-, hr'⟩ := Option.ite_none_left_eq_some.mp h
    cases hr'
    rfl
  | publish k => cases hl
  | arrive url =>
    cases h
    rfl
  | serve q =>
    simp only [Server.Registry.step] at h
    split at h
    · split_ifs at h <;> cases h <;> rfl
    · cases h
  | _ =>
    -- the other steps of a registration
    simp only [Server.Registry.step] at h
    split at h <;> cases h
    rfl

/-- A tab under the URL of `uuid` whose server knows of nothing newer. -/
structure Settled (uuid : Bytes) (s : Tab) : Prop where
  tracked : s.Tracked
  latest : s.server.state.latest = none ∨ s.server.state.latest = some uuid
  anchored : s.page.Anchored uuid

variable {uuid : Bytes} {s s' : Tab}

theorem Settled.named (hs : Settled uuid s) : s.page.Named := by
  rcases hs.tracked.phase with hbare | hnamed
  -- a tab that names no plot is not under the URL of one
  · have hhere := hbare.here.symm.trans hs.anchored.here
    cases hhere
  · exact hnamed

theorem Settled.step {l : TabLabel} (hs : Settled uuid s) (hl : Calm s l)
    (h : tab.step s l = some s') : Settled uuid s' := by
  cases l with
  | server l =>
    obtain ⟨hserver, hpage⟩ := step_server h
    have hlatest : s'.server.state.latest = s.server.state.latest := latest_step hl hserver
    exact ⟨hs.tracked.step (l := .server l) ⟨trivial, trivial⟩ h, hlatest ▸ hs.latest,
      hpage ▸ hs.anchored⟩
  | page l =>
    obtain ⟨hsmooth, hstay⟩ := hl
    obtain ⟨hpage, hserver⟩ := step_page h
    exact ⟨hs.tracked.step (l := .page l) ⟨hsmooth, hs.anchored.inOrder hstay⟩ h,
      hserver ▸ hs.latest, hs.anchored.step hs.named hs.tracked.tidy hs.latest hpage hsmooth hstay⟩

/-- The location still names the plot of the link, and between two polls the tab shows it. -/
def StillOn (uuid : Bytes) (s : Tab) : Prop :=
  uuidFromLocation s.page.history.here = some uuid ∧
    (s.page.poll = .sleeping → s.page.showing = some uuid)

theorem Settled.stillOn (hs : Settled uuid s) : StillOn uuid s := by
  refine ⟨hs.anchored.here, ?_⟩
  intro hpoll
  -- while the loop sleeps no call is under way
  have hquiet := hs.anchored.quiet (by simp [hpoll])
  exact (hs.named.rest hs.tracked.tidy hquiet).1.trans hs.anchored.here

/-! ## §3 The first poll -/

/-- The first call of `renderPlot`, and the first answer to the poll loop. -/
def firstPoll : List TabLabel := fetching 0 ++ loading ++ drawing 0 ++ polling

theorem step_of_page {l : Page.Label} {p : Page} (h : s.page.step s.server.state l = some p) :
    tab.step s (.page l) = some { s with page := p } :=
  Option.map_eq_some_iff.mpr ⟨p, h, rfl⟩

/-- An iteration of the poll loop up to what it does with the answer. -/
theorem run_polling (hquiet : s.page.Quiet) (hpoll : s.page.poll = .requested) :
    tab.run s polling = some { s with
      page := (s.page.setPoll (.answered s.server.state.latest)).advance
        s.server.state.latest } := by
  have hrest : false = s.page.draining := (Page.draining_of_quiet hquiet).symm
  have hanswered : s.page.step s.server.state .pollAnswered =
      some (s.page.setPoll (.answered s.server.state.latest)) :=
    Page.step_of_perform hrest (if_pos hpoll)
  exact Machine.run_cons_eq_some.mpr ⟨_, step_of_page hanswered,
    Machine.run_single.mpr (step_of_page (Page.step_of_perform (l := .pollDelivered) hrest rfl))⟩

end Tab

/-- The page behind a call of `renderPlot` that succeeds without interruption, the first one to
await `loadHep`. -/
def Page.rendered (p : Page) (k : ℕ) (caller : Caller) (uuid : Bytes) (body : Server.Body) : Page :=
  ({ (p.setCall k (.reading body)).enterRender k body with modulePromise := .fulfilled
    }.paint k uuid).settle k caller uuid p.created

namespace Tab

/-- The only call of `renderPlot` so far, which nothing interrupts. -/
theorem run_rendering {caller : Caller} (hcalls : s.page.calls = [⟨caller, uuid, .fetching⟩])
    (hpending : s.page.modulePromise = .pending)
    (hok : Page.ok (Page.plotResponse s.server.state uuid).status = true) :
    tab.run s (fetching 0 ++ loading ++ drawing 0) = some { s with
      page := s.page.rendered 0 caller uuid (Page.plotResponse s.server.state uuid).body } := by
  generalize hbody : (Page.plotResponse s.server.state uuid).body = body
  have hset : ∀ (p : Page) (pc pc' : RenderPc), p.calls = [⟨caller, uuid, pc⟩] →
      (p.setCall 0 pc').calls = [⟨caller, uuid, pc'⟩] := by
    intro p pc pc' hcalls
    rw [Page.setCall, hcalls]
    rfl
  -- the pages between the five steps of the call
  set read := s.page.setCall 0 (.reading body)
  set entered := read.enterRender 0 body
  set ready : Page := { entered with modulePromise := .fulfilled }
  set painted := ready.paint 0 uuid
  have hread : read.calls = [⟨caller, uuid, .reading body⟩] := hset _ _ _ hcalls
  have hentered : entered.calls = [⟨caller, uuid, .rendering body⟩] := hset _ _ _ hread
  have hready : ready.calls = [⟨caller, uuid, .rendering body⟩] := hentered
  have hpainted : painted.calls = [⟨caller, uuid, .painted s.page.created⟩] := hset _ _ _ hready
  have hwaiting : entered.modulePromise = .pending := hpending
  have hfulfilled : ready.modulePromise = .fulfilled := rfl
  have hfetch : s.page.step s.server.state (.fetchAnswered 0) = some read := by
    apply Page.step_of_perform
    · simp [Page.Label.isMicrotask, Page.draining, hpending]
    · simp [Page.perform, hcalls, hok, hbody, read]
  have henter : read.step s.server.state (.bodyRead 0) = some entered := by
    apply Page.step_of_perform
    · simp [Page.Label.isMicrotask, Page.draining, Page.awaited, hread, RenderPc.awaits]
    · simp [Page.perform, hread, entered]
  have hload : entered.step s.server.state .loaded = some ready := by
    apply Page.step_of_perform
    · simp [Page.Label.isMicrotask, Page.draining, hwaiting]
    · simp [Page.perform, Page.awaited, hentered, hwaiting, RenderPc.awaits, ready]
  -- nothing comes between the last two
  have hpaint : ready.step s.server.state (.paint 0) = some painted := by
    apply Page.step_of_perform
    · simp [Page.Label.isMicrotask, Page.draining, Page.awaited, hready, hfulfilled,
        RenderPc.awaits]
    · simp [Page.perform, hready, hfulfilled, painted]
  have hresume : painted.step s.server.state (.resume 0) =
      some (s.page.rendered 0 caller uuid body) := by
    apply Page.step_of_perform
    · have hfulfilled : painted.modulePromise = .fulfilled := rfl
      simp [Page.Label.isMicrotask, Page.draining, Page.awaited, hpainted, hfulfilled,
        RenderPc.awaits]
    · simp [Page.perform, hpainted, Page.rendered, painted, ready, entered, read]
  exact Machine.run_cons_eq_some.mpr ⟨_, step_of_page hfetch,
    Machine.run_cons_eq_some.mpr ⟨_, step_of_page henter,
    Machine.run_cons_eq_some.mpr ⟨_, step_of_page hload,
    Machine.run_cons_eq_some.mpr ⟨_, step_of_page hpaint,
    Machine.run_single.mpr (step_of_page hresume)⟩⟩⟩⟩

/-- The first poll takes a tab under the URL of one plot to another one that is the latest. -/
theorem firstPoll_replaces {server : Server.Registry} {l : Location} {u : Bytes}
    (hl : uuidFromLocation l = some uuid)
    (hok : Page.ok (Page.plotResponse server.state uuid).status = true)
    (hlatest : server.state.latest = some u) (hname : IsName u) (hne : u ≠ uuid) :
    ∃ s, tab.run ⟨server, Page.load l⟩ firstPoll = some s ∧
      uuidFromLocation s.page.history.here = some u := by
  obtain ⟨h, -, -, -, hload⟩ := Page.load_linked hl
  rw [hload]
  have hdrawn := run_rendering (s := ⟨server, Page.linked l h uuid⟩) rfl rfl hok
  refine ⟨_, Machine.run_append_eq_some.mpr ⟨_, hdrawn, run_polling ?_ rfl⟩, ?_⟩
  · exact List.forall_mem_singleton.mpr rfl
  -- the first answer is news, and the plot of the link is not the one it names
  have hcommit : ∀ p : Page, p.latestKnown = none → p.currentUuid = some uuid →
      uuidFromLocation (p.advance (some u)).history.here = some u := by
    intro p hknown hcurrent
    have hnew : some u ≠ p.latestKnown := by simp [hknown]
    have hother : some u ≠ ((p.adopt u).setPoll .rendering).currentUuid := by
      show some u ≠ p.currentUuid
      simp [hcurrent, hne]
    rw [p.advance_some hname, if_pos hnew, show p.commit u = p.adopt u from if_pos hknown,
      Page.renderPlot, if_neg hother]
    exact uuidFromLocation_withPlot hname _
  show uuidFromLocation (Page.advance _ server.state.latest).history.here = some u
  rw [hlatest]
  exact hcommit _ rfl rfl

theorem calm_firstPoll {server : Server.Registry} {l : Location}
    (hl : uuidFromLocation l = some uuid)
    (hok : Page.ok (Page.plotResponse server.state uuid).status = true) :
    tab.Along Calm ⟨server, Page.load l⟩ firstPoll := by
  obtain ⟨h, -, -, -, hload⟩ := Page.load_linked hl
  rw [hload]
  refine ⟨⟨?_, rfl⟩, fun m _ => Machine.along_of_forall ?_ m⟩
  -- the only step that could fail is the request for the plot
  · exact hok
  · intro l hl s
    have hl : l = .page (.bodyRead 0) ∨ l = .page .loaded ∨ l = .page (.paint 0) ∨
        l = .page (.resume 0) ∨ l = .page .pollAnswered ∨ l = .page .pollDelivered := by
      simpa [loading, drawing, polling] using hl
    rcases hl with rfl | rfl | rfl | rfl | rfl | rfl <;> exact ⟨rfl, rfl⟩

end Tab

/-- **A deep link is stable if and only if it is to the latest plot.**  Open the URL of a stored
plot, and let nobody register a plot or navigate and nothing fail: the location names the plot
for ever, and the tab shows it between two polls, exactly if the server has announced no other
plot last. -/
theorem deep_link_stable_iff {server : Server.Registry} (hserver : Server.registry.Reachable server)
    {id : Server.PlotId} {hep : Bytes} (hplot : server.state.plots id.text = some hep)
    {l : Location} (hl : uuidFromLocation l = some id.text) :
    (∀ tr s, tab.run ⟨server, Page.load l⟩ tr = some s →
      tab.Along Tab.Calm ⟨server, Page.load l⟩ tr → Tab.StillOn id.text s) ↔
    server.state.latest = none ∨ server.state.latest = some id.text := by
  have hok : Page.ok (Page.plotResponse server.state id.text).status = true := by
    rw [plotResponse_ok hplot]
    rfl
  constructor
  · intro hstable
    -- a first poll that hears of another plot replaces the link
    cases hlatest : server.state.latest with
    | none => exact Or.inl rfl
    | some u =>
      right
      by_contra hne
      obtain ⟨k, c, -, rfl, -⟩ :=
        (Server.Registry.sound_of_reachable hserver).consistent.published_of_latest hlatest
      have hother : c.id.text ≠ id.text := fun h => hne (congrArg some h)
      obtain ⟨s, hr, hhere⟩ :=
        Tab.firstPoll_replaces hl hok hlatest (isName_of_plotId c.id) hother
      have hstill := (hstable _ s hr (Tab.calm_firstPoll hl hok)).1
      exact hother (Option.some.inj (hhere.symm.trans hstill))
  · intro hlatest tr s hr hC
    -- the tab opens settled and stays so
    have hsettled : Tab.Settled id.text ⟨server, Page.load l⟩ :=
      ⟨Tab.tracked_of_init ⟨hserver, l, rfl⟩, hlatest, Page.anchored_load hl⟩
    exact (Machine.run_invariant_along (Tab.Settled id.text) Tab.Calm
      (fun _ _ _ hs hl h => hs.step hl h) hsettled hC hr).stillOn

namespace Server

/-- Two plots are registered, one after the other. -/
def twoPlots : List RegistryLabel :=
  [.begin somePlot [7], .insert 0, .publish 0, .finish 0,
    .begin otherPlot [7], .insert 1, .publish 1, .finish 1]

end Server

/-- A tab opened under the URL of the older plot shows the newer one behind its first poll. -/
theorem deep_link_replaced : ∃ server,
    Server.registry.run Server.idle Server.twoPlots = some server ∧
    server.state.plots Server.somePlot.text = some [7] ∧
    tab.Along Tab.Calm ⟨server, Page.load (.root Server.somePlot.text)⟩
      (Tab.firstPoll ++ Tab.fetching 1 ++ Tab.drawing 1) ∧
    ∃ s, tab.run ⟨server, Page.load (.root Server.somePlot.text)⟩
        (Tab.firstPoll ++ Tab.fetching 1 ++ Tab.drawing 1) = some s ∧
      s.page.poll = .sleeping ∧
      uuidFromLocation s.page.history.here = some Server.otherPlot.text ∧
      s.page.showing = some Server.otherPlot.text := by
  obtain ⟨server, hserver, hplot, hC, hr⟩ := Machine.run_decided (fun server : Server.Registry =>
      server.state.plots Server.somePlot.text = some [7] ∧
      tab.Along Tab.Calm ⟨server, Page.load (.root Server.somePlot.text)⟩
        (Tab.firstPoll ++ Tab.fetching 1 ++ Tab.drawing 1) ∧
      (tab.run ⟨server, Page.load (.root Server.somePlot.text)⟩
        (Tab.firstPoll ++ Tab.fetching 1 ++ Tab.drawing 1)).any (fun s => decide (
          s.page.poll = .sleeping ∧
          uuidFromLocation s.page.history.here = some Server.otherPlot.text ∧
          s.page.showing = some Server.otherPlot.text)) = true)
    (show (Server.registry.run Server.idle Server.twoPlots).any _ = true by decide +kernel)
  exact ⟨server, hserver, hplot, hC, Machine.run_decided _ hr⟩

theorem deep_link_stable_latest : ∃ server,
    Server.registry.run Server.idle Server.twoPlots = some server ∧
    ∀ tr s, tab.run ⟨server, Page.load (.root Server.otherPlot.text)⟩ tr = some s →
      tab.Along Tab.Calm ⟨server, Page.load (.root Server.otherPlot.text)⟩ tr →
      Tab.StillOn Server.otherPlot.text s := by
  obtain ⟨server, hserver, hplot, hlatest⟩ := Machine.run_decided (fun server : Server.Registry =>
      server.state.plots Server.otherPlot.text = some [7] ∧
      server.state.latest = some Server.otherPlot.text)
    (show (Server.registry.run Server.idle Server.twoPlots).any _ = true by decide +kernel)
  have hreachable : Server.registry.Reachable server :=
    ⟨Server.idle, Server.twoPlots, ⟨rfl, rfl, rfl, rfl⟩, hserver⟩
  refine ⟨server, hserver, ?_⟩
  exact (deep_link_stable_iff hreachable hplot
    (uuidFromLocation_root (isName_of_plotId Server.otherPlot))).mpr (Or.inr hlatest)

end GgsqlDuckdb
