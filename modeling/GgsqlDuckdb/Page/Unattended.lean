import GgsqlDuckdb.Page.Navigation

/-!
# Tabs that the user leaves alone

Without a navigation the calls of `renderPlot` follow one another: the one that the URL or the
landing makes, and then those of the poll loop, which awaits each of them.  What the tab shows
is thus a function of the calls so far.

## Main results

- `Phase`: what such a tab shows at any moment, from the calls it has made.
- `Ledger`: a plot is committed to `latestKnown` at most once, and the call that follows is the
  last one.
- `sequential_step`: a step keeps both, whatever fails in it.
-/

namespace GgsqlDuckdb

open Library

/-! ## §1 What the calls leave behind -/

def RenderPc.isFailed : RenderPc → Bool
  | .failed _ => true
  | _ => false

/-- The plot of the newest call that finished. -/
def lastFinished (calls : List RenderCall) : Option Bytes :=
  (calls.reverse.find? fun c => c.pc.isFinished).map RenderCall.uuid

/-- Since then a call has failed that had hidden or emptied `#vis`. -/
def wipedSince (calls : List RenderCall) : Bool :=
  (calls.reverse.takeWhile fun c => !c.pc.isFinished).any fun c => c.pc == .failed true

/-- What completed calls, one after the other, leave in `#vis`. -/
def remains (calls : List RenderCall) : Option Bytes :=
  if wipedSince calls then none else lastFinished calls

section Calls

variable {past : List RenderCall} {caller : Caller} {uuid : Bytes} {pc : RenderPc}

theorem lastFinished_finished :
    lastFinished (past ++ [⟨caller, uuid, .finished⟩]) = some uuid := by
  simp [lastFinished, RenderPc.isFinished]

theorem wipedSince_finished : wipedSince (past ++ [⟨caller, uuid, .finished⟩]) = false := by
  simp [wipedSince, RenderPc.isFinished]

theorem remains_finished : remains (past ++ [⟨caller, uuid, .finished⟩]) = some uuid := by
  simp [remains, wipedSince_finished, lastFinished_finished]

theorem lastFinished_unfinished (hpc : pc.isFinished = false) :
    lastFinished (past ++ [⟨caller, uuid, pc⟩]) = lastFinished past := by
  simp [lastFinished, hpc]

theorem wipedSince_unfinished (hpc : pc.isFinished = false) :
    wipedSince (past ++ [⟨caller, uuid, pc⟩]) = (pc == .failed true || wipedSince past) := by
  simp [wipedSince, hpc]

theorem remains_wiped : remains (past ++ [⟨caller, uuid, .failed true⟩]) = none := by
  rw [remains, wipedSince_unfinished rfl]
  simp

theorem remains_kept : remains (past ++ [⟨caller, uuid, .failed false⟩]) = remains past := by
  rw [remains, wipedSince_unfinished rfl, lastFinished_unfinished rfl]
  simp [remains]

end Calls

/-! ## §2 One call at a time -/

namespace Page

/-- What `#vis` shows while a call for `uuid` is under way behind the calls `past`. -/
def screen (past : List RenderCall) (uuid : Bytes) : RenderPc → Option Bytes
  | .rendering _ => none
  | .painted _ => some uuid
  | _ => remains past

/-- Where a tab is that the user leaves alone. -/
inductive Phase (p : Page) : Prop
  | asking (pc : AskPc) (hpc : pc ≠ .done) (hlandings : p.landings = [⟨.load, pc⟩])
      (hpoll : p.poll = .notStarted) (hcalls : p.calls = []) (hknown : p.latestKnown = none)
      (hcurrent : p.currentUuid = none) (hshowing : p.showing = none)
  | idle (hlandings : ∀ a ∈ p.landings, a.pc = .done) (hstarted : p.poll ≠ .notStarted)
      (hidle : p.poll ≠ .rendering) (hquiet : p.Quiet)
      (hcurrent : p.currentUuid = lastFinished p.calls) (hshowing : p.showing = remains p.calls)
  | busy (past : List RenderCall) (caller : Caller) (uuid : Bytes) (pc : RenderPc)
      (hlandings : ∀ a ∈ p.landings, a.pc = .done)
      (hpast : ∀ c ∈ past, c.pc.isDone = true) (hcalls : p.calls = past ++ [⟨caller, uuid, pc⟩])
      (hpc : pc.isDone = false)
      (hcaller : caller ≠ .location .popstate ∧ caller ≠ .landing .popstate)
      (hpoll : p.poll = if caller = .poll then .rendering else .notStarted)
      (hnew : lastFinished past ≠ some uuid) (hcurrent : p.currentUuid = lastFinished past)
      (hvisible : pc.entered = true → p.visHidden = false)
      (hshowing : p.showing = screen past uuid pc)

variable {st : Server.State} {l : Label} {p p' : Page} {past : List RenderCall} {caller : Caller}
  {uuid : Bytes} {pc : RenderPc}

theorem showing_of_canvas {q : Page} (h : q.canvas = p.canvas) : q.showing = p.showing := by
  have hhidden : q.visHidden = p.visHidden := congrArg Canvas.visHidden h
  have hshown : q.shown = p.shown := congrArg Canvas.shown h
  rw [showing, showing, hhidden, hshown]

/-- The last call is the one that is under way. -/
theorem last_of_undone {k : ℕ} {call : RenderCall} (hpast : ∀ c ∈ past, c.pc.isDone = true)
    (hk : (past ++ [⟨caller, uuid, pc⟩])[k]? = some call) (hcall : call.pc.isDone = false) :
    k = past.length ∧ call = ⟨caller, uuid, pc⟩ := by
  rw [List.getElem?_append] at hk
  split_ifs at hk with hlt
  · rw [hpast call (List.mem_of_getElem? hk)] at hcall
    cases hcall
  · obtain ⟨hzero, rfl⟩ : k - past.length = 0 ∧ _ = call := by
      simpa [List.getElem?_singleton] using hk
    exact ⟨by omega, rfl⟩

theorem calls_setCall_last (hcalls : p.calls = past ++ [⟨caller, uuid, pc⟩]) (pc' : RenderPc) :
    (p.setCall past.length pc').calls = past ++ [⟨caller, uuid, pc'⟩] := by
  show p.calls.modify past.length _ = _
  -- position `past.length` is that of the last call
  rw [hcalls, List.modify_eq_take_cons_drop (by simp)]
  simp

theorem quiet_of_last {q : Page} (hpast : ∀ c ∈ past, c.pc.isDone = true)
    (hcalls : q.calls = past ++ [⟨caller, uuid, pc⟩]) (hpc : pc.isDone = true) : q.Quiet := by
  intro c hc
  rw [hcalls] at hc
  rcases List.mem_append.mp hc with hc | hc
  · exact hpast c hc
  · obtain rfl := List.mem_singleton.mp hc
    exact hpc

/-- A call that comes to its end leaves the page idle. -/
theorem idle_of_end {q : Page} (hlandings : ∀ a ∈ q.landings, a.pc = .done) (hquiet : q.Quiet)
    (hcaller : caller ≠ .location .popstate ∧ caller ≠ .landing .popstate)
    (hcurrent : q.currentUuid = lastFinished q.calls) (hshowing : q.showing = remains q.calls) :
    (q.resumeCaller caller).Phase := by
  have hcourse := q.course_resumeCaller caller
  have hcanvas := q.canvas_resumeCaller caller
  have hcalls := q.calls_resumeCaller caller
  have hpoll : (q.resumeCaller caller).poll = q.pollBehind caller := congrArg Course.poll hcourse
  -- whoever awaited the call goes to sleep or starts to poll
  have hends : q.pollBehind caller = .sleeping ∨ q.pollBehind caller = .requested := by
    cases caller with
    | poll => exact Or.inl rfl
    | location o =>
      cases o with
      | load => exact Or.inr rfl
      | popstate => exact absurd rfl hcaller.1
    | landing o =>
      cases o with
      | load => exact Or.inr rfl
      | popstate => exact absurd rfl hcaller.2
  apply Phase.idle
  · rw [show (q.resumeCaller caller).landings = q.landings from congrArg Course.landings hcourse]
    exact hlandings
  · rw [hpoll]
    rcases hends with h | h <;> simp [h]
  · rw [hpoll]
    rcases hends with h | h <;> simp [h]
  · intro c hc
    exact hquiet c (hcalls ▸ hc)
  · rw [hcalls, ← hcurrent]
    exact congrArg Canvas.currentUuid hcanvas
  · rw [hcalls, showing_of_canvas hcanvas, hshowing]

/-- A call that starts on an idle page is under way, or it has come to its end already. -/
theorem phase_renderPlot {q : Page} (hlandings : ∀ a ∈ q.landings, a.pc = .done)
    (hquiet : q.Quiet) (hcaller : caller ≠ .location .popstate ∧ caller ≠ .landing .popstate)
    (hpoll : q.poll = if caller = .poll then .rendering else .notStarted)
    (hcurrent : q.currentUuid = lastFinished q.calls) (hshowing : q.showing = remains q.calls) :
    (q.renderPlot caller uuid).Phase := by
  unfold renderPlot
  split_ifs with hexit
  · exact idle_of_end hlandings hquiet hcaller hcurrent hshowing
  · refine .busy q.calls caller uuid .fetching hlandings hquiet rfl rfl hcaller hpoll ?_ hcurrent
      (by simp [RenderPc.entered]) hshowing
    -- the early exit was not taken, so the plot is not the one drawn last
    rw [← hcurrent]
    exact fun h => hexit h.symm

theorem Phase.busy_step {k : ℕ} {caller' : Caller} {uuid' : Bytes} {pc' : RenderPc}
    (hlandings : ∀ a ∈ p.landings, a.pc = .done)
    (hpast : ∀ c ∈ past, c.pc.isDone = true) (hcalls : p.calls = past ++ [⟨caller, uuid, pc⟩])
    (hcaller : caller ≠ .location .popstate ∧ caller ≠ .landing .popstate)
    (hpoll : p.poll = if caller = .poll then .rendering else .notStarted)
    (hnew : lastFinished past ≠ some uuid) (hcurrent : p.currentUuid = lastFinished past)
    (hvisible : pc.entered = true → p.visHidden = false)
    (hshowing : p.showing = screen past uuid pc)
    (hk : p.calls[k]? = some ⟨caller', uuid', pc'⟩)
    (hstage : Stage st l p p' k caller' uuid' pc') : p'.Phase := by
  obtain ⟨hundone, -⟩ := hstage.spec
  obtain ⟨rfl, hcall⟩ := last_of_undone hpast (hcalls ▸ hk) hundone
  cases hcall
  have hset := calls_setCall_last hcalls
  -- a stage is one of the call under way, the last of all
  cases hstage with
  | respond hl hpc hok hp' =>
    subst hpc hp'
    exact .busy past caller uuid _ hlandings hpast (hset _) rfl hcaller hpoll hnew hcurrent
      (by simp [RenderPc.entered]) hshowing
  | refuse code hl hpc hp' =>
    subst hpc hp'
    -- a refused request hides `#vis`
    refine idle_of_end hlandings (quiet_of_last hpast (hset _) rfl) hcaller ?_ ?_
    · show p.currentUuid = lastFinished (p.setCall past.length _).calls
      rw [hset, lastFinished_unfinished rfl, hcurrent]
    · show none = remains (p.setCall past.length _).calls
      rw [hset, remains_wiped]
  | throws e hl hpc hp' =>
    subst hp'
    -- an exception before the call enters leaves `#vis` as it was
    refine idle_of_end hlandings (quiet_of_last hpast (hset _) rfl) hcaller ?_ ?_
    · show p.currentUuid = lastFinished (p.setCall past.length _).calls
      rw [hset, lastFinished_unfinished rfl, hcurrent]
    · show p.showing = remains (p.setCall past.length _).calls
      rw [hset, remains_kept, hshowing]
      rcases hpc with rfl | ⟨body, rfl⟩ <;> rfl
  | enter body hl hpc hp' =>
    subst hpc hp'
    exact .busy past caller uuid _ hlandings hpast (hset _) rfl hcaller hpoll hnew hcurrent
      (fun _ => rfl) rfl
  | paint body hl hpc hp' =>
    subst hpc hp'
    -- the call draws on a visible `#vis`
    have hopen : p.visHidden = false := hvisible rfl
    refine .busy past caller uuid _ hlandings hpast (hset _) rfl hcaller hpoll hnew hcurrent
      (fun _ => hopen) ?_
    show (if p.visHidden then none else some uuid) = some uuid
    rw [hopen]
    rfl
  | crash body e hl hpc hp' =>
    subst hpc hp'
    -- an exception of `ggsqlRenderHep` comes behind an emptied `#vis`
    refine idle_of_end hlandings (quiet_of_last hpast (hset _) rfl) hcaller ?_ ?_
    · show p.currentUuid = lastFinished (p.setCall past.length _).calls
      rw [hset, lastFinished_unfinished rfl, hcurrent]
    · show p.showing = remains (p.setCall past.length _).calls
      rw [hset, remains_wiped, hshowing]
      rfl
  | abandon body e hl hpc hp' =>
    subst hpc hp'
    -- so does one that leaves an observed view
    refine idle_of_end hlandings (quiet_of_last hpast (hset _) rfl) hcaller ?_ ?_
    · show p.currentUuid = lastFinished (p.setCall past.length _).calls
      rw [hset, lastFinished_unfinished rfl, hcurrent]
    · show p.showing = remains (p.setCall past.length _).calls
      rw [hset, remains_wiped, hshowing]
      rfl
  | settle view hl hpc hp' =>
    subst hpc hp'
    -- the call ends well
    refine idle_of_end hlandings (quiet_of_last hpast (hset _) rfl) hcaller ?_ ?_
    · show some uuid = lastFinished (p.setCall past.length _).calls
      rw [hset, lastFinished_finished]
    · show p.showing = remains (p.setCall past.length _).calls
      rw [hset, remains_finished, hshowing]
      rfl

end Page

/-! ## §3 What is committed -/

/-- The plots that calls have been made for behind a commitment are no newer than `latestKnown`;
the plot in `latestKnown` itself was committed once, either for the last call of all or for
none, since it was on the screen. -/
structure Ledger (log : List Bytes) (known : Option Bytes) (calls : List RenderCall) : Prop where
  behind : ∀ c ∈ calls, c.caller.advances = true → ∃ v, known = some v ∧ NotAfter log c.uuid v
  last : ∀ v, known = some v →
    (∃ past c, calls = past ++ [c] ∧ c.caller.advances = true ∧ c.uuid = v ∧
      (∀ d ∈ past, d.caller.advances = true → d.uuid ≠ v) ∧ lastFinished past ≠ some v) ∨
    ((∀ d ∈ calls, d.caller.advances = true → d.uuid ≠ v) ∧ lastFinished calls = some v ∧
      ∀ d ∈ calls, d.pc.isDone = true)

namespace Ledger

variable {log : List Bytes} {known : Option Bytes} {calls past : List RenderCall} {u : Bytes}
  {caller : Caller} {pc : RenderPc}

theorem append (h : Ledger log known calls) (new : List Bytes) :
    Ledger (log ++ new) known calls := by
  refine ⟨?_, h.last⟩
  intro c hc hadvances
  obtain ⟨v, hv, hle⟩ := h.behind c hc hadvances
  exact ⟨v, hv, hle.append new⟩

/-- A call under way goes on. -/
theorem set_last (h : Ledger log known (past ++ [⟨caller, u, pc⟩])) (hpc : pc.isDone = false)
    (pc' : RenderPc) : Ledger log known (past ++ [⟨caller, u, pc'⟩]) := by
  refine ⟨?_, ?_⟩
  · intro c hc hadvances
    -- `behind`: the plot of the call stays the same
    rcases List.mem_append.mp hc with hc | hc
    · exact h.behind c (List.mem_append_left _ hc) hadvances
    · obtain rfl := List.mem_singleton.mp hc
      exact h.behind ⟨caller, u, pc⟩ (by simp) hadvances
  · intro v hv
    -- `last`: with a call under way, the commitment was for that call
    rcases h.last v hv with ⟨past', c, hcalls, hadvances, huuid, hfresh, hnew⟩ | ⟨-, -, hdone⟩
    · obtain ⟨rfl, hc⟩ := List.append_inj' hcalls rfl
      cases hc
      exact Or.inl ⟨past, _, rfl, hadvances, huuid, hfresh, hnew⟩
    · have := hdone ⟨caller, u, pc⟩ (by simp)
      rw [hpc] at this
      cases this

/-- No call has been made for a plot newer than `latestKnown`. -/
theorem fresh (h : Ledger log known calls) (hahead : ∀ v, known = some v → NotAfter log v u)
    (hne : known ≠ some u) : ∀ c ∈ calls, c.caller.advances = true → c.uuid ≠ u := by
  rintro c hc hadvances rfl
  obtain ⟨v, hv, hle⟩ := h.behind c hc hadvances
  -- such a call would be for `latestKnown` itself
  have : v = c.uuid := (hahead v hv).antisymm hle
  exact hne (this ▸ hv)

theorem behind_of_commit (h : Ledger log known calls)
    (hahead : ∀ v, known = some v → NotAfter log v u) :
    ∀ c ∈ calls, c.caller.advances = true → ∃ v, some u = some v ∧ NotAfter log c.uuid v := by
  intro c hc hadvances
  obtain ⟨v, hv, hle⟩ := h.behind c hc hadvances
  exact ⟨u, rfl, hle.trans (hahead v hv)⟩

theorem start (h : Ledger log known calls) (hmem : u ∈ log)
    (hahead : ∀ v, known = some v → NotAfter log v u) (hne : known ≠ some u)
    (hadvances : caller.advances = true) (hnew : lastFinished calls ≠ some u) :
    Ledger log (some u) (calls ++ [⟨caller, u, .fetching⟩]) := by
  refine ⟨?_, ?_⟩
  · intro c hc hc'
    rcases List.mem_append.mp hc with hc | hc
    · exact h.behind_of_commit hahead c hc hc'
    · obtain rfl := List.mem_singleton.mp hc
      exact ⟨u, rfl, .refl hmem⟩
  · intro v hv
    -- the plot is committed for the call that starts
    obtain rfl := Option.some.inj hv
    exact Or.inl ⟨calls, _, rfl, hadvances, rfl, h.fresh hahead hne, hnew⟩

theorem exit (h : Ledger log known calls) (hahead : ∀ v, known = some v → NotAfter log v u)
    (hne : known ≠ some u) (hcurrent : lastFinished calls = some u)
    (hdone : ∀ d ∈ calls, d.pc.isDone = true) : Ledger log (some u) calls := by
  refine ⟨h.behind_of_commit hahead, ?_⟩
  intro v hv
  obtain rfl := Option.some.inj hv
  -- the plot is on the screen, and no call is needed
  exact Or.inr ⟨h.fresh hahead hne, hcurrent, hdone⟩

end Ledger

namespace Page

variable {log : List Bytes} {st : Server.State} {l : Label} {p p' : Page} {caller : Caller}
  {uuid : Bytes}

/-- The call that follows a commitment. -/
theorem ledger_renderPlot {q : Page} (known : Option Bytes) (h : Ledger log known q.calls)
    (hknown : q.latestKnown = some uuid) (hmem : uuid ∈ log)
    (hahead : ∀ v, known = some v → NotAfter log v uuid) (hne : known ≠ some uuid)
    (hadvances : caller.advances = true) (hquiet : q.Quiet)
    (hcurrent : q.currentUuid = lastFinished q.calls) :
    Ledger log (q.renderPlot caller uuid).latestKnown (q.renderPlot caller uuid).calls := by
  unfold renderPlot
  split_ifs with hexit
  · rw [calls_resumeCaller, show (q.resumeCaller caller).latestKnown = q.latestKnown from
      congrArg Course.latestKnown (q.course_resumeCaller caller), hknown]
    exact h.exit hahead hne (hcurrent.symm.trans hexit.symm) hquiet
  · show Ledger log q.latestKnown (q.calls ++ _)
    rw [hknown]
    exact h.start hmem hahead hne hadvances fun hlast => hexit (hcurrent.trans hlast).symm

/-- The invariant of a tab that the user leaves alone. -/
structure Sequential (log : List Bytes) (p : Page) : Prop where
  phase : p.Phase
  ledger : Ledger log p.latestKnown p.calls

theorem Phase.oneReader (hp : p.Phase) : p.OneReader := by
  cases hp with
  | asking pc hpc hlandings hpoll => exact Or.inr ⟨hpoll, _, hlandings⟩
  | idle hlandings => exact Or.inl hlandings
  | busy past caller uuid pc hlandings => exact Or.inl hlandings

/-- The tab waits for the answer to its first request. -/
theorem sequential_asking (hledger : Ledger log p.latestKnown p.calls) {pc : AskPc}
    (hpc : pc ≠ .done) (hlandings : p.landings = [⟨.load, pc⟩]) (hpoll : p.poll = .notStarted)
    (hcalls : p.calls = []) (hknown : p.latestKnown = none) (hcurrent : p.currentUuid = none)
    (hshowing : p.showing = none) (hordered : Ordered log p.course)
    (hnames : ∀ w ∈ p.course.inFlight, IsName w)
    (h : p.step st l = some p') (hstay : p.destination l = none) :
    p'.Sequential log := by
  have hquiet : p.Quiet := by
    intro c hc
    rw [hcalls] at hc
    cases hc
  -- there is one request, the first
  have hzero : ∀ {k : ℕ} {a : Landing}, p.landings[k]? = some a → k = 0 ∧ a = ⟨.load, pc⟩ := by
    intro k a hk
    have hlt := (List.getElem?_eq_some_iff.mp hk).1
    rw [hlandings, List.length_singleton] at hlt
    obtain rfl : k = 0 := by omega
    rw [hlandings] at hk
    exact ⟨rfl, (Option.some.inj hk).symm⟩
  have hdone : ∀ a ∈ (p.setLanding 0 .done).landings, a.pc = .done := by
    simp [setLanding, hlandings]
  have hlast : p.currentUuid = lastFinished p.calls := by
    rw [hcurrent, hcalls]
    rfl
  have hremains : p.showing = remains p.calls := by
    rw [hshowing, hcalls]
    rfl
  cases move_step h with
  | call k caller uuid pc' hk hstage =>
    -- there are no calls
    rw [hcalls] at hk
    cases hk
  | rest poll hl hstarted hidle hp' => exact absurd hpoll hstarted
  | load promise hl hp' =>
    subst hp'
    exact ⟨.asking pc hpc hlandings hpoll hcalls hknown hcurrent hshowing, hledger⟩
  | visit hist hl hp' =>
    rw [hstay] at hl
    cases hl
  | askLanding k o hl hk hp' =>
    obtain ⟨rfl, ho⟩ := hzero hk
    cases ho
    subst hp'
    exact ⟨.asking (.answered st.latest) (by simp) (by simp [setLanding, hlandings]) hpoll
      hcalls hknown hcurrent hshowing, hledger⟩
  | land k o latest hl hk hp' =>
    obtain ⟨rfl, ho⟩ := hzero hk
    cases ho
    subst hp'
    cases latest with
    | none =>
      -- no plot yet: the poll loop starts
      show ((p.setLanding 0 .done).idle.resumeCaller (.landing .load)).Sequential log
      refine ⟨idle_of_end hdone hquiet (by simp) hlast ?_, hledger⟩
      show none = remains p.calls
      rw [← hremains, hshowing]
    | some w =>
      -- the first plot of the session is committed
      have hw : w ∈ p.course.inFlight := mem_inFlight_of_landing hk
      rw [land_some _ _ (hnames w hw)]
      have hnone : ∀ v, p.latestKnown = some v → NotAfter log v w := by
        intro v hv
        rw [hknown] at hv
        cases hv
      exact ⟨phase_renderPlot hdone hquiet (by simp) hpoll hlast hremains,
        ledger_renderPlot p.latestKnown hledger rfl (hordered.announced w hw) hnone
          (by simp [hknown]) rfl hquiet hlast⟩
  | abandon k o pc' e hl hk hpc' hp' =>
    -- the poll loop starts behind a failure as well
    obtain ⟨rfl, ho⟩ := hzero hk
    cases ho
    subst hp'
    exact ⟨idle_of_end hdone hquiet (by simp) hlast hremains, hledger⟩
  | ask hl hpoll' hp' =>
    -- the poll loop has not started
    rw [hpoll] at hpoll'
    cases hpoll'
  | hear latest hl hpoll' hp' =>
    rw [hpoll] at hpoll'
    cases hpoll'

/-- The poll loop runs, and no call is under way. -/
theorem sequential_idle (hledger : Ledger log p.latestKnown p.calls)
    (hlandings : ∀ a ∈ p.landings, a.pc = .done) (hstarted : p.poll ≠ .notStarted)
    (hidle : p.poll ≠ .rendering) (hquiet : p.Quiet)
    (hcurrent : p.currentUuid = lastFinished p.calls) (hshowing : p.showing = remains p.calls)
    (hordered : Ordered log p.course) (hnames : ∀ w ∈ p.course.inFlight, IsName w)
    (h : p.step st l = some p') (hstay : p.destination l = none) :
    p'.Sequential log := by
  cases move_step h with
  | call k caller uuid pc' hk hstage =>
    -- a stage needs a call that has not come to its end
    have hdone := hquiet _ (List.mem_of_getElem? hk)
    have hundone := hstage.spec.1
    rw [hdone] at hundone
    cases hundone
  | rest poll hl hstarted' hidle' hp' =>
    subst hp'
    refine ⟨.idle hlandings ?_ ?_ hquiet hcurrent hshowing, hledger⟩ <;>
      rcases hl with ⟨-, rfl⟩ | ⟨-, rfl⟩ <;> simp [setPoll]
  | load promise hl hp' =>
    subst hp'
    exact ⟨.idle hlandings hstarted hidle hquiet hcurrent hshowing, hledger⟩
  | visit hist hl hp' =>
    rw [hstay] at hl
    cases hl
  | askLanding k o hl hk hp' => cases hlandings _ (List.mem_of_getElem? hk)
  | land k o latest hl hk hp' => cases hlandings _ (List.mem_of_getElem? hk)
  | abandon k o pc' e hl hk hpc' hp' => exact absurd (hlandings _ (List.mem_of_getElem? hk)) hpc'
  | ask hl hpoll hp' =>
    subst hp'
    exact ⟨.idle hlandings (by simp [setPoll]) (by simp [setPoll]) hquiet hcurrent hshowing,
      hledger⟩
  | hear latest hl hpoll hp' =>
    subst hp'
    -- an answer without news sends the loop to sleep
    have hsleep : (p.setPoll .sleeping).Sequential log :=
      ⟨.idle hlandings (by simp [setPoll]) (by simp [setPoll]) hquiet hcurrent hshowing, hledger⟩
    cases latest with
    | none => exact hsleep
    | some w =>
      have hw : w ∈ p.course.inFlight := mem_inFlight_of_poll hpoll
      rw [p.advance_some (hnames w hw)]
      split_ifs with hnew
      -- the commitment leaves the drawing side alone
      · have hcurrent' : (p.commit w).currentUuid = lastFinished (p.commit w).calls := by
          rw [calls_commit, currentUuid_commit, hcurrent]
        have hshowing' : (p.commit w).showing = remains (p.commit w).calls := by
          rw [calls_commit, ← hshowing, showing_of_canvas (p.canvas_commit w)]
        have hquiet' : (p.commit w).Quiet := fun c hc => hquiet c (p.calls_commit w ▸ hc)
        refine ⟨phase_renderPlot ?_ hquiet' (by simp) rfl hcurrent' hshowing', ?_⟩
        · show ∀ a ∈ (p.commit w).landings, a.pc = .done
          rw [landings_commit]
          exact hlandings
        · refine ledger_renderPlot p.latestKnown ?_ (p.latestKnown_commit w)
            (hordered.announced w hw) ?_ hnew.symm rfl hquiet' hcurrent'
          · show Ledger log p.latestKnown (p.commit w).calls
            rw [calls_commit]
            exact hledger
          · exact fun v hv => hordered.ahead v hv w hw
      · exact hsleep

/-- A call is under way, and whoever made it waits for its end. -/
theorem sequential_busy (hledger : Ledger log p.latestKnown p.calls) {past : List RenderCall}
    {pc : RenderPc} (hlandings : ∀ a ∈ p.landings, a.pc = .done)
    (hpast : ∀ c ∈ past, c.pc.isDone = true) (hcalls : p.calls = past ++ [⟨caller, uuid, pc⟩])
    (hpc : pc.isDone = false)
    (hcaller : caller ≠ .location .popstate ∧ caller ≠ .landing .popstate)
    (hpoll : p.poll = if caller = .poll then .rendering else .notStarted)
    (hnew : lastFinished past ≠ some uuid) (hcurrent : p.currentUuid = lastFinished past)
    (hvisible : pc.entered = true → p.visHidden = false)
    (hshowing : p.showing = screen past uuid pc) (h : p.step st l = some p')
    (hstay : p.destination l = none) : p'.Sequential log := by
  -- the poll loop waits for the call, or for the first one
  have hbusy : p.poll = .notStarted ∨ p.poll = .rendering := by
    rw [hpoll]
    split_ifs <;> simp
  cases move_step h with
  | call k caller' uuid' pc' hk hstage =>
    refine ⟨Phase.busy_step hlandings hpast hcalls hcaller hpoll hnew hcurrent hvisible hshowing
      hk hstage, ?_⟩
    obtain ⟨hundone, pc'', hcalls', hcourse⟩ := hstage.spec
    obtain ⟨rfl, -⟩ := last_of_undone hpast (hcalls ▸ hk) hundone
    rw [hcalls', calls_setCall_last hcalls,
      show p'.latestKnown = p.latestKnown from congrArg Course.latestKnown hcourse]
    exact (hcalls ▸ hledger).set_last hpc pc''
  -- the poll loop does nothing meanwhile
  | rest poll hl hstarted hidle hp' => exact absurd hbusy (by simp [hstarted, hidle])
  | load promise hl hp' =>
    subst hp'
    exact ⟨.busy past caller uuid pc hlandings hpast hcalls hpc hcaller hpoll hnew hcurrent hvisible
      hshowing, hledger⟩
  | visit hist hl hp' =>
    rw [hstay] at hl
    cases hl
  | askLanding k o hl hk hp' => cases hlandings _ (List.mem_of_getElem? hk)
  | land k o latest hl hk hp' => cases hlandings _ (List.mem_of_getElem? hk)
  | abandon k o pc' e hl hk hpc' hp' => exact absurd (hlandings _ (List.mem_of_getElem? hk)) hpc'
  | ask hl hpoll' hp' => exact absurd hbusy (by simp [hpoll'])
  | hear latest hl hpoll' hp' => exact absurd hbusy (by simp [hpoll'])

/-- **One step of a tab that the user leaves alone**, whatever fails in it. -/
theorem sequential_step (hp : p.Sequential log) (hordered : Ordered log p.course)
    (hnames : ∀ w ∈ p.course.inFlight, IsName w) (h : p.step st l = some p')
    (hstay : p.destination l = none) : p'.Sequential log := by
  obtain ⟨hphase, hledger⟩ := hp
  cases hphase with
  | asking pc hpc hlandings hpoll hcalls hknown hcurrent hshowing =>
    exact sequential_asking hledger hpc hlandings hpoll hcalls hknown hcurrent hshowing hordered
      hnames h hstay
  | idle hlandings hstarted hidle hquiet hcurrent hshowing =>
    exact sequential_idle hledger hlandings hstarted hidle hquiet hcurrent hshowing hordered hnames
      h hstay
  | busy past caller uuid pc hlandings hpast hcalls hpc hcaller hpoll hnew hcurrent hvisible
      hshowing =>
    exact sequential_busy hledger hlandings hpast hcalls hpc hcaller hpoll hnew hcurrent hvisible
      hshowing h hstay

end Page

end GgsqlDuckdb
