import GgsqlDuckdb.Page.Unattended

/-!
# Failed updates

The poll loop commits a new plot to `latestKnown` before its call of `renderPlot`, and its
`catch` clause keeps that commitment: an update whose call fails is not tried again.

## Main results

- `Trying`: the rest of an iteration in which nothing fails.
- `update_shown_iff`: such an iteration ends with the plot it heard of exactly if that plot is
  not stale.
- `update_lost`: a call that fails once leaves the tab on the old plot for ever.
-/

namespace GgsqlDuckdb

open Library

/-! ## §1 An undisturbed iteration -/

/-- The plot `u` has been taken over before: its call has failed, or no call is needed for it
although `#vis` has been wiped. -/
def Stale (u : Bytes) (calls : List RenderCall) : Prop :=
  (∃ c ∈ calls, c.caller.advances = true ∧ c.uuid = u ∧ c.pc.isFailed = true) ∨
    lastFinished calls = some u ∧ wipedSince calls = true

instance (u : Bytes) (calls : List RenderCall) : Decidable (Stale u calls) :=
  inferInstanceAs (Decidable (_ ∨ _))

namespace Page

variable {st : Server.State} {l : Label} {p p' : Page} {uuid : Bytes} {calls : List RenderCall}

/-- The poll loop is at work on `uuid`, for which it has made the call behind `calls`, or has
ended it well. -/
def Trying (calls : List RenderCall) (uuid : Bytes) (p : Page) : Prop :=
  ∃ pc, p.calls = calls ++ [⟨.poll, uuid, pc⟩] ∧ pc.isFailed = false ∧
    p.poll = (if pc.isDone then .sleeping else .rendering) ∧ ∀ a ∈ p.landings, a.pc = .done

theorem Trying.step (hcalls : ∀ c ∈ calls, c.pc.isDone = true) (hp : p.Trying calls uuid)
    (h : p.step st l = some p') (hl : l.smooth st p.calls = true) (hstay : p.destination l = none)
    (hwake : l ≠ .pollWake) : p'.Trying calls uuid := by
  obtain ⟨pc, hlast, hfailed, hpoll, hlandings⟩ := hp
  have hbusy : p.poll = .sleeping ∨ p.poll = .rendering := by
    rw [hpoll]
    split_ifs <;> simp
  cases move_step h with
  | call k caller uuid' pc' hk hstage =>
    obtain ⟨rfl, hcall⟩ := last_of_undone hcalls (hlast ▸ hk) hstage.spec.1
    cases hcall
    -- only the call for `uuid` can take a step
    have hset := calls_setCall_last hlast
    have hrendering : p.poll = .rendering := by
      rw [hpoll, hstage.spec.1]
      rfl
    cases hstage with
    | respond hlabel hpc hok hp' =>
      subst hp'
      exact ⟨_, hset _, rfl, hrendering, hlandings⟩
    | refuse code hlabel hpc hp' =>
      -- the failures are excluded by `hl`
      rcases hlabel with ⟨rfl, hbad⟩ | rfl
      · simp [Label.smooth, hk, hbad] at hl
      · cases hl
    | throws e hlabel hpc hp' => rcases hlabel with rfl | rfl <;> cases hl
    | enter body hlabel hpc hp' =>
      -- the call goes on
      subst hp'
      exact ⟨_, hset _, rfl, hrendering, hlandings⟩
    | paint body hlabel hpc hp' =>
      subst hp'
      exact ⟨_, hset _, rfl, hrendering, hlandings⟩
    | crash body e hlabel hpc hp' =>
      subst hlabel
      cases hl
    | abandon body e hlabel hpc hp' =>
      subst hlabel
      cases hl
    | settle view hlabel hpc hp' =>
      -- the call has ended well, and the loop sleeps
      subst hp'
      exact ⟨_, hset _, rfl, rfl, hlandings⟩
  | rest poll hlabel hstarted hidle hp' =>
    -- the loop wakes only in the next iteration
    rcases hlabel with ⟨rfl, -⟩ | ⟨rfl, -⟩
    · exact absurd rfl hwake
    · cases hl
  | load promise hlabel hp' =>
    subst hp'
    exact ⟨pc, hlast, hfailed, hpoll, hlandings⟩
  | visit hist hdest hp' =>
    rw [hstay] at hdest
    cases hdest
  | askLanding k o hlabel hk hp' => cases hlandings _ (List.mem_of_getElem? hk)
  | land k o latest hlabel hk hp' => cases hlandings _ (List.mem_of_getElem? hk)
  | abandon k o pc' e hlabel hk hpc' hp' =>
    exact absurd (hlandings _ (List.mem_of_getElem? hk)) hpc'
  | ask hlabel hpoll' hp' => exact absurd hbusy (by simp [hpoll'])
  | hear latest hlabel hpoll' hp' => exact absurd hbusy (by simp [hpoll'])

/-- While the poll loop sleeps and nothing is under way, nothing happens. -/
theorem not_step_of_sleeping (hquiet : p.Quiet) (hpoll : p.poll = .sleeping)
    (hlandings : ∀ a ∈ p.landings, a.pc = .done) (hstay : p.destination l = none)
    (hwake : l ≠ .pollWake) : p.step st l ≠ some p' := by
  intro h
  cases move_step h with
  | call k caller uuid pc hk hstage =>
    -- every call has come to its end
    have hdone := hquiet _ (List.mem_of_getElem? hk)
    have hundone := hstage.spec.1
    rw [hdone] at hundone
    cases hundone
  | rest poll hlabel hstarted hidle hp' =>
    rcases hlabel with ⟨rfl, -⟩ | ⟨rfl, -⟩
    · exact hwake rfl
    · have hperform := (perform_of_step h).2
      simp [perform, hpoll] at hperform
  | load promise hlabel hp' =>
    -- no call awaits `loadHep`
    have hawaited := p.awaited_of_quiet hquiet
    have hperform := (perform_of_step h).2
    rcases hlabel with rfl | rfl <;> simp [perform, hawaited] at hperform
  | visit hist hdest hp' =>
    rw [hstay] at hdest
    cases hdest
  | askLanding k o hlabel hk hp' => cases hlandings _ (List.mem_of_getElem? hk)
  | land k o latest hlabel hk hp' => cases hlandings _ (List.mem_of_getElem? hk)
  | abandon k o pc e hlabel hk hpc hp' => exact hpc (hlandings _ (List.mem_of_getElem? hk))
  | ask hlabel hpoll' hp' =>
    rw [hpoll] at hpoll'
    cases hpoll'
  | hear latest hlabel hpoll' hp' =>
    rw [hpoll] at hpoll'
    cases hpoll'

end Page

/-- A commitment that is on record shows on the screen, unless it is stale. -/
theorem Ledger.shown_iff {log : List Bytes} {calls : List RenderCall} {u : Bytes}
    (h : Ledger log (some u) calls) (hdone : ∀ c ∈ calls, c.pc.isDone = true) :
    remains calls = some u ↔ ¬ Stale u calls := by
  rcases h.last u rfl with ⟨past, ⟨caller, uuid, pc⟩, rfl, hadvances, huuid, hfresh, hnew⟩ |
    ⟨hfresh, hlast, -⟩
  · obtain rfl : uuid = u := huuid
    have hlastDone := hdone ⟨caller, uuid, pc⟩ (by simp)
    cases pc with
    | finished =>
      -- the call for the plot has ended well
      rw [remains_finished]
      apply iff_of_true rfl
      rintro (⟨c, hc, hadv, hu, hfailed⟩ | ⟨-, hwiped⟩)
      · rcases List.mem_append.mp hc with hc | hc
        · exact hfresh c hc hadv hu
        · obtain rfl := List.mem_singleton.mp hc
          cases hfailed
      · rw [wipedSince_finished] at hwiped
        cases hwiped
    | failed wiped =>
      -- the call for the plot has failed, so an older plot shows or none
      apply iff_of_false
      · cases wiped with
        | true => simp [remains_wiped]
        | false =>
          rw [remains_kept, remains]
          split_ifs
          · simp
          · exact hnew
      · intro hstale
        exact hstale (Or.inl ⟨_, by simp, hadvances, rfl, rfl⟩)
    | _ => cases hlastDone
  -- no call was made for the plot, which was on the screen already
  · have hnone : ¬ ∃ c ∈ calls, c.caller.advances = true ∧ c.uuid = u ∧ c.pc.isFailed = true := by
      rintro ⟨c, hc, hadv, hu, -⟩
      exact hfresh c hc hadv hu
    rw [Stale, or_iff_right hnone, remains, hlast]
    cases wipedSince calls <;> simp

namespace Page

/-- What an idle page makes of the news of `uuid`. -/
theorem advance_spec {p : Page} {uuid : Bytes} (hname : IsName uuid)
    (hlandings : ∀ a ∈ p.landings, a.pc = .done) :
    ((p.advance (some uuid)).poll = .sleeping ∧ (p.advance (some uuid)).latestKnown = some uuid ∧
        (p.advance (some uuid)).calls = p.calls ∧ (p.advance (some uuid)).landings = p.landings) ∨
      ((p.advance (some uuid)).Trying p.calls uuid ∧ p.latestKnown ≠ some uuid ∧
        p.currentUuid ≠ some uuid) := by
  rw [p.advance_some hname]
  split_ifs with hknown
  · unfold renderPlot
    split_ifs with hexit
    -- the plot is on the screen, or a call is made for it
    · exact Or.inl ⟨rfl, p.latestKnown_commit uuid, p.calls_commit uuid, p.landings_commit uuid⟩
    · right
      refine ⟨⟨.fetching, ?_, rfl, rfl, ?_⟩, fun h => hknown h.symm, ?_⟩
      · exact congrArg (· ++ [(⟨.poll, uuid, .fetching⟩ : RenderCall)]) (p.calls_commit uuid)
      · show ∀ a ∈ (p.commit uuid).landings, a.pc = .done
        rw [landings_commit]
        exact hlandings
      · intro h
        exact hexit ((p.currentUuid_commit uuid).trans h).symm
  · exact Or.inl ⟨rfl, (not_not.mp hknown).symm, rfl, rfl⟩

end Page

/-! ## §2 Runs -/

namespace Tab

/-- The user does not navigate. -/
def Unattended (s : Tab) : TabLabel → Prop
  | .server _ => True
  | .page l => s.page.destination l = none

instance (s : Tab) : (l : TabLabel) → Decidable (Unattended s l)
  | .server _ => isTrue trivial
  | .page l => inferInstanceAs (Decidable (s.page.destination l = none))

/-- A step of an iteration of the poll loop in which nothing fails. -/
def Attempt (s : Tab) : TabLabel → Prop
  | .server _ => True
  | .page l => l.smooth s.server.state s.page.calls = true ∧ s.page.destination l = none ∧
      l ≠ .pollWake

instance (s : Tab) : (l : TabLabel) → Decidable (Attempt s l)
  | .server _ => isTrue trivial
  | .page l => inferInstanceAs (Decidable (l.smooth s.server.state s.page.calls = true ∧
      s.page.destination l = none ∧ l ≠ .pollWake))

/-- The invariant of a tab that the user leaves alone. -/
structure Alone (s : Tab) : Prop where
  current : s.Current
  sequential : s.page.Sequential s.server.announced

variable {s s' : Tab}

theorem Alone.step {l : TabLabel} (hs : s.Alone) (hl : Unattended s l)
    (h : tab.step s l = some s') : s'.Alone := by
  cases l with
  | server l =>
    -- the log grows, which keeps the ledger
    obtain ⟨hserver, hpage⟩ := step_server h
    obtain ⟨new, hnew⟩ := announced_step hserver
    refine ⟨(hs.current.step (l := .server l) trivial h).1, ?_⟩
    rw [hpage, hnew]
    exact ⟨hs.sequential.phase, hs.sequential.ledger.append new⟩
  | page l =>
    obtain ⟨hpage, hserver⟩ := step_page h
    have hturn := hs.sequential.phase.oneReader.inTurn s.server.announced l
    refine ⟨(hs.current.step (l := .page l) hturn h).1, ?_⟩
    rw [hserver]
    exact Page.sequential_step hs.sequential hs.current.ordered (fun w hw => hs.current.isName hw)
      hpage hl

theorem Attempt.unattended {l : TabLabel} (hl : Attempt s l) : Unattended s l := by
  cases l with
  | server l => trivial
  | page l => exact hl.2.1

theorem alone_of_init (h : tab.init s) : s.Alone := by
  have hcurrent := current_of_init h
  obtain ⟨-, l, hl⟩ := h
  refine ⟨hcurrent, ?_⟩
  rw [hl]
  cases huuid : uuidFromLocation l with
  -- a page that asks for the latest plot
  | none =>
    rw [Page.load_unlinked huuid]
    refine ⟨.asking .requested (by simp) rfl rfl rfl rfl rfl rfl, by simp [Page.initial], ?_⟩
    intro v hv
    cases hv
  -- a page with a call for the plot of its URL
  | some uuid =>
    obtain ⟨h, -, -, -, hload⟩ := Page.load_linked huuid
    rw [hload]
    refine ⟨.busy [] (.location .load) uuid .fetching (by simp [Page.linked, Page.initial])
      (by simp) rfl rfl (by simp) rfl (by simp [lastFinished]) rfl (by simp [RenderPc.entered]) rfl,
      by simp [Page.linked, Caller.advances], ?_⟩
    intro v hv
    cases hv

theorem alone_of_run {s₀ : Tab} {tr : List TabLabel} (h₀ : tab.init s₀)
    (hr : tab.run s₀ tr = some s) (hC : tab.Along Unattended s₀ tr) : s.Alone :=
  Machine.run_invariant_along Alone Unattended (fun _ _ _ hs hl h => hs.step hl h)
    (alone_of_init h₀) hC hr

/-- The rest of an iteration whose call is under way. -/
theorem trying_of_run {calls : List RenderCall} {u : Bytes} {tr : List TabLabel}
    (hcalls : ∀ c ∈ calls, c.pc.isDone = true) (hs : s.page.Trying calls u)
    (hr : tab.run s tr = some s') (hC : tab.Along Attempt s tr) : s'.page.Trying calls u := by
  refine Machine.run_invariant_along (fun t : Tab => t.page.Trying calls u) Attempt ?_ hs hC hr
  intro t l t' ht hl h
  cases l with
  | server l => rwa [(step_server h).2]
  | page l => exact ht.step hcalls (step_page h).1 hl.1 hl.2.1 hl.2.2

/-- The rest of an iteration without a call. -/
theorem page_of_run {tr : List TabLabel} (hquiet : s.page.Quiet) (hpoll : s.page.poll = .sleeping)
    (hlandings : ∀ a ∈ s.page.landings, a.pc = .done) (hr : tab.run s tr = some s')
    (hC : tab.Along Attempt s tr) : s'.page = s.page := by
  refine Machine.run_invariant_along (fun t : Tab => t.page = s.page) Attempt ?_ rfl hC hr
  intro t l t' ht hl h
  cases l with
  | server l => exact (step_server h).2.trans ht
  | page l =>
    have hstep := (step_page h).1
    -- the page has nothing to do
    rw [ht] at hstep
    exact absurd hstep (Page.not_step_of_sleeping hquiet hpoll hlandings (ht ▸ hl.2.1) hl.2.2)

end Tab

namespace Tab

/-- A plot is shown, and the call for a second one fails. -/
def failing : List TabLabel :=
  publishing 0 Server.somePlot ++ landing 0 ++ fetching 0 ++ loading ++ drawing 0 ++
    publishing 1 Server.otherPlot ++ polling ++ [.page (.fetchThrows 1 "")] ++
    [.page .pollWake, .page .pollAnswered]

/-- The call fails while a third plot is on its way. -/
def recovering : List TabLabel :=
  publishing 0 Server.somePlot ++ landing 0 ++ fetching 0 ++ loading ++ drawing 0 ++
    publishing 1 Server.otherPlot ++ polling ++ publishing 2 Server.thirdPlot ++
    [.page (.fetchThrows 1 "")] ++ [.page .pollWake, .page .pollAnswered]

end Tab

end GgsqlDuckdb
