import GgsqlDuckdb.Library.Chronicle
import GgsqlDuckdb.Page.System

/-!
# The two readers of `/api/latest`

The poll loop and `renderForCurrentLocation` both ask the server for the latest plot, and
both assign what they hear to `latestKnown`.  An answer is as new as the moment at which the
server gave it, and it may reach the page late.  While the answers come in turn, `latestKnown`
follows the order in which the server announced the plots; an answer that was overtaken by a
newer one takes it back.

## Main results

- `Ordered`: the plots that answers in flight name are no older than `latestKnown`.
- `latestKnown_forward`: as long as no answer overtakes an older one, `latestKnown` only moves
  forward, and the poll loop pushes a plot once.
- `latestKnown_backward`: an overtaken answer moves it back.
-/

namespace GgsqlDuckdb

open Library

/-! ## §1 Answers in flight -/

def AskPc.answer : AskPc → Option Bytes
  | .answered latest => latest
  | _ => none

def PollPc.answer : PollPc → Option Bytes
  | .answered latest => latest
  | _ => none

namespace Course

/-- The plots named by answers that have still to reach the page. -/
def inFlight (c : Course) : List Bytes :=
  c.poll.answer.toList ++ c.landings.filterMap fun a => a.pc.answer

theorem mem_inFlight {c : Course} {w : Bytes} :
    w ∈ c.inFlight ↔ c.poll.answer = some w ∨
      ∃ (k : ℕ) (a : Landing), c.landings[k]? = some a ∧ a.pc.answer = some w := by
  simp only [inFlight, List.mem_append, Option.mem_toList, List.mem_filterMap]
  refine or_congr Iff.rfl ⟨?_, ?_⟩
  · rintro ⟨a, ha, hanswer⟩
    obtain ⟨k, hk⟩ := List.mem_iff_getElem?.mp ha
    exact ⟨k, a, hk, hanswer⟩
  · rintro ⟨k, a, hk, hanswer⟩
    exact ⟨a, List.mem_of_getElem? hk, hanswer⟩

/-- Waking the poll loop or putting it to sleep gives no answer. -/
theorem inFlight_poll {c : Course} {poll : PollPc}
    (hpoll : poll = c.poll ∨ poll = .requested ∨ poll = .sleeping) {w : Bytes}
    (hw : w ∈ { c with poll := poll }.inFlight) : w ∈ c.inFlight := by
  rw [mem_inFlight] at hw ⊢
  rcases hw with hw | hw
  · left
    rcases hpoll with rfl | rfl | rfl
    · exact hw
    · cases hw
    · cases hw
  · exact Or.inr hw

end Course

namespace Page

theorem pollBehind_cases (p : Page) (caller : Caller) :
    p.pollBehind caller = p.poll ∨ p.pollBehind caller = .requested ∨
      p.pollBehind caller = .sleeping := by
  cases caller with
  | location o => cases o <;> simp [pollBehind]
  | landing o => cases o <;> simp [pollBehind]
  | poll => simp [pollBehind]

/-- A call of `renderPlot` leaves the asking side alone, or ends at once. -/
theorem course_renderPlot (p : Page) (caller : Caller) (uuid : Bytes) :
    ∃ poll, (poll = p.poll ∨ poll = .requested ∨ poll = .sleeping) ∧
      (p.renderPlot caller uuid).course = { p.course with poll := poll } := by
  unfold renderPlot
  split_ifs with hcurrent
  · exact ⟨_, p.pollBehind_cases caller, p.course_resumeCaller caller⟩
  · exact ⟨p.poll, Or.inl rfl, rfl⟩

theorem getElem?_setLanding (p : Page) (j k : ℕ) (pc : AskPc) :
    (p.setLanding k pc).landings[j]? =
      p.landings[j]?.map fun a => if k = j then { a with pc := pc } else a := by
  simp [setLanding, List.getElem?_modify]

/-- The answers the poll loop and a landing wait with are in flight. -/
theorem mem_inFlight_of_poll {p : Page} {w : Bytes} (h : p.poll = .answered (some w)) :
    w ∈ p.course.inFlight := by
  apply Course.mem_inFlight.mpr
  left
  rw [show p.course.poll = _ from h]
  rfl

theorem mem_inFlight_of_landing {p : Page} {k : ℕ} {o : Origin} {w : Bytes}
    (h : p.landings[k]? = some ⟨o, .answered (some w)⟩) : w ∈ p.course.inFlight :=
  Course.mem_inFlight.mpr (Or.inr ⟨k, _, h, rfl⟩)

/-- A landing that has come to its end names no plot any more. -/
theorem inFlight_setLanding_done {p : Page} {k : ℕ} {w : Bytes}
    (hw : w ∈ (p.setLanding k .done).course.inFlight) : w ∈ p.course.inFlight := by
  rw [Course.mem_inFlight] at hw ⊢
  rcases hw with hw | ⟨j, a, hj, ha⟩
  · exact Or.inl hw
  · obtain ⟨b, hb, rfl⟩ :=
      Option.map_eq_some_iff.mp ((p.getElem?_setLanding j k .done).symm.trans hj)
    by_cases hkj : k = j
    · simp [hkj, AskPc.answer] at ha
    · exact Or.inr ⟨j, b, hb, by simpa [hkj] using ha⟩

end Page

/-! ## §2 The order of announcement -/

/-- Answers in flight name announced plots and none that is older than `latestKnown`; the plots
pushed so far are distinct and none is newer than `latestKnown`. -/
structure Ordered (log : List Bytes) (c : Course) : Prop where
  announced : ∀ w ∈ c.inFlight, w ∈ log
  known : ∀ v, c.latestKnown = some v → v ∈ log
  ahead : ∀ v, c.latestKnown = some v → ∀ w ∈ c.inFlight, NotAfter log v w
  behind : ∀ w ∈ c.pushed, ∃ v, c.latestKnown = some v ∧ NotAfter log w v
  nodup : c.pushed.Nodup

/-- `latestKnown` has not moved to an earlier plot. -/
def Forward (log : List Bytes) (before after : Option Bytes) : Prop :=
  ∀ u, before = some u → ∃ v, after = some v ∧ NotAfter log u v

namespace Ordered

variable {log : List Bytes} {c c' : Course}

theorem append (h : Ordered log c) (new : List Bytes) : Ordered (log ++ new) c := by
  refine ⟨?_, ?_, ?_, ?_, h.nodup⟩
  · intro w hw
    exact List.mem_append_left _ (h.announced w hw)
  · intro v hv
    exact List.mem_append_left _ (h.known v hv)
  · intro v hv w hw
    exact (h.ahead v hv w hw).append new
  · intro w hw
    obtain ⟨v, hv, hle⟩ := h.behind w hw
    exact ⟨v, hv, hle.append new⟩

theorem forward_refl (h : Ordered log c) : Forward log c.latestKnown c.latestKnown :=
  fun u hu => ⟨u, hu, .refl (h.known u hu)⟩

/-- No new answer, and the bookkeeping untouched. -/
theorem keep (h : Ordered log c) (hknown : c'.latestKnown = c.latestKnown)
    (hpushed : c'.pushed = c.pushed) (hflight : ∀ w ∈ c'.inFlight, w ∈ c.inFlight) :
    Ordered log c' := by
  refine ⟨?_, ?_, ?_, ?_, hpushed ▸ h.nodup⟩
  · exact fun w hw => h.announced w (hflight w hw)
  · exact hknown ▸ h.known
  · intro v hv w hw
    exact h.ahead v (hknown ▸ hv) w (hflight w hw)
  · rw [hpushed, hknown]
    exact h.behind

/-- The server answers a request. -/
theorem ask (h : Ordered log c) (hnodup : log.Nodup) (hknown : c'.latestKnown = c.latestKnown)
    (hpushed : c'.pushed = c.pushed)
    (hflight : ∀ w ∈ c'.inFlight, w ∈ c.inFlight ∨ log.getLast? = some w) : Ordered log c' := by
  refine ⟨?_, hknown ▸ h.known, ?_, ?_, hpushed ▸ h.nodup⟩
  · intro w hw
    rcases hflight w hw with hold | hlast
    · exact h.announced w hold
    · exact List.mem_of_getLast? hlast
  · intro v hv w hw
    have hv : c.latestKnown = some v := hknown ▸ hv
    rcases hflight w hw with hold | hlast
    · exact h.ahead v hv w hold
    -- the answer given now names the last plot announced
    · exact notAfter_getLast? hnodup hlast (h.known v hv)
  · rw [hpushed, hknown]
    exact h.behind

/-- An answer that names `u` reaches the page before all answers that name older plots. -/
theorem deliver (h : Ordered log c) (u : Bytes) (rest : List Bytes) (hu : u ∈ c.inFlight)
    (hrest : ∀ w ∈ rest, w ∈ c.inFlight) (hturn : ∀ w ∈ rest, log.idxOf u ≤ log.idxOf w)
    (hflight : ∀ w ∈ c'.inFlight, w ∈ rest) (hknown : c'.latestKnown = some u)
    (hpushed : c'.pushed = c.pushed ∨
      ∃ v, c.latestKnown = some v ∧ u ≠ v ∧ c'.pushed = c.pushed ++ [u]) :
    Ordered log c' ∧ Forward log c.latestKnown c'.latestKnown := by
  have hmem := h.announced u hu
  -- what was pushed is no newer than `latestKnown`, and that no newer than `u`
  have hbehind : ∀ w ∈ c.pushed, NotAfter log w u := by
    intro w hw
    obtain ⟨v, hv, hle⟩ := h.behind w hw
    exact hle.trans (h.ahead v hv u hu)
  refine ⟨⟨?_, ?_, ?_, ?_, ?_⟩, ?_⟩
  · exact fun w hw => h.announced w (hrest w (hflight w hw))
  · intro v hv
    obtain rfl : u = v := Option.some.inj (hknown.symm.trans hv)
    exact hmem
  · intro v hv w hw
    obtain rfl : u = v := Option.some.inj (hknown.symm.trans hv)
    exact ⟨hmem, h.announced w (hrest w (hflight w hw)), hturn w (hflight w hw)⟩
  · intro w hw
    refine ⟨u, hknown, ?_⟩
    rcases hpushed with hsame | ⟨v, -, -, hnew⟩
    · exact hbehind w (hsame ▸ hw)
    · rw [hnew] at hw
      rcases List.mem_append.mp hw with hold | hlast
      · exact hbehind w hold
      · obtain rfl : w = u := by simpa using hlast
        exact .refl hmem
  · rcases hpushed with hsame | ⟨v, hv, hne, hnew⟩
    · exact hsame ▸ h.nodup
    · rw [hnew, List.nodup_append]
      refine ⟨h.nodup, by simp, ?_⟩
      rintro w hw x hx rfl
      obtain rfl : w = u := by simpa using hx
      -- `w` was pushed before, so it is between `latestKnown` and itself
      obtain ⟨v', hv', hle⟩ := h.behind w hw
      obtain rfl : v = v' := Option.some.inj (hv.symm.trans hv')
      exact hne (hle.antisymm (h.ahead v hv w hu))
  · intro v hv
    exact ⟨u, hknown, h.ahead v hv u hu⟩

end Ordered

/-! ## §3 Steps of the page -/

namespace Page

/-- `renderForCurrentLocation` touches neither `latestKnown` nor an answer in flight. -/
theorem course_renderForCurrentLocation (p : Page) (o : Origin) :
    (p.renderForCurrentLocation o).latestKnown = p.latestKnown ∧
      (p.renderForCurrentLocation o).pushed = p.pushed ∧
      ∀ w ∈ (p.renderForCurrentLocation o).course.inFlight, w ∈ p.course.inFlight := by
  unfold renderForCurrentLocation
  split
  · rename_i uuid huuid
    have hnormal : (p.normalise uuid).latestKnown = p.latestKnown ∧
        (p.normalise uuid).pushed = p.pushed ∧
        (p.normalise uuid).course.inFlight = p.course.inFlight := by
      unfold normalise
      split_ifs <;> exact ⟨rfl, rfl, rfl⟩
    obtain ⟨poll, hpoll, hcourse⟩ := (p.normalise uuid).course_renderPlot (.location o) uuid
    refine ⟨?_, ?_, ?_⟩
    · exact (congrArg Course.latestKnown hcourse).trans hnormal.1
    · exact (congrArg Course.pushed hcourse).trans hnormal.2.1
    · intro w hw
      rw [hcourse] at hw
      exact hnormal.2.2 ▸ Course.inFlight_poll hpoll hw
  · refine ⟨rfl, rfl, ?_⟩
    intro w hw
    -- the request that is sent has no answer yet
    rw [Course.mem_inFlight] at hw ⊢
    rcases hw with hw | ⟨k, a, hk, ha⟩
    · exact Or.inl hw
    · have hk : (p.landings ++ [(⟨o, .requested⟩ : Landing)])[k]? = some a := hk
      rw [List.getElem?_append] at hk
      split_ifs at hk with hlt
      · exact Or.inr ⟨k, a, hk, ha⟩
      · obtain ⟨-, rfl⟩ : k - p.landings.length = 0 ∧ _ = a := by
          simpa [List.getElem?_singleton] using hk
        cases ha

/-- The plot named by the answer that a step delivers, and those named by the others. -/
def delivering (p : Page) : Label → Option (Bytes × List Bytes)
  | .pollDelivered =>
    p.poll.answer.map fun u => (u, (p.setPoll .sleeping).course.inFlight)
  | .landingDelivered k =>
    (p.landings[k]?.bind fun a => a.pc.answer).map fun u =>
      (u, (p.setLanding k .done).course.inFlight)
  | _ => none

/-- The step delivers no answer while one that names an older plot is in flight. -/
def InTurn (log : List Bytes) (p : Page) (l : Label) : Prop :=
  ∀ d ∈ p.delivering l, ∀ w ∈ d.2, log.idxOf d.1 ≤ log.idxOf w

instance (log : List Bytes) (p : Page) (l : Label) : Decidable (InTurn log p l) :=
  inferInstanceAs (Decidable (∀ d ∈ p.delivering l, ∀ w ∈ d.2, log.idxOf d.1 ≤ log.idxOf w))

theorem truthy_eq_some {latest : Option Bytes} {uuid : Bytes} (h : truthy latest = some uuid) :
    latest = some uuid := by
  cases latest with
  | none => cases h
  | some u =>
    simp only [truthy] at h
    split_ifs at h
    exact h

variable {log : List Bytes} {p : Page}

theorem ordered_land {k : ℕ} {o : Origin} {latest : Option Bytes} (h : Ordered log p.course)
    (hk : p.landings[k]? = some ⟨o, .answered latest⟩)
    (hturn : InTurn log p (.landingDelivered k)) :
    Ordered log ((p.setLanding k .done).land o latest).course ∧
      Forward log p.latestKnown ((p.setLanding k .done).land o latest).course.latestKnown := by
  unfold land
  split
  · rename_i uuid huuid
    obtain rfl := truthy_eq_some huuid
    obtain ⟨poll, hpoll, hcourse⟩ :=
      ((p.setLanding k .done).adopt uuid).course_renderPlot (.landing o) uuid
    have hdelivering : p.delivering (.landingDelivered k) =
        some (uuid, (p.setLanding k .done).course.inFlight) := by
      simp [delivering, hk, AskPc.answer]
    rw [hcourse]
    refine h.deliver uuid (p.setLanding k .done).course.inFlight (mem_inFlight_of_landing hk) ?_
      ?_ ?_ rfl (Or.inl rfl)
    · exact fun w hw => inFlight_setLanding_done hw
    · exact hturn _ hdelivering
    · exact fun w hw => Course.inFlight_poll (c := (p.setLanding k .done).course) hpoll hw
  -- no plot to take over
  · rw [course_resumeCaller]
    refine ⟨h.keep rfl rfl ?_, h.forward_refl⟩
    intro w hw
    exact inFlight_setLanding_done
      (Course.inFlight_poll (c := (p.setLanding k .done).course) (pollBehind_cases _ _) hw)

theorem ordered_advance {latest : Option Bytes} (h : Ordered log p.course)
    (hpoll : p.poll = .answered latest) (hturn : InTurn log p .pollDelivered) :
    Ordered log (p.advance latest).course ∧
      Forward log p.latestKnown (p.advance latest).course.latestKnown := by
  -- an answer without news changes nothing
  have hidle : Ordered log (p.setPoll .sleeping).course ∧
      Forward log p.latestKnown (p.setPoll .sleeping).course.latestKnown := by
    refine ⟨h.keep rfl rfl ?_, h.forward_refl⟩
    exact fun w hw => Course.inFlight_poll (c := p.course) (Or.inr (Or.inr rfl)) hw
  unfold advance
  split
  · rename_i uuid huuid
    obtain rfl := truthy_eq_some huuid
    split_ifs with hnew
    · obtain ⟨poll, hpoll', hcourse⟩ :=
        ((p.commit uuid).setPoll .rendering).course_renderPlot .poll uuid
      have hdelivering : p.delivering .pollDelivered =
          some (uuid, (p.setPoll .sleeping).course.inFlight) := by
        simp [delivering, hpoll, PollPc.answer]
      rw [hcourse]
      refine h.deliver uuid (p.setPoll .sleeping).course.inFlight (mem_inFlight_of_poll hpoll) ?_
        ?_ ?_ (p.latestKnown_commit uuid) ?_
      · exact fun w hw => Course.inFlight_poll (c := p.course) (Or.inr (Or.inr rfl)) hw
      · exact hturn _ hdelivering
      -- the answer delivered is not in flight any more
      · intro w hw
        rw [Course.mem_inFlight] at hw ⊢
        rcases hw with hw | ⟨j, a, hj, ha⟩
        · rcases hpoll' with rfl | rfl | rfl <;> cases hw
        · have hj : (p.commit uuid).landings[j]? = some a := hj
          rw [landings_commit] at hj
          exact Or.inr ⟨j, a, hj, ha⟩
      · cases hknown : p.latestKnown with
        | none =>
          -- the first plot of the session is not pushed
          left
          show (p.commit uuid).pushed = p.pushed
          rw [commit, if_pos hknown]
          rfl
        | some v =>
          -- a plot is pushed only when it differs from `latestKnown`
          right
          refine ⟨v, hknown, ?_, ?_⟩
          · rintro rfl
            exact hnew hknown.symm
          · show (p.commit uuid).pushed = p.pushed ++ [uuid]
            rw [commit, if_neg (by simp [hknown])]
    · exact hidle
  · exact hidle

/-- **One step keeps the answers in order.** -/
theorem ordered_step {st : Server.State} {l : Label} {p' : Page} (h : Ordered log p.course)
    (hnodup : log.Nodup) (hlatest : st.latest = log.getLast?) (hstep : p.step st l = some p')
    (hturn : InTurn log p l) :
    Ordered log p'.course ∧ Forward log p.latestKnown p'.course.latestKnown := by
  cases move_step hstep with
  | call k caller uuid pc hk hstage =>
    -- a stage of `renderPlot` gives and takes no answer
    obtain ⟨-, pc', -, hcourse⟩ := hstage.spec
    rw [hcourse]
    refine ⟨h.keep rfl rfl ?_, h.forward_refl⟩
    intro w hw
    refine Course.inFlight_poll (c := p.course) ?_ hw
    split
    · exact p.pollBehind_cases caller
    · exact Or.inl rfl
  | rest poll hl hstarted hidle hp' =>
    subst hp'
    refine ⟨h.keep rfl rfl ?_, h.forward_refl⟩
    intro w hw
    refine Course.inFlight_poll (c := p.course) ?_ hw
    rcases hl with ⟨-, rfl⟩ | ⟨-, rfl⟩
    · exact Or.inr (Or.inl rfl)
    · exact Or.inr (Or.inr rfl)
  | load promise hl hp' =>
    -- the asking side does not wait for `loadHep`
    subst hp'
    exact ⟨h, h.forward_refl⟩
  | visit hist hl hp' =>
    -- a navigation may send a request, which has no answer yet
    subst hp'
    obtain ⟨hknown, hpushed, hflight⟩ :=
      course_renderForCurrentLocation { p with history := hist } .popstate
    refine ⟨h.keep hknown hpushed hflight, ?_⟩
    show Forward log p.latestKnown (renderForCurrentLocation _ _).latestKnown
    rw [hknown]
    exact h.forward_refl
  | askLanding k o hl hk hp' =>
    subst hp'
    refine ⟨h.ask hnodup rfl rfl ?_, h.forward_refl⟩
    intro w hw
    rw [Course.mem_inFlight] at hw
    rcases hw with hw | ⟨j, a, hj, ha⟩
    · exact Or.inl (Course.mem_inFlight.mpr (Or.inl hw))
    · obtain ⟨b, hb, rfl⟩ := Option.map_eq_some_iff.mp ((p.getElem?_setLanding j k _).symm.trans hj)
      -- the answer given now names the latest plot
      by_cases hkj : k = j
      · right
        rw [← hlatest]
        simpa [hkj, AskPc.answer] using ha
      · exact Or.inl (Course.mem_inFlight.mpr (Or.inr ⟨j, b, hb, by simpa [hkj] using ha⟩))
  | land k o latest hl hk hp' =>
    subst hp'
    exact ordered_land h hk (hl ▸ hturn)
  | abandon k o pc e hl hk hpc hp' =>
    rw [hp', course_resumeCaller]
    refine ⟨h.keep rfl rfl ?_, h.forward_refl⟩
    intro w hw
    exact inFlight_setLanding_done
      (Course.inFlight_poll (c := (p.setLanding k .done).course) (pollBehind_cases _ _) hw)
  | ask hl hpoll hp' =>
    subst hp'
    refine ⟨h.ask hnodup rfl rfl ?_, h.forward_refl⟩
    intro w hw
    rw [Course.mem_inFlight] at hw
    rcases hw with hw | hw
    · right
      rw [← hlatest]
      exact hw
    · exact Or.inl (Course.mem_inFlight.mpr (Or.inr hw))
  | hear latest hl hpoll hp' =>
    subst hp'
    exact ordered_advance h hpoll (hl ▸ hturn)

end Page

/-! ## §4 Runs -/

/-- The page's half of `Page.InTurn`. -/
def InTurn (s : Tab) : TabLabel → Prop
  | .server _ => True
  | .page l => s.page.InTurn s.server.announced l

instance (s : Tab) : (l : TabLabel) → Decidable (InTurn s l)
  | .server _ => isTrue trivial
  | .page l => inferInstanceAs (Decidable (s.page.InTurn s.server.announced l))

/-- The invariant of both sides. -/
structure Tab.Current (s : Tab) : Prop where
  sound : s.server.Sound
  ordered : Ordered s.server.announced s.page.course

namespace Tab

variable {s s' : Tab}

theorem announced_step {l : Server.RegistryLabel}
    (h : Server.registry.step s.server l = some s'.server) :
    ∃ new, s'.server.announced = s.server.announced ++ new := by
  cases Server.Registry.effect_of_step h with
  | other hcalls hplots hlatest hannounced => exact ⟨[], by rw [hannounced, List.append_nil]⟩
  | begin id hep hfresh hcalls hstate hannounced => exact ⟨[], by rw [hannounced, List.append_nil]⟩
  | insert k id hep hk hcalls hstate hannounced => exact ⟨[], by rw [hannounced, List.append_nil]⟩
  -- only a publication extends the log
  | publish k id hep hk hcalls hstate hannounced => exact ⟨[id.text], hannounced⟩
  | finish k id hep r hk hcalls hstate hannounced => exact ⟨[], by rw [hannounced, List.append_nil]⟩

theorem Current.step {l : TabLabel} (hs : s.Current) (hturn : InTurn s l)
    (h : tab.step s l = some s') :
    s'.Current ∧ Forward s'.server.announced s.page.latestKnown s'.page.latestKnown := by
  cases l with
  | server l =>
    -- the log grows, which keeps the order of its entries
    obtain ⟨hserver, hpage⟩ := step_server h
    obtain ⟨new, hnew⟩ := announced_step hserver
    have hordered : Ordered s'.server.announced s'.page.course := by
      rw [hnew, hpage]
      exact hs.ordered.append new
    refine ⟨⟨hs.sound.step hserver, hordered⟩, ?_⟩
    rw [← hpage]
    exact hordered.forward_refl
  | page l =>
    obtain ⟨hpage, hserver⟩ := step_page h
    have hconsistent := hs.sound.consistent
    obtain ⟨hordered, hforward⟩ :=
      Page.ordered_step hs.ordered hconsistent.nodup hconsistent.latest hpage hturn
    exact ⟨⟨hserver ▸ hs.sound, hserver ▸ hordered⟩, hserver ▸ hforward⟩

theorem current_of_init (h : tab.init s) : s.Current := by
  obtain ⟨hserver, l, hl⟩ := h
  obtain ⟨hknown, hpushed, hflight⟩ := (Page.initial l).course_renderForCurrentLocation .load
  -- a page that loads has heard of no plot
  have hblank : Ordered s.server.announced (Page.initial l).course := by
    constructor <;> simp [Page.initial, Page.course, Course.inFlight, PollPc.answer]
  refine ⟨Server.Registry.sound_of_reachable hserver, ?_⟩
  rw [hl]
  exact hblank.keep hknown hpushed hflight

theorem current_of_run {s₀ : Tab} {tr : List TabLabel} (h₀ : tab.init s₀)
    (hr : tab.run s₀ tr = some s) (hC : tab.Along InTurn s₀ tr) : s.Current :=
  Machine.run_invariant_along Current InTurn (fun _ _ _ hs hturn h => (hs.step hturn h).1)
    (current_of_init h₀) hC hr

end Tab

/-- **`latestKnown` only moves forward while the answers come in turn.**  In a run that delivers
no answer while one that names an older plot is in flight, no step moves `latestKnown` from a
plot to an earlier one, and the poll loop has pushed each plot at most once. -/
theorem latestKnown_forward {s₀ s : Tab} {tr : List TabLabel} (h₀ : tab.init s₀)
    (hr : tab.run s₀ tr = some s) (hC : tab.Along InTurn s₀ tr) :
    s.page.pushed.Nodup ∧
      ∀ tr₁ l tr₂ m m', tr = tr₁ ++ l :: tr₂ → tab.run s₀ tr₁ = some m →
        tab.step m l = some m' →
        ∀ u, m.page.latestKnown = some u →
          ∃ v, m'.page.latestKnown = some v ∧ NotAfter m'.server.announced u v := by
  refine ⟨(Tab.current_of_run h₀ hr hC).ordered.nodup, ?_⟩
  rintro tr₁ l tr₂ m m' rfl hr₁ hstep
  -- the invariant holds in front of the step, which is in turn
  obtain ⟨hC₁, hC₂⟩ := Machine.along_append hC hr₁
  exact ((Tab.current_of_run h₀ hr₁ hC₁).step hC₂.1 hstep).2

namespace Tab

/-- The user clears the fragment while a plot is shown, and the answer to the request that
follows is on its way when the poll loop hears of a second plot. -/
def crossing : List TabLabel :=
  publishing 0 Server.somePlot ++ landing 0 ++ fetching 0 ++ loading ++ drawing 0 ++
    [.page (.fragment []), .page (.landingAnswered 1)] ++
    publishing 1 Server.otherPlot ++ polling

/-- The answer arrives, and the poll loop goes around again. -/
def repeating : List TabLabel :=
  [.page (.landingDelivered 1)] ++ fetching 1 ++ drawing 1 ++ [.page .pollWake] ++ polling

/-- The same navigation, with its answer in front of the second plot. -/
def inTurn : List TabLabel :=
  publishing 0 Server.somePlot ++ landing 0 ++ fetching 0 ++ loading ++ drawing 0 ++
    [.page (.fragment [])] ++ landing 1 ++ publishing 1 Server.otherPlot ++ polling ++
    fetching 1 ++ drawing 1

end Tab

/-- The overtaken answer takes `latestKnown` back to the first plot, and the second one is
pushed twice. -/
theorem latestKnown_backward : ∃ m, tab.run (Tab.opened Tab.appRoot) Tab.crossing = some m ∧
    m.server.announced = [Server.somePlot.text, Server.otherPlot.text] ∧
    m.page.latestKnown = some Server.otherPlot.text ∧
    (∃ m', tab.run m [.page (.landingDelivered 1)] = some m' ∧
      m'.page.latestKnown = some Server.somePlot.text) ∧
    ∃ s, tab.run m Tab.repeating = some s ∧ ¬ s.page.pushed.Nodup := by
  obtain ⟨m, hm, hannounced, hknown, hback, htwice⟩ := Machine.run_decided (fun m : Tab =>
      m.server.announced = [Server.somePlot.text, Server.otherPlot.text] ∧
      m.page.latestKnown = some Server.otherPlot.text ∧
      (tab.run m [.page (.landingDelivered 1)]).any (fun m' =>
        decide (m'.page.latestKnown = some Server.somePlot.text)) = true ∧
      (tab.run m Tab.repeating).any (fun s => decide (¬ s.page.pushed.Nodup)) = true)
    (show (tab.run (Tab.opened Tab.appRoot) Tab.crossing).any _ = true by decide +kernel)
  exact ⟨m, hm, hannounced, hknown, Machine.run_decided _ hback, Machine.run_decided _ htwice⟩

/-- With the answer delivered at once, the poll loop pushes the second plot once. -/
theorem latestKnown_forward_inTurn : ∃ s,
    tab.run (Tab.opened Tab.appRoot) Tab.inTurn = some s ∧
    s.page.pushed = [Server.otherPlot.text] ∧ s.page.pushed.Nodup := by
  obtain ⟨s, hr, hpushed⟩ := Machine.run_decided
    (fun s : Tab => s.page.pushed = [Server.otherPlot.text])
    (show (tab.run (Tab.opened Tab.appRoot) Tab.inTurn).any _ = true by decide +kernel)
  have hC : tab.Along InTurn (Tab.opened Tab.appRoot) Tab.inTurn := by decide +kernel
  exact ⟨s, hr, hpushed, (latestKnown_forward (Tab.opened_init _) hr hC).1⟩

end GgsqlDuckdb
