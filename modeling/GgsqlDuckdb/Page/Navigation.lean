import GgsqlDuckdb.Page.Locations

/-!
# The last navigation

A call of `renderPlot` decides at its start whether the plot is already shown, draws some
`await`s later, and records what it drew only at its end.  While calls overlap, a decision can
be taken against a `currentUuid` that is about to change, and a slow call can draw over a
newer one.

## Main results

- `Tidy`: the newest call that has drawn is what `#vis` shows, and the newest one that has
  finished is what `currentUuid` holds.
- `last_navigation_wins`: where neither of the two mishaps occurs, a page without calls under
  way shows the plot its location names.
- `last_navigation_loses`: the early exit taken too soon.
-/

namespace GgsqlDuckdb

open Library

/-! ## §1 The newest call that has come so far -/

/-- The call has drawn. -/
def RenderPc.drawn : RenderPc → Bool
  | .painted _ => true
  | .finished => true
  | _ => false

def RenderPc.isFinished : RenderPc → Bool
  | .finished => true
  | _ => false

/-- The call has made `#vis` visible. -/
def RenderPc.entered : RenderPc → Bool
  | .rendering _ => true
  | .painted _ => true
  | .finished => true
  | _ => false

namespace Canvas

variable {c : Canvas} {f : RenderPc → Bool} {k m : ℕ} {a call : RenderCall} {pc : RenderPc}

/-- The call `m` satisfies `f`, and none that started later does. -/
structure Newest (f : RenderPc → Bool) (calls : List RenderCall) (m : ℕ) (a : RenderCall) :
    Prop where
  call : calls[m]? = some a
  holds : f a.pc = true
  later : ∀ j, m < j → ∀ b, calls[j]? = some b → f b.pc = false

/-- The plot of call `k` and of the newest call behind it that satisfies `ahead`. -/
def overtakenBy (c : Canvas) (k : ℕ) (ahead : RenderPc → Bool) : Option (Bytes × Bytes) :=
  c.calls[k]?.bind fun call =>
    (((c.calls.drop (k + 1)).filter fun a => ahead a.pc).getLast?).map fun a =>
      (call.uuid, a.uuid)

/-- The newest call behind `k` is the one that `overtakenBy` finds. -/
theorem overtakenBy_eq (hk : c.calls[k]? = some call) (h : Newest f c.calls m a) (hkm : k < m) :
    c.overtakenBy k f = some (call.uuid, a.uuid) := by
  obtain ⟨hm, hget⟩ := List.getElem?_eq_some_iff.mp h.call
  -- behind `m` there is no candidate left
  have hnone : (c.calls.drop (m + 1)).filter (fun b => f b.pc) = [] := by
    rw [List.filter_eq_nil_iff]
    intro b hb
    obtain ⟨j, hj⟩ := List.mem_iff_getElem?.mp hb
    rw [List.getElem?_drop] at hj
    simp [h.later (m + 1 + j) (by omega) b hj]
  have hsplit : c.calls.drop (k + 1) =
      (c.calls.drop (k + 1)).take (m - (k + 1)) ++ a :: c.calls.drop (m + 1) := by
    have hdrop : (c.calls.drop (k + 1)).drop (m - (k + 1)) = a :: c.calls.drop (m + 1) := by
      rw [List.drop_drop, Nat.add_sub_cancel' hkm, List.drop_eq_getElem_cons hm, hget]
    rw [← hdrop, List.take_append_drop]
  have hlast : (((c.calls.drop (k + 1)).filter fun b => f b.pc).getLast?) = some a := by
    rw [hsplit, List.filter_append, List.filter_cons, if_pos h.holds, hnone]
    simp
  simp [overtakenBy, hk, hlast]

theorem Newest.of_setCall (hk : c.calls[k]? = some call) (hpc : f pc = f call.pc)
    (h : Newest f (c.setCall k pc).calls m a) : ∃ b, Newest f c.calls m b ∧ b.uuid = a.uuid := by
  -- calls behind `m` that satisfied `f` before still would
  have hlater : ∀ j, m < j → ∀ b, c.calls[j]? = some b → f b.pc = false := by
    intro j hj b hb
    have hafter := h.later j hj (if k = j then { b with pc := pc } else b)
      (by rw [getElem?_setCall, hb]; rfl)
    split_ifs at hafter with hkj
    · subst hkj
      obtain rfl : call = b := Option.some.inj (hk.symm.trans hb)
      exact hpc ▸ hafter
    · exact hafter
  have hcall := h.call
  rw [getElem?_setCall] at hcall
  obtain ⟨b, hb, rfl⟩ := Option.map_eq_some_iff.mp hcall
  have hholds := h.holds
  refine ⟨b, ⟨hb, ?_, hlater⟩, ?_⟩
  · split_ifs at hholds with hkm
    · subst hkm
      obtain rfl : call = b := Option.some.inj (hk.symm.trans hb)
      exact hpc ▸ hholds
    · exact hholds
  · split_ifs <;> rfl

theorem Newest.of_start {new : RenderCall} (hnew : f new.pc = false)
    (h : Newest f (c.calls ++ [new]) m a) : Newest f c.calls m a := by
  have hcall := h.call
  -- the call that starts does not satisfy `f`, so it is not the newest one that does
  have hlt : m < c.calls.length := by
    by_contra hge
    rw [List.getElem?_append_right (Nat.le_of_not_lt hge)] at hcall
    obtain ⟨-, rfl⟩ : m - c.calls.length = 0 ∧ new = a := by
      simpa [List.getElem?_singleton] using hcall
    rw [h.holds] at hnew
    cases hnew
  rw [List.getElem?_append_left hlt] at hcall
  refine ⟨hcall, h.holds, ?_⟩
  intro j hj b hb
  apply h.later j hj b
  rw [List.getElem?_append_left (List.getElem?_eq_some_iff.mp hb).1, hb]

/-- A call that a step takes past `f` is the newest one to be there, or it was overtaken. -/
theorem Newest.advance (hk : c.calls[k]? = some call) (hpc : f pc = true)
    (h : Newest f (c.setCall k pc).calls m a) :
    a.uuid = call.uuid ∨ k < m ∧ Newest f c.calls m a := by
  have hself : (c.setCall k pc).calls[k]? = some { call with pc := pc } := by
    rw [getElem?_setCall, hk]
    simp
  -- the newest call stands behind `k`, is `k`, or would have to stand in front of it
  rcases Nat.lt_trichotomy k m with hkm | rfl | hmk
  · right
    have hother : ∀ j, k < j → (c.setCall k pc).calls[j]? = c.calls[j]? := by
      intro j hj
      rw [getElem?_setCall]
      simp [Nat.ne_of_lt hj]
    refine ⟨hkm, (hother m hkm) ▸ h.call, h.holds, ?_⟩
    intro j hj b hb
    exact h.later j hj b (by rw [hother j (hkm.trans hj), hb])
  · left
    rw [← Option.some.inj (hself.symm.trans h.call)]
  · have := h.later k hmk _ hself
    rw [hpc] at this
    cases this

end Canvas

/-! ## §2 What is drawn and what is recorded -/

/-- Without failures: `currentUuid` is the plot of the newest call that has finished, and `#vis`
shows the plot of the newest one that has drawn, unless some call has just emptied it. -/
structure Canvas.Tidy (c : Canvas) : Prop where
  current : ∀ m a, Newest RenderPc.isFinished c.calls m a → c.currentUuid = some a.uuid
  shown : ∀ m a, Newest RenderPc.drawn c.calls m a →
    c.shown = some a.uuid ∨ ∃ (j : ℕ) (b : RenderCall) (body : Server.Body),
      c.calls[j]? = some b ∧ b.pc = .rendering body
  visible : ∀ a ∈ c.calls, a.pc.entered = true → c.visHidden = false
  smooth : ∀ a ∈ c.calls, ∀ wiped, a.pc ≠ .failed wiped

/-- The step is none of the failures, the server has every plot the page asks for, and the user
only goes back and forth. -/
def Page.Label.smooth (st : Server.State) (calls : List RenderCall) : Page.Label → Bool
  | .fetchAnswered k => calls[k]?.all fun call => Page.ok (Page.plotResponse st call.uuid).status
  | .fragment _ => false
  | .landingFails _ _ => false
  | .fetchStatus _ _ => false
  | .fetchThrows _ _ => false
  | .bodyThrows _ _ => false
  | .loadFails => false
  | .renderThrows _ _ => false
  | .drawThrows _ _ => false
  | .pollFails => false
  | _ => true

namespace Canvas

/-- The plot of the call that a step draws or ends, and that of the newest call which has come
as far although it started later. -/
def overtaken (c : Canvas) : Page.Label → Option (Bytes × Bytes)
  | .paint k => c.overtakenBy k RenderPc.drawn
  | .resume k => c.overtakenBy k RenderPc.isFinished
  | _ => none

variable {st : Server.State} {l : Page.Label} {c c' : Canvas} {k : ℕ} {call : RenderCall}

theorem blank_tidy : Tidy blank := by
  constructor
  · rintro m a ⟨hcall, -, -⟩
    cases hcall
  · rintro m a ⟨hcall, -, -⟩
    cases hcall
  · simp [blank]
  · simp [blank]

/-- A stage that is no failure leaves no failed call. -/
theorem Tidy.smooth_setCall (hc : Tidy c) {pc : RenderPc} (hpc : ∀ wiped, pc ≠ .failed wiped) :
    ∀ a ∈ (c.setCall k pc).calls, ∀ wiped, a.pc ≠ .failed wiped := by
  intro a ha wiped hfailed
  obtain ⟨j, hj⟩ := List.mem_iff_getElem?.mp ha
  rcases call_of_setCall hj with ⟨-, hset⟩ | ⟨-, hj'⟩
  · exact hpc wiped (hset.symm.trans hfailed)
  · exact hc.smooth a (List.mem_of_getElem? hj') wiped hfailed

/-- A call that awaits `ggsqlRenderHep` still does so behind a step about another one. -/
theorem rendering_setCall {j : ℕ} {b : RenderCall} {body : Server.Body} {pc : RenderPc}
    (hk : c.calls[k]? = some call) (hcall : call.pc.entered = false ∨ call.pc.drawn = true)
    (hj : c.calls[j]? = some b) (hb : b.pc = .rendering body) :
    (c.setCall k pc).calls[j]? = some b := by
  have hne : k ≠ j := by
    rintro rfl
    obtain rfl : call = b := Option.some.inj (hk.symm.trans hj)
    rcases hcall with hcall | hcall <;> rw [hb] at hcall <;> cases hcall
  exact getElem?_setCall_of_ne hne hj

/-- A stage of a call before it draws. -/
theorem Tidy.of_stage (hc : Tidy c) {pc : RenderPc} (hk : c.calls[k]? = some call)
    (hold : call.pc.drawn = false) (hnew : pc.drawn = false)
    (hcurrent : c'.currentUuid = c.currentUuid)
    (hcalls : c'.calls = (c.setCall k pc).calls)
    (hshown : c'.shown = c.shown ∧ c'.visHidden = c.visHidden ∧ pc.entered = false ∧
        call.pc.entered = false ∨
      c'.visHidden = false ∧ ∃ body, pc = .rendering body)
    (hsmooth : ∀ wiped, pc ≠ .failed wiped) : Tidy c' := by
  -- a call that has not drawn has not finished
  have hfinished : ∀ pc : RenderPc, pc.drawn = false → pc.isFinished = false := by
    intro pc hpc
    cases pc with
    | finished => cases hpc
    | _ => rfl
  have hnewest : ∀ {f : RenderPc → Bool} {m : ℕ} {a : RenderCall}, f pc = f call.pc →
      Newest f c'.calls m a → ∃ b, Newest f c.calls m b ∧ b.uuid = a.uuid := by
    intro f m a hf ha
    exact Newest.of_setCall hk hf (hcalls ▸ ha)
  have hself : c'.calls[k]? = some { call with pc := pc } := by
    rw [hcalls, getElem?_setCall, hk]
    simp
  refine ⟨?_, ?_, ?_, ?_⟩
  · intro m a ha
    -- `current`: the finished calls stay the same
    obtain ⟨b, hb, huuid⟩ := hnewest ((hfinished pc hnew).trans (hfinished _ hold).symm) ha
    rw [hcurrent, hc.current m b hb, huuid]
  · intro m a ha
    -- `shown`: the drawn calls stay the same, or this one has just emptied `#vis`
    rcases hshown with ⟨hshown, -, hpc, hbefore⟩ | ⟨-, body, rfl⟩
    · obtain ⟨b, hb, huuid⟩ := hnewest (hnew.trans hold.symm) ha
      rcases hc.shown m b hb with hshows | ⟨j, d, body, hj, hd⟩
      · exact Or.inl (by rw [hshown, hshows, huuid])
      · right
        refine ⟨j, d, body, ?_, hd⟩
        rw [hcalls]
        exact rendering_setCall hk (Or.inl hbefore) hj hd
    · exact Or.inr ⟨k, _, body, hself, rfl⟩
  -- `visible`: the call that enters shows `#vis`, the others do not hide it
  · intro a ha hentered
    rcases hshown with ⟨-, hhidden, hpc, -⟩ | ⟨hhidden, -⟩
    · obtain ⟨j, hj⟩ := List.mem_iff_getElem?.mp ha
      rw [hcalls] at hj
      rcases call_of_setCall hj with ⟨-, hset⟩ | ⟨-, hj'⟩
      · rw [hset, hpc] at hentered
        cases hentered
      · rw [hhidden]
        exact hc.visible a (List.mem_of_getElem? hj') hentered
    · exact hhidden
  · rw [hcalls]
    exact hc.smooth_setCall hsmooth

/-- **One step keeps the canvas tidy**, unless the call it is about was overtaken. -/
theorem Tidy.step (hc : Tidy c) (h : Effect st l c c') (hl : l.smooth st c.calls = true)
    (hidle : ∀ k, l = .landingDelivered k → c.calls = [])
    (horder : ∀ d ∈ c.overtaken l, d.1 = d.2) : Tidy c' := by
  cases h with
  | still h => exact h ▸ hc
  | idle k hlabel h =>
    -- the page hides `#vis` only before its first call
    subst h
    refine ⟨hc.current, hc.shown, ?_, hc.smooth⟩
    intro a ha
    have ha : a ∈ c.calls := ha
    rw [hidle k hlabel] at ha
    cases ha
  | start caller uuid hne h =>
    -- the new call has neither drawn nor finished
    subst h
    refine ⟨?_, ?_, ?_, ?_⟩
    · intro m a ha
      exact hc.current m a (ha.of_start rfl)
    · intro m a ha
      rcases hc.shown m a (ha.of_start rfl) with hshows | ⟨j, b, body, hj, hb⟩
      · exact Or.inl hshows
      · refine Or.inr ⟨j, b, body, ?_, hb⟩
        show (c.calls ++ [_])[j]? = some b
        rw [List.getElem?_append_left (List.getElem?_eq_some_iff.mp hj).1, hj]
    · intro a ha hentered
      rcases List.mem_append.mp ha with hold | hnew
      · exact hc.visible a hold hentered
      · obtain rfl : a = _ := by simpa using hnew
        cases hentered
    · intro a ha wiped hpc
      rcases List.mem_append.mp ha with hold | hnew
      · exact hc.smooth a hold wiped hpc
      · obtain rfl : a = _ := by simpa using hnew
        cases hpc
  | respond k caller uuid body hlabel hk hok h =>
    subst h
    exact hc.of_stage hk rfl rfl rfl rfl (Or.inl ⟨rfl, rfl, rfl, rfl⟩) (by simp)
  | refuse k caller uuid hlabel hk h =>
    -- the failures are excluded by `hl`
    rcases hlabel with ⟨rfl, hbad⟩ | ⟨code, rfl⟩
    · simp [Page.Label.smooth, hk, hbad] at hl
    · cases hl
  | throws k caller uuid pc hlabel hk hpc h =>
    rcases hlabel with ⟨e, rfl⟩ | ⟨e, rfl⟩ <;> cases hl
  | crash k caller uuid body hlabel hk h =>
    obtain ⟨e, rfl⟩ := hlabel
    cases hl
  | abandon k caller uuid body hlabel hk h =>
    obtain ⟨e, rfl⟩ := hlabel
    cases hl
  -- `#vis` is emptied until this call draws
  | enter k caller uuid body hlabel hk h =>
    subst h
    exact hc.of_stage hk rfl rfl rfl rfl (Or.inr ⟨rfl, body, rfl⟩) (by simp)
  | paint k caller uuid body hlabel hk h =>
    subst hlabel
    subst h
    refine ⟨?_, ?_, ?_, hc.smooth_setCall (by simp)⟩
    · intro m a ha
      obtain ⟨b, hb, huuid⟩ := Newest.of_setCall hk (by rfl) ha
      rw [← huuid]
      exact hc.current m b hb
    · intro m a ha
      left
      -- the call has drawn last, so it must be the newest one, or one for the same plot
      rcases Newest.advance hk rfl ha with huuid | ⟨hkm, hnewest⟩
      · exact congrArg some huuid.symm
      · exact congrArg some (horder _ (overtakenBy_eq hk hnewest hkm))
    · intro a ha hentered
      exact hc.visible _ (List.mem_of_getElem? hk) rfl
  | settle k caller uuid view hlabel hk h =>
    -- the call ends last, so it must be the newest one, or one for the same plot
    subst hlabel
    subst h
    refine ⟨?_, ?_, ?_, hc.smooth_setCall (by simp)⟩
    · intro m a ha
      rcases Newest.advance hk rfl ha with huuid | ⟨hkm, hnewest⟩
      · exact congrArg some huuid.symm
      · exact congrArg some (horder _ (overtakenBy_eq hk hnewest hkm))
    · intro m a ha
      obtain ⟨b, hb, huuid⟩ := Newest.of_setCall hk (by rfl) ha
      rw [← huuid]
      rcases hc.shown m b hb with hshows | ⟨j, d, body, hj, hd⟩
      · exact Or.inl hshows
      · exact Or.inr ⟨j, d, body, rendering_setCall hk (Or.inr rfl) hj hd, hd⟩
    · intro a ha hentered
      exact hc.visible _ (List.mem_of_getElem? hk) rfl

end Canvas

/-! ## §3 Where the location leads -/

namespace Page

/-- The plot that the user or the poll loop asks `renderPlot` for in a step. -/
def requested (p : Page) : Label → Option Bytes
  | .pollDelivered => (truthy p.poll.answer).filter fun u => some u ≠ p.latestKnown
  | l => (p.destination l).bind fun h => uuidFromLocation h.here

theorem requested_eq_none {p : Page} {l : Label} (hstay : p.destination l = none)
    (hl : l ≠ .pollDelivered) : p.requested l = none := by
  cases l with
  | pollDelivered => exact absurd rfl hl
  | _ => simp [requested, hstay]

/-- Neither mishap occurs: the early exit is taken only for the plot of the call that started
last, and no call draws or ends behind a newer one for another plot. -/
def InOrder (p : Page) (l : Label) : Prop :=
  (∀ u ∈ p.requested l, p.currentUuid = some u → p.uuids.getLast? = some u) ∧
    ∀ d ∈ p.canvas.overtaken l, d.1 = d.2

instance (p : Page) (l : Label) : Decidable (p.InOrder l) :=
  inferInstanceAs (Decidable ((∀ u ∈ p.requested l, _) ∧ ∀ d ∈ p.canvas.overtaken l, d.1 = d.2))

/-- A page that has not come across a plot yet. -/
structure Bare (p : Page) : Prop where
  back : p.history.back = []
  forward : p.history.forward = []
  here : uuidFromLocation p.history.here = none
  latestKnown : p.latestKnown = none
  canvas : p.canvas = Canvas.blank
  reader : p.OneReader

/-- A page whose history names plots only; the call that started last is for the current
entry. -/
structure Named (p : Page) : Prop where
  entries : p.history.All fun l => (uuidFromLocation l).isSome = true
  here : uuidFromLocation p.history.here = p.uuids.getLast?
  landings : ∀ a ∈ p.landings, a.pc = .done

variable {st : Server.State} {l : Label} {p p' : Page}

/-- A call of `renderPlot` for the plot of the current entry. -/
theorem named_renderPlot {caller : Caller} {uuid : Bytes}
    (hentries : p.history.All fun l => (uuidFromLocation l).isSome = true)
    (hhere : uuidFromLocation p.history.here = some uuid)
    (hlandings : ∀ a ∈ p.landings, a.pc = .done)
    (hexit : p.currentUuid = some uuid → p.uuids.getLast? = some uuid) :
    (p.renderPlot caller uuid).Named := by
  unfold renderPlot
  split_ifs with hcurrent
  · have hcourse := p.course_resumeCaller caller
    -- early exit: the plot is that of the call that started last
    have hhistory : (p.resumeCaller caller).history = p.history := congrArg Course.history hcourse
    refine ⟨hhistory ▸ hentries, ?_, ?_⟩
    · rw [hhistory, hhere, uuids, calls_resumeCaller]
      exact (hexit hcurrent.symm).symm
    · rw [show (p.resumeCaller caller).landings = p.landings from congrArg Course.landings hcourse]
      exact hlandings
  · refine ⟨hentries, ?_, hlandings⟩
    -- the new call is now the last one
    rw [hhere]
    simp [uuids]

theorem Bare.calls (hp : p.Bare) : p.calls = [] := congrArg Canvas.calls hp.canvas

theorem Bare.currentUuid (hp : p.Bare) : p.currentUuid = none :=
  congrArg Canvas.currentUuid hp.canvas

/-- The page takes its first plot over. -/
theorem Bare.adopt (hp : p.Bare) {uuid : Bytes} {caller : Caller} (hname : IsName uuid) {q : Page}
    (hhistory : q.history = (p.adopt uuid).history) (hcurrent : q.currentUuid = p.currentUuid)
    (hlandings : ∀ a ∈ q.landings, a.pc = .done) : (q.renderPlot caller uuid).Named := by
  have hhere : uuidFromLocation q.history.here = some uuid := by
    rw [hhistory]
    exact uuidFromLocation_withPlot hname _
  -- the only entry is the current one, which names the plot
  refine named_renderPlot ?_ hhere hlandings ?_
  · refine ⟨?_, by rw [hhere]; rfl, ?_⟩
    · rw [hhistory]
      intro l hl
      have hl : l ∈ p.history.back := hl
      rw [hp.back] at hl
      cases hl
    · rw [hhistory]
      intro l hl
      have hl : l ∈ p.history.forward := hl
      rw [hp.forward] at hl
      cases hl
  · rw [hcurrent, hp.currentUuid]
    intro h
    cases h

theorem setLanding_done {k : ℕ} {o : Origin} {pc : AskPc} (hreader : p.OneReader)
    (hk : p.landings[k]? = some ⟨o, pc⟩) (hpc : pc ≠ .done) :
    p.poll = .notStarted ∧ (∀ pc', ∃ a, (p.setLanding k pc').landings = [a]) ∧
      ∀ a ∈ (p.setLanding k .done).landings, a.pc = .done := by
  rcases hreader with hdone | ⟨hpoll, b, hb⟩
  · exact absurd (hdone _ (List.mem_of_getElem? hk)) hpc
  · have hzero : k = 0 := by
      by_contra hne
      rw [hb, List.getElem?_eq_none (by simp; omega)] at hk
      cases hk
    subst hzero
    exact ⟨hpoll, fun pc' => ⟨_, by simp [setLanding, hb]; rfl⟩, by simp [setLanding, hb]⟩

theorem Bare.step (hp : p.Bare) (h : p.step st l = some p') (hl : l.smooth st p.calls = true)
    (hnames : ∀ w ∈ p.course.inFlight, IsName w) : p'.Bare ∨ p'.Named := by
  cases move_step h with
  | call k caller uuid pc hk hstage =>
    -- there are no calls
    rw [hp.calls] at hk
    cases hk
  | rest poll hlabel hstarted hidle hp' =>
    subst hp'
    -- without a plot the page waits on
    left
    exact ⟨hp.back, hp.forward, hp.here, hp.latestKnown, hp.canvas,
      Or.inl (hp.reader.landings_done hstarted)⟩
  | load promise hlabel hp' =>
    subst hp'
    exact Or.inl ⟨hp.back, hp.forward, hp.here, hp.latestKnown, hp.canvas, hp.reader⟩
  | visit hist hdest hp' =>
    -- there is no entry to go to, and the user edits no URL
    cases l with
    | goBack n => simp [destination, History.goBack, hp.back] at hdest
    | goForward n => simp [destination, History.goForward, hp.forward] at hdest
    | fragment hash => cases hl
    | _ => cases hdest
  | askLanding k o hlabel hk hp' =>
    subst hp'
    obtain ⟨hpoll, hone, -⟩ := setLanding_done hp.reader hk (by simp)
    exact Or.inl ⟨hp.back, hp.forward, hp.here, hp.latestKnown, hp.canvas, Or.inr ⟨hpoll, hone _⟩⟩
  | land k o latest hlabel hk hp' =>
    subst hp'
    obtain ⟨-, -, hdone⟩ := setLanding_done hp.reader hk (by simp)
    cases latest with
    | none =>
      left
      show ((p.setLanding k .done).idle.resumeCaller (.landing o)).Bare
      have hcourse := course_resumeCaller (p.setLanding k .done).idle (.landing o)
      have hhistory := congrArg Course.history hcourse
      have hlandings := congrArg Course.landings hcourse
      refine ⟨?_, ?_, ?_, ?_, ?_, Or.inl ?_⟩
      · exact (congrArg History.back hhistory).trans hp.back
      · exact (congrArg History.forward hhistory).trans hp.forward
      · exact (congrArg (fun h : History => uuidFromLocation h.here) hhistory).trans hp.here
      · exact (congrArg Course.latestKnown hcourse).trans hp.latestKnown
      · rw [canvas_resumeCaller]
        show { p.canvas with visHidden := true } = Canvas.blank
        rw [hp.canvas]
        rfl
      · rw [show (resumeCaller _ _).landings = _ from hlandings]
        exact hdone
    | some uuid =>
      -- the first plot of the session is taken over
      right
      have hname : IsName uuid := hnames uuid (mem_inFlight_of_landing hk)
      rw [land_some _ o hname]
      exact hp.adopt hname rfl rfl hdone
  | abandon k o pc e hlabel hk hpc hp' =>
    -- a failure
    subst hlabel
    cases hl
  | ask hlabel hpoll hp' =>
    subst hp'
    left
    exact ⟨hp.back, hp.forward, hp.here, hp.latestKnown, hp.canvas,
      Or.inl (hp.reader.landings_done (by simp [hpoll]))⟩
  | hear latest hlabel hpoll hp' =>
    subst hp'
    have hdone : ∀ a ∈ p.landings, a.pc = .done := hp.reader.landings_done (by simp [hpoll])
    cases latest with
    | none => exact Or.inl ⟨hp.back, hp.forward, hp.here, hp.latestKnown, hp.canvas, Or.inl hdone⟩
    -- the poll loop hears of the first plot
    | some uuid =>
      right
      have hname : IsName uuid := hnames uuid (mem_inFlight_of_poll hpoll)
      have hnew : some uuid ≠ p.latestKnown := by
        rw [hp.latestKnown]
        simp
      have hadopt : p.commit uuid = p.adopt uuid := if_pos hp.latestKnown
      rw [p.advance_some hname, if_pos hnew, hadopt]
      exact hp.adopt hname rfl rfl hdone

theorem Named.step (hp : p.Named) (h : p.step st l = some p') (hl : l.smooth st p.calls = true)
    (hnames : ∀ w ∈ p.course.inFlight, IsName w)
    (hexit : ∀ u ∈ p.requested l, p.currentUuid = some u → p.uuids.getLast? = some u) :
    p'.Named := by
  cases move_step h with
  | call k caller uuid pc hk hstage =>
    -- a stage of a call changes neither the history nor the order of the calls
    obtain ⟨-, pc', hcalls, hcourse⟩ := hstage.spec
    have hhistory : p'.history = p.history := congrArg Course.history hcourse
    have hlandings : p'.landings = p.landings := congrArg Course.landings hcourse
    refine ⟨hhistory ▸ hp.entries, ?_, hlandings ▸ hp.landings⟩
    rw [hhistory, uuids, hcalls, hp.here]
    exact congrArg List.getLast? (p.uuids_setCall k pc').symm
  | rest poll hlabel hstarted hidle hp' =>
    subst hp'
    exact ⟨hp.entries, hp.here, hp.landings⟩
  | load promise hlabel hp' =>
    subst hp'
    exact ⟨hp.entries, hp.here, hp.landings⟩
  | visit hist hdest hp' =>
    -- the entry that is reached names a plot, and the page asks for it
    subst hp'
    have hentries : hist.All fun l => (uuidFromLocation l).isSome = true := by
      cases l with
      | goBack n => exact hp.entries.goBack hdest
      | goForward n => exact hp.entries.goForward hdest
      | fragment hash => cases hl
      | _ => cases hdest
    obtain ⟨uuid, huuid⟩ := Option.isSome_iff_exists.mp hentries.here
    have hrequested : p.requested l = some uuid := by
      cases l with
      | pollDelivered => cases hdest
      | _ => simp [requested, hdest, huuid]
    unfold renderForCurrentLocation
    rw [show uuidFromLocation _ = some uuid from huuid]
    have hroot := uuidFromLocation_root (isName_of_location huuid)
    show (renderPlot _ _ _).Named
    unfold normalise
    -- a legacy URL is rewritten to one that names the same plot
    split_ifs with hlegacy
    · refine named_renderPlot (hentries.replaceState ?_) hroot hp.landings (hexit uuid hrequested)
      rw [hroot]
      rfl
    · exact named_renderPlot hentries huuid hp.landings (hexit uuid hrequested)
  | askLanding k o hlabel hk hp' =>
    cases hp.landings _ (List.mem_of_getElem? hk)
  | land k o latest hlabel hk hp' =>
    cases hp.landings _ (List.mem_of_getElem? hk)
  | abandon k o pc e hlabel hk hpc hp' =>
    subst hlabel
    cases hl
  | ask hlabel hpoll hp' =>
    subst hp'
    exact ⟨hp.entries, hp.here, hp.landings⟩
  | hear latest hlabel hpoll hp' =>
    subst hp'
    subst hlabel
    cases latest with
    | none => exact ⟨hp.entries, hp.here, hp.landings⟩
    | some uuid =>
      -- the poll loop hears of `uuid`
      have hname : IsName uuid := hnames uuid (mem_inFlight_of_poll hpoll)
      have hhere := uuidFromLocation_withPlot hname p.history.here
      rw [p.advance_some hname]
      split_ifs with hnew
      · have hrequested : p.requested .pollDelivered = some uuid := by
          simp [requested, hpoll, PollPc.answer, truthy_of_isName hname, hnew]
        have hexit := hexit uuid hrequested
        unfold commit
        -- the current entry is replaced for the first plot, and left behind later
        split_ifs with hfirst
        · refine named_renderPlot (hp.entries.replaceState ?_) hhere hp.landings hexit
          rw [hhere]
          rfl
        · refine named_renderPlot (hp.entries.pushState ?_) hhere hp.landings hexit
          rw [hhere]
          rfl
      · exact ⟨hp.entries, hp.here, hp.landings⟩

end Page

/-! ## §4 Runs -/

namespace Tab

/-- The step is smooth in the page's sense; the server may do anything. -/
def Smooth (s : Tab) : TabLabel → Prop
  | .server _ => True
  | .page l => l.smooth s.server.state s.page.calls = true

instance (s : Tab) : (l : TabLabel) → Decidable (Smooth s l)
  | .server _ => isTrue trivial
  | .page l => inferInstanceAs (Decidable (l.smooth s.server.state s.page.calls = true))

/-- The step is in order in the page's sense. -/
def InOrder (s : Tab) : TabLabel → Prop
  | .server _ => True
  | .page l => s.page.InOrder l

instance (s : Tab) : (l : TabLabel) → Decidable (InOrder s l)
  | .server _ => isTrue trivial
  | .page l => inferInstanceAs (Decidable (s.page.InOrder l))

/-- The invariant of smooth runs in order. -/
structure Tracked (s : Tab) : Prop where
  current : s.Current
  phase : s.page.Bare ∨ s.page.Named
  tidy : s.page.canvas.Tidy

variable {s s' : Tab}

theorem Tracked.oneReader (hs : s.Tracked) : s.page.OneReader := by
  rcases hs.phase with hbare | hnamed
  · exact hbare.reader
  · exact Or.inl hnamed.landings

theorem Tracked.step {l : TabLabel} (hs : s.Tracked) (hl : Smooth s l ∧ InOrder s l)
    (h : tab.step s l = some s') : s'.Tracked := by
  cases l with
  | server l =>
    -- the server changes nothing on the page
    have hcurrent := (hs.current.step (l := .server l) trivial h).1
    have hpage := (step_server h).2
    exact ⟨hcurrent, hpage ▸ hs.phase, hpage ▸ hs.tidy⟩
  | page l =>
    obtain ⟨hsmooth, hexit, horder⟩ := hl
    have hcurrent := (hs.current.step (l := .page l) (hs.oneReader.inTurn _ l) h).1
    obtain ⟨hpage, -⟩ := step_page h
    have hnames : ∀ w ∈ s.page.course.inFlight, IsName w := fun w hw => hs.current.isName hw
    refine ⟨hcurrent, ?_, ?_⟩
    -- where the location leads
    · rcases hs.phase with hbare | hnamed
      · exact hbare.step hpage hsmooth hnames
      · exact Or.inr (hnamed.step hpage hsmooth hnames hexit)
    -- what is drawn
    · refine hs.tidy.step (Page.canvas_step hpage) hsmooth ?_ horder
      rintro k rfl
      rcases hs.phase with hbare | hnamed
      · exact hbare.calls
      · -- a page whose location names a plot awaits no answer of its own
        have hperform := (Page.perform_of_step hpage).2
        simp only [Page.perform] at hperform
        split at hperform
        · rename_i o latest hk
          cases hnamed.landings _ (List.mem_of_getElem? hk)
        · cases hperform

theorem tracked_of_init (h : tab.init s) : s.Tracked := by
  have hcurrent := current_of_init h
  obtain ⟨-, l, hl⟩ := h
  refine ⟨hcurrent, ?_, ?_⟩
  · rw [hl]
    cases huuid : uuidFromLocation l with
    -- a page that asks for the latest plot
    | none =>
      rw [Page.load_unlinked huuid]
      exact Or.inl ⟨rfl, rfl, huuid, rfl, rfl, Or.inr ⟨rfl, _, rfl⟩⟩
    -- a page that calls `renderPlot` for the plot of its URL
    | some uuid =>
      obtain ⟨h, hback, hforward, hhere, hload⟩ := Page.load_linked huuid
      rw [hload]
      refine Or.inr ⟨⟨?_, ?_, ?_⟩, hhere, by simp [Page.linked, Page.initial]⟩
      · simp [Page.linked, hback]
      · rw [show (Page.linked l h uuid).history = h from rfl, hhere]
        rfl
      · simp [Page.linked, hforward]
  · rw [hl]
    apply Canvas.blank_tidy.step (Page.canvas_load .empty .pollWake l) rfl
    · intro k hk
      cases hk
    · intro d hd
      cases hd

theorem tracked_of_run {s₀ : Tab} {tr : List TabLabel} (h₀ : tab.init s₀)
    (hr : tab.run s₀ tr = some s) (hsmooth : tab.Along Smooth s₀ tr)
    (horder : tab.Along InOrder s₀ tr) : s.Tracked :=
  Machine.run_invariant_along Tracked _ (fun _ _ _ hs hl h => hs.step hl h) (tracked_of_init h₀)
    (Machine.along_and hsmooth horder) hr

end Tab

/-- A named page at rest shows the plot of the call that started last. -/
theorem Page.Named.rest {p : Page} (hp : p.Named) (hc : p.canvas.Tidy) (hquiet : p.Quiet) :
    p.showing = uuidFromLocation p.history.here ∧
      p.currentUuid = uuidFromLocation p.history.here := by
  obtain ⟨uuid, huuid⟩ := Option.isSome_iff_exists.mp hp.entries.here
  obtain ⟨a, ha, rfl⟩ : ∃ a, p.calls.getLast? = some a ∧ a.uuid = uuid := by
    have hlast := hp.here.symm.trans huuid
    rw [uuids, List.getLast?_map] at hlast
    exact Option.map_eq_some_iff.mp hlast
  obtain ⟨before, hcalls⟩ := List.getLast?_eq_some_iff.mp ha
  have hfinished : ∀ b ∈ p.calls, b.pc = .finished := by
    intro b hb
    have hdone := hquiet b hb
    have hsmooth := hc.smooth b hb
    cases hpc : b.pc with
    | finished => rfl
    | failed wiped => exact absurd hpc (hsmooth wiped)
    | _ => rw [hpc] at hdone; cases hdone
  have hlater : ∀ j, before.length < j → p.canvas.calls[j]? = none := by
    intro j hj
    show p.calls[j]? = none
    rw [hcalls, List.getElem?_eq_none (by simp; omega)]
  have hmem : p.canvas.calls[before.length]? = some a := by
    show p.calls[before.length]? = some a
    rw [hcalls]
    simp
  have hnewest : ∀ f : RenderPc → Bool, f .finished = true →
      Canvas.Newest f p.canvas.calls before.length a := by
    intro f hf
    refine ⟨hmem, ?_, ?_⟩
    · rw [hfinished a (List.mem_of_getElem? hmem), hf]
    · intro j hj b hb
      rw [hlater j hj] at hb
      cases hb
  have hshown : p.shown = some a.uuid := by
    rcases hc.shown _ a (hnewest _ rfl) with hshown | ⟨j, b, body, hj, hb⟩
    · exact hshown
    · rw [hfinished b (List.mem_of_getElem? hj)] at hb
      cases hb
  have hvisible : p.visHidden = false := by
    apply hc.visible a (List.mem_of_getElem? hmem)
    rw [hfinished a (List.mem_of_getElem? hmem)]
    rfl
  rw [huuid]
  refine ⟨?_, hc.current _ a (hnewest _ rfl)⟩
  rw [showing, hvisible, hshown]
  rfl

/-- **The last navigation wins, where the calls of `renderPlot` end in order.**  In a run in which
nothing fails and the user only goes back and forth, let each early exit be taken only for the
plot of the call that started last, and let no call draw or end behind a newer one for another
plot.  When no call is under way, the plot shown and `currentUuid` are what the location
names. -/
theorem last_navigation_wins {s₀ s : Tab} {tr : List TabLabel} (h₀ : tab.init s₀)
    (hr : tab.run s₀ tr = some s) (hsmooth : tab.Along Tab.Smooth s₀ tr)
    (horder : tab.Along Tab.InOrder s₀ tr) (hquiet : s.page.Quiet) :
    s.page.showing = uuidFromLocation s.page.history.here ∧
      s.page.currentUuid = uuidFromLocation s.page.history.here := by
  have htracked := Tab.tracked_of_run h₀ hr hsmooth horder
  rcases htracked.phase with hbare | hnamed
  · rw [hbare.here]
    refine ⟨?_, hbare.currentUuid⟩
    -- a page that has not come across a plot shows none
    have hhidden : s.page.visHidden = true := congrArg Canvas.visHidden hbare.canvas
    rw [Page.showing, hhidden]
    rfl
  · exact hnamed.rest htracked.tidy hquiet

namespace Tab

/-- A plot is shown, a second one is under way, and the user goes back to the first. -/
def goingBack : List TabLabel :=
  publishing 0 Server.somePlot ++ landing 0 ++ fetching 0 ++ loading ++ drawing 0 ++
    publishing 1 Server.otherPlot ++ polling ++ [.page (.goBack 0)] ++ fetching 1 ++ drawing 1

/-- The same, with the second plot drawn before the user goes back. -/
def goingBackLater : List TabLabel :=
  publishing 0 Server.somePlot ++ landing 0 ++ fetching 0 ++ loading ++ drawing 0 ++
    publishing 1 Server.otherPlot ++ polling ++ fetching 1 ++ drawing 1 ++
    [.page (.goBack 0)] ++ fetching 2 ++ drawing 2

end Tab

/-- Nothing fails and no call is under way, but the page shows the second plot under the URL of
the first. -/
theorem last_navigation_loses : ∃ s, tab.run (Tab.opened Tab.appRoot) Tab.goingBack = some s ∧
    tab.Along Tab.Smooth (Tab.opened Tab.appRoot) Tab.goingBack ∧ s.page.Quiet ∧
    uuidFromLocation s.page.history.here = some Server.somePlot.text ∧
    s.page.showing = some Server.otherPlot.text ∧
    s.page.currentUuid = some Server.otherPlot.text := by
  obtain ⟨s, hr, hend⟩ := Machine.run_decided (fun s : Tab => s.page.Quiet ∧
      uuidFromLocation s.page.history.here = some Server.somePlot.text ∧
      s.page.showing = some Server.otherPlot.text ∧
      s.page.currentUuid = some Server.otherPlot.text)
    (show (tab.run (Tab.opened Tab.appRoot) Tab.goingBack).any _ = true by decide +kernel)
  exact ⟨s, hr, by decide +kernel, hend⟩

theorem last_navigation_wins_later : ∃ s,
    tab.run (Tab.opened Tab.appRoot) Tab.goingBackLater = some s ∧
    uuidFromLocation s.page.history.here = some Server.somePlot.text ∧
    s.page.showing = some Server.somePlot.text := by
  obtain ⟨s, hr, hquiet, hhere⟩ := Machine.run_decided (fun s : Tab => s.page.Quiet ∧
      uuidFromLocation s.page.history.here = some Server.somePlot.text)
    (show (tab.run (Tab.opened Tab.appRoot) Tab.goingBackLater).any _ = true by decide +kernel)
  have hwins := last_navigation_wins (Tab.opened_init _) hr (by decide +kernel)
    (by decide +kernel) hquiet
  exact ⟨s, hr, hhere, hwins.1.trans hhere⟩

end GgsqlDuckdb
