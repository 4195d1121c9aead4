import GgsqlDuckdb.Page.System

/-!
# Live views

Each call of `renderPlot` frees the view in the slot `view`, empties the slot and then awaits
`ggsqlRenderHep`; the new view reaches the slot only behind that `await`.  No view is ever
freed twice.  A view can be lost, though, when two calls have awaited the same `loadHep`: the one
that resumes last overwrites the view of the other.  A view whose constructor throws once it is
observed is lost at once, since nobody gets hold of it.

## Main results

- `Accounted`: a view is in the slot, on its way to it, or freed, and only one of these.
- `views_freed`: no view is lost exactly when each call finds the slot empty at its end and no
  constructor throws behind its `observe`.
- `view_lost`: two calls that overlap while the viewer loads lose one.
-/

namespace GgsqlDuckdb

open Library

namespace Canvas

variable {st : Server.State} {l : Page.Label} {c c' : Canvas}

/-! ## §1 No view is freed twice -/

/-- Every view is older than the next one to be created, and is in at most one of the slot,
a call on its way to it, and the list of freed views. -/
structure Accounted (c : Canvas) : Prop where
  nodup : c.freed.Nodup
  freed : ∀ v ∈ c.freed, v < c.created
  slot : ∀ v, c.view = some v → v < c.created ∧ v ∉ c.freed
  painted : ∀ (k : ℕ) (call : RenderCall) (v : ℕ), c.calls[k]? = some call →
    call.pc = .painted v → v < c.created ∧ v ∉ c.freed ∧ c.view ≠ some v
  distinct : ∀ (j k : ℕ) (a b : RenderCall) (v : ℕ), c.calls[j]? = some a →
    c.calls[k]? = some b → a.pc = .painted v → b.pc = .painted v → j = k

/-- A step that moves no view keeps the account. -/
theorem Accounted.of_calls (hc : Accounted c) (hcreated : c.created ≤ c'.created)
    (hfreed : c'.freed = c.freed) (hview : c'.view = c.view)
    (hcalls : ∀ (k : ℕ) (call : RenderCall) (v : ℕ), c'.calls[k]? = some call →
      call.pc = .painted v → c.calls[k]? = some call) : Accounted c' := by
  refine ⟨hfreed ▸ hc.nodup, ?_, ?_, ?_, ?_⟩
  · rw [hfreed]
    exact fun v hv => (hc.freed v hv).trans_le hcreated
  · rw [hview, hfreed]
    exact fun v hv => ⟨(hc.slot v hv).1.trans_le hcreated, (hc.slot v hv).2⟩
  · intro k call v hk hpc
    obtain ⟨hlt, hout⟩ := hc.painted k call v (hcalls k call v hk hpc) hpc
    rw [hview, hfreed]
    exact ⟨hlt.trans_le hcreated, hout⟩
  · intro j k a b v hj hk ha hb
    exact hc.distinct j k a b v (hcalls j a v hj ha) (hcalls k b v hk hb) ha hb

/-- A stage that carries no view leaves the calls that carry one where they were. -/
theorem painted_of_setCall {j k v : ℕ} {pc : RenderPc} {call : RenderCall}
    (hpc : ∀ v, pc ≠ .painted v) (hj : (c.setCall k pc).calls[j]? = some call)
    (hpainted : call.pc = .painted v) : k ≠ j ∧ c.calls[j]? = some call := by
  rcases call_of_setCall hj with ⟨-, hnew⟩ | hold
  · exact absurd (hnew.symm.trans hpainted) (hpc v)
  · exact hold

theorem Accounted.of_setCall (hc : Accounted c) {k : ℕ} {pc : RenderPc}
    (hpc : ∀ v, pc ≠ .painted v) (hcreated : c.created ≤ c'.created)
    (hfreed : c'.freed = c.freed) (hview : c'.view = c.view)
    (hcalls : c'.calls = (c.setCall k pc).calls) : Accounted c' := by
  apply hc.of_calls hcreated hfreed hview
  intro j call v hj hpainted
  rw [hcalls] at hj
  exact (painted_of_setCall hpc hj hpainted).2

theorem Accounted.step (hc : Accounted c) (h : Effect st l c c') : Accounted c' := by
  cases h with
  | still h => exact h ▸ hc
  | idle k hl h =>
    subst h
    exact hc.of_calls le_rfl rfl rfl fun _ _ _ hk _ => hk
  | start caller uuid hne h =>
    subst h
    refine hc.of_calls le_rfl rfl rfl ?_
    intro k call v hk hpc
    rcases call_of_start hk with hold | ⟨-, rfl⟩
    · exact hold
    · cases hpc
  | respond k caller uuid body hl hk hok h =>
    subst h
    exact hc.of_setCall (by simp) le_rfl rfl rfl rfl
  | refuse k caller uuid hl hk h =>
    subst h
    exact hc.of_setCall (by simp) le_rfl rfl rfl rfl
  | throws k caller uuid pc hl hk hpc h =>
    subst h
    exact hc.of_setCall (by simp) le_rfl rfl rfl rfl
  | crash k caller uuid body hl hk h =>
    subst h
    exact hc.of_setCall (by simp) le_rfl rfl rfl rfl
  | abandon k caller uuid body hl hk h =>
    subst h
    exact hc.of_setCall (by simp) (Nat.le_succ _) rfl rfl rfl
  | enter k caller uuid body hl hk h =>
    subst h
    -- the call enters `ggsqlRenderHep` without a view of its own
    have hold : ∀ (j : ℕ) (call : RenderCall) (v : ℕ),
        (c.setCall k (.rendering body)).calls[j]? = some call → call.pc = .painted v →
        c.calls[j]? = some call :=
      fun j call v hj hpc => (painted_of_setCall (by simp) hj hpc).2
    have hslot : ∀ w ∈ c.view.toList, w < c.created ∧ w ∉ c.freed := by
      intro w hw
      exact hc.slot w (by simpa using hw)
    -- the view in the slot moves to the freed ones, where it was not
    refine ⟨?_, ?_, by simp, ?_, ?_⟩
    · show (c.freed ++ c.view.toList).Nodup
      rw [List.nodup_append]
      refine ⟨hc.nodup, by cases c.view <;> simp, ?_⟩
      intro v hv w hw hvw
      exact (hslot w hw).2 (hvw ▸ hv)
    · intro v hv
      rcases List.mem_append.mp hv with hv | hv
      · exact hc.freed v hv
      · exact (hslot v hv).1
    · intro j call v hj hpc
      obtain ⟨hlt, hfreed, hview⟩ := hc.painted j call v (hold j call v hj hpc) hpc
      refine ⟨hlt, ?_, by simp⟩
      intro hv
      rcases List.mem_append.mp hv with hv | hv
      · exact hfreed hv
      · exact hview (by simpa using hv)
    · intro i j a b v hi hj ha hb
      exact hc.distinct i j a b v (hold i a v hi ha) (hold j b v hj hb) ha hb
  | paint k caller uuid body hl hk h =>
    subst h
    -- the new view is younger than everything on the account
    have hsplit : ∀ (j : ℕ) (call : RenderCall) (v : ℕ),
        (c.setCall k (.painted c.created)).calls[j]? = some call → call.pc = .painted v →
        (k = j ∧ v = c.created) ∨ (k ≠ j ∧ c.calls[j]? = some call ∧ v < c.created) := by
      intro j call v hj hpc
      rcases call_of_setCall hj with ⟨hkj, hnew⟩ | ⟨hkj, hold⟩
      · rw [hnew] at hpc
        exact Or.inl ⟨hkj, (RenderPc.painted.inj hpc).symm⟩
      · exact Or.inr ⟨hkj, hold, (hc.painted j call v hold hpc).1⟩
    refine ⟨hc.nodup, ?_, ?_, ?_, ?_⟩
    · intro v hv
      exact Nat.lt_succ_of_lt (hc.freed v hv)
    · intro v hv
      obtain ⟨hlt, hfreed⟩ := hc.slot v hv
      exact ⟨Nat.lt_succ_of_lt hlt, hfreed⟩
    · intro j call v hj hpc
      rcases hsplit j call v hj hpc with ⟨-, rfl⟩ | ⟨-, hold, hlt⟩
      · refine ⟨Nat.lt_succ_self _, ?_, ?_⟩
        · exact fun hv => absurd (hc.freed _ hv) (lt_irrefl _)
        · exact fun hv => absurd (hc.slot _ hv).1 (lt_irrefl _)
      · obtain ⟨-, hfreed, hview⟩ := hc.painted j call v hold hpc
        exact ⟨Nat.lt_succ_of_lt hlt, hfreed, hview⟩
    · intro i j a b v hi hj ha hb
      rcases hsplit i a v hi ha with ⟨hki, hv⟩ | ⟨-, hi', hv⟩ <;>
        rcases hsplit j b v hj hb with ⟨hkj, hv'⟩ | ⟨-, hj', hv'⟩
      · exact hki.symm.trans hkj
      · omega
      · omega
      · exact hc.distinct i j a b v hi' hj' ha hb
  | settle k caller uuid view hl hk h =>
    subst h
    obtain ⟨hlt, hfreed, -⟩ := hc.painted k _ view hk rfl
    -- the view of this call moves into the slot
    have hold : ∀ (j : ℕ) (call : RenderCall) (v : ℕ),
        (c.setCall k .finished).calls[j]? = some call → call.pc = .painted v →
        k ≠ j ∧ c.calls[j]? = some call :=
      fun j call v hj hpc => painted_of_setCall (by simp) hj hpc
    refine ⟨hc.nodup, hc.freed, ?_, ?_, ?_⟩
    · intro v hv
      obtain rfl : view = v := Option.some.inj hv
      exact ⟨hlt, hfreed⟩
    · intro j call v hj hpc
      -- two calls never carry the same view
      obtain ⟨hkj, hj'⟩ := hold j call v hj hpc
      obtain ⟨hlt', hfreed', -⟩ := hc.painted j call v hj' hpc
      refine ⟨hlt', hfreed', ?_⟩
      intro hv
      obtain rfl : view = v := Option.some.inj hv
      exact hkj (hc.distinct k j _ call view hk hj' rfl hpc)
    · intro i j a b v hi hj ha hb
      exact hc.distinct i j a b v (hold i a v hi ha).2 (hold j b v hj hb).2 ha hb

/-! ## §2 Views that stay within reach -/

/-- Every view is in the slot, freed, or with a call on its way to the slot. -/
def Kept (c : Canvas) : Prop :=
  ∀ v < c.created, v ∈ c.freed ∨ c.view = some v ∨
    ∃ (k : ℕ) (call : RenderCall), c.calls[k]? = some call ∧ call.pc = .painted v

/-- A live view nobody can free any more. -/
structure Lost (c : Canvas) (v : ℕ) : Prop where
  created : v < c.created
  live : v ∉ c.freed
  slot : c.view ≠ some v
  painted : ∀ (k : ℕ) (call : RenderCall), c.calls[k]? = some call → call.pc ≠ .painted v

/-- A step about a call that carries no view leaves the others with theirs. -/
theorem painted_setCall {j k v : ℕ} {pc : RenderPc} {call other : RenderCall}
    (hk : c.calls[k]? = some call) (hpc : ∀ v, call.pc ≠ .painted v)
    (hj : c.calls[j]? = some other) (hpainted : other.pc = .painted v) :
    (c.setCall k pc).calls[j]? = some other := by
  have hne : k ≠ j := by
    rintro rfl
    obtain rfl : call = other := Option.some.inj (hk.symm.trans hj)
    exact hpc v hpainted
  exact getElem?_setCall_of_ne hne hj

theorem Kept.of_setCall (hc : Kept c) {k : ℕ} {pc : RenderPc} {call : RenderCall}
    (hk : c.calls[k]? = some call) (hpc : ∀ v, call.pc ≠ .painted v)
    (hcreated : c'.created = c.created) (hfreed : c'.freed = c.freed) (hview : c'.view = c.view)
    (hcalls : c'.calls = (c.setCall k pc).calls) : Kept c' := by
  intro v hv
  rw [hfreed, hview, hcalls]
  rcases hc v (hcreated ▸ hv) with hv | hv | ⟨j, other, hj, hpainted⟩
  · exact Or.inl hv
  · exact Or.inr (Or.inl hv)
  · exact Or.inr (Or.inr ⟨j, other, painted_setCall hk hpc hj hpainted, hpainted⟩)

/-- A step keeps every view within reach, unless it overwrites a full slot or a constructor throws
in it. -/
theorem Kept.step (hc : Kept c) (h : Effect st l c c') (hl : ∀ k, l = .resume k → c.view = none)
    (hdraws : ∀ k e, l ≠ .drawThrows k e) : Kept c' := by
  cases h with
  | still h => exact h ▸ hc
  | idle k hl h =>
    subst h
    exact hc
  | start caller uuid hne h =>
    subst h
    intro v hv
    rcases hc v hv with hv | hv | ⟨j, other, hj, hpainted⟩
    · exact Or.inl hv
    · exact Or.inr (Or.inl hv)
    · refine Or.inr (Or.inr ⟨j, other, ?_, hpainted⟩)
      show (c.calls ++ [_])[j]? = some other
      rw [List.getElem?_append_left (List.getElem?_eq_some_iff.mp hj).1, hj]
  | respond k caller uuid body hl hk hok h =>
    subst h
    exact hc.of_setCall hk (by simp) rfl rfl rfl rfl
  | refuse k caller uuid hl hk h =>
    subst h
    exact hc.of_setCall hk (by simp) rfl rfl rfl rfl
  | throws k caller uuid pc hl hk hpc h =>
    subst h
    refine hc.of_setCall hk ?_ rfl rfl rfl rfl
    rcases hpc with rfl | ⟨body, rfl⟩ <;> simp
  | crash k caller uuid body hl hk h =>
    subst h
    exact hc.of_setCall hk (by simp) rfl rfl rfl rfl
  | abandon k caller uuid body hthrows hk h =>
    obtain ⟨e, he⟩ := hthrows
    exact absurd he (hdraws k e)
  | enter k caller uuid body hl hk h =>
    subst h
    -- the view in the slot is freed, the others stay where they are
    intro v hv
    rcases hc v hv with hv | hv | ⟨j, other, hj, hpainted⟩
    · exact Or.inl (List.mem_append_left _ hv)
    · exact Or.inl (List.mem_append_right _ (by simp [hv]))
    · exact Or.inr (Or.inr ⟨j, other, painted_setCall hk (by simp) hj hpainted, hpainted⟩)
  | paint k caller uuid body hl hk h =>
    -- the new view is with the call that created it
    subst h
    intro v hv
    rcases Nat.lt_succ_iff_lt_or_eq.mp hv with hv | rfl
    · rcases hc v hv with hv | hv | ⟨j, other, hj, hpainted⟩
      · exact Or.inl hv
      · exact Or.inr (Or.inl hv)
      · exact Or.inr (Or.inr ⟨j, other, painted_setCall hk (by simp) hj hpainted, hpainted⟩)
    · refine Or.inr (Or.inr ⟨k, ⟨caller, uuid, .painted c.created⟩, ?_, rfl⟩)
      show (c.setCall k _).calls[k]? = _
      rw [getElem?_setCall, hk]
      simp
  | settle k caller uuid view hkl hk h =>
    -- the slot was empty, so nothing in it is overwritten
    subst h
    have hempty : c.view = none := hl k hkl
    intro v hv
    rcases hc v hv with hv | hv | ⟨j, other, hj, hpainted⟩
    · exact Or.inl hv
    · rw [hempty] at hv
      cases hv
    · by_cases hkj : k = j
      · subst hkj
        obtain rfl : _ = other := Option.some.inj (hk.symm.trans hj)
        exact Or.inr (Or.inl (congrArg some (RenderPc.painted.inj hpainted)))
      · exact Or.inr (Or.inr ⟨j, other, getElem?_setCall_of_ne hkj hj, hpainted⟩)

/-- No call comes by a lost view. -/
theorem Lost.not_painted {v : ℕ} (hc : Lost c v) {k : ℕ} {pc : RenderPc} (hpc : pc ≠ .painted v) :
    ∀ (j : ℕ) (call : RenderCall), (c.setCall k pc).calls[j]? = some call →
      call.pc ≠ .painted v := by
  intro j call hj
  rcases call_of_setCall hj with ⟨-, hnew⟩ | ⟨-, hold⟩
  · exact hnew ▸ hpc
  · exact hc.painted j call hold

theorem Lost.of_setCall {v : ℕ} (hc : Lost c v) {k : ℕ} {pc : RenderPc}
    (hpc : pc ≠ .painted v) (hcreated : c.created ≤ c'.created) (hfreed : c'.freed = c.freed)
    (hview : c'.view = c.view) (hcalls : c'.calls = (c.setCall k pc).calls) : Lost c' v := by
  refine ⟨hc.created.trans_le hcreated, hfreed ▸ hc.live, hview ▸ hc.slot, ?_⟩
  rw [hcalls]
  exact hc.not_painted hpc

/-- A lost view stays lost. -/
theorem Lost.step {v : ℕ} (hc : Lost c v) (h : Effect st l c c') : Lost c' v := by
  cases h with
  | still h => exact h ▸ hc
  | idle k hl h =>
    subst h
    exact ⟨hc.created, hc.live, hc.slot, hc.painted⟩
  | start caller uuid hne h =>
    subst h
    refine ⟨hc.created, hc.live, hc.slot, ?_⟩
    intro j call hj
    rcases call_of_start hj with hold | ⟨-, rfl⟩
    · exact hc.painted j call hold
    · simp
  | respond k caller uuid body hl hk hok h =>
    subst h
    exact hc.of_setCall (by simp) le_rfl rfl rfl rfl
  | refuse k caller uuid hl hk h =>
    subst h
    exact hc.of_setCall (by simp) le_rfl rfl rfl rfl
  | throws k caller uuid pc hl hk hpc h =>
    subst h
    exact hc.of_setCall (by simp) le_rfl rfl rfl rfl
  | crash k caller uuid body hl hk h =>
    subst h
    exact hc.of_setCall (by simp) le_rfl rfl rfl rfl
  | abandon k caller uuid body hl hk h =>
    subst h
    exact hc.of_setCall (by simp) (Nat.le_succ _) rfl rfl rfl
  | enter k caller uuid body hl hk h =>
    -- only the view in the slot is freed
    subst h
    refine ⟨hc.created, ?_, by simp, hc.not_painted (by simp)⟩
    intro hv
    rcases List.mem_append.mp hv with hv | hv
    · exact hc.live hv
    · exact hc.slot (by simpa using hv)
  | paint k caller uuid body hl hk h =>
    -- the view created now is younger
    subst h
    refine ⟨Nat.lt_succ_of_lt hc.created, hc.live, hc.slot, hc.not_painted ?_⟩
    intro hv
    exact absurd hc.created (by rw [RenderPc.painted.inj hv]; exact lt_irrefl _)
  | settle k caller uuid view hl hk h =>
    -- the view stored is one that a call carried
    subst h
    refine ⟨hc.created, hc.live, ?_, hc.not_painted (by simp)⟩
    intro hv
    obtain rfl : view = v := Option.some.inj hv
    exact hc.painted k _ hk rfl

/-- A view in the slot is lost when a call resumes from `ggsqlRenderHep`. -/
theorem lost_of_resume (hc : Accounted c) {k v : ℕ} {caller : Caller} {uuid : Bytes} {view : ℕ}
    (hk : c.calls[k]? = some ⟨caller, uuid, .painted view⟩) (hslot : c.view = some v)
    (h : c' = { c.setCall k .finished with view := some view, currentUuid := some uuid }) :
    Lost c' v := by
  subst h
  obtain ⟨hlt, hlive⟩ := hc.slot v hslot
  -- the slot holds another view now, and no call carries this one
  refine ⟨hlt, hlive, ?_, ?_⟩
  · intro hv
    obtain rfl : view = v := Option.some.inj hv
    exact (hc.painted k _ view hk rfl).2.2 hslot
  · intro j call hj hpc
    have hold := (painted_of_setCall (by simp) hj hpc).2
    exact (hc.painted j call v hold hpc).2.2 hslot

/-- A view whose constructor throws is lost. -/
theorem lost_of_abandon (hc : Accounted c) {k : ℕ}
    (h : c' = { c.setCall k (.failed true) with created := c.created + 1 }) :
    Lost c' c.created := by
  subst h
  -- it is younger than everything on the account
  refine ⟨Nat.lt_succ_self _, ?_, ?_, ?_⟩
  · exact fun hv => absurd (hc.freed _ hv) (lt_irrefl _)
  · exact fun hv => absurd (hc.slot _ hv).1 (lt_irrefl _)
  · intro j call hj hpc
    have hold := (painted_of_setCall (by simp) hj hpc).2
    exact absurd (hc.painted j call _ hold hpc).1 (lt_irrefl _)

end Canvas

/-! ## §3 Runs -/

/-- Some call resumes from `ggsqlRenderHep`. -/
def TabLabel.resumes : TabLabel → Bool
  | .page (.resume _) => true
  | _ => false

/-- Some constructor of `PlotView` throws behind its `observe`. -/
def TabLabel.abandons : TabLabel → Bool
  | .page (.drawThrows _ _) => true
  | _ => false

/-- A call that resumes from `ggsqlRenderHep` finds no view in the slot, and no constructor throws
behind its `observe`. -/
def LosesNone (s : Tab) (l : TabLabel) : Prop :=
  (l.resumes = true → s.page.view = none) ∧ l.abandons = false

instance (s : Tab) (l : TabLabel) : Decidable (LosesNone s l) :=
  inferInstanceAs (Decidable ((l.resumes = true → s.page.view = none) ∧ l.abandons = false))

theorem accounted_of_run {s₀ s : Tab} {tr : List TabLabel} (h₀ : tab.init s₀)
    (hr : tab.run s₀ tr = some s) : Canvas.Accounted s.page.canvas := by
  refine Machine.run_invariant (fun s : Tab => Canvas.Accounted s.page.canvas) ?_ ?_ hr
  · intro s l s' hs h
    cases l with
    | server l => rwa [(Tab.step_server h).2]
    | page l => exact hs.step (Page.canvas_step (Tab.step_page h).1)
  · obtain ⟨-, l, hl⟩ := h₀
    -- the page starts without views
    have hblank : Canvas.Accounted Canvas.blank := by
      constructor <;> simp [Canvas.blank]
    rw [hl]
    exact hblank.step (Page.canvas_load .empty .pollWake l)

theorem kept_of_run {s₀ s : Tab} {tr : List TabLabel} (h₀ : tab.init s₀)
    (hr : tab.run s₀ tr = some s) (hC : tab.Along LosesNone s₀ tr) :
    Canvas.Kept s.page.canvas := by
  refine Machine.run_invariant_along (fun s : Tab => Canvas.Kept s.page.canvas) LosesNone ?_ ?_ hC
    hr
  · intro s l s' hs hl h
    cases l with
    | server l => rwa [(Tab.step_server h).2]
    | page l =>
      apply hs.step (Page.canvas_step (Tab.step_page h).1)
      · rintro k rfl
        exact hl.1 rfl
      · rintro k e rfl
        cases hl.2
  · obtain ⟨-, l, hl⟩ := h₀
    have hblank : Canvas.Kept Canvas.blank := fun v hv => absurd hv (Nat.not_lt_zero v)
    rw [hl]
    exact hblank.step (Page.canvas_load .empty .pollWake l) (fun _ _ => rfl) (by simp)

/-- A step that does not meet the condition loses a view. -/
theorem lost_of_step {s s' : Tab} {l : TabLabel} (haccounted : Canvas.Accounted s.page.canvas)
    (hl : ¬ LosesNone s l) (h : tab.step s l = some s') :
    ∃ v, Canvas.Lost s'.page.canvas v := by
  by_cases hthrows : l.abandons = true
  · -- the view that the constructor leaves
    obtain ⟨k, e, rfl⟩ : ∃ k e, l = .page (.drawThrows k e) := by
      unfold TabLabel.abandons at hthrows
      split at hthrows
      · exact ⟨_, _, rfl⟩
      · cases hthrows
    exact ⟨_, Canvas.lost_of_abandon haccounted (Page.canvas_drawThrows (Tab.step_page h).1)⟩
  · -- the view that the step finds in the slot
    have hfull : ¬ (l.resumes = true → s.page.view = none) :=
      fun hslot => hl ⟨hslot, Bool.eq_false_iff.mpr hthrows⟩
    obtain ⟨hresumes, hslot⟩ := Classical.not_imp.mp hfull
    obtain ⟨k, rfl⟩ : ∃ k, l = .page (.resume k) := by
      unfold TabLabel.resumes at hresumes
      split at hresumes
      · exact ⟨_, rfl⟩
      · cases hresumes
    obtain ⟨v, hv⟩ := Option.ne_none_iff_exists'.mp hslot
    obtain ⟨caller, uuid, view, hk, hcanvas⟩ := Page.canvas_resume (Tab.step_page h).1
    exact ⟨v, Canvas.lost_of_resume haccounted hk hv hcanvas⟩

/-- A run with such a step has a view that stays lost. -/
theorem lost_of_run {s₀ s : Tab} {tr : List TabLabel} (h₀ : tab.init s₀)
    (hr : tab.run s₀ tr = some s) (hC : ¬ tab.Along LosesNone s₀ tr) :
    ∃ v, Canvas.Lost s.page.canvas v := by
  obtain ⟨tr₁, l, tr₂, m, m', rfl, hr₁, hl, hstep, hr₂⟩ := Machine.run_split_of_not_along hr hC
  obtain ⟨v, hlost⟩ := lost_of_step (accounted_of_run h₀ hr₁) hl hstep
  refine ⟨v, Machine.run_invariant (fun s : Tab => Canvas.Lost s.page.canvas v) ?_ hlost hr₂⟩
  intro s l s' hs h
  cases l with
  | server l => rwa [(Tab.step_server h).2]
  | page l => exact hs.step (Page.canvas_step (Tab.step_page h).1)

/-- The views other than the one in the slot have been freed. -/
def Page.OthersFreed (p : Page) : Prop :=
  ∀ v < p.created, p.view ≠ some v → v ∈ p.freed

instance (p : Page) : Decidable p.OthersFreed :=
  inferInstanceAs (Decidable (∀ v < p.created, _ → _))

/-- **At most one live view, unless one is lost on its way.**  No view is ever freed twice.  When
no call of `renderPlot` is under way, every view but the one in the slot has been freed if and
only if each call so far that resumed from `ggsqlRenderHep` found no view in the slot, and no
constructor threw behind its `observe`. -/
theorem views_freed {s₀ s : Tab} {tr : List TabLabel} (h₀ : tab.init s₀)
    (hr : tab.run s₀ tr = some s) (hquiet : s.page.Quiet) :
    s.page.freed.Nodup ∧ (s.page.OthersFreed ↔ tab.Along LosesNone s₀ tr) := by
  refine ⟨(accounted_of_run h₀ hr).nodup, ?_, ?_⟩
  · intro hfreed
    -- a lost view is neither in the slot nor freed
    by_contra hC
    obtain ⟨v, hv⟩ := lost_of_run h₀ hr hC
    exact hv.live (hfreed v hv.created hv.slot)
  · intro hC v hv hslot
    -- a view on its way to the slot would be with a call under way
    rcases kept_of_run h₀ hr hC v hv with hfreed | hview | ⟨k, call, hk, hpc⟩
    · exact hfreed
    · exact absurd hview hslot
    · have hdone := hquiet call (List.mem_of_getElem? hk)
      rw [hpc] at hdone
      cases hdone

namespace Tab

/-- A tab is opened under the URL of one plot, and while the viewer is still loading the user edits
the fragment to that of another one. -/
def overlap : List TabLabel :=
  publishing 0 Server.somePlot ++ publishing 1 Server.otherPlot ++ fetching 0 ++
    [.page (.fragment (ascii "#plot/" ++ Server.otherPlot.text))] ++ fetching 1 ++ loading ++
    [.page (.paint 0), .page (.paint 1), .page (.resume 0), .page (.resume 1)]

/-- A plot is shown and a second one follows it. -/
def oneByOne : List TabLabel :=
  publishing 0 Server.somePlot ++ landing 0 ++ fetching 0 ++ loading ++ drawing 0 ++
    publishing 1 Server.otherPlot ++ polling ++ fetching 1 ++ drawing 1

end Tab

/-- The view of the first plot stays live for ever, below the second plot. -/
theorem view_lost : ∃ s, tab.run (Tab.opened (.root Server.somePlot.text)) Tab.overlap = some s ∧
    tab.Reachable s ∧ s.page.Quiet ∧ s.page.showing = some Server.otherPlot.text ∧
    s.page.view = some 1 ∧ s.page.freed = [] ∧ ¬ s.page.OthersFreed := by
  obtain ⟨s, hr, hquiet, hlost⟩ := Machine.run_decided
    (fun s : Tab => s.page.Quiet ∧ s.page.showing = some Server.otherPlot.text ∧
      s.page.view = some 1 ∧ s.page.freed = [] ∧ ¬ s.page.OthersFreed)
    (show (tab.run (Tab.opened (.root Server.somePlot.text)) Tab.overlap).any _ = true by
      decide +kernel)
  exact ⟨s, hr, ⟨_, _, Tab.opened_init _, hr⟩, hquiet, hlost⟩

theorem views_freed_polling : ∃ s, tab.run (Tab.opened Tab.appRoot) Tab.oneByOne = some s ∧
    s.page.freed = [0] ∧ s.page.freed.Nodup ∧ s.page.OthersFreed := by
  obtain ⟨s, hr, hquiet, hfreed⟩ := Machine.run_decided
    (fun s : Tab => s.page.Quiet ∧ s.page.freed = [0])
    (show (tab.run (Tab.opened Tab.appRoot) Tab.oneByOne).any _ = true by decide +kernel)
  have hC : tab.Along LosesNone (Tab.opened Tab.appRoot) Tab.oneByOne := by decide +kernel
  obtain ⟨hnodup, hiff⟩ := views_freed (Tab.opened_init Tab.appRoot) hr hquiet
  exact ⟨s, hr, hfreed, hnodup, hiff.mpr hC⟩

end GgsqlDuckdb
