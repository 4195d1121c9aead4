import GgsqlDuckdb.Library.Heartbeat
import GgsqlDuckdb.Server.Consistency

/-!
# The heartbeat of the tab

`register_plot` asks for a browser window unless a tab has polled `/api/latest` within
`TAB_ALIVE_WINDOW` (`rust/src/server.rs`).  A tab that has just been spawned has not polled
yet, and `register_plot` does not remember that it asked for one: until the first poll arrives
every registration asks for another window.

## Main results

- `Recorded`: the heartbeat of the server is the last poll of its log.
- `burst_opens_once_iff`: when the registrations of a run ask for one window at a time.
- `burst_spawns_once`: then windows are spawned at least `TAB_ALIVE_WINDOW` apart.
-/

namespace GgsqlDuckdb

namespace Server

open Library

/-! ## §1 The log of a run -/

/-- What a run shows of the heartbeat: a poll that is served, and a registration that returns. -/
inductive Heard where
  | polled (t : ℕ)
  | registered (t : ℕ) (r : Registered)
  deriving DecidableEq, Repr

def Heard.mark : Heard → Mark
  | .polled t => .beat t
  | .registered t _ => .question t

/-- What the step from `s` to `s'` under a label shows. -/
def heard (s s' : Registry) : RegistryLabel → Option Heard
  | .finish k =>
    match s'.calls[k]? with
    | some ⟨_, _, .returned r⟩ => some (.registered s.now r)
    | _ => none
  | .serve r =>
    match s.requests[r]? with
    | some ⟨url, _⟩ => if routeOf url = .latest then some (.polled s.now) else none
    | none => none
  | _ => none

/-- The log of the run `tr` from `s`. -/
def log (s : Registry) : List RegistryLabel → List Heard
  | [] => []
  | l :: tr =>
    match registry.step s l with
    | none => []
    | some s' => (heard s s' l).toList ++ log s' tr

/-- The browser decision of `serve_plot`: `GGSQL_NO_OPEN_BROWSER` wins. -/
def spawns (noOpenBrowser : Bool) (r : Registered) : Bool := r.shouldOpen && !noOpenBrowser

/-! ## §2 The heartbeat is the last poll -/

/-- What the log says of the state behind it. -/
structure Recorded (past : List Heard) (s : Registry) : Prop where
  lastPoll : s.state.lastPoll = lastBeat (past.map Heard.mark)
  ordered : Library.Ordered (past.map Heard.mark)
  bounded : ∀ m ∈ past.map Heard.mark, m.time ≤ s.now
  /-- Every registration has asked for a window in a silence only. -/
  answered : ∀ before t r after, past = before ++ .registered t r :: after →
    r.shouldOpen = silent tabAliveWindow (before.map Heard.mark) t

theorem registered_shouldOpen (baseUrl : Bytes) (now : ℕ) (st : State) (id : PlotId)
    {line : List Mark} (h : st.lastPoll = lastBeat line) :
    (registered baseUrl now st id).shouldOpen = silent tabAliveWindow line now := by
  cases hlast : lastBeat line with
  | none => simp [registered, silent, h, hlast]
  | some t => simp [registered, silent, h, hlast]

namespace Recorded

variable {past : List Heard} {s s' : Registry}

theorem start (h : registry.init s) : Recorded [] s := by
  obtain ⟨hstate, -, -, -⟩ := h
  refine ⟨by rw [hstate]; rfl, List.Pairwise.nil, nofun, ?_⟩
  intro before t r after heq
  cases before <;> cases heq

/-- A step that shows nothing. -/
theorem quiet (hs : Recorded past s) {l : RegistryLabel} (hnothing : heard s s' l = none)
    (hpoll : s'.state.lastPoll = s.state.lastPoll) (hnow : s.now ≤ s'.now) :
    Recorded (past ++ (heard s s' l).toList) s' := by
  rw [hnothing, Option.toList_none, List.append_nil]
  refine ⟨hpoll.trans hs.lastPoll, hs.ordered, ?_, hs.answered⟩
  intro m hm
  exact (hs.bounded m hm).trans hnow

/-- The moment of a step follows all that came before it. -/
theorem extend (hs : Recorded past s) {h : Heard} (htime : h.mark.time = s.now) :
    Library.Ordered ((past ++ [h]).map Heard.mark) ∧
      ∀ m ∈ (past ++ [h]).map Heard.mark, m.time ≤ s.now := by
  rw [List.map_append, List.map_singleton]
  constructor
  · apply List.pairwise_append.mpr
    refine ⟨hs.ordered, List.pairwise_singleton _ _, ?_⟩
    intro a ha m hm
    rw [List.mem_singleton.mp hm, htime]
    exact hs.bounded a ha
  · intro m hm
    rcases List.mem_append.mp hm with hold | hnew
    · exact hs.bounded m hold
    · rw [List.mem_singleton.mp hnew, htime]

/-- The entry that is added is the last one. -/
theorem cut_last {before after : List Heard} {h e : Heard}
    (heq : past ++ [h] = before ++ e :: after) :
    (before = past ∧ h = e) ∨ ∃ rest, past = before ++ e :: rest := by
  rcases List.eq_nil_or_concat after with rfl | ⟨rest, last, rfl⟩
  · obtain ⟨hbefore, hlast⟩ := List.append_inj' heq rfl
    exact Or.inl ⟨hbefore.symm, List.singleton_inj.mp hlast⟩
  · right
    refine ⟨rest, ?_⟩
    have hsplit : past ++ [h] = (before ++ e :: rest) ++ [last] := by
      rw [heq]
      simp
    exact (List.append_inj' hsplit rfl).1

theorem poll (hs : Recorded past s) (hpoll : s'.state.lastPoll = some s.now)
    (hnow : s'.now = s.now) : Recorded (past ++ [.polled s.now]) s' := by
  obtain ⟨hordered, hbounded⟩ := hs.extend (h := .polled s.now) rfl
  refine ⟨?_, hordered, hnow ▸ hbounded, ?_⟩
  · rw [hpoll, List.map_append, lastBeat_append]
    rfl
  · intro before t r after heq
    rcases cut_last heq with ⟨-, ⟨⟩⟩ | ⟨rest, hold⟩
    exact hs.answered before t r rest hold

theorem register (hs : Recorded past s) {r : Registered}
    (hr : r.shouldOpen = silent tabAliveWindow (past.map Heard.mark) s.now)
    (hpoll : s'.state = s.state) (hnow : s'.now = s.now) :
    Recorded (past ++ [.registered s.now r]) s' := by
  obtain ⟨hordered, hbounded⟩ := hs.extend (h := .registered s.now r) rfl
  refine ⟨?_, hordered, hnow ▸ hbounded, ?_⟩
  · rw [hpoll, hs.lastPoll, List.map_append, lastBeat_append]
    rfl
  · intro before t r' after heq
    rcases cut_last heq with ⟨rfl, ⟨⟩⟩ | ⟨rest, hold⟩
    · exact hr
    · exact hs.answered before t r' rest hold

theorem step {l : RegistryLabel} (hs : Recorded past s) (h : registry.step s l = some s') :
    Recorded (past ++ (heard s s' l).toList) s' := by
  have h : s.step l = some s' := h
  cases l with
  | tick d =>
    obtain rfl := Option.some.inj h
    exact hs.quiet rfl rfl (Nat.le_add_right _ _)
  | begin id hep =>
    obtain ⟨-, ⟨⟩⟩ := Option.ite_none_left_eq_some.mp h
    exact hs.quiet rfl rfl (Nat.le_refl _)
  | insert k =>
    simp only [Registry.step] at h
    split at h
    · obtain rfl := Option.some.inj h
      exact hs.quiet rfl rfl (Nat.le_refl _)
    · cases h
  | publish k =>
    simp only [Registry.step] at h
    split at h
    · obtain rfl := Option.some.inj h
      exact hs.quiet rfl rfl (Nat.le_refl _)
    · cases h
  | finish k =>
    simp only [Registry.step] at h
    split at h
    · rename_i id hep hk
      obtain rfl := Option.some.inj h
      have hreturned : (s.setCall k (.returned (registered s.baseUrl s.now s.state id))).calls[k]? =
          some ⟨id, hep, .returned (registered s.baseUrl s.now s.state id)⟩ := by
        rw [Registry.getElem?_setCall, hk]
        simp
      simp only [heard, hreturned, Option.toList_some]
      exact hs.register (registered_shouldOpen _ _ _ _ hs.lastPoll) rfl rfl
    · cases h
  | arrive url =>
    obtain rfl := Option.some.inj h
    exact hs.quiet rfl rfl (Nat.le_refl _)
  | serve r =>
    simp only [Registry.step] at h
    split at h
    · rename_i url hr
      split_ifs at h with hroute
      -- the heartbeat is marked before `latest` is read
      · obtain rfl := Option.some.inj h
        simp only [heard, hr, hroute, if_true, Option.toList_some]
        exact hs.poll rfl rfl
      · obtain rfl := Option.some.inj h
        exact hs.quiet (by simp [heard, hr, hroute]) rfl (Nat.le_refl _)
    · cases h
  | readLatest r =>
    simp only [Registry.step] at h
    split at h
    · obtain rfl := Option.some.inj h
      exact hs.quiet rfl rfl (Nat.le_refl _)
    · cases h

theorem run {tr : List RegistryLabel} (hs : Recorded past s) (h : registry.run s tr = some s') :
    Recorded (past ++ log s tr) s' := by
  induction tr generalizing past s with
  | nil =>
    obtain rfl := Option.some.inj h
    simpa [log] using hs
  | cons l tr ih =>
    obtain ⟨m, hm, hr⟩ := Machine.run_cons_eq_some.mp h
    have hrest := ih (hs.step hm) hr
    simpa [log, hm, List.append_assoc] using hrest

/-- Two registrations within the window both ask for a window exactly when no poll reassures
the second of them. -/
theorem both_open_iff {log before mid after : List Heard} {t₁ t₂ : ℕ} {r₁ r₂ : Registered}
    (hs : Recorded log s)
    (hcut : log = before ++ .registered t₁ r₁ :: (mid ++ .registered t₂ r₂ :: after))
    (hwithin : t₂ < t₁ + tabAliveWindow) :
    (r₁.shouldOpen = true ∧ r₂.shouldOpen = true) ↔
      ¬ ∃ t, .polled t ∈ before ++ .registered t₁ r₁ :: mid ∧ t₁ ≤ t + tabAliveWindow := by
  have hfirst := hs.answered before t₁ r₁ _ hcut
  have hcut' : log = (before ++ .registered t₁ r₁ :: mid) ++ .registered t₂ r₂ :: after := by
    rw [hcut]
    simp
  have hsecond := hs.answered _ t₂ r₂ _ hcut'
  have hordered := hs.ordered
  rw [hcut', List.map_append] at hordered
  obtain ⟨hpast, -, hlater⟩ := List.pairwise_append.mp hordered
  have hlate : t₁ ≤ t₂ := by
    apply hlater (.question t₁) _ (.question t₂) List.mem_cons_self
    simp [Heard.mark]
  rw [List.map_append, List.map_cons] at hpast hsecond
  have hpolled : ∀ t, Heard.polled t ∈ before ++ .registered t₁ r₁ :: mid ↔
      .beat t ∈ before.map Heard.mark ++ (Heard.registered t₁ r₁).mark :: mid.map Heard.mark := by
    intro t
    rw [← List.map_cons, ← List.map_append, List.mem_map]
    constructor
    · exact fun hmem => ⟨_, hmem, rfl⟩
    · rintro ⟨h, hmem, hmark⟩
      cases h <;> cases hmark
      exact hmem
  rw [hfirst, hsecond]
  simp only [hpolled]
  refine (silent_twice_iff hpast hlate hwithin).trans ?_
  simp only [not_exists, not_and, Nat.not_le]
  apply forall_congr'
  intro t
  exact imp_congr_right fun _ => by omega

end Recorded

/-! ## §3 Bursts of registrations -/

/-- No two registrations less than `TAB_ALIVE_WINDOW` apart both ask for a window. -/
def OpensOnce (log : List Heard) : Prop :=
  ∀ before t₁ r₁ mid t₂ r₂ after,
    log = before ++ .registered t₁ r₁ :: (mid ++ .registered t₂ r₂ :: after) →
    t₂ < t₁ + tabAliveWindow → ¬ (r₁.shouldOpen = true ∧ r₂.shouldOpen = true)

/-- Whenever two registrations are less than `TAB_ALIVE_WINDOW` apart, a poll is served before
the second of them, and at most `TAB_ALIVE_WINDOW` before the first. -/
def Reassured (log : List Heard) : Prop :=
  ∀ before t₁ r₁ mid t₂ r₂ after,
    log = before ++ .registered t₁ r₁ :: (mid ++ .registered t₂ r₂ :: after) →
    t₂ < t₁ + tabAliveWindow →
    ∃ t, .polled t ∈ before ++ .registered t₁ r₁ :: mid ∧ t₁ ≤ t + tabAliveWindow

theorem opensOnce_iff {log : List Heard} {s : Registry} (hs : Recorded log s) :
    OpensOnce log ↔ Reassured log := by
  unfold OpensOnce Reassured
  constructor
  · intro h before t₁ r₁ mid t₂ r₂ after hcut hwithin
    have hnot := h before t₁ r₁ mid t₂ r₂ after hcut hwithin
    rwa [hs.both_open_iff hcut hwithin, not_not] at hnot
  · intro h before t₁ r₁ mid t₂ r₂ after hcut hwithin
    rw [hs.both_open_iff hcut hwithin, not_not]
    exact h before t₁ r₁ mid t₂ r₂ after hcut hwithin

/-- **Reassured registrations spawn one window at a time**: two registrations that spawn a
browser are at least `TAB_ALIVE_WINDOW` apart. -/
theorem burst_spawns_once {s₀ s : Registry} {tr : List RegistryLabel} (h₀ : registry.init s₀)
    (hrun : registry.run s₀ tr = some s) (hreassured : Reassured (log s₀ tr))
    {noOpenBrowser : Bool} {before mid after : List Heard} {t₁ t₂ : ℕ} {r₁ r₂ : Registered}
    (hcut : log s₀ tr = before ++ .registered t₁ r₁ :: (mid ++ .registered t₂ r₂ :: after))
    (hfirst : spawns noOpenBrowser r₁ = true) (hsecond : spawns noOpenBrowser r₂ = true) :
    t₁ + tabAliveWindow ≤ t₂ := by
  have hs := (Recorded.start h₀).run hrun
  by_contra hwithin
  apply (opensOnce_iff hs).mpr hreassured _ _ _ _ _ _ _ hcut (Nat.not_le.mp hwithin)
  exact ⟨((Bool.and_eq_true _ _).mp hfirst).1, ((Bool.and_eq_true _ _).mp hsecond).1⟩

/-- **A burst of plots opens one tab exactly when polls reassure it**: in a run from the start
of the server, no two registrations less than `TAB_ALIVE_WINDOW` apart both ask for a window
if and only if between any two such registrations, or at most `TAB_ALIVE_WINDOW` before the
first, a poll is served. -/
theorem burst_opens_once_iff {s₀ s : Registry} {tr : List RegistryLabel} (h₀ : registry.init s₀)
    (hrun : registry.run s₀ tr = some s) :
    OpensOnce (log s₀ tr) ↔ Reassured (log s₀ tr) :=
  opensOnce_iff ((Recorded.start h₀).run hrun)

/-- Two plots registered one right after the other, before the tab of the first has polled. -/
def burstRun : List RegistryLabel :=
  [.begin somePlot [7], .insert 0, .publish 0, .finish 0, .begin otherPlot [8], .insert 1,
    .publish 1, .finish 1]

theorem burst_opens_once_polled :
    OpensOnce (log idle (burstRun.take 4 ++ [.arrive (ascii "/api/latest"), .serve 0] ++
      burstRun.drop 4)) ↔
    Reassured (log idle (burstRun.take 4 ++ [.arrive (ascii "/api/latest"), .serve 0] ++
      burstRun.drop 4)) :=
  burst_opens_once_iff ⟨rfl, rfl, rfl, rfl⟩ rfl

theorem burst_opens_twice :
    registry.init idle ∧ (∃ s, registry.run idle burstRun = some s) ∧
      ¬ OpensOnce (log idle burstRun) := by
  refine ⟨⟨rfl, rfl, rfl, rfl⟩, ⟨_, rfl⟩, ?_⟩
  intro h
  apply h [] 0 (registered idle.baseUrl 0 .empty somePlot) [] 0
    (registered idle.baseUrl 0 .empty otherPlot) [] rfl
  · decide
  · exact ⟨rfl, rfl⟩

end Server

end GgsqlDuckdb
