import Mathlib.Data.List.Basic
import Mathlib.Tactic.Basic

/-!
# Heartbeats

A party that sends a beat now and then is taken for gone when it has been silent for longer
than a window.  On a timeline of beats and of questions whether it is gone, the last beat is
all that a question looks at.

## Main results

- `silent_iff`: silence says that every beat is older than the window.
- `silent_twice_iff`: when two questions less than a window apart both find silence.
-/

namespace Library

/-- A moment of a timeline. -/
inductive Mark where
  | beat (t : ℕ)
  | question (t : ℕ)
  deriving DecidableEq, Repr

namespace Mark

def time : Mark → ℕ
  | .beat t => t
  | .question t => t

end Mark

def lastBeat : List Mark → Option ℕ
  | [] => none
  | .beat t :: rest => (lastBeat rest).or (some t)
  | .question _ :: rest => lastBeat rest

/-- No beat in the last `window` before `now`. -/
def silent (window : ℕ) (past : List Mark) (now : ℕ) : Bool :=
  match lastBeat past with
  | none => true
  | some t => window < now - t

/-- The moments of a timeline follow one another. -/
def Ordered (line : List Mark) : Prop := line.Pairwise fun a b => a.time ≤ b.time

theorem lastBeat_append (past new : List Mark) :
    lastBeat (past ++ new) = (lastBeat new).or (lastBeat past) := by
  induction past with
  | nil => simp [lastBeat]
  | cons m past ih =>
    cases m with
    | beat t => simp [lastBeat, ih]
    | question t => simp [lastBeat, ih]

theorem lastBeat_eq_none {line : List Mark} : lastBeat line = none ↔ ∀ t, .beat t ∉ line := by
  induction line with
  | nil => simp [lastBeat]
  | cons m line ih =>
    cases m with
    | beat t =>
      constructor
      · intro h
        simp [lastBeat] at h
      · intro h
        exact absurd List.mem_cons_self (h t)
    | question t => simp [lastBeat, ih]

theorem mem_of_lastBeat {line : List Mark} {t : ℕ} (h : lastBeat line = some t) :
    .beat t ∈ line := by
  induction line with
  | nil => cases h
  | cons m line ih =>
    cases m with
    | beat u =>
      rcases Option.or_eq_some_iff.mp h with hlater | ⟨-, hhere⟩
      · exact List.mem_cons_of_mem _ (ih hlater)
      · obtain rfl := Option.some.inj hhere
        exact List.mem_cons_self
    | question u => exact List.mem_cons_of_mem _ (ih h)

/-- On an ordered timeline no beat is later than the last one. -/
theorem le_of_lastBeat {line : List Mark} {t u : ℕ} (hordered : Ordered line)
    (h : lastBeat line = some t) (hu : .beat u ∈ line) : u ≤ t := by
  induction line with
  | nil => cases h
  | cons m line ih =>
    obtain ⟨hfirst, hrest⟩ := List.pairwise_cons.mp hordered
    rcases List.mem_cons.mp hu with rfl | htail
    · rcases Option.or_eq_some_iff.mp h with hlater | ⟨-, hhere⟩
      · exact hfirst _ (mem_of_lastBeat hlater)
      · exact Nat.le_of_eq (Option.some.inj hhere)
    · cases m with
      | question v => exact ih hrest h htail
      | beat v =>
        rcases Option.or_eq_some_iff.mp h with hlater | ⟨hnone, -⟩
        · exact ih hrest hlater htail
        · exact absurd htail (lastBeat_eq_none.mp hnone u)

theorem silent_iff {window now : ℕ} {past : List Mark} (hordered : Ordered past) :
    silent window past now = true ↔ ∀ t, .beat t ∈ past → window < now - t := by
  unfold silent
  cases hlast : lastBeat past with
  | none =>
    refine iff_of_true rfl ?_
    intro t ht
    exact absurd ht (lastBeat_eq_none.mp hlast t)
  | some u =>
    rw [decide_eq_true_iff]
    constructor
    · intro h t ht
      have hle := le_of_lastBeat hordered hlast ht
      omega
    · exact fun h => h u (mem_of_lastBeat hlast)

/-- **Two questions within a window** both find silence exactly when the first does and no
beat comes in between: every beat before the second is older than the window already at the
first. -/
theorem silent_twice_iff {window t₁ t₂ : ℕ} {past mid : List Mark}
    (hordered : Ordered (past ++ .question t₁ :: mid)) (hlate : t₁ ≤ t₂)
    (hwithin : t₂ < t₁ + window) :
    silent window past t₁ = true ∧ silent window (past ++ .question t₁ :: mid) t₂ = true ↔
      ∀ t, .beat t ∈ past ++ .question t₁ :: mid → window < t₁ - t := by
  obtain ⟨hpast, hmid, -⟩ := List.pairwise_append.mp hordered
  rw [silent_iff hpast, silent_iff hordered]
  constructor
  · rintro ⟨hfirst, hsecond⟩ t ht
    rcases List.mem_append.mp ht with hbefore | hafter
    · exact hfirst t hbefore
    -- a beat in between is too young for the second question
    · have hbeat : .beat t ∈ mid := by
        rcases List.mem_cons.mp hafter with heq | hmem
        · cases heq
        · exact hmem
      have hle : t₁ ≤ t := (List.pairwise_cons.mp hmid).1 _ hbeat
      have hgone := hsecond t ht
      omega
  · intro h
    constructor
    · exact fun t ht => h t (List.mem_append_left _ ht)
    · intro t ht
      have hold := h t ht
      omega

end Library
