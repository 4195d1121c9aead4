import Mathlib.Data.List.Basic
import Mathlib.Tactic.Basic

/-!
# Guarded transition machines

A machine is an executable step function: `step s l` is `some s'` when the label `l` is
enabled in `s`, and `none` otherwise.  All nondeterminism (schedulers, the environment,
failures) is resolved by the label, so a *run* is a list of labels and every interleaving
of the components is some list.

## Main results

- `run_append_eq_some`: cutting a run at a point.
- `run_invariant`, `Reachable.invariant`: what one step preserves, every run preserves.
- `run_invariant_along`: the same for runs whose steps all meet a condition.
- `run_split_of_not_along`: the step of a run that breaks a step condition.
- `run_countP_le`: a bound on the number of labels of one kind in a run.
- `run_history`: a property of the labels performed so far together with the state.
- `run_simulation`: a machine whose steps are runs of another.
- `run_countP_le_gain`, `exists_run_to`: work that every step of a kind lowers bounds their number,
  and is brought to an end where such a step can always be taken.
-/

namespace Library

universe u v

/-- A transition machine with states `σ` and labels `ℓ`. -/
structure Machine (σ : Type u) (ℓ : Type v) where
  init : σ → Prop
  step : σ → ℓ → Option σ

namespace Machine

variable {σ : Type u} {ℓ : Type v} (M : Machine σ ℓ)

/-- Perform the labels in order; `none` if one of them is not enabled. -/
def run : σ → List ℓ → Option σ
  | s, [] => some s
  | s, l :: tr => (M.step s l).bind fun m => run m tr

/-- `s` is reached by some run from an initial state. -/
def Reachable (s : σ) : Prop := ∃ s₀ tr, M.init s₀ ∧ M.run s₀ tr = some s

/-- Every step of the run `tr` from `s` meets `C`, a condition on the label and on the state
before the step. -/
def Along (C : σ → ℓ → Prop) : σ → List ℓ → Prop
  | _, [] => True
  | s, l :: tr => C s l ∧ ∀ m, M.step s l = some m → Along C m tr

instance decidableAlong (C : σ → ℓ → Prop) [∀ s l, Decidable (C s l)] :
    (s : σ) → (tr : List ℓ) → Decidable (M.Along C s tr)
  | _, [] => isTrue trivial
  | s, l :: tr =>
    match hm : M.step s l with
    | none => decidable_of_iff (C s l) (by simp [Along, hm])
    | some m =>
      let rest := decidableAlong C m tr
      decidable_of_iff (C s l ∧ M.Along C m tr) (by simp [Along, hm])

variable {M}

/-- A run is found by performing it, and what can be decided of its end by deciding it. -/
theorem run_decided {s : σ} {tr : List ℓ} (P : σ → Prop) [DecidablePred P]
    (h : (M.run s tr).any (fun s' => decide (P s')) = true) :
    ∃ s', M.run s tr = some s' ∧ P s' := by
  obtain ⟨s', hr, hP⟩ := (Option.any_eq_true _ _).mp h
  exact ⟨s', hr, of_decide_eq_true hP⟩

/-! ## Cutting runs -/

@[simp] theorem run_nil (s : σ) : M.run s [] = some s := rfl

theorem run_cons_eq_some {s s' : σ} {l : ℓ} {tr : List ℓ} :
    M.run s (l :: tr) = some s' ↔ ∃ m, M.step s l = some m ∧ M.run m tr = some s' := by
  simp [run, Option.bind_eq_some_iff]

theorem run_append_eq_some {s s' : σ} {tr₁ tr₂ : List ℓ} :
    M.run s (tr₁ ++ tr₂) = some s' ↔ ∃ m, M.run s tr₁ = some m ∧ M.run m tr₂ = some s' := by
  induction tr₁ generalizing s with
  | nil => simp
  | cons l tr₁ ih =>
    simp only [List.cons_append, run_cons_eq_some, ih]
    constructor
    · rintro ⟨m, hm, n, hn, h⟩
      exact ⟨n, ⟨m, hm, hn⟩, h⟩
    · rintro ⟨n, ⟨m, hm, hn⟩, h⟩
      exact ⟨m, hm, n, hn, h⟩

theorem run_single {s s' : σ} {l : ℓ} : M.run s [l] = some s' ↔ M.step s l = some s' := by
  simp [run]

theorem Reachable.of_init {s : σ} (h : M.init s) : M.Reachable s := ⟨s, [], h, rfl⟩

theorem Reachable.run {s s' : σ} {tr : List ℓ} (h : M.Reachable s) (hr : M.run s tr = some s') :
    M.Reachable s' := by
  obtain ⟨s₀, tr₀, h₀, hr₀⟩ := h
  exact ⟨s₀, tr₀ ++ tr, h₀, run_append_eq_some.mpr ⟨s, hr₀, hr⟩⟩

/-! ## Invariants -/

/-- **Invariant rule for runs**: what every step preserves, every run preserves. -/
theorem run_invariant (I : σ → Prop) (hstep : ∀ s l s', I s → M.step s l = some s' → I s')
    {s s' : σ} {tr : List ℓ} (hs : I s) (h : M.run s tr = some s') : I s' := by
  induction tr generalizing s with
  | nil => simpa using (Option.some.inj h) ▸ hs
  | cons l tr ih =>
    obtain ⟨m, hm, hr⟩ := run_cons_eq_some.mp h
    exact ih (hstep s l m hs hm) hr

/-- **Invariant rule for reachable states.** -/
theorem Reachable.invariant (I : σ → Prop) (hinit : ∀ s, M.init s → I s)
    (hstep : ∀ s l s', I s → M.step s l = some s' → I s') {s : σ} (h : M.Reachable s) : I s := by
  obtain ⟨s₀, tr, h₀, hr⟩ := h
  exact run_invariant I hstep (hinit s₀ h₀) hr

@[simp] theorem along_nil (C : σ → ℓ → Prop) (s : σ) : M.Along C s [] := trivial

theorem along_of_forall {C : σ → ℓ → Prop} {tr : List ℓ} (h : ∀ l ∈ tr, ∀ s, C s l) (s : σ) :
    M.Along C s tr := by
  induction tr generalizing s with
  | nil => exact trivial
  | cons l tr ih =>
    exact ⟨h l List.mem_cons_self s, fun m _ => ih (fun l hl => h l (List.mem_cons_of_mem _ hl)) m⟩

theorem along_and {C D : σ → ℓ → Prop} {s : σ} {tr : List ℓ} (hC : M.Along C s tr)
    (hD : M.Along D s tr) : M.Along (fun s l => C s l ∧ D s l) s tr := by
  induction tr generalizing s with
  | nil => exact trivial
  | cons l tr ih => exact ⟨⟨hC.1, hD.1⟩, fun m hm => ih (hC.2 m hm) (hD.2 m hm)⟩

theorem along_append {C : σ → ℓ → Prop} {s m : σ} {tr₁ tr₂ : List ℓ}
    (h : M.Along C s (tr₁ ++ tr₂)) (hr : M.run s tr₁ = some m) :
    M.Along C s tr₁ ∧ M.Along C m tr₂ := by
  induction tr₁ generalizing s with
  | nil => exact ⟨trivial, (Option.some.inj hr) ▸ h⟩
  | cons l tr₁ ih =>
    obtain ⟨n, hn, hr⟩ := run_cons_eq_some.mp hr
    have hrest := ih (h.2 n hn) hr
    refine ⟨⟨h.1, fun n' hn' => ?_⟩, hrest.2⟩
    rw [hn] at hn'
    exact (Option.some.inj hn') ▸ hrest.1

/-- **Invariant rule under a step condition**: the steps that meet `C` preserve `I`, so every
run whose steps all meet `C` preserves it. -/
theorem run_invariant_along (I : σ → Prop) (C : σ → ℓ → Prop)
    (hstep : ∀ s l s', I s → C s l → M.step s l = some s' → I s')
    {s s' : σ} {tr : List ℓ} (hs : I s) (hC : M.Along C s tr) (h : M.run s tr = some s') :
    I s' := by
  induction tr generalizing s with
  | nil => simpa using (Option.some.inj h) ▸ hs
  | cons l tr ih =>
    obtain ⟨m, hm, hr⟩ := run_cons_eq_some.mp h
    exact ih (hstep s l m hs hC.1 hm) (hC.2 m hm) hr

/-- A run with a step that does not meet `C` is cut in two around such a step. -/
theorem run_split_of_not_along {C : σ → ℓ → Prop} {s s' : σ} {tr : List ℓ}
    (h : M.run s tr = some s') (hC : ¬ M.Along C s tr) :
    ∃ tr₁ l tr₂ m m', tr = tr₁ ++ l :: tr₂ ∧ M.run s tr₁ = some m ∧ ¬ C m l ∧
      M.step m l = some m' ∧ M.run m' tr₂ = some s' := by
  induction tr generalizing s with
  | nil => exact absurd trivial hC
  | cons l tr ih =>
    obtain ⟨m, hm, hr⟩ := run_cons_eq_some.mp h
    by_cases hl : C s l
    · have hrest : ¬ M.Along C m tr := by
        intro hrest
        refine hC ⟨hl, fun n hn => ?_⟩
        rw [hm] at hn
        exact (Option.some.inj hn) ▸ hrest
      obtain ⟨tr₁, l', tr₂, n, n', rfl, hr₁, hn, hstep, hr₂⟩ := ih hr hrest
      exact ⟨l :: tr₁, l', tr₂, n, n', rfl, run_cons_eq_some.mpr ⟨m, hm, hr₁⟩, hn, hstep, hr₂⟩
    · exact ⟨[], l, tr, s, m, rfl, rfl, hl, hm, hr⟩

/-- **Credit rule**: if a step whose label satisfies `p` costs a credit and no step gains one,
a run has no more such labels than credits at its start. -/
theorem run_countP_le (p : ℓ → Bool) (credit : σ → ℕ) (I : σ → Prop)
    (hstep : ∀ s l s', I s → M.step s l = some s' →
      I s' ∧ (if p l then 1 else 0) + credit s' ≤ credit s)
    {s s' : σ} {tr : List ℓ} (hs : I s) (h : M.run s tr = some s') :
    tr.countP p + credit s' ≤ credit s := by
  induction tr generalizing s with
  | nil =>
    obtain rfl : s = s' := Option.some.inj h
    simp
  | cons l tr ih =>
    obtain ⟨m, hm, hr⟩ := run_cons_eq_some.mp h
    obtain ⟨hI, hcost⟩ := hstep s l m hs hm
    have hrest := ih hI hr
    rw [List.countP_cons]
    omega

/-- **History rule**: `J tr s` relates the labels performed so far to the state; each step
extends the history by its label. -/
theorem run_history (J : List ℓ → σ → Prop)
    (hstep : ∀ past s l s', J past s → M.step s l = some s' → J (past ++ [l]) s')
    {past : List ℓ} {s s' : σ} {tr : List ℓ} (hs : J past s) (h : M.run s tr = some s') :
    J (past ++ tr) s' := by
  induction tr generalizing s past with
  | nil => simpa using (Option.some.inj h) ▸ hs
  | cons l tr ih =>
    obtain ⟨m, hm, hr⟩ := run_cons_eq_some.mp h
    have := ih (hstep past s l m hs hm) hr
    rwa [List.append_assoc, List.singleton_append] at this

/-! ## Work -/

/-- **Work rule**: if a step whose label satisfies `p` lowers the work left and only labels that
satisfy `gain` bring new work, `c` each, the steps of the first kind are bounded by the others. -/
theorem run_countP_le_gain (p gain : ℓ → Bool) (c : ℕ) (work : σ → ℕ) (I : σ → Prop)
    (hstep : ∀ s l s', I s → M.step s l = some s' →
      I s' ∧ (if p l then 1 else 0) + work s' ≤ work s + if gain l then c else 0)
    {s s' : σ} {tr : List ℓ} (hs : I s) (h : M.run s tr = some s') :
    tr.countP p + work s' ≤ work s + c * tr.countP gain := by
  induction tr generalizing s with
  | nil =>
    obtain rfl : s = s' := Option.some.inj h
    simp
  | cons l tr ih =>
    obtain ⟨m, hm, hr⟩ := run_cons_eq_some.mp h
    obtain ⟨hI, hcost⟩ := hstep s l m hs hm
    have hrest := ih hI hr
    rw [List.countP_cons, List.countP_cons, Nat.mul_add]
    split_ifs at hcost ⊢ <;> omega

/-- **Progress rule**: where up to the end some step of a kind can be taken that lowers the work
left, some run of such steps reaches the end. -/
theorem exists_run_to (p : ℓ → Bool) (work : σ → ℕ) {I Done : σ → Prop}
    (hprogress : ∀ s, I s → ¬ Done s →
      ∃ l s', p l = true ∧ M.step s l = some s' ∧ I s' ∧ work s' < work s)
    {s : σ} (hs : I s) :
    ∃ tr s', (∀ l ∈ tr, p l = true) ∧ M.run s tr = some s' ∧ I s' ∧ Done s' := by
  induction hwork : work s using Nat.strongRecOn generalizing s with
  | _ n ih =>
    by_cases hdone : Done s
    · exact ⟨[], s, by simp, rfl, hs, hdone⟩
    · obtain ⟨l, m, hl, hm, hI, hlt⟩ := hprogress s hs hdone
      obtain ⟨tr, s', htr, hr, hs', hend⟩ := ih (work m) (hwork ▸ hlt) hI rfl
      refine ⟨l :: tr, s', ?_, run_cons_eq_some.mpr ⟨m, hm, hr⟩, hs', hend⟩
      intro l' hl'
      rcases List.mem_cons.mp hl' with rfl | hmem
      · exact hl
      · exact htr l' hmem

/-! ## Simulations -/

/-- **Simulation rule**: if every step between related states is a run of the machine `A`, so is
every run. -/
theorem run_simulation {τ κ : Type*} {A : Machine τ κ} (R : σ → τ → Prop)
    (hstep : ∀ s l s' t, R s t → M.step s l = some s' → ∃ tr t', A.run t tr = some t' ∧ R s' t')
    {s s' : σ} {t : τ} {tr : List ℓ} (hs : R s t) (h : M.run s tr = some s') :
    ∃ tr' t', A.run t tr' = some t' ∧ R s' t' := by
  induction tr generalizing s t with
  | nil =>
    obtain rfl : s = s' := Option.some.inj h
    exact ⟨[], t, rfl, hs⟩
  | cons l tr ih =>
    obtain ⟨m, hm, hr⟩ := run_cons_eq_some.mp h
    obtain ⟨tr₁, u, hfirst, hu⟩ := hstep s l m t hs hm
    obtain ⟨tr₂, t', hrest, ht'⟩ := ih hu hr
    exact ⟨tr₁ ++ tr₂, t', run_append_eq_some.mpr ⟨u, hfirst, hrest⟩, ht'⟩

end Machine

end Library
