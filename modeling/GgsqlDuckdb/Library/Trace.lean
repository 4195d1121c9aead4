import GgsqlDuckdb.Library.Loop
import Mathlib.Data.List.Basic

/-!
# Computations that leave a trace

A `Traced` computation may fault, and lists what it did on the way, also when it faults.
Forgetting the trace gives a computation in `Option`, so that a traced program is compared
with a plain one by its result, and what it does is bounded by a predicate on its events.

## Main results

- `result_bind`, `result_loop`: the results are those of the plain computation.
- `Meets.bind`, `Meets.loop`: bounds on the events and on the result.
- `marks_loop`: the marks of the passes of a loop are strictly increasing.
-/

namespace Library

universe u v w

/-- A result, or `none` for a fault, with the events in front of it. -/
structure Traced (ε : Type u) (α : Type v) where
  events : List ε
  result : Option α

namespace Traced

variable {ε : Type u} {α β : Type v}

/-- What is behind a fault does not happen. -/
def andThen (x : Traced ε α) (f : α → Traced ε β) : Traced ε β :=
  match x.result with
  | none => ⟨x.events, none⟩
  | some a => ⟨x.events ++ (f a).events, (f a).result⟩

instance : Monad (Traced.{u, v} ε) where
  pure a := ⟨[], some a⟩
  bind := andThen

/-- One event. -/
def emit (e : ε) : Traced.{u, 0} ε Unit := ⟨[e], some ()⟩

/-! ## Results -/

@[simp] theorem result_pure (a : α) : (pure a : Traced ε α).result = some a := rfl

@[simp] theorem result_bind (x : Traced ε α) (f : α → Traced ε β) :
    (x >>= f).result = x.result.bind fun a => (f a).result := by
  show (andThen x f).result = _
  unfold andThen
  cases x.result <;> rfl

@[simp] theorem result_ite (p : Prop) [Decidable p] (x y : Traced ε α) :
    (if p then x else y).result = if p then x.result else y.result := by
  split <;> rfl

@[simp] theorem result_emit (e : ε) : (emit e).result = some () := rfl

/-! ## What a computation meets -/

/-- Every event meets `P`, and a result meets `Q`. -/
structure Meets (P : ε → Prop) (Q : α → Prop) (x : Traced ε α) : Prop where
  events : ∀ e ∈ x.events, P e
  result : ∀ a, x.result = some a → Q a

variable {P : ε → Prop} {Q : α → Prop} {R : β → Prop}

theorem Meets.pure {a : α} (h : Q a) : Meets P Q (pure a : Traced ε α) :=
  ⟨nofun, fun _ ha => Option.some.inj ha ▸ h⟩

theorem Meets.emit {e : ε} (h : P e) : Meets P (fun _ => True) (emit e) :=
  ⟨fun _ he => List.mem_singleton.mp he ▸ h, fun _ _ => trivial⟩

/-- **Sequencing**: what the first part returns is what the second part may rely on. -/
theorem Meets.bind {x : Traced ε α} {f : α → Traced ε β} (hx : Meets P Q x)
    (hf : ∀ a, Q a → Meets P R (f a)) : Meets P R (x >>= f) := by
  constructor
  · intro e he
    have he : e ∈ (andThen x f).events := he
    unfold andThen at he
    cases hresult : x.result with
    | none =>
      rw [hresult] at he
      exact hx.events e he
    | some a =>
      rw [hresult] at he
      rcases List.mem_append.mp he with hfront | hbehind
      · exact hx.events e hfront
      · exact (hf a (hx.result a hresult)).events e hbehind
  · intro b hb
    rw [result_bind] at hb
    obtain ⟨a, ha, hfa⟩ := Option.bind_eq_some_iff.mp hb
    exact (hf a (hx.result a ha)).result b hfa

theorem Meets.ite {p : Prop} [Decidable p] {x y : Traced ε α} (hx : p → Meets P Q x)
    (hy : ¬ p → Meets P Q y) : Meets P Q (if p then x else y) := by
  by_cases h : p
  · rw [if_pos h]
    exact hx h
  · rw [if_neg h]
    exact hy h

theorem Meets.mono {Q' : α → Prop} {x : Traced ε α} (hx : Meets P Q x) (h : ∀ a, Q a → Q' a) :
    Meets P Q' x :=
  ⟨hx.events, fun a ha => h a (hx.result a ha)⟩

/-! ## Loops -/

variable {σ : Type v}

/-- Run `body` at most `fuel` times. -/
def loop (body : σ → Traced ε (Pass σ β)) : ℕ → σ → Traced ε β
  | 0, _ => ⟨[], none⟩
  | fuel + 1, s => body s >>= fun
    | .again s' => loop body fuel s'
    | .leave b => pure b

theorem result_loop (body : σ → Traced ε (Pass σ β)) (fuel : ℕ) (s : σ) :
    (loop body fuel s).result = Library.loop (fun s => (body s).result) fuel s := by
  induction fuel generalizing s with
  | zero => rfl
  | succ fuel ih =>
    rw [loop, result_bind, Library.loop]
    cases (body s).result with
    | none => rfl
    | some pass =>
      cases pass with
      | again s' => exact ih s'
      | leave b => rfl

/-- A pass that goes around again meets `I`, and one that leaves meets `R`. -/
def Ends (I : σ → Prop) (R : β → Prop) : Pass σ β → Prop
  | .again s => I s
  | .leave b => R b

/-- **Invariant rule for traced loops.** -/
theorem Meets.loop {body : σ → Traced ε (Pass σ β)} (I : σ → Prop)
    (hbody : ∀ s, I s → Meets P (Ends I R) (body s)) (fuel : ℕ) {s : σ} (hs : I s) :
    Meets P R (loop body fuel s) := by
  induction fuel generalizing s with
  | zero => exact ⟨nofun, nofun⟩
  | succ fuel ih =>
    apply (hbody s hs).bind
    intro pass hpass
    cases pass with
    | again s' => exact ih hpass
    | leave b => exact .pure hpass

/-- **Marks of a loop**: if every pass leaves one mark, and a pass that goes around again does
so with a greater mark, then the marks are strictly increasing. -/
theorem marks_loop {body : σ → Traced ε (Pass σ β)} (mark : ε → Option ℕ) (m : σ → ℕ)
    (I : σ → Prop)
    (hbody : ∀ s, I s → (body s).events.filterMap mark = [m s] ∧
      ∀ s', (body s).result = some (.again s') → I s' ∧ m s < m s')
    (fuel : ℕ) {s : σ} (hs : I s) :
    ((loop body fuel s).events.filterMap mark).Pairwise (· < ·) ∧
      ∀ i ∈ (loop body fuel s).events.filterMap mark, m s ≤ i := by
  induction fuel generalizing s with
  | zero => exact ⟨List.Pairwise.nil, nofun⟩
  | succ fuel ih =>
    obtain ⟨hmark, hagain⟩ := hbody s hs
    have hone : ([m s] : List ℕ).Pairwise (· < ·) ∧ ∀ i ∈ ([m s] : List ℕ), m s ≤ i :=
      ⟨List.pairwise_singleton _ _, fun i hi => Nat.le_of_eq (List.mem_singleton.mp hi).symm⟩
    show ((andThen (body s) _).events.filterMap mark).Pairwise (· < ·) ∧
      ∀ i ∈ (andThen (body s) _).events.filterMap mark, m s ≤ i
    unfold andThen
    cases hresult : (body s).result with
    | none =>
      simp only [hmark]
      exact hone
    | some pass =>
      cases pass with
      | leave b =>
        simp only [List.filterMap_append, hmark]
        exact hone
      | again s' =>
        obtain ⟨hs', hlt⟩ := hagain s' hresult
        obtain ⟨hpairs, hfrom⟩ := ih hs'
        simp only [List.filterMap_append, hmark, List.singleton_append]
        constructor
        · apply List.pairwise_cons.mpr
          exact ⟨fun i hi => lt_of_lt_of_le hlt (hfrom i hi), hpairs⟩
        · intro i hi
          rcases List.mem_cons.mp hi with rfl | hrest
          · exact le_rfl
          · exact Nat.le_trans (Nat.le_of_lt hlt) (hfrom i hrest)

end Traced

end Library
