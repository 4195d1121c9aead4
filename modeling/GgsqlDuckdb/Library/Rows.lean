import Mathlib.Data.List.Basic
import Mathlib.Tactic.Basic

/-!
# Row functions

A function that may fail, over rows of which some have no value, in order and up to its first
failure; over the chunks of a list of rows; and beside another one over the same rows.

## Main results

- `executeChunks_eq`: chunks make no difference.
- `execute_beside`: two functions that go together row by row go together over all rows.
-/

namespace Library.Rows

variable {ρ κ β γ ε σ τ : Type*}

/-! ## §1 Rows and chunks -/

/-- One value in front of the others. -/
def consResult (b : β) : Except ε (List β) × σ → Except ε (List β) × σ
  | (.ok out, s) => (.ok (b :: out), s)
  | (.error e, s) => (.error e, s)

/-- `f` over the rows, up to the first that fails. -/
def execute (f : ρ → σ → Except ε β × σ) :
    List (Option ρ) → σ → Except ε (List (Option β)) × σ
  | [], s => (.ok [], s)
  | none :: rows, s => consResult none (execute f rows s)
  | some row :: rows, s =>
    match f row s with
    | (.ok b, s) => consResult (some b) (execute f rows s)
    | (.error e, s) => (.error e, s)

/-- A function of chunks over them, one behind the other. -/
def executeChunks (f : List ρ → σ → Except ε (List β) × σ) :
    List (List ρ) → σ → Except ε (List (List β)) × σ
  | [], s => (.ok [], s)
  | chunk :: chunks, s =>
    match f chunk s with
    | (.ok out, s) => consResult out (executeChunks f chunks s)
    | (.error e, s) => (.error e, s)

/-- All values of all chunks. -/
def flatten : Except ε (List (List β)) × σ → Except ε (List β) × σ
  | (.ok outs, s) => (.ok outs.flatten, s)
  | (.error e, s) => (.error e, s)

/-- What comes behind a list of values. -/
def appendResult (out : List β) : Except ε (List β) × σ → Except ε (List β) × σ
  | (.ok rest, s) => (.ok (out ++ rest), s)
  | (.error e, s) => (.error e, s)

theorem consResult_appendResult (b : β) (out : List β) (r : Except ε (List β) × σ) :
    consResult b (appendResult out r) = appendResult (b :: out) r := by
  obtain ⟨result, s⟩ := r
  cases result <;> rfl

theorem flatten_consResult (out : List β) (r : Except ε (List (List β)) × σ) :
    flatten (consResult out r) = appendResult out (flatten r) := by
  obtain ⟨result, s⟩ := r
  cases result <;> rfl

variable {f : ρ → σ → Except ε β × σ}

/-- Rows behind rows. -/
theorem execute_append (rows rest : List (Option ρ)) (s : σ) :
    execute f (rows ++ rest) s =
      match execute f rows s with
      | (.ok out, s) => appendResult out (execute f rest s)
      | (.error e, s) => (.error e, s) := by
  induction rows generalizing s with
  | nil =>
    show execute f rest s = appendResult [] (execute f rest s)
    obtain ⟨result, s'⟩ := execute f rest s
    cases result <;> rfl
  | cons row rows ih =>
    cases row with
    | none =>
      rw [List.cons_append, execute, execute, ih]
      obtain ⟨result, s'⟩ := execute f rows s
      cases result with
      | ok out => exact consResult_appendResult none out _
      | error e => rfl
    | some row =>
      rw [List.cons_append, execute, execute]
      obtain ⟨first, s'⟩ := f row s
      cases first with
      | error e => rfl
      | ok b =>
        dsimp only
        rw [ih]
        obtain ⟨result, s''⟩ := execute f rows s'
        cases result with
        | ok out => exact consResult_appendResult (some b) out _
        | error e => rfl

/-- **Chunks make no difference**: what the rows give, what they leave, and where they fail. -/
theorem executeChunks_eq (chunks : List (List (Option ρ))) (s : σ) :
    flatten (executeChunks (execute f) chunks s) = execute f chunks.flatten s := by
  induction chunks generalizing s with
  | nil => rfl
  | cons chunk chunks ih =>
    rw [executeChunks, List.flatten_cons, execute_append]
    obtain ⟨result, s'⟩ := execute f chunk s
    cases result with
    | error e => rfl
    | ok out =>
      dsimp only
      rw [flatten_consResult, ih]

/-- Functions that agree over the chunks at hand agree over all of them. -/
theorem executeChunks_congr {f g : List ρ → σ → Except ε (List β) × σ} {chunks : List (List ρ)}
    (h : ∀ chunk ∈ chunks, ∀ s, f chunk s = g chunk s) (s : σ) :
    executeChunks f chunks s = executeChunks g chunks s := by
  induction chunks generalizing s with
  | nil => rfl
  | cons chunk chunks ih =>
    rw [executeChunks, executeChunks, h chunk List.mem_cons_self]
    obtain ⟨result, s'⟩ := g chunk s
    cases result with
    | error e => rfl
    | ok out =>
      dsimp only
      rw [ih fun c hc => h c (List.mem_cons_of_mem chunk hc)]

/-- An order that every row goes up in. -/
theorem execute_le (le : σ → σ → Prop) (hrefl : ∀ s, le s s)
    (htrans : ∀ s t u, le s t → le t u → le s u) (hrow : ∀ row s, le s (f row s).2)
    (rows : List (Option ρ)) (s : σ) : le s (execute f rows s).2 := by
  have hcons : ∀ (b : Option β) (r : Except ε (List (Option β)) × σ), (consResult b r).2 = r.2 := by
    rintro b ⟨result, s'⟩
    cases result <;> rfl
  induction rows generalizing s with
  | nil => exact hrefl s
  | cons row rows ih =>
    cases row with
    | none =>
      rw [execute, hcons]
      exact ih s
    | some row =>
      have hfirst := hrow row s
      rw [execute]
      generalize f row s = r at hfirst ⊢
      obtain ⟨first, s'⟩ := r
      cases first with
      | error e => exact hfirst
      | ok b =>
        dsimp only
        rw [hcons]
        exact htrans _ _ _ hfirst (ih s')

/-! ## §2 Two functions -/

/-- What two functions over the same rows have in common: what holds behind the rows that both
have done, with what the second gave for each of them; behind a failure of both; and behind one of
the first alone. -/
structure Together (ρ γ ε σ τ : Type*) where
  behind : List (ρ × γ) → σ → τ → Prop
  failed : ε → σ → τ → Prop
  broke : ε → σ → τ → Prop

variable (T : Together ρ γ ε σ τ)

/-- One row of both. -/
inductive Together.Row (past : List (ρ × γ)) (row : ρ) :
    Except ε β × σ → Except ε γ × τ → Prop where
  | both (b : β) (c : γ) (s : σ) (t : τ) (h : T.behind (past ++ [(row, c)]) s t) :
      Together.Row past row (.ok b, s) (.ok c, t)
  | fail (e : ε) (s : σ) (t : τ) (h : T.failed e s t) :
      Together.Row past row (.error e, s) (.error e, t)
  | broke (e : ε) (c : γ) (s : σ) (t : τ) (h : T.broke e s t) :
      Together.Row past row (.error e, s) (.ok c, t)

/-- The rows that have a value, beside what they gave. -/
def paired (rows : List (Option ρ)) (out : List (Option γ)) : List (ρ × γ) :=
  (rows.filterMap id).zip (out.filterMap id)

/-- All rows of both; where the first function breaks down alone, the second goes on. -/
inductive Together.All (g : ρ → τ → Except ε γ × τ) (past : List (ρ × γ))
    (rows : List (Option ρ)) :
    Except ε (List (Option β)) × σ → Except ε (List (Option γ)) × τ → Prop where
  | both (out : List (Option β)) (out' : List (Option γ)) (s : σ) (t : τ)
      (hshape : out'.map Option.isSome = rows.map Option.isSome)
      (h : T.behind (past ++ paired rows out') s t) :
      Together.All g past rows (.ok out, s) (.ok out', t)
  | fail (e : ε) (s : σ) (t : τ) (h : T.failed e s t) :
      Together.All g past rows (.error e, s) (.error e, t)
  | broke (e : ε) (s : σ) (t : τ) (rest : List (Option ρ)) (r : Except ε (List (Option γ)))
      (h : T.broke e s t) : Together.All g past rows (.error e, s) (r, (execute g rest t).2)

variable {T} {g : ρ → τ → Except ε γ × τ}

/-- A row without a value in front. -/
theorem Together.All.skip {past : List (ρ × γ)} {rows : List (Option ρ)}
    {r : Except ε (List (Option β)) × σ} {r' : Except ε (List (Option γ)) × τ}
    (h : T.All g past rows r r') :
    T.All g past (none :: rows) (consResult none r) (consResult none r') := by
  cases h with
  | both out out' s t hshape h =>
    refine .both _ _ s t ?_ h
    rw [List.map_cons, List.map_cons, hshape]
    rfl
  | fail e s t h => exact .fail e s t h
  | broke e s t rest r h =>
    cases r with
    | ok out => exact .broke e s t rest _ h
    | error e' => exact .broke e s t rest _ h

/-- A row that both have done in front. -/
theorem Together.All.goOn {past : List (ρ × γ)} {row : ρ} {rows : List (Option ρ)} {b : β} {c : γ}
    {r : Except ε (List (Option β)) × σ} {r' : Except ε (List (Option γ)) × τ}
    (h : T.All g (past ++ [(row, c)]) rows r r') :
    T.All g past (some row :: rows) (consResult (some b) r) (consResult (some c) r') := by
  cases h with
  | both out out' s t hshape h =>
    rw [List.append_assoc] at h
    refine .both _ _ s t ?_ h
    rw [List.map_cons, List.map_cons, hshape]
    rfl
  | fail e s t h => exact .fail e s t h
  | broke e s t rest r h =>
    cases r with
    | ok out => exact .broke e s t rest _ h
    | error e' => exact .broke e s t rest _ h

/-- **Row by row, and so over all rows.** -/
theorem execute_beside {rows : List (Option ρ)}
    (hrow : ∀ row, some row ∈ rows → ∀ past s t, T.behind past s t →
      T.Row past row (f row s) (g row t))
    {past : List (ρ × γ)} {s : σ} {t : τ} (h : T.behind past s t) :
    T.All g past rows (execute f rows s) (execute g rows t) := by
  induction rows generalizing past s t with
  | nil =>
    have hnil : past ++ paired ([] : List (Option ρ)) ([] : List (Option γ)) = past :=
      List.append_nil past
    exact .both [] [] s t rfl (hnil.symm ▸ h)
  | cons row rows ih =>
    have hrest := fun row hmem => hrow row (List.mem_cons_of_mem _ hmem)
    cases row with
    | none =>
      rw [execute, execute]
      exact (ih hrest h).skip
    | some row =>
      have hfirst := hrow row List.mem_cons_self past s t h
      rw [execute, execute]
      generalize f row s = r at hfirst ⊢
      generalize g row t = r' at hfirst ⊢
      cases hfirst with
      | both b c s t h => exact (ih hrest h).goOn
      | fail e s t h => exact .fail e s t h
      | broke e c s t h =>
        -- the second function goes on with the rows that are left
        have hend : consResult (some c) (execute g rows t) =
            ((consResult (some c) (execute g rows t)).1, (execute g rows t).2) := by
          obtain ⟨result, t'⟩ := execute g rows t
          cases result <;> rfl
        dsimp only
        rw [hend]
        exact .broke e s t rows _ h

/-- The same rows under other names. -/
theorem execute_map (g : κ → τ → Except ε γ × τ) (k : ρ → κ) (rows : List (Option ρ)) (t : τ) :
    execute g (rows.map (Option.map k)) t = execute (fun row => g (k row)) rows t := by
  induction rows generalizing t with
  | nil => rfl
  | cons row rows ih =>
    cases row with
    | none =>
      rw [List.map_cons, Option.map_none, execute, execute, ih]
    | some row =>
      rw [List.map_cons, Option.map_some, execute, execute]
      obtain ⟨first, t'⟩ := g (k row) t
      cases first with
      | error e => rfl
      | ok c =>
        dsimp only
        rw [ih]

/-- Functions that agree on the rows at hand. -/
theorem execute_congr {f g : ρ → σ → Except ε β × σ} {rows : List (Option ρ)}
    (h : ∀ row, some row ∈ rows → ∀ s, f row s = g row s) (s : σ) :
    execute f rows s = execute g rows s := by
  induction rows generalizing s with
  | nil => rfl
  | cons row rows ih =>
    have hrest := fun row hmem => h row (List.mem_cons_of_mem _ hmem)
    cases row with
    | none => rw [execute, execute, ih hrest]
    | some row =>
      rw [execute, execute, h row List.mem_cons_self]
      obtain ⟨first, s'⟩ := g row s
      cases first with
      | error e => rfl
      | ok b =>
        dsimp only
        rw [ih hrest]

end Library.Rows
