import GgsqlDuckdb.Exec.Config
import Mathlib.Logic.Function.Basic

/-!
# Saving plots to files

`GgsqlSaveFun` of `src/ggsql_exec.cpp`, over the rows of a chunk.  DuckDB applies the function to
the rows without a NULL, in order, and stops at the first exception; different path strings name
different files.  What the engine, the interrupt flag and the file system do is taken from an
environment that sees all calls of `ggsql_execute` so far; rendering touches no file.

## Main results

- `saveRow_cases`: all that a row can do.
- `saveRows_ends`: what a chunk leaves in the files, whether or not it fails.
- `save_same_iff`: when two values of `ggsql_output` make no difference.
-/

namespace GgsqlDuckdb

/-! ## §1 Rows and files -/

/-- The arguments of one call of `ggsql_execute`. -/
structure Execution where
  query : Bytes
  writer : Bytes
  options : Bytes
  deriving DecidableEq, Repr

/-- A row of `ggsql_save(query, path)` without a NULL. -/
structure SaveRow where
  query : Bytes
  path : Bytes
  deriving DecidableEq, Repr

/-- The files by path, and the calls of `ggsql_execute` so far. -/
structure World where
  files : Bytes → Option Bytes
  executed : List Execution

/-- What the code does not decide, by the calls of `ggsql_execute` made so far. -/
structure Environment where
  /-- The outer connection is interrupted when the next `RunGgsqlQuery` begins. -/
  interruptedAtEntry : List Execution → Bool
  /-- The end of the last call. -/
  result : List Execution → RustResult
  /-- The outer connection is interrupted behind the last call. -/
  interruptedAtExit : List Execution → Bool
  /-- The file can be opened for writing. -/
  opens : List Execution → Bytes → Bool
  /-- What a failing write leaves in the file; `none` if nothing fails. -/
  writeFails : List Execution → Bytes → Option Bytes

/-- `RunGgsqlQuery` -/
def runGgsqlQuery (env : Environment) (call : Execution) (w : World) : Outcome × World :=
  if env.interruptedAtEntry w.executed then (.interrupted, w)
  else
    let executed := w.executed ++ [call]
    let (rc, payload) := ggsqlExecute (env.result executed)
    (finish (env.interruptedAtExit executed) rc payload, { w with executed := executed })

def cannotOpen (path : Bytes) : Bytes :=
  ascii "ggsql: cannot open '" ++ path ++ ascii "' for writing"

def failedWriting (path : Bytes) : Bytes :=
  ascii "ggsql: failed while writing '" ++ path ++ ascii "'"

def World.write (w : World) (path bytes : Bytes) : World :=
  { w with files := Function.update w.files path (some bytes) }

/-- The `std::ofstream` of the lambda of `GgsqlSaveFun`.  A file that is opened is truncated at
once. -/
def writeFile (env : Environment) (path payload : Bytes) (w : World) :
    Except ExecError Bytes × World :=
  if env.opens w.executed path then
    match env.writeFails w.executed path with
    | none => (.ok path, w.write path payload)
    | some left => (.error (.io (failedWriting path)), w.write path left)
  else (.error (.io (cannotOpen path)), w)

/-- The call of `ggsql_execute` for a row, once its path has given the writer. -/
def SaveRow.call (row : SaveRow) (options writer : Bytes) : Execution where
  query := row.query
  writer := writer
  options := options

/-- The lambda of `GgsqlSaveFun`. -/
def saveRow (env : Environment) (options : Bytes) (row : SaveRow) (w : World) :
    Except ExecError Bytes × World :=
  match writerForPath row.path with
  | .error e => (.error e, w)
  | .ok writer =>
    match runGgsqlQuery env (row.call options writer) w with
    | (.interrupted, w) => (.error .interrupted, w)
    | (.invalidInput msg, w) => (.error (.invalidInput msg), w)
    | (.payload payload, w) => writeFile env row.path payload w

/-- The row function over a chunk; a row with a NULL gives NULL. -/
def saveRows (env : Environment) (options : Bytes) :
    List (Option SaveRow) → World → Except ExecError (List (Option Bytes)) × World
  | [], w => (.ok [], w)
  | none :: rows, w =>
    match saveRows env options rows w with
    | (.ok paths, w) => (.ok (none :: paths), w)
    | (.error e, w) => (.error e, w)
  | some row :: rows, w =>
    match saveRow env options row w with
    | (.error e, w) => (.error e, w)
    | (.ok path, w) =>
      match saveRows env options rows w with
      | (.ok paths, w) => (.ok (some path :: paths), w)
      | (.error e, w) => (.error e, w)

/-- `GgsqlSaveFun` -/
def ggsqlSaveFun (env : Environment) (s : Settings) (rows : List (Option SaveRow)) (w : World) :
    Except ExecError (List (Option Bytes)) × World :=
  match resolveOutputConfig s with
  | .error e => (.error e, w)
  | .ok cfg => saveRows env cfg.options rows w

/-! ## §2 One row -/

variable {env : Environment} {options : Bytes}

/-- The query of a row comes to a payload. -/
structure Renders (env : Environment) (w : World) (call : Execution) (payload : Bytes) : Prop where
  entry : env.interruptedAtEntry w.executed = false
  result : env.result (w.executed ++ [call]) = .ok payload
  exit : env.interruptedAtExit (w.executed ++ [call]) = false

/-- Why a row fails, and what it leaves behind. -/
inductive RowFails (env : Environment) (options : Bytes) (row : SaveRow) (w : World) :
    ExecError → World → Prop where
  | extension (e : ExecError) (hpath : writerForPath row.path = .error e) :
      RowFails env options row w e w
  | interruptedAtEntry (writer : Bytes) (hpath : writerForPath row.path = .ok writer)
      (hentry : env.interruptedAtEntry w.executed = true) :
      RowFails env options row w .interrupted w
  | interruptedAtExit (writer : Bytes) (hpath : writerForPath row.path = .ok writer)
      (hexit : env.interruptedAtExit (w.executed ++ [row.call options writer]) = true) :
      RowFails env options row w .interrupted
        { w with executed := w.executed ++ [row.call options writer] }
  | render (writer msg : Bytes) (hpath : writerForPath row.path = .ok writer)
      (hresult : ∀ payload,
        env.result (w.executed ++ [row.call options writer]) ≠ .ok payload) :
      RowFails env options row w (.invalidInput msg)
        { w with executed := w.executed ++ [row.call options writer] }
  | cannotOpen (writer payload : Bytes) (hpath : writerForPath row.path = .ok writer)
      (hrenders : Renders env w (row.call options writer) payload)
      (hopen : env.opens (w.executed ++ [row.call options writer]) row.path = false) :
      RowFails env options row w (.io (cannotOpen row.path))
        { w with executed := w.executed ++ [row.call options writer] }
  | writing (writer payload left : Bytes) (hpath : writerForPath row.path = .ok writer)
      (hrenders : Renders env w (row.call options writer) payload)
      (hopen : env.opens (w.executed ++ [row.call options writer]) row.path = true)
      (hwrite : env.writeFails (w.executed ++ [row.call options writer]) row.path = some left) :
      RowFails env options row w (.io (failedWriting row.path))
        ({ w with executed := w.executed ++ [row.call options writer] }.write row.path left)

theorem runGgsqlQuery_entry {call : Execution} {w : World}
    (h : env.interruptedAtEntry w.executed = true) :
    runGgsqlQuery env call w = (.interrupted, w) := by
  unfold runGgsqlQuery
  rw [if_pos h]

theorem runGgsqlQuery_called {call : Execution} {w : World}
    (h : env.interruptedAtEntry w.executed = false) :
    runGgsqlQuery env call w =
      (finish (env.interruptedAtExit (w.executed ++ [call]))
        (ggsqlExecute (env.result (w.executed ++ [call]))).1
        (ggsqlExecute (env.result (w.executed ++ [call]))).2,
        { w with executed := w.executed ++ [call] }) := by
  unfold runGgsqlQuery
  rw [if_neg (by simp [h])]

/-- **All that a row can do**: it saves its payload, or it fails for one of the reasons of
`RowFails`. -/
theorem saveRow_cases (env : Environment) (options : Bytes) (row : SaveRow) (w : World) :
    (∃ writer payload, writerForPath row.path = .ok writer ∧
      Renders env w (row.call options writer) payload ∧
      saveRow env options row w = (.ok row.path,
        { w with executed := w.executed ++ [row.call options writer] }.write row.path payload)) ∨
    ∃ e w', RowFails env options row w e w' ∧ saveRow env options row w = (.error e, w') := by
  unfold saveRow
  cases hpath : writerForPath row.path with
  | error e => exact Or.inr ⟨e, w, .extension e hpath, rfl⟩
  | ok writer =>
    dsimp only
    cases hentry : env.interruptedAtEntry w.executed with
    | true =>
      rw [runGgsqlQuery_entry hentry]
      exact Or.inr ⟨_, _, .interruptedAtEntry writer hpath hentry, rfl⟩
    | false =>
      rw [runGgsqlQuery_called hentry]
      cases hexit : env.interruptedAtExit (w.executed ++ [row.call options writer]) with
      | true => exact Or.inr ⟨_, _, .interruptedAtExit writer hpath hexit, rfl⟩
      | false =>
        cases hresult : env.result (w.executed ++ [row.call options writer]) with
        | err msg =>
          have hnone : ∀ payload, env.result (w.executed ++ [row.call options writer]) ≠
              .ok payload := by simp [hresult]
          exact Or.inr ⟨_, _, .render writer _ hpath hnone, rfl⟩
        | panic =>
          have hnone : ∀ payload, env.result (w.executed ++ [row.call options writer]) ≠
              .ok payload := by simp [hresult]
          exact Or.inr ⟨_, _, .render writer _ hpath hnone, rfl⟩
        | ok payload =>
          have hrenders : Renders env w (row.call options writer) payload :=
            ⟨hentry, hresult, hexit⟩
          show _ ∨ ∃ e w', _ ∧ writeFile env row.path payload _ = _
          -- the payload is there; what is left is the file
          cases hopen : env.opens (w.executed ++ [row.call options writer]) row.path with
          | false =>
            exact Or.inr ⟨_, _, .cannotOpen writer payload hpath hrenders hopen, by
              unfold writeFile
              rw [if_neg (by simp [hopen])]⟩
          | true =>
            cases hwrite : env.writeFails (w.executed ++ [row.call options writer]) row.path with
            | some left =>
              exact Or.inr ⟨_, _, .writing writer payload left hpath hrenders hopen hwrite, by
                unfold writeFile
                rw [if_pos hopen, hwrite]⟩
            | none =>
              refine Or.inl ⟨writer, payload, rfl, hrenders, ?_⟩
              show writeFile env row.path payload _ = _
              unfold writeFile
              rw [if_pos hopen, hwrite]

/-- A row that does not fail while writing leaves every file as it was. -/
theorem RowFails.files {row : SaveRow} {w w' : World} {e : ExecError}
    (h : RowFails env options row w e w') :
    (∀ path, path ≠ row.path → w'.files path = w.files path) ∧
      (e ≠ .io (failedWriting row.path) → w'.files = w.files) := by
  cases h with
  | writing writer payload left =>
    refine ⟨?_, fun hne => absurd rfl hne⟩
    intro path hpath
    exact Function.update_of_ne hpath _ _
  | _ => exact ⟨fun _ _ => rfl, fun _ => rfl⟩

/-- A row with a bad extension never reaches the engine. -/
theorem RowFails.extension_untouched {row : SaveRow} {w w' : World} {e e' : ExecError}
    (h : RowFails env options row w e w') (hpath : writerForPath row.path = .error e') :
    e = e' ∧ w' = w := by
  cases h with
  | extension e h =>
    rw [h] at hpath
    exact ⟨Except.error.inj hpath, rfl⟩
  | interruptedAtEntry writer h => rw [h] at hpath; cases hpath
  | interruptedAtExit writer h => rw [h] at hpath; cases hpath
  | render writer msg h => rw [h] at hpath; cases hpath
  | cannotOpen writer payload h => rw [h] at hpath; cases hpath
  | writing writer payload left h => rw [h] at hpath; cases hpath

/-! ## §3 The rows of a chunk -/

/-- The bytes of the last of `writes` that names `path`. -/
def lastWrite (writes : List (Bytes × Bytes)) (path : Bytes) : Option Bytes :=
  ((writes.filter fun x => decide (x.1 = path)).getLast?).map Prod.snd

theorem lastWrite_cons (p bytes : Bytes) (writes : List (Bytes × Bytes)) (path : Bytes) :
    lastWrite ((p, bytes) :: writes) path =
      (lastWrite writes path).or (if p = path then some bytes else none) := by
  unfold lastWrite
  rw [List.filter_cons]
  split_ifs with hpath hsame hsame
  · cases hrest : (writes.filter fun x => decide (x.1 = path)).getLast? with
    | none => simp [List.getLast?_cons, hrest]
    | some x => simp [List.getLast?_cons, hrest]
  · exact absurd (by simpa using hpath) hsame
  · exact absurd (by simpa using hsame) hpath
  · simp

/-- What rows that all succeed leave behind: a call of the engine for each of them, and in the
file of each path the payload of the last row that names it. -/
structure Saved (env : Environment) (options : Bytes) (rows : List SaveRow) (w w' : World)
    (writes : List (Bytes × Bytes)) (calls : List Execution) : Prop where
  paths : writes.map Prod.fst = rows.map SaveRow.path
  executed : w'.executed = w.executed ++ calls
  called : List.Forall₂ (fun (row : SaveRow) (call : Execution) =>
    ∃ writer, writerForPath row.path = .ok writer ∧ call = row.call options writer) rows calls
  payload : ∀ i path bytes, writes[i]? = some (path, bytes) →
    env.result (w.executed ++ calls.take (i + 1)) = .ok bytes
  files : ∀ path, w'.files path = (lastWrite writes path).or (w.files path)

theorem Saved.nil (w : World) : Saved env options [] w w [] [] where
  paths := rfl
  executed := by rw [List.append_nil]
  called := .nil
  payload i path bytes h := by simp at h
  files path := by rw [lastWrite]; rfl

/-- A row that succeeds, in front of rows that do. -/
theorem Saved.cons {row : SaveRow} {rows : List SaveRow} {w w' : World} {writer payload : Bytes}
    {writes : List (Bytes × Bytes)} {calls : List Execution}
    (hpath : writerForPath row.path = .ok writer)
    (hrenders : Renders env w (row.call options writer) payload)
    (h : Saved env options rows
      ({ w with executed := w.executed ++ [row.call options writer] }.write row.path payload) w'
      writes calls) :
    Saved env options (row :: rows) w w' ((row.path, payload) :: writes)
      (row.call options writer :: calls) where
  paths := by rw [List.map_cons, List.map_cons, h.paths]
  executed := by
    rw [h.executed]
    show (w.executed ++ [row.call options writer]) ++ calls = _
    rw [List.append_assoc, List.singleton_append]
  called := .cons ⟨writer, hpath, rfl⟩ h.called
  payload := by
    intro i path bytes hi
    cases i with
    | zero =>
      obtain ⟨rfl, rfl⟩ : row.path = path ∧ payload = bytes := by simpa using hi
      exact hrenders.result
    | succ i =>
      have hrest : env.result ((w.executed ++ [row.call options writer]) ++ calls.take (i + 1)) =
          .ok bytes := h.payload i path bytes (by simpa using hi)
      rw [List.take_succ_cons, ← hrest, List.append_assoc, List.singleton_append]
  files := by
    intro path
    rw [h.files, lastWrite_cons]
    show (lastWrite writes path).or (Function.update w.files row.path (some payload) path) = _
    -- a later row that names the path wins
    by_cases hsame : path = row.path
    · subst hsame
      rw [if_pos rfl, Function.update_self]
      cases lastWrite writes row.path <;> rfl
    · rw [if_neg (Ne.symm hsame), Function.update_of_ne hsame]
      cases lastWrite writes path <;> rfl

/-- What a chunk of rows comes to: all of them are saved, or those in front of a first one that
fails. -/
def ChunkEnds (env : Environment) (options : Bytes) (rows : List SaveRow) (w : World)
    (paths : List (Option Bytes)) : Except ExecError (List (Option Bytes)) × World → Prop
  | (.ok paths', w') =>
    paths' = paths ∧ ∃ writes calls, Saved env options rows w w' writes calls
  | (.error e, w') =>
    ∃ pre row post writes calls wk, rows = pre ++ row :: post ∧
      Saved env options pre w wk writes calls ∧ RowFails env options row wk e w'

/-- **The rows of a chunk**, by induction over them. -/
theorem saveRows_ends (env : Environment) (options : Bytes) (rows : List (Option SaveRow))
    (w : World) :
    ChunkEnds env options (rows.filterMap id) w (rows.map (Option.map SaveRow.path))
      (saveRows env options rows w) := by
  induction rows generalizing w with
  | nil => exact ⟨rfl, [], [], Saved.nil w⟩
  | cons row rows ih =>
    cases row with
    | none =>
      have hrest := ih w
      rw [saveRows]
      generalize saveRows env options rows w = r at hrest ⊢
      obtain ⟨result, w'⟩ := r
      cases result with
      | ok paths =>
        obtain ⟨rfl, hsaved⟩ := hrest
        exact ⟨rfl, hsaved⟩
      | error e => exact hrest
    | some row =>
      rw [saveRows]
      rcases saveRow_cases env options row w with ⟨writer, payload, hpath, hrenders, hrow⟩ |
        ⟨e, w', hfails, hrow⟩
      · -- the row succeeds, and the others go on from what it leaves
        rw [hrow]
        have hrest := ih ({ w with executed := w.executed ++ [row.call options writer] }.write
          row.path payload)
        dsimp only
        generalize saveRows env options rows
          ({ w with executed := w.executed ++ [row.call options writer] }.write row.path
            payload) = r at hrest ⊢
        obtain ⟨result, w'⟩ := r
        cases result with
        | ok paths =>
          obtain ⟨rfl, writes, calls, hsaved⟩ := hrest
          exact ⟨rfl, _, _, hsaved.cons hpath hrenders⟩
        | error e =>
          obtain ⟨pre, bad, post, writes, calls, wk, hsplit, hsaved, hfails⟩ := hrest
          refine ⟨row :: pre, bad, post, _, _, wk, ?_, hsaved.cons hpath hrenders, hfails⟩
          simpa using hsplit
      · rw [hrow]
        exact ⟨[], row, rows.filterMap id, [], [], w, by simp, Saved.nil w, hfails⟩

/-! ## §4 Files and failures -/

theorem ggsqlSaveFun_eq (env : Environment) (s : Settings) (rows : List (Option SaveRow))
    (w : World) :
    ggsqlSaveFun env s rows w =
      if s.mode ∈ outputModes then saveRows env s.writerOptions rows w
      else (.error (.invalidInput (unrecognisedMode s.mode)), w) := by
  unfold ggsqlSaveFun
  rw [resolveOutputConfig_eq]
  split_ifs <;> rfl

/-- **What a call of `ggsql_save` leaves in the files.**  Without a recognised output mode it fails
in front of all rows.  Else it saves all of them, or it fails at a row behind which nothing
happens, and which leaves every file as the rows before it made it, but for a file that was
opened and could not be written. -/
theorem save_leaves_files (env : Environment) (s : Settings) (rows : List (Option SaveRow))
    (w : World) :
    (∃ e, resolveOutputConfig s = .error e ∧ ggsqlSaveFun env s rows w = (.error e, w)) ∨
    (∃ writes calls w',
      ggsqlSaveFun env s rows w = (.ok (rows.map (Option.map SaveRow.path)), w') ∧
      Saved env s.writerOptions (rows.filterMap id) w w' writes calls) ∨
    ∃ pre row post writes calls wk e w',
      ggsqlSaveFun env s rows w = (.error e, w') ∧ rows.filterMap id = pre ++ row :: post ∧
      Saved env s.writerOptions pre w wk writes calls ∧
      RowFails env s.writerOptions row wk e w' ∧
      (∀ path, path ≠ row.path → w'.files path = wk.files path) ∧
      (e ≠ .io (failedWriting row.path) → w'.files = wk.files) ∧
      ∀ e', writerForPath row.path = .error e' → e = e' ∧ w' = wk := by
  rw [ggsqlSaveFun_eq, resolveOutputConfig_eq]
  split_ifs with hmode
  · right
    have hends := saveRows_ends env s.writerOptions rows w
    generalize saveRows env s.writerOptions rows w = r at hends ⊢
    obtain ⟨result, w'⟩ := r
    cases result with
    | ok paths =>
      obtain ⟨rfl, writes, calls, hsaved⟩ := hends
      exact Or.inl ⟨writes, calls, w', rfl, hsaved⟩
    | error e =>
      obtain ⟨pre, row, post, writes, calls, wk, hsplit, hsaved, hfails⟩ := hends
      right
      refine ⟨pre, row, post, writes, calls, wk, e, w', rfl, hsplit, hsaved, hfails, ?_, ?_, ?_⟩
      · exact hfails.files.1
      · exact hfails.files.2
      · intro e' hpath
        exact hfails.extension_untouched hpath
  · exact Or.inl ⟨_, rfl, rfl⟩

/-- An engine that always delivers, and a disk that is full from the second file on. -/
def fullDisk : Environment where
  interruptedAtEntry _ := false
  result executed := .ok (executed.map fun _ => 1)
  interruptedAtExit _ := false
  opens _ _ := true
  writeFails executed _ := if executed.length = 1 then none else some []

/-- The default settings. -/
def defaultSettings : Settings where
  output := some (ascii "silent")
  options := some []

def emptyWorld : World where
  files _ := none
  executed := []

/-- Two rows name one path: the payload of the first is lost when the second cannot be written. -/
theorem save_truncates :
    (ggsqlSaveFun fullDisk defaultSettings [some ⟨ascii "q", ascii "a.svg"⟩] emptyWorld).1 =
      .ok [some (ascii "a.svg")] ∧
    (ggsqlSaveFun fullDisk defaultSettings [some ⟨ascii "q", ascii "a.svg"⟩] emptyWorld).2.files
      (ascii "a.svg") = some [1] ∧
    (ggsqlSaveFun fullDisk defaultSettings
      [some ⟨ascii "q", ascii "a.svg"⟩, some ⟨ascii "q", ascii "a.svg"⟩] emptyWorld).1 =
      .error (.io (failedWriting (ascii "a.svg"))) ∧
    (ggsqlSaveFun fullDisk defaultSettings
      [some ⟨ascii "q", ascii "a.svg"⟩, some ⟨ascii "q", ascii "a.svg"⟩] emptyWorld).2.files
      (ascii "a.svg") = some [] := by
  decide

/-! ## §5 The output mode -/

/-- The rows never end as the resolver does for a mode it rejects. -/
theorem saveRows_ne_rejected (rows : List (Option SaveRow)) (w : World) (mode : Bytes) :
    saveRows env options rows w ≠ (.error (.invalidInput (unrecognisedMode mode)), w) := by
  intro h
  have hends := saveRows_ends env options rows w
  rw [h] at hends
  obtain ⟨pre, row, post, writes, calls, wk, -, hsaved, hfails⟩ := hends
  have hcalls := hsaved.executed
  cases hfails with
  | extension e hpath => exact writerForPath_error hpath mode rfl
  | render writer msg =>
    -- a query that was run is among the calls
    have hlength := congrArg List.length hcalls
    simp only [List.length_append, List.length_cons, List.length_nil] at hlength
    omega

/-- **The output mode makes no difference if and only if both values are recognised, or they are
the same up to letter case.** -/
theorem save_same_iff (env : Environment) (options : Option Bytes) (rows : List (Option SaveRow))
    (w : World) (output output' : Option Bytes) :
    ggsqlSaveFun env ⟨output, options⟩ rows w = ggsqlSaveFun env ⟨output', options⟩ rows w ↔
      (lower (valueToString output) ∈ outputModes ∧ lower (valueToString output') ∈ outputModes) ∨
        lower (valueToString output) = lower (valueToString output') := by
  -- the options of the two sessions are the same
  have hrun : ∀ o, ggsqlSaveFun env ⟨o, options⟩ rows w =
      if lower (valueToString o) ∈ outputModes then
        saveRows env (Settings.writerOptions ⟨none, options⟩) rows w
      else (.error (.invalidInput (unrecognisedMode (lower (valueToString o)))), w) :=
    fun o => ggsqlSaveFun_eq env ⟨o, options⟩ rows w
  rw [hrun, hrun]
  generalize lower (valueToString output) = mode
  generalize lower (valueToString output') = mode'
  by_cases h : mode ∈ outputModes <;> by_cases h' : mode' ∈ outputModes
  · simp [h, h']
  · -- one session rejects its mode, and the other does not
    rw [if_pos h, if_neg h']
    constructor
    · intro heq
      exact absurd heq (saveRows_ne_rejected rows w mode')
    · rintro (⟨-, hmem⟩ | rfl)
      · exact absurd hmem h'
      · exact absurd h h'
  · rw [if_neg h, if_pos h']
    constructor
    · intro heq
      exact absurd heq.symm (saveRows_ne_rejected rows w mode)
    · rintro (⟨hmem, -⟩ | rfl)
      · exact absurd hmem h
      · exact absurd h' h
  · -- both reject it, in messages that name it
    rw [if_neg h, if_neg h']
    constructor
    · intro heq
      have hmsg := ExecError.invalidInput.inj (Except.error.inj (Prod.mk.inj heq).1)
      exact Or.inr (unrecognisedMode_injective hmsg)
    · rintro (⟨hmem, -⟩ | rfl)
      · exact absurd hmem h
      · rfl

/-- A mode that is not recognised keeps a file from being saved. -/
theorem save_depends_on_output :
    ggsqlSaveFun fullDisk ⟨some (ascii "silent"), some []⟩ [some ⟨ascii "q", ascii "a.svg"⟩]
      emptyWorld ≠
    ggsqlSaveFun fullDisk ⟨some (ascii "nope"), some []⟩ [some ⟨ascii "q", ascii "a.svg"⟩]
      emptyWorld := by
  intro h
  have hresult := congrArg Prod.fst h
  revert hresult
  decide

end GgsqlDuckdb
