import GgsqlDuckdb.Exec.Dispatch
import GgsqlDuckdb.Exec.Save

/-!
# A statement from its plan to its rows

`PlanFunction` of `src/ggsql_parser.cpp`, and `GgsqlRunBind`, `GgsqlRunInit` and `GgsqlRunExec` of
`src/ggsql_exec.cpp`.  The plan and the table function read the same settings; each call of the
table function finds the settings, the interrupt flag and the crates in a state of their own.

## Main results

- `exec_cases`: all that a call of the table function can do.
- `scanRun_cases`: successive calls on one global state.
- `statement_in_step`: the plan, the table function and the dispatcher agree.
-/

namespace GgsqlDuckdb

open Library Library.Utf8 Dispatch

/-! ## §1 Plan and bind -/

inductive RunError where
  | exec (e : ExecError)
  | invalidUnicode (text : Bytes)
  deriving DecidableEq, Repr

/-- `Value::Value(string)`, which takes valid text only. -/
def textValue (text : Bytes) : Except RunError Bytes :=
  if valid text then .ok text else .error (.invalidUnicode text)

inductive StatementReturnType where
  | queryResult
  | nothing
  deriving DecidableEq, Repr

/-- `ParserExtensionPlanResult` for the function `ggsql_run`. -/
structure PlanResult where
  parameters : List (Option Bytes)
  requiresValidTransaction : Bool
  returnType : StatementReturnType
  deriving DecidableEq, Repr

/-- `IsSilentOutputMode` -/
def isSilentOutputMode (s : Settings) : Except ExecError Bool := do
  let cfg ← resolveOutputConfig s
  return decide (cfg.writer = ascii "silent")

/-- `PlanFunction` -/
def planFunction (s : Settings) (query : Bytes) : Except RunError PlanResult := do
  let parameter ← textValue query
  let silent ← (isSilentOutputMode s).mapError .exec
  return {
    parameters := [some parameter]
    requiresValidTransaction := false
    returnType := if silent then .nothing else .queryResult }

inductive LogicalType where
  | blob
  | varchar
  deriving DecidableEq, Repr

structure GgsqlRunBindData where
  query : Bytes
  cfg : OutputConfig
  deriving DecidableEq, Repr

/-- What `GgsqlRunBind` fills in and returns. -/
structure Bound where
  names : List Bytes
  returnTypes : List LogicalType
  data : GgsqlRunBindData
  deriving DecidableEq, Repr

def noQuery : Bytes := ascii "ggsql_run requires a non-null query argument"

/-- `GgsqlRunBind` -/
def ggsqlRunBind (s : Settings) (inputs : List (Option Bytes)) : Except ExecError Bound := do
  let cfg ← resolveOutputConfig s
  let returnTypes := [if cfg.binary then LogicalType.blob else .varchar]
  match inputs with
  | some query :: _ =>
    return { names := [ascii "plot"], returnTypes := returnTypes, data := ⟨query, cfg⟩ }
  | _ => throw (.invalidInput noQuery)

/-! ## §2 The table function -/

/-- What a call finds in its `ClientContext`, and what the dispatcher gets in it. -/
structure ClientContext (Options Spec : Type) where
  settings : Settings
  interruptedAtEntry : Bool
  interruptedAtExit : Bool
  crates : Crates Options Spec

variable {Options Spec : Type}

/-- The environment of a call that touches no file. -/
def ClientContext.environment (context : ClientContext Options Spec) : Environment where
  interruptedAtEntry _ := context.interruptedAtEntry
  result executed :=
    match executed.getLast? with
    | some call => rustResult (run context.crates call.query call.writer call.options)
    | none => .err []
  interruptedAtExit _ := context.interruptedAtExit
  opens _ _ := false
  writeFails _ _ := none

structure GgsqlRunGlobalState where
  emitted : Bool
  deriving DecidableEq, Repr

/-- `GgsqlRunInit` -/
def ggsqlRunInit : GgsqlRunGlobalState where
  emitted := false

inductive Cell where
  | blob (bytes : Bytes)
  | varchar (text : Bytes)
  deriving DecidableEq, Repr

def Cell.type : Cell → LogicalType
  | .blob _ => .blob
  | .varchar _ => .varchar

/-- The rows of a call. -/
abbrev Chunk := Except RunError (List Cell)

/-- The call of `ggsql_execute` that a bound statement makes. -/
def GgsqlRunBindData.call (data : GgsqlRunBindData) : Execution where
  query := data.query
  writer := data.cfg.writer
  options := data.cfg.options

/-- `GgsqlRunExec` -/
def ggsqlRunExec (context : ClientContext Options Spec) (data : GgsqlRunBindData)
    (state : GgsqlRunGlobalState) (w : World) : Chunk × GgsqlRunGlobalState × World :=
  if state.emitted then (.ok [], state, w)
  else
    match runGgsqlQuery context.environment data.call w with
    | (.interrupted, w) => (.error (.exec .interrupted), state, w)
    | (.invalidInput msg, w) => (.error (.exec (.invalidInput msg)), state, w)
    | (.payload payload, w) =>
      let state := { state with emitted := true }
      if data.cfg.writer = ascii "silent" then (.ok [], state, w)
      else if data.cfg.binary then (.ok [.blob payload], state, w)
      else
        -- the value is made once the state says that the row is out
        match textValue payload with
        | .ok text => (.ok [.varchar text], state, w)
        | .error e => (.error e, state, w)

/-- Successive calls on one global state, each in a context of its own. -/
def scanRun (data : GgsqlRunBindData) : List (ClientContext Options Spec) →
    GgsqlRunGlobalState → World → List Chunk × GgsqlRunGlobalState × World
  | [], state, w => ([], state, w)
  | context :: contexts, state, w =>
    let (chunk, state, w) := ggsqlRunExec context data state w
    let (chunks, state, w) := scanRun data contexts state w
    (chunk :: chunks, state, w)

/-- All rows that successive calls emit. -/
def emittedRows (chunks : List Chunk) : List Cell :=
  chunks.flatMap fun chunk => chunk.toOption.getD []

/-! ## §3 One call -/

/-- A configuration as `ResolveOutputConfig` returns it. -/
structure Accepted (cfg : OutputConfig) : Prop where
  mode : cfg.writer ∈ outputModes
  binary : cfg.binary = true ↔ cfg.writer = ascii "pdf" ∨ cfg.writer = ascii "hep"

theorem resolveOutputConfig_accepted {s : Settings} {cfg : OutputConfig}
    (h : resolveOutputConfig s = .ok cfg) : Accepted cfg ∧ cfg.writer = s.mode := by
  rw [resolveOutputConfig_eq] at h
  split_ifs at h with hmode
  obtain rfl := Except.ok.inj h
  exact ⟨⟨hmode, by simp⟩, rfl⟩

/-- The rows of a call that runs the query and does not throw. -/
inductive Rows (cfg : OutputConfig) : List Cell → Prop where
  | silent (h : cfg.writer = ascii "silent") : Rows cfg []
  | blob (h : cfg.writer ≠ ascii "silent") (hbinary : cfg.binary = true) (payload : Bytes) :
      Rows cfg [.blob payload]
  | varchar (h : cfg.writer ≠ ascii "silent") (hbinary : cfg.binary = false) (text : Bytes) :
      Rows cfg [.varchar text]

theorem Rows.length {cfg : OutputConfig} {rows : List Cell} (h : Rows cfg rows) :
    rows.length = if cfg.writer = ascii "silent" then 0 else 1 := by
  cases h with
  | silent h => rw [if_pos h]; rfl
  | blob h => rw [if_neg h]; rfl
  | varchar h => rw [if_neg h]; rfl

/-- Every row has the type of the column. -/
theorem Rows.type {cfg : OutputConfig} {rows : List Cell} (h : Rows cfg rows) :
    ∀ cell ∈ rows, cell.type = if cfg.binary then .blob else .varchar := by
  cases h with
  | silent h => simp
  | blob h hbinary payload => simp [Cell.type, hbinary]
  | varchar h hbinary text => simp [Cell.type, hbinary]

variable {data : GgsqlRunBindData} {state : GgsqlRunGlobalState}

/-- `ggsql_execute` answers as the dispatcher does. -/
theorem environment_result (context : ClientContext Options Spec) (executed : List Execution) :
    context.environment.result (executed ++ [data.call]) =
      rustResult (run context.crates data.query data.cfg.writer data.cfg.options) := by
  unfold ClientContext.environment
  dsimp only
  rw [List.getLast?_concat]
  rfl

theorem exec_emitted (context : ClientContext Options Spec) (w : World) (h : state.emitted = true) :
    ggsqlRunExec context data state w = (.ok [], state, w) := by
  unfold ggsqlRunExec
  rw [if_pos h]

/-- **All that a call can do** before the row is out: it throws and leaves the state as it was, or
it calls `ggsql_execute` and puts out the rows of the mode. -/
theorem exec_cases (context : ClientContext Options Spec) (w : World) (hcfg : Accepted data.cfg)
    (hstate : state.emitted = false) :
    (∃ e w', ggsqlRunExec context data state w = (.error e, state, w')) ∨
    ∃ rows w', ggsqlRunExec context data state w = (.ok rows, ⟨true⟩, w') ∧ Rows data.cfg rows ∧
      w'.executed = w.executed ++ [data.call] := by
  unfold ggsqlRunExec
  rw [if_neg (by simp [hstate])]
  cases hentry : context.interruptedAtEntry with
  | true =>
    rw [runGgsqlQuery_entry hentry]
    exact Or.inl ⟨_, _, rfl⟩
  | false =>
    have hexit : context.environment.interruptedAtExit (w.executed ++ [data.call]) =
        context.interruptedAtExit := rfl
    rw [runGgsqlQuery_called hentry, environment_result, hexit]
    cases hflag : context.interruptedAtExit with
    | true => exact Or.inl ⟨_, _, rfl⟩
    | false =>
      have hends := run_ends context.crates data.query data.cfg.options hcfg.mode
      cases hrun : run context.crates data.query data.cfg.writer data.cfg.options with
      | error f =>
        left
        cases f with
        | error msg => exact ⟨_, _, rfl⟩
        | unknownWriter writer => exact ⟨_, _, rfl⟩
        | panicked => exact ⟨_, _, rfl⟩
        | unreachable => exact ⟨_, _, rfl⟩
      | ok payload =>
        right
        rw [hrun] at hends
        simp only [rustResult, ggsqlExecute, finish, Bool.false_eq_true, if_false, ne_eq,
          not_true_eq_false]
        split_ifs with hsilent hbinary
        · exact ⟨_, _, rfl, .silent hsilent, rfl⟩
        · exact ⟨_, _, rfl, .blob hsilent hbinary payload, rfl⟩
        · -- the payload is text, so the value is made
          obtain ⟨hpdf, hhep⟩ := not_or.mp (mt hcfg.binary.mpr hbinary)
          have htext : textValue payload = .ok payload :=
            if_pos (valid_iff.mpr (hends hpdf hhep))
          rw [htext]
          exact ⟨_, _, rfl, .varchar hsilent (Bool.not_eq_true _ ▸ hbinary) payload, rfl⟩

/-- What a call returns and the state it leaves do not depend on the calls of `ggsql_execute`
before it. -/
theorem exec_world (data : GgsqlRunBindData) (context : ClientContext Options Spec)
    (state : GgsqlRunGlobalState) (w w' : World) :
    (ggsqlRunExec context data state w).1 = (ggsqlRunExec context data state w').1 ∧
      (ggsqlRunExec context data state w).2.1 = (ggsqlRunExec context data state w').2.1 := by
  have hquery : (runGgsqlQuery context.environment data.call w).1 =
      (runGgsqlQuery context.environment data.call w').1 := by
    cases hentry : context.interruptedAtEntry with
    | true => rw [runGgsqlQuery_entry hentry, runGgsqlQuery_entry hentry]
    | false =>
      rw [runGgsqlQuery_called hentry, runGgsqlQuery_called hentry, environment_result,
        environment_result]
      rfl
  cases hemitted : state.emitted with
  | true =>
    rw [exec_emitted context w hemitted, exec_emitted context w' hemitted]
    exact ⟨rfl, rfl⟩
  | false =>
    unfold ggsqlRunExec
    rw [if_neg (by simp [hemitted]), if_neg (by simp [hemitted])]
    generalize runGgsqlQuery context.environment data.call w = r at hquery ⊢
    generalize runGgsqlQuery context.environment data.call w' = r' at hquery ⊢
    obtain ⟨outcome, u⟩ := r
    obtain ⟨outcome', u'⟩ := r'
    obtain rfl : outcome = outcome' := hquery
    cases outcome with
    | interrupted => exact ⟨rfl, rfl⟩
    | invalidInput msg => exact ⟨rfl, rfl⟩
    | payload payload =>
      split_ifs
      · exact ⟨rfl, rfl⟩
      · exact ⟨rfl, rfl⟩
      · dsimp only
        cases textValue payload <;> exact ⟨rfl, rfl⟩

/-- A call that throws leaves the state as it was. -/
theorem exec_throws {context : ClientContext Options Spec} {w : World} {e : RunError}
    (hcfg : Accepted data.cfg) (h : (ggsqlRunExec context data state w).1 = .error e) :
    (ggsqlRunExec context data state w).2.1 = state := by
  cases hstate : state.emitted with
  | true =>
    rw [exec_emitted context w hstate] at h
    cases h
  | false =>
    rcases exec_cases context w hcfg hstate with ⟨e', w', hexec⟩ |
      ⟨rows, w', hexec, -⟩
    · rw [hexec]
    · rw [hexec] at h
      cases h

/-! ## §4 Successive calls -/

theorem scanRun_emitted (contexts : List (ClientContext Options Spec)) (w : World)
    (h : state.emitted = true) :
    scanRun data contexts state w = (List.replicate contexts.length (.ok []), state, w) := by
  induction contexts with
  | nil => rfl
  | cons context contexts ih =>
    rw [scanRun, exec_emitted context w h]
    dsimp only
    rw [ih]
    rfl

theorem scanRun_append (before after : List (ClientContext Options Spec))
    (state : GgsqlRunGlobalState) (w : World) :
    scanRun data (before ++ after) state w =
      ((scanRun data before state w).1 ++
          (scanRun data after (scanRun data before state w).2.1
            (scanRun data before state w).2.2).1,
        (scanRun data after (scanRun data before state w).2.1
          (scanRun data before state w).2.2).2) := by
  induction before generalizing state w with
  | nil => rfl
  | cons context before ih =>
    rw [List.cons_append, scanRun, scanRun]
    dsimp only
    rw [ih]
    rfl

theorem scanRun_world (data : GgsqlRunBindData) (contexts : List (ClientContext Options Spec))
    (state : GgsqlRunGlobalState) (w w' : World) :
    (scanRun data contexts state w).1 = (scanRun data contexts state w').1 ∧
      (scanRun data contexts state w).2.1 = (scanRun data contexts state w').2.1 := by
  induction contexts generalizing state w w' with
  | nil => exact ⟨rfl, rfl⟩
  | cons context contexts ih =>
    obtain ⟨hchunk, hstate⟩ := exec_world data context state w w'
    rw [scanRun, scanRun]
    dsimp only
    rw [hchunk, hstate]
    obtain ⟨hchunks, hlast⟩ := ih (ggsqlRunExec context data state w').2.1
      (ggsqlRunExec context data state w).2.2 (ggsqlRunExec context data state w').2.2
    exact ⟨congrArg _ hchunks, hlast⟩

/-- **A call that throws is as good as none**: the calls around it return the same without it, and
leave the same state. -/
theorem scanRun_skip (hcfg : Accepted data.cfg) (before after : List (ClientContext Options Spec))
    {context : ClientContext Options Spec} {w : World} {e : RunError}
    (h : (ggsqlRunExec context data (scanRun data before state w).2.1
      (scanRun data before state w).2.2).1 = .error e) :
    ∃ chunks,
      (scanRun data (before ++ context :: after) state w).1 =
        (scanRun data before state w).1 ++ .error e :: chunks ∧
      (scanRun data (before ++ after) state w).1 = (scanRun data before state w).1 ++ chunks ∧
      (scanRun data (before ++ context :: after) state w).2.1 =
        (scanRun data (before ++ after) state w).2.1 := by
  have hsame := exec_throws hcfg h
  rw [scanRun_append, scanRun_append]
  generalize scanRun data before state w = r at h hsame ⊢
  obtain ⟨chunks, state', w'⟩ := r
  dsimp only at h hsame ⊢
  rw [scanRun]
  dsimp only
  rw [h, hsame]
  obtain ⟨hchunks, hlast⟩ := scanRun_world data after state'
    (ggsqlRunExec context data state' w').2.2 w'
  exact ⟨_, congrArg _ (congrArg _ hchunks), rfl, hlast⟩

/-- **Successive calls on one global state**: all of them throw, or the first one that does not
puts out the rows of the mode, and the ones behind it put out nothing and call nothing. -/
theorem scanRun_cases (contexts : List (ClientContext Options Spec)) (w : World)
    (hcfg : Accepted data.cfg) (hstate : state.emitted = false) :
    ((∀ chunk ∈ (scanRun data contexts state w).1, ∃ e, chunk = .error e) ∧
      (scanRun data contexts state w).2.1 = state) ∨
    ∃ thrown rows n, (scanRun data contexts state w).1 =
        thrown ++ .ok rows :: List.replicate n (.ok []) ∧
      (∀ chunk ∈ thrown, ∃ e, chunk = .error e) ∧ Rows data.cfg rows ∧
      (scanRun data contexts state w).2.1.emitted = true ∧
      (thrown = [] → (scanRun data contexts state w).2.2.executed = w.executed ++ [data.call]) := by
  induction contexts generalizing w with
  | nil => exact Or.inl ⟨by simp [scanRun], rfl⟩
  | cons context contexts ih =>
    rcases exec_cases context w hcfg hstate with ⟨e, w', hexec⟩ |
      ⟨rows, w', hexec, hrows, hcalled⟩
    · -- the call throws, and the others find the state as it was
      rw [scanRun, hexec]
      rcases ih w' with ⟨hall, hsame⟩ | ⟨thrown, rows, n, hsplit, hthrown, hrows, hout, -⟩
      · left
        exact ⟨List.forall_mem_cons.mpr ⟨⟨e, rfl⟩, hall⟩, hsame⟩
      · right
        have hthrown' := List.forall_mem_cons.mpr ⟨⟨e, rfl⟩, hthrown⟩
        refine ⟨.error e :: thrown, rows, n, ?_, hthrown', hrows, hout, nofun⟩
        dsimp only
        rw [hsplit]
        rfl
    · right
      rw [scanRun, hexec]
      dsimp only
      rw [scanRun_emitted contexts w' rfl]
      exact ⟨[], rows, contexts.length, rfl, by simp, hrows, rfl, fun _ => hcalled⟩

theorem emittedRows_throws {chunks : List Chunk} (h : ∀ chunk ∈ chunks, ∃ e, chunk = .error e) :
    emittedRows chunks = [] := by
  apply List.flatMap_eq_nil_iff.mpr
  intro chunk hchunk
  obtain ⟨e, rfl⟩ := h chunk hchunk
  rfl

theorem emittedRows_split {thrown : List Chunk} (rows : List Cell) (n : ℕ)
    (h : ∀ chunk ∈ thrown, ∃ e, chunk = .error e) :
    emittedRows (thrown ++ .ok rows :: List.replicate n (.ok [])) = rows := by
  have hrest : emittedRows (List.replicate n (.ok [])) = [] := by
    apply List.flatMap_eq_nil_iff.mpr
    intro chunk hchunk
    obtain rfl := List.eq_of_mem_replicate hchunk
    rfl
  have hfront := emittedRows_throws h
  unfold emittedRows at hrest hfront ⊢
  rw [List.flatMap_append, hfront, List.flatMap_cons, hrest]
  exact List.append_nil rows

/-- The rows of successive calls: none if all throw, else those of the mode. -/
theorem scanRun_rows (data : GgsqlRunBindData) (contexts : List (ClientContext Options Spec))
    (w : World) (hcfg : Accepted data.cfg) :
    (∀ chunk ∈ (scanRun data contexts ggsqlRunInit w).1, ∃ e, chunk = .error e) ∧
        emittedRows (scanRun data contexts ggsqlRunInit w).1 = [] ∨
      (¬ ∀ chunk ∈ (scanRun data contexts ggsqlRunInit w).1, ∃ e, chunk = .error e) ∧
        Rows data.cfg (emittedRows (scanRun data contexts ggsqlRunInit w).1) := by
  rcases scanRun_cases contexts w hcfg (rfl : ggsqlRunInit.emitted = false) with ⟨hall, -⟩ |
    ⟨thrown, rows, n, hsplit, hthrown, hrows, -, -⟩
  · exact Or.inl ⟨hall, emittedRows_throws hall⟩
  · right
    rw [hsplit, emittedRows_split rows n hthrown]
    refine ⟨?_, hrows⟩
    intro hall
    obtain ⟨e, he⟩ := hall (.ok rows) (by simp)
    cases he

/-- Calls of which none throws run the query once, whatever their number. -/
theorem scanRun_once (data : GgsqlRunBindData) {contexts : List (ClientContext Options Spec)}
    (w : World) (hcfg : Accepted data.cfg) (hne : contexts ≠ [])
    (hok : ∀ chunk ∈ (scanRun data contexts ggsqlRunInit w).1, ∃ rows, chunk = .ok rows) :
    (scanRun data contexts ggsqlRunInit w).2.2.executed = w.executed ++ [data.call] ∧
      Rows data.cfg (emittedRows (scanRun data contexts ggsqlRunInit w).1) := by
  rcases scanRun_cases contexts w hcfg (rfl : ggsqlRunInit.emitted = false) with ⟨hall, -⟩ |
    ⟨thrown, rows, n, hsplit, hthrown, hrows, -, hcalled⟩
  · -- there is a call, and it cannot end both ways
    obtain ⟨context, contexts, rfl⟩ := List.exists_cons_of_ne_nil hne
    have hmem : (ggsqlRunExec context data ggsqlRunInit w).1 ∈
        (scanRun data (context :: contexts) ggsqlRunInit w).1 := by
      rw [scanRun]
      exact List.mem_cons_self
    obtain ⟨e, he⟩ := hall _ hmem
    obtain ⟨rows, hrows⟩ := hok _ hmem
    rw [he] at hrows
    cases hrows
  · have hnone : thrown = [] := by
      apply List.eq_nil_iff_forall_not_mem.mpr
      intro chunk hchunk
      obtain ⟨e, rfl⟩ := hthrown chunk hchunk
      obtain ⟨rows, hrows⟩ := hok (.error e) (by rw [hsplit]; simp [hchunk])
      cases hrows
    refine ⟨hcalled hnone, ?_⟩
    rw [hsplit, emittedRows_split rows n hthrown]
    exact hrows

/-! ## §5 The stages agree -/

theorem planFunction_eq (s : Settings) (query : Bytes) :
    planFunction s query =
      if valid query then
        if s.mode ∈ outputModes then
          .ok ⟨[some query], false, if s.mode = ascii "silent" then .nothing else .queryResult⟩
        else .error (.exec (.invalidInput (unrecognisedMode s.mode)))
      else .error (.invalidUnicode query) := by
  unfold planFunction textValue isSilentOutputMode
  rw [resolveOutputConfig_eq]
  split_ifs with hvalid hmode hsilent
  · simp [bind, Except.bind, Except.mapError, pure, Except.pure, hsilent]
  · simp [bind, Except.bind, Except.mapError, pure, Except.pure, hsilent]
  · rfl
  · rfl
  · rfl

theorem ggsqlRunBind_eq (s : Settings) (query : Bytes) :
    ggsqlRunBind s [some query] =
      match resolveOutputConfig s with
      | .ok cfg => .ok ⟨[ascii "plot"], [if cfg.binary then .blob else .varchar], query, cfg⟩
      | .error e => .error e := by
  unfold ggsqlRunBind
  cases resolveOutputConfig s <;> rfl

/-- A bound statement whose stages agree with the settings `s` that they were derived from. -/
structure InStep (s : Settings) (query : Bytes) (bound : Bound) : Prop where
  /-- The dispatcher has an arm for the writer, and `serve_plot` one for its mode. -/
  handled : ∀ {Options Spec : Type} (crates : Crates Options Spec) (query options : Bytes)
    (f : Fault), run crates query bound.data.cfg.writer options = .error f → f.Handled
  /-- The column is a BLOB if and only if that arm returns raw output. -/
  column : ∃ type, bound.returnTypes = [type] ∧
    (type = .blob ↔ ReturnsRaw bound.data.cfg.writer)
  /-- A call that throws leaves the global state as it was. -/
  throws : ∀ {Options Spec : Type} (context : ClientContext Options Spec)
    (state : GgsqlRunGlobalState) (w : World) (e : RunError),
    (ggsqlRunExec context bound.data state w).1 = .error e →
      (ggsqlRunExec context bound.data state w).2.1 = state
  /-- The calls around it go as they would without it. -/
  skips : ∀ {Options Spec : Type} (before after : List (ClientContext Options Spec))
    (context : ClientContext Options Spec) (w : World) (e : RunError),
    (ggsqlRunExec context bound.data (scanRun bound.data before ggsqlRunInit w).2.1
      (scanRun bound.data before ggsqlRunInit w).2.2).1 = .error e →
      ∃ chunks,
        (scanRun bound.data (before ++ context :: after) ggsqlRunInit w).1 =
          (scanRun bound.data before ggsqlRunInit w).1 ++ .error e :: chunks ∧
        (scanRun bound.data (before ++ after) ggsqlRunInit w).1 =
          (scanRun bound.data before ggsqlRunInit w).1 ++ chunks ∧
        (scanRun bound.data (before ++ context :: after) ggsqlRunInit w).2.1 =
          (scanRun bound.data (before ++ after) ggsqlRunInit w).2.1
  /-- Calls of which none throws run the query once and put out the rows of the mode, and the
  statement is planned to return nothing if and only if these are none. -/
  completes : ∀ {Options Spec : Type} (contexts : List (ClientContext Options Spec)) (w : World),
    contexts ≠ [] →
    (∀ chunk ∈ (scanRun bound.data contexts ggsqlRunInit w).1, ∃ rows, chunk = .ok rows) →
      (scanRun bound.data contexts ggsqlRunInit w).2.2.executed =
        w.executed ++ [bound.data.call] ∧
      (emittedRows (scanRun bound.data contexts ggsqlRunInit w).1).length =
        (if s.mode = ascii "silent" then 0 else 1) ∧
      ∀ plan, planFunction s query = .ok plan →
        (plan.returnType = .nothing ↔
          emittedRows (scanRun bound.data contexts ggsqlRunInit w).1 = [])
  /-- With failures in between there are as many rows, unless every call throws. -/
  rows : ∀ {Options Spec : Type} (contexts : List (ClientContext Options Spec)) (w : World),
    (¬ ∀ chunk ∈ (scanRun bound.data contexts ggsqlRunInit w).1, ∃ e, chunk = .error e) →
      (emittedRows (scanRun bound.data contexts ggsqlRunInit w).1).length =
        if s.mode = ascii "silent" then 0 else 1
  /-- Every row has the type of the column. -/
  typed : ∀ {Options Spec : Type} (contexts : List (ClientContext Options Spec)) (w : World),
    ∀ cell ∈ emittedRows (scanRun bound.data contexts ggsqlRunInit w).1,
      bound.returnTypes = [cell.type]

/-- The bound statement of an accepted configuration is in step. -/
theorem Accepted.inStep {s : Settings} {cfg : OutputConfig} (hcfg : Accepted cfg)
    (hmode : cfg.writer = s.mode) (query : Bytes) :
    InStep s query ⟨[ascii "plot"], [if cfg.binary then .blob else .varchar], query, cfg⟩ where
  handled := by
    intro Options Spec crates query options f hf
    exact (run_ends crates query options hcfg.mode).handled hf
  column := by
    refine ⟨_, rfl, ?_⟩
    rw [returnsRaw_iff, ← hcfg.binary]
    cases cfg.binary <;> simp
  throws := by
    intro Options Spec context state w e h
    exact exec_throws hcfg h
  skips := by
    intro Options Spec before after context w e h
    exact scanRun_skip hcfg before after h
  completes := by
    intro Options Spec contexts w hne hok
    obtain ⟨hcalled, hrows⟩ := scanRun_once ⟨query, cfg⟩ w hcfg hne hok
    have hlength := hrows.length
    rw [hmode] at hlength
    refine ⟨hcalled, hlength, ?_⟩
    intro plan hplan
    rw [planFunction_eq] at hplan
    split_ifs at hplan with hvalid hmem hsilent
    · obtain rfl := Except.ok.inj hplan
      rw [if_pos hsilent] at hlength
      exact iff_of_true rfl (List.eq_nil_of_length_eq_zero hlength)
    · obtain rfl := Except.ok.inj hplan
      rw [if_neg hsilent] at hlength
      refine iff_of_false nofun ?_
      intro hnil
      rw [hnil] at hlength
      cases hlength
  rows := by
    intro Options Spec contexts w hsome
    rcases scanRun_rows ⟨query, cfg⟩ contexts w hcfg with ⟨hall, -⟩ | ⟨-, hrows⟩
    · exact absurd hall hsome
    · rw [hrows.length, hmode]
  typed := by
    intro Options Spec contexts w cell hcell
    rcases scanRun_rows ⟨query, cfg⟩ contexts w hcfg with ⟨-, hnone⟩ | ⟨-, hrows⟩
    · rw [hnone] at hcell
      cases hcell
    · rw [hrows.type cell hcell]

/-- **The plan, the table function and the dispatcher agree.**  A value of the settings is rejected
when a statement is planned and when it is bound, or the statement that is bound stays in step. -/
theorem statement_in_step (s : Settings) (query : Bytes) :
    (∃ e, resolveOutputConfig s = .error e ∧ ggsqlRunBind s [some query] = .error e ∧
      ∃ e', planFunction s query = .error e') ∨
    ∃ cfg bound, resolveOutputConfig s = .ok cfg ∧ ggsqlRunBind s [some query] = .ok bound ∧
      bound.data = ⟨query, cfg⟩ ∧
      ((∃ plan, planFunction s query = .ok plan ∧ plan.parameters = [some query]) ↔
        WellFormed query) ∧
      InStep s query bound := by
  have hbind := ggsqlRunBind_eq s query
  cases hresolve : resolveOutputConfig s with
  | error e =>
    rw [hresolve] at hbind
    refine Or.inl ⟨e, rfl, hbind, ?_⟩
    rw [resolveOutputConfig_eq] at hresolve
    rw [planFunction_eq]
    split_ifs at hresolve ⊢
    · exact ⟨_, rfl⟩
    · exact ⟨_, rfl⟩
  | ok cfg =>
    rw [hresolve] at hbind
    obtain ⟨hcfg, hmode⟩ := resolveOutputConfig_accepted hresolve
    refine Or.inr ⟨cfg, _, rfl, hbind, rfl, ?_, hcfg.inStep hmode query⟩
    have hmem : s.mode ∈ outputModes := hmode ▸ hcfg.mode
    rw [planFunction_eq, ← valid_iff]
    by_cases hvalid : valid query = true
    · rw [if_pos hvalid, if_pos hmem]
      exact iff_of_true ⟨_, rfl, rfl⟩ hvalid
    · rw [if_neg hvalid]
      exact iff_of_false (by simp) hvalid

/-- A call that is interrupted, one that runs the query, and one that finds it done. -/
example :
    (scanRun ⟨ascii "q", ascii "hep", [], true⟩
      [⟨⟨none, none⟩, true, false, distinct⟩, ⟨⟨none, none⟩, false, false, distinct⟩,
        ⟨⟨none, none⟩, true, false, distinct⟩] ggsqlRunInit emptyWorld).1 =
      [.error (.exec .interrupted), .ok [.blob [2]], .ok []] := by
  decide

end GgsqlDuckdb
