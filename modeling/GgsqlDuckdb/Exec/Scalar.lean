import GgsqlDuckdb.Exec.Run
import GgsqlDuckdb.Library.Rows

/-!
# The scalar function, and the surfaces beside each other

`GgsqlScalarFun` of `src/ggsql_exec.cpp`, over the rows of a chunk and over the chunks of a
statement.  DuckDB applies it to the rows without a NULL, in order; a chunk of constants, for which
it would be called once, is left out.  `ggsql`, `ggsql_save` and `ggsql_run` are three surfaces of
one `RunGgsqlQuery`.

## Main results

- `chunks_make_no_difference`: a statement is what its rows are, however they are cut.
- `save_as_shown`: `ggsql_save` is `ggsql` in the format of each path, and a file.
- `run_as_shown`: `ggsql_run` is `ggsql` in one row, or in none.
-/

namespace GgsqlDuckdb

open Library Library.Rows Library.Utf8 Dispatch

/-! ## §1 The scalar function -/

/-- The call of `ggsql_execute` for a query, in a resolved configuration. -/
def OutputConfig.call (cfg : OutputConfig) (query : Bytes) : Execution where
  query := query
  writer := cfg.writer
  options := cfg.options

/-- What `RunGgsqlQuery` throws, and what it returns. -/
def Outcome.result : Outcome → Except ExecError Bytes
  | .interrupted => .error .interrupted
  | .invalidInput msg => .error (.invalidInput msg)
  | .payload bytes => .ok bytes

/-- The lambda of `GgsqlScalarFun`. -/
def scalarRow (env : Environment) (cfg : OutputConfig) (query : Bytes) (w : World) :
    Except ExecError Bytes × World :=
  let (outcome, w) := runGgsqlQuery env (cfg.call query) w
  (outcome.result, w)

/-- `GgsqlScalarFun` -/
def ggsqlScalarFun (env : Environment) (s : Settings) (rows : List (Option Bytes)) (w : World) :
    Except ExecError (List (Option Bytes)) × World :=
  match resolveOutputConfig s with
  | .error e => (.error e, w)
  | .ok cfg => execute (scalarRow env cfg) rows w

variable {env : Environment} {options : Bytes}

theorem scalarRow_files (env : Environment) (cfg : OutputConfig) (query : Bytes) (w : World) :
    (scalarRow env cfg query w).2.files = w.files := by
  unfold scalarRow runGgsqlQuery
  split_ifs <;> rfl

/-- The calls of `ggsql_execute` are never taken back. -/
theorem scalarRow_executed (env : Environment) (cfg : OutputConfig) (query : Bytes) (w : World) :
    w.executed <+: (scalarRow env cfg query w).2.executed := by
  unfold scalarRow runGgsqlQuery
  split_ifs
  · exact List.prefix_rfl
  · exact List.prefix_append _ _

/-! ## §2 Rows and chunks -/

/-- A row of `ggsql_save`, once `WriterForPath` has answered. -/
theorem saveRow_eq (row : SaveRow) {writer : Bytes} {cfg : OutputConfig}
    (hpath : writerForPath row.path = .ok writer) (hwriter : cfg.writer = writer)
    (hoptions : cfg.options = options) (w : World) :
    saveRow env options row w =
      match scalarRow env cfg row.query w with
      | (.ok payload, w) => writeFile env row.path payload w
      | (.error e, w) => (.error e, w) := by
  have hcall : row.call options writer = cfg.call row.query := by
    rw [SaveRow.call, OutputConfig.call, hwriter, hoptions]
  unfold saveRow scalarRow
  rw [hpath, ← hcall]
  dsimp only
  obtain ⟨outcome, w'⟩ := runGgsqlQuery env (row.call options writer) w
  cases outcome <;> rfl

/-- The rows of a chunk go as any row function does. -/
theorem saveRows_eq_execute (rows : List (Option SaveRow)) (w : World) :
    saveRows env options rows w = execute (saveRow env options) rows w := by
  induction rows generalizing w with
  | nil => rfl
  | cons row rows ih =>
    cases row with
    | none =>
      rw [saveRows, execute, ih]
      obtain ⟨result, w'⟩ := execute (saveRow env options) rows w
      cases result <;> rfl
    | some row =>
      rw [saveRows, execute]
      obtain ⟨first, w'⟩ := saveRow env options row w
      cases first with
      | error e => rfl
      | ok path =>
        dsimp only
        rw [ih]
        obtain ⟨result, w''⟩ := execute (saveRow env options) rows w'
        cases result <;> rfl

/-- A function that resolves the settings and then goes row by row. -/
theorem resolved_chunks {ρ : Type} {f : List (Option ρ) → World →
      Except ExecError (List (Option Bytes)) × World}
    {r : Except ExecError OutputConfig} {g : OutputConfig → ρ → World →
      Except ExecError Bytes × World}
    (hf : ∀ rows w, f rows w = match r with
      | .error e => (.error e, w)
      | .ok cfg => execute (g cfg) rows w)
    (chunk : List (Option ρ)) (chunks : List (List (Option ρ))) (w : World) :
    flatten (executeChunks f (chunk :: chunks) w) = f (chunk ++ chunks.flatten) w := by
  cases r with
  | error e =>
    -- the first chunk fails as the whole does
    rw [executeChunks, hf, hf]
    rfl
  | ok cfg =>
    rw [hf, executeChunks_congr (fun c _ w => hf c w), executeChunks_eq, List.flatten_cons]

/-- **Chunks make no difference.**  However the rows of a statement are cut, `ggsql_save` and
`ggsql` give the same, fail at the same row, and leave the same files and calls, although they
resolve the settings for each chunk. -/
theorem chunks_make_no_difference (env : Environment) (s : Settings) (w : World)
    (chunk : List (Option SaveRow)) (chunks : List (List (Option SaveRow)))
    (queries : List (Option Bytes)) (others : List (List (Option Bytes))) :
    flatten (executeChunks (ggsqlSaveFun env s) (chunk :: chunks) w) =
        ggsqlSaveFun env s (chunk ++ chunks.flatten) w ∧
      flatten (executeChunks (ggsqlScalarFun env s) (queries :: others) w) =
        ggsqlScalarFun env s (queries ++ others.flatten) w := by
  constructor
  · have hsave : ∀ rows w, ggsqlSaveFun env s rows w =
        match resolveOutputConfig s with
        | .error e => (.error e, w)
        | .ok cfg => execute (saveRow env cfg.options) rows w := by
      intro rows w
      unfold ggsqlSaveFun
      cases resolveOutputConfig s with
      | error e => rfl
      | ok cfg => exact saveRows_eq_execute rows w
    exact resolved_chunks hsave chunk chunks w
  · exact resolved_chunks (fun _ _ => rfl) queries others w

/-! ## §3 Saving and showing -/

/-- `ggsql` for the query of a row, with `ggsql_output` set to the format of its path. -/
def showRow (env : Environment) (s : Settings) (row : SaveRow) (w : World) :
    Except ExecError Bytes × World :=
  match writerForPath row.path with
  | .error e => (.error e, w)
  | .ok writer =>
    match resolveOutputConfig { s with output := some writer } with
    | .error e => (.error e, w)
    | .ok cfg => scalarRow env cfg row.query w

/-- The formats are output modes, in lower case. -/
theorem resolve_format {path writer : Bytes} (hpath : writerForPath path = .ok writer)
    (s : Settings) : ∃ cfg, resolveOutputConfig { s with output := some writer } = .ok cfg ∧
      cfg.writer = writer ∧ cfg.options = s.writerOptions := by
  have hmem := writerForPath_ok hpath
  have hmodes : ∀ writer ∈ [ascii "svg", ascii "pdf", ascii "hep", ascii "html", ascii "spec"],
      lower writer = writer ∧ writer ∈ outputModes := by
    decide
  obtain ⟨hlower, hmode⟩ := hmodes writer hmem
  have hsame : Settings.mode { s with output := some writer } = writer := hlower
  rw [resolveOutputConfig_eq, hsame, if_pos hmode]
  exact ⟨_, rfl, rfl, rfl⟩

theorem showRow_eq (env : Environment) {row : SaveRow} {writer : Bytes}
    (hpath : writerForPath row.path = .ok writer) (s : Settings) :
    ∃ cfg : OutputConfig, cfg.writer = writer ∧ cfg.options = s.writerOptions ∧
      ∀ w, showRow env s row w = scalarRow env cfg row.query w := by
  obtain ⟨cfg, hcfg, hwriter, hoptions⟩ := resolve_format hpath s
  refine ⟨cfg, hwriter, hoptions, ?_⟩
  intro w
  unfold showRow
  rw [hpath]
  dsimp only
  rw [hcfg]

theorem showRow_executed (env : Environment) (s : Settings) (row : SaveRow) (w : World) :
    w.executed <+: (showRow env s row w).2.executed := by
  unfold showRow
  split
  · exact List.prefix_rfl
  · split
    · exact List.prefix_rfl
    · exact scalarRow_executed _ _ _ _

theorem showRow_files (env : Environment) (s : Settings) (row : SaveRow) (w : World) :
    (showRow env s row w).2.files = w.files := by
  unfold showRow
  split
  · rfl
  · split
    · rfl
    · exact scalarRow_files _ _ _ _

/-- What `ggsql_save` and `ggsql` have in common over the same rows, from the files `start`. -/
def saving (start : Bytes → Option Bytes) : Together SaveRow Bytes ExecError World World where
  behind past w w' := w.executed = w'.executed ∧
    ∀ path, w.files path = (lastWrite (past.map fun x => (x.1.path, x.2)) path).or (start path)
  failed _ w w' := w.executed = w'.executed
  broke e w w' := (∃ msg, e = .io msg) ∧ w.executed = w'.executed

theorem lastWrite_concat (writes : List (Bytes × Bytes)) (p bytes path : Bytes) :
    lastWrite (writes ++ [(p, bytes)]) path =
      if path = p then some bytes else lastWrite writes path := by
  unfold lastWrite
  by_cases hsame : p = path
  · simp [List.filter_append, hsame]
  · simp [List.filter_append, hsame, Ne.symm hsame]

/-- The step of a run does not look at the files. -/
theorem scalarRow_world (env : Environment) (cfg : OutputConfig) (query : Bytes) {w w' : World}
    (h : w.executed = w'.executed) :
    (scalarRow env cfg query w).1 = (scalarRow env cfg query w').1 ∧
      (scalarRow env cfg query w).2.executed = (scalarRow env cfg query w').2.executed := by
  unfold scalarRow runGgsqlQuery
  rw [h]
  split_ifs
  · exact ⟨rfl, h⟩
  · exact ⟨rfl, rfl⟩

/-- One row of both. -/
theorem saveRow_beside (s : Settings) {start : Bytes → Option Bytes} (row : SaveRow)
    {past : List (SaveRow × Bytes)} {w w' : World} (h : (saving start).behind past w w') :
    (saving start).Row past row (saveRow env s.writerOptions row w) (showRow env s row w') := by
  obtain ⟨hexecuted, hfiles⟩ := h
  cases hpath : writerForPath row.path with
  | error e =>
    have hsave : saveRow env s.writerOptions row w = (.error e, w) := by
      unfold saveRow
      rw [hpath]
    have hshow : showRow env s row w' = (.error e, w') := by
      unfold showRow
      rw [hpath]
    rw [hsave, hshow]
    exact .fail e w w' hexecuted
  | ok writer =>
    obtain ⟨cfg, hwriter, hoptions, hshow⟩ := showRow_eq env hpath s
    obtain ⟨hresult, hcalls⟩ := scalarRow_world env cfg row.query hexecuted
    have hsame := scalarRow_files env cfg row.query w
    rw [saveRow_eq row hpath hwriter hoptions, hshow]
    generalize scalarRow env cfg row.query w = r at hresult hcalls hsame ⊢
    generalize scalarRow env cfg row.query w' = r' at hresult hcalls ⊢
    obtain ⟨result, u⟩ := r
    obtain ⟨result', u'⟩ := r'
    obtain rfl : result = result' := hresult
    cases result with
    | error e => exact .fail e u u' hcalls
    | ok payload =>
      show (saving start).Row past row (writeFile env row.path payload u) _
      unfold writeFile
      -- the payload is there; what is left is the file
      split_ifs with hopen
      · cases env.writeFails u.executed row.path with
        | some left => exact .broke _ payload _ u' ⟨⟨_, rfl⟩, hcalls⟩
        | none =>
          refine .both row.path payload _ u' ⟨hcalls, ?_⟩
          intro path
          rw [List.map_append, List.map_singleton, lastWrite_concat]
          show Function.update u.files row.path (some payload) path = _
          split_ifs with hnamed
          · rw [hnamed, Function.update_self]
            rfl
          · rw [Function.update_of_ne hnamed, ← hfiles, ← hsame]
      · exact .broke _ payload u u' ⟨⟨_, rfl⟩, hcalls⟩

/-- The writes of rows that gave these payloads. -/
def writesOf (rows : List (Option SaveRow)) (payloads : List (Option Bytes)) :
    List (Bytes × Bytes) :=
  (paired rows payloads).map fun x => (x.1.path, x.2)

/-- **Saving is showing in the format of the path, and a file.**  `ggsql_save` makes the calls that
`ggsql` makes for the same queries when `ggsql_output` is set to the format of each path, and
leaves in each file what `ggsql` returned for the last row that names it, or fails as it does; only
where a file cannot be written it stops in front of the others.  Where all paths have the format of
the session, that is one statement with `ggsql`, which touches no file. -/
theorem save_as_shown (env : Environment) (s : Settings) (rows : List (Option SaveRow)) (w : World)
    (hmode : s.mode ∈ outputModes) :
    let shown := execute (showRow env s) rows w
    let saved := ggsqlSaveFun env s rows w
    shown.2.files = w.files ∧
    ((∃ payloads, shown.1 = .ok payloads ∧
        payloads.map Option.isSome = rows.map Option.isSome ∧
        saved.1 = .ok (rows.map (Option.map SaveRow.path)) ∧
        saved.2.executed = shown.2.executed ∧
        ∀ path, saved.2.files path =
          (lastWrite (writesOf rows payloads) path).or (w.files path)) ∨
      (∃ e, shown.1 = .error e ∧ saved.1 = .error e ∧ saved.2.executed = shown.2.executed) ∨
      ∃ msg, saved.1 = .error (.io msg) ∧ saved.2.executed <+: shown.2.executed) ∧
    ((∀ row, some row ∈ rows → writerForPath row.path = .ok s.mode) →
      shown = ggsqlScalarFun env s (rows.map (Option.map SaveRow.query)) w) := by
  intro shown saved
  have hsaved : saved = execute (saveRow env s.writerOptions) rows w := by
    show ggsqlSaveFun env s rows w = _
    rw [ggsqlSaveFun_eq, if_pos hmode, saveRows_eq_execute]
  refine ⟨?_, ?_, ?_⟩
  · exact (execute_le (fun w w' : World => w'.files = w.files) (fun _ => rfl)
      (fun _ _ _ h h' => h'.trans h) (showRow_files env s) rows w)
  · have hstart : (saving w.files).behind [] w w := ⟨rfl, fun _ => rfl⟩
    have hrow : ∀ row, some row ∈ rows → ∀ past u u', (saving w.files).behind past u u' →
        (saving w.files).Row past row (saveRow env s.writerOptions row u) (showRow env s row u') :=
      fun row _ _ _ _ h => saveRow_beside s row h
    have hbeside := execute_beside hrow hstart
    have hends := saveRows_ends env s.writerOptions rows w
    rw [saveRows_eq_execute] at hends
    have hshown : shown = execute (showRow env s) rows w := rfl
    rw [← hsaved, ← hshown] at hbeside
    rw [← hsaved] at hends
    generalize saved = r at hbeside hends ⊢
    generalize shown = r' at hbeside ⊢
    cases hbeside with
    | both out payloads u u' hshape h =>
      obtain ⟨rfl, -⟩ := hends
      exact Or.inl ⟨payloads, rfl, hshape, rfl, h.1, h.2⟩
    | fail e u u' h => exact Or.inr (Or.inl ⟨e, rfl, rfl, h⟩)
    | broke e u u' rest r h =>
      obtain ⟨⟨msg, rfl⟩, hcalls⟩ := h
      have hrest := execute_le (fun w w' : World => w.executed <+: w'.executed)
        (fun _ => List.prefix_rfl) (fun _ _ _ => List.IsPrefix.trans)
        (showRow_executed env s) rest u'
      exact Or.inr (Or.inr ⟨msg, rfl, hcalls ▸ hrest⟩)
  · intro hall
    show execute (showRow env s) rows w = _
    unfold ggsqlScalarFun
    rw [resolveOutputConfig_eq, if_pos hmode]
    dsimp only
    rw [execute_map]
    refine execute_congr ?_ w
    intro row hrow u
    obtain ⟨cfg, hwriter, hoptions, hshow⟩ := showRow_eq env (hall row hrow) s
    rw [hshow]
    unfold scalarRow OutputConfig.call
    rw [hwriter, hoptions]

/-- A session that shows SVG, beside one that saves it. -/
def svgSettings : Settings where
  output := some (ascii "SVG")
  options := some []

theorem save_as_shown_svg :
    execute (showRow fullDisk svgSettings) [some ⟨ascii "q", ascii "a.svg"⟩, none] emptyWorld =
      ggsqlScalarFun fullDisk svgSettings [some (ascii "q"), none] emptyWorld := by
  have hshown := (save_as_shown fullDisk svgSettings [some ⟨ascii "q", ascii "a.svg"⟩, none]
    emptyWorld (by decide)).2.2
  apply hshown
  intro row hrow
  obtain rfl : row = ⟨ascii "q", ascii "a.svg"⟩ := by simpa using hrow
  decide

/-! ## §4 The table function -/

variable {Options Spec : Type}

/-- The row of `ggsql_run` for a payload. -/
def GgsqlRunBindData.rows (data : GgsqlRunBindData) (payload : Bytes) : List Cell :=
  if data.cfg.writer = ascii "silent" then []
  else if data.cfg.binary then [.blob payload] else [.varchar payload]

/-- The payload of a text mode is text. -/
theorem payload_text (context : ClientContext Options Spec) {data : GgsqlRunBindData}
    (hcfg : Accepted data.cfg) (hbinary : data.cfg.binary = false) {w w' : World} {payload : Bytes}
    (h : runGgsqlQuery context.environment data.call w = (.payload payload, w')) :
    textValue payload = .ok payload := by
  cases hentry : context.interruptedAtEntry with
  | true =>
    rw [runGgsqlQuery_entry hentry] at h
    cases h
  | false =>
    have hexit : context.environment.interruptedAtExit (w.executed ++ [data.call]) =
        context.interruptedAtExit := rfl
    rw [runGgsqlQuery_called hentry, environment_result, hexit] at h
    have houtcome := congrArg Prod.fst h
    have hends := run_ends context.crates data.query data.cfg.options hcfg.mode
    cases hflag : context.interruptedAtExit with
    | true =>
      rw [hflag] at houtcome
      cases houtcome
    | false =>
      rw [hflag] at houtcome
      cases hrun : run context.crates data.query data.cfg.writer data.cfg.options with
      | error f =>
        rw [hrun] at houtcome
        cases f <;> cases houtcome
      | ok bytes =>
        rw [hrun] at houtcome hends
        obtain rfl := Outcome.payload.inj houtcome
        have hnative : ¬ (data.cfg.writer = ascii "pdf" ∨ data.cfg.writer = ascii "hep") := by
          rw [← hcfg.binary, hbinary]
          exact Bool.false_ne_true
        obtain ⟨hpdf, hhep⟩ := not_or.mp hnative
        exact if_pos (valid_iff.mpr (hends hpdf hhep))

/-- Every cell has the type of the column. -/
theorem GgsqlRunBindData.rows_type {data : GgsqlRunBindData} {payload : Bytes} :
    ∀ cell ∈ data.rows payload, cell.type = if data.cfg.binary then .blob else .varchar := by
  intro cell hcell
  unfold GgsqlRunBindData.rows at hcell
  by_cases hsilent : data.cfg.writer = ascii "silent"
  · rw [if_pos hsilent] at hcell
    cases hcell
  rw [if_neg hsilent] at hcell
  split_ifs at hcell ⊢
  · rw [List.mem_singleton.mp hcell]
    rfl
  · rw [List.mem_singleton.mp hcell]
    rfl

/-- What the first call does with the end of `RunGgsqlQuery`. -/
theorem ggsqlRunExec_eq (context : ClientContext Options Spec) {data : GgsqlRunBindData}
    (hcfg : Accepted data.cfg) (w : World) :
    ggsqlRunExec context data ggsqlRunInit w =
      match runGgsqlQuery context.environment data.call w with
      | (.interrupted, w) => (.error (.exec .interrupted), ggsqlRunInit, w)
      | (.invalidInput msg, w) => (.error (.exec (.invalidInput msg)), ggsqlRunInit, w)
      | (.payload payload, w) => (.ok (data.rows payload), ⟨true⟩, w) := by
  unfold ggsqlRunExec
  rw [if_neg (by simp [ggsqlRunInit])]
  cases hquery : runGgsqlQuery context.environment data.call w with
  | mk outcome w' =>
    cases outcome with
    | interrupted => rfl
    | invalidInput msg => rfl
    | payload payload =>
      unfold GgsqlRunBindData.rows
      dsimp only
      split_ifs with hsilent hbinary
      · rfl
      · rfl
      · -- the value is made, since the payload is text
        have htext := payload_text context hcfg (Bool.not_eq_true _ ▸ hbinary) hquery
        rw [htext]

/-- **`ggsql_run` is `ggsql` in one row, or in none.**  In one session both are rejected with the
same message, or both make the same call of `ggsql_execute` and throw the same, or `ggsql` returns
a payload, and the rows of `ggsql_run` are its one cell, of the type of the column; in the silent
mode, where `ggsql` returns the text of the dispatcher, there is no row. -/
theorem run_as_shown (context : ClientContext Options Spec) (query : Bytes) (w : World) :
    let shown := ggsqlScalarFun context.environment context.settings [some query] w
    (∃ e, ggsqlRunBind context.settings [some query] = .error e ∧ shown = (.error e, w)) ∨
    ∃ bound, ggsqlRunBind context.settings [some query] = .ok bound ∧
      let ran := ggsqlRunExec context bound.data ggsqlRunInit w
      ran.2.2 = shown.2 ∧
      ((∃ e, shown.1 = .error e ∧ ran.1 = .error (.exec e) ∧ ran.2.1 = ggsqlRunInit) ∨
        ∃ payload, shown.1 = .ok [some payload] ∧ ran.1 = .ok (bound.data.rows payload) ∧
          ran.2.1.emitted = true ∧ ∀ cell ∈ bound.data.rows payload,
            bound.returnTypes = [cell.type]) := by
  intro shown
  have hshown : shown = ggsqlScalarFun context.environment context.settings [some query] w := rfl
  unfold ggsqlScalarFun at hshown
  rw [ggsqlRunBind_eq]
  cases hresolve : resolveOutputConfig context.settings with
  | error e =>
    rw [hresolve] at hshown
    exact Or.inl ⟨e, rfl, hshown⟩
  | ok cfg =>
    right
    obtain ⟨hcfg, -⟩ := resolveOutputConfig_accepted hresolve
    rw [hresolve] at hshown
    refine ⟨_, rfl, ?_⟩
    dsimp only at hshown ⊢
    have hcall : cfg.call query = GgsqlRunBindData.call ⟨query, cfg⟩ := rfl
    rw [hshown, execute, scalarRow, hcall, ggsqlRunExec_eq context hcfg]
    obtain ⟨outcome, w'⟩ := runGgsqlQuery context.environment (GgsqlRunBindData.call ⟨query, cfg⟩) w
    cases outcome with
    | interrupted => exact ⟨rfl, Or.inl ⟨_, rfl, rfl, rfl⟩⟩
    | invalidInput msg => exact ⟨rfl, Or.inl ⟨_, rfl, rfl, rfl⟩⟩
    | payload payload =>
      refine ⟨rfl, Or.inr ⟨payload, rfl, rfl, rfl, ?_⟩⟩
      intro cell hcell
      rw [GgsqlRunBindData.rows_type cell hcell]

end GgsqlDuckdb
