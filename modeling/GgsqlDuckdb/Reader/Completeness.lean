import GgsqlDuckdb.Reader.ExecSql

/-!
# What a query returns

The data frame of a stream that is read to its end, and the error of one that is not.

## Main results

- `readStream_delivers`: the frame of a stream holds all its rows, cast row by row.
- `gather_normalise`: batches may be put together before or after they are normalised.
- `readStream_breaks`: a stream that fails anywhere gives an error.
- `bridge_result_complete`: all of this for `exec_sql_via_bridge`.
-/

namespace GgsqlDuckdb

open Library Arrow

namespace Reader

variable {V : Type}

/-! ## §1 Streams by what they deliver -/

/-- The call gives `a`. -/
structure Turn.Gives {α : Type} (t : Turn α) (a : α) : Prop where
  clear : t.interrupted = false
  code : t.code = 0
  out : t.out = some a

/-- The call finds the stream at its end. -/
structure Turn.Ends {α : Type} (t : Turn α) : Prop where
  clear : t.interrupted = false
  code : t.code = 0
  out : t.out = none

/-- The call is interrupted, or DuckDB's own stream reports an error. -/
def Turn.Fails {α : Type} (t : Turn α) : Prop := t.interrupted = true ∨ t.code ≠ 0

/-- The calls give these batches of the schema, in order. -/
def Give (schema : Schema) (turns : List (Turn (RecordBatch V))) (batches : List (RecordBatch V)) :
    Prop :=
  List.Forall₂ Turn.Gives turns batches ∧ ∀ b ∈ batches, b.schema = schema

/-- The stream delivers these batches of the schema, and then it is at its end. -/
def Encounter.Delivers (env : Encounter V) (schema : Schema) (batches : List (RecordBatch V)) :
    Prop :=
  env.getSchema.Gives schema ∧ ∃ turns rest, env.getNext = turns ++ rest ∧
    Give schema turns batches ∧ (rest = [] ∨ ∃ t later, rest = t :: later ∧ t.Ends)

/-- The stream fails where its schema is read, or behind some batches. -/
def Encounter.Breaks (env : Encounter V) : Prop :=
  env.getSchema.Fails ∨ ∃ schema turns batches t later, env.getSchema.Gives schema ∧
    env.getNext = turns ++ t :: later ∧ Give schema turns batches ∧ t.Fails

theorem Encounter.Delivers.schema_eq {env : Encounter V} {schema : Schema}
    {batches : List (RecordBatch V)} (h : env.Delivers schema batches) :
    ∀ b ∈ batches, b.schema = schema := by
  obtain ⟨-, _, _, -, hgive, -⟩ := h
  exact hgive.2

theorem innerGet_gives {α : Type} {t : Turn α} {a : α} (h : t.Gives a) (stream : ArrowArrayStream)
    (heap : Heap) : innerGet stream t heap = (0, some a, heap) := by
  simp [innerGet, h.clear, h.code, h.out]

theorem innerGet_ends {α : Type} {t : Turn α} (h : t.Ends) (stream : ArrowArrayStream)
    (heap : Heap) : innerGet stream t heap = (0, none, heap) := by
  simp [innerGet, h.clear, h.code, h.out]

theorem innerGet_fails {α : Type} {t : Turn α} (h : t.Fails) (stream : ArrowArrayStream)
    (heap : Heap) : (innerGet stream t heap).1 ≠ 0 := by
  unfold innerGet
  split
  · exact (by decide : EINTR ≠ 0)
  · rename_i hclear
    exact h.resolve_left hclear

/-! ## §2 Reading to the end -/

variable {arrow : Crate V} {toFloat : UInt8 → Int8 → V → V} {schema : Schema}

/-- Batches that are given are read in front of what follows them. -/
theorem collect_give (harrow : arrow.Documented toFloat) {turns : List (Turn (RecordBatch V))}
    {batches : List (RecordBatch V)} (h : Give schema turns batches) (stream : ArrowArrayStream)
    (rest : List (Turn (RecordBatch V))) (heap : Heap) :
    (collect arrow schema stream (turns ++ rest) heap).1 =
      (collect arrow schema stream rest heap).1 >>= fun later => pure (batches ++ later) := by
  obtain ⟨hgives, hschema⟩ := h
  induction hgives with
  | nil =>
    rw [List.nil_append]
    generalize (collect arrow schema stream rest heap).1 = r
    cases r <;> rfl
  | @cons t b turns batches ht _ ih =>
    obtain ⟨hb, hbatches⟩ := List.forall_mem_cons.mp hschema
    have hbatch := harrow.batch_ok b
    rw [hb] at hbatch
    simp only [List.cons_append, collect, innerGet_gives ht, hbatch, ih hbatches]
    generalize (collect arrow schema stream rest heap).1 = r
    cases r <;> rfl

theorem collect_end (harrow : arrow.Documented toFloat) {rest : List (Turn (RecordBatch V))}
    (h : rest = [] ∨ ∃ t later, rest = t :: later ∧ t.Ends) (stream : ArrowArrayStream)
    (heap : Heap) : (collect arrow schema stream rest heap).1 = .ok [] := by
  obtain rfl | ⟨t, later, rfl, ht⟩ := h
  · rfl
  · simp [collect, innerGet_ends ht, harrow.batch_end]

theorem collect_fails (harrow : arrow.Documented toFloat) {t : Turn (RecordBatch V)} (h : t.Fails)
    (stream : ArrowArrayStream) (later : List (Turn (RecordBatch V))) (heap : Heap) :
    ∃ text, (collect arrow schema stream (t :: later) heap).1 = .err text := by
  have hcode := innerGet_fails h stream heap
  unfold collect innerGetNext
  generalize innerGet stream t heap = r at hcode ⊢
  obtain ⟨text, htext⟩ := harrow.batch_err schema r.1 r.2.1
    (innerGetLastError stream t r.2.2) hcode
  exact ⟨text, by simp [htext]⟩

/-- The single batch of all that was delivered. -/
theorem gather_ok (harrow : arrow.Documented toFloat) {batches : List (RecordBatch V)}
    (h : ∀ b ∈ batches, b.schema = schema) :
    ∃ whole, gather arrow schema batches = .ok whole ∧ whole.schema = schema ∧
      whole.rows = batches.flatMap RecordBatch.rows := by
  unfold gather
  cases batches with
  | nil =>
    obtain ⟨whole, hwhole, hschema, hempty⟩ := harrow.newEmpty_ok schema
    refine ⟨whole, hwhole, hschema, ?_⟩
    apply List.length_eq_zero_iff.mp
    rw [whole.length_rows, hempty]
  | cons b batches =>
    obtain ⟨whole, hwhole, hschema, hrows⟩ :=
      harrow.concatBatches_ok schema (b :: batches) (List.cons_ne_nil b batches) h
    exact ⟨whole, by simp [hwhole], hschema, hrows⟩

/-- **Batches may be put together before or after they are normalised.** -/
theorem gather_normalise (harrow : arrow.Documented toFloat) {batches : List (RecordBatch V)}
    (h : ∀ b ∈ batches, b.schema = schema) :
    (gather arrow schema batches >>= normalizeArrowTypes arrow) =
      (batches.mapM (normalizeArrowTypes arrow) >>= gather arrow (castSchema schema)) := by
  have hcast : ∀ b ∈ batches.map (normalised toFloat), b.schema = castSchema schema := by
    intro b hb
    obtain ⟨b₀, hb₀, rfl⟩ := List.mem_map.mp hb
    exact congrArg castSchema (h b₀ hb₀)
  obtain ⟨whole, hwhole, hschema, hrows⟩ := gather_ok harrow h
  obtain ⟨whole', hwhole', hschema', hrows'⟩ := gather_ok harrow hcast
  rw [Rust.mapM_ok fun b _ => normalizeArrowTypes_ok harrow b, hwhole, Rust.ok_bind, Rust.ok_bind,
    normalizeArrowTypes_ok harrow, hwhole']
  apply congrArg
  apply RecordBatch.ext_rows
  · rw [hschema']
    exact congrArg castSchema hschema
  · rw [rows_normalised, hrows, hrows', hschema, List.flatMap_map, List.map_flatMap]
    apply List.flatMap_congr
    intro b hb
    rw [rows_normalised, h b hb]

/-! ## §3 The frame, and the error -/

variable {env : Encounter V} {stream : ArrowArrayStream} {heap : Heap}

/-- **The frame holds all the rows, cast row by row.** -/
theorem readStream_delivers (harrow : arrow.Documented toFloat)
    {batches : List (RecordBatch V)} (h : env.Delivers schema batches) :
    ∃ whole, (readStream arrow env stream heap).1 = .ok ⟨normalised toFloat whole⟩ ∧
      whole.schema = schema ∧ whole.rows = batches.flatMap RecordBatch.rows := by
  obtain ⟨hgives, turns, rest, hturns, hgive, hend⟩ := h
  obtain ⟨whole, hwhole, hschema, hrows⟩ := gather_ok harrow hgive.2
  refine ⟨whole, ?_, hschema, hrows⟩
  have hbatches : (collect arrow schema stream env.getNext heap).1 = .ok batches := by
    rw [hturns, collect_give harrow hgive, collect_end harrow hend]
    simp
  simp [readStream, innerGet_gives hgives, harrow.schema_ok, hbatches, hwhole,
    normalizeArrowTypes_ok harrow]

/-- **A stream that fails anywhere gives an error.** -/
theorem readStream_breaks (harrow : arrow.Documented toFloat) (h : env.Breaks) :
    ∃ text, (readStream arrow env stream heap).1 = .err text := by
  rcases h with hfails | ⟨schema, turns, batches, t, later, hgives, hturns, hgive, hfails⟩
  · have hcode := innerGet_fails hfails stream heap
    unfold readStream innerGetSchema
    generalize innerGet stream env.getSchema heap = r at hcode ⊢
    obtain ⟨text, htext⟩ := harrow.schema_err r.1 r.2.1 hcode
    exact ⟨ascii "arrow stream init failed: " ++ text, by simp [htext]⟩
  · obtain ⟨text, htext⟩ := collect_fails harrow hfails stream later heap
    have hbatches : (collect arrow schema stream env.getNext heap).1 = .err text := by
      rw [hturns, collect_give harrow hgive, htext]
      rfl
    refine ⟨ascii "arrow stream read failed: " ++ text, ?_⟩
    simp [readStream, innerGet_gives hgives, harrow.schema_ok, hbatches, Rust.mapErr]

/-! ## §4 Column by column -/

/-- What the batches have in column `i`. -/
def deliveredColumn (batches : List (RecordBatch V)) (i : ℕ) : List (Option V) :=
  batches.flatMap fun b => (b.columns[i]?.map Column.values).getD []

/-- What the frame has where `values` were delivered under the field `f`. -/
structure KeepsColumn (toFloat : UInt8 → Int8 → V → V) (f : Field) (values : List (Option V))
    (g : Field) (c : Column V) : Prop where
  name : g.name = f.name
  nullable : g.nullable = f.nullable
  dataType : c.dataType = g.dataType
  length : c.values.length = values.length
  nulls : c.values.map Option.isSome = values.map Option.isSome
  kept : isDecimal128 f.dataType = false → g = f ∧ c.values = values
  cast : ∀ p s, f.dataType = .decimal128 p s →
    g.dataType = .float64 ∧ c.values = values.map (Option.map (toFloat p s))

theorem map_getElem?_rows {b : RecordBatch V} {i : ℕ} {c : Column V} (h : b.columns[i]? = some c) :
    b.rows.map (fun row => row[i]?) = c.values.map some := by
  apply Grid.map_getElem?_rows b.deep
  rw [List.getElem?_map, h, Option.map_some]

/-- A column of the whole is what the batches have in it. -/
theorem deliveredColumn_eq {batches : List (RecordBatch V)} {whole : RecordBatch V} {i : ℕ}
    {f : Field} {c : Column V} (hbatches : ∀ b ∈ batches, b.schema = whole.schema)
    (hrows : whole.rows = batches.flatMap RecordBatch.rows)
    (hf : whole.schema.fields[i]? = some f) (hc : whole.columns[i]? = some c) :
    c.values = deliveredColumn batches i := by
  apply List.map_injective_iff.mpr (Option.some_injective (Option V))
  rw [← map_getElem?_rows hc, hrows, deliveredColumn, List.map_flatMap, List.map_flatMap]
  apply List.flatMap_congr
  intro b hb
  obtain ⟨c', hc', -⟩ := getElem?_column b (hbatches b hb ▸ hf)
  rw [map_getElem?_rows hc', hc']
  rfl

theorem keepsColumn_normalised {f : Field} {c : Column V} (hc : c.dataType = f.dataType) :
    KeepsColumn toFloat f c.values (castField f) (castColumn toFloat c) where
  name := castField_name f
  nullable := castField_nullable f
  dataType := by
    rw [castField_dataType, ← hc]
    rfl
  length := by simp [castColumn]
  nulls := by simp [castColumn, Function.comp_def]
  kept := by
    intro hkept
    rw [castField_of_not hkept, castColumn_of_not toFloat (hc ▸ hkept)]
    exact ⟨rfl, rfl⟩
  cast := by
    intro p s hdecimal
    have hcast : isDecimal128 f.dataType = true := isDecimal128_iff.mpr ⟨p, s, hdecimal⟩
    refine ⟨by simp [castField_dataType, hcast], ?_⟩
    simp only [castColumn, hc, hdecimal]
    rfl

/-- The frame keeps every column of the delivered batches. -/
def KeepsColumns (toFloat : UInt8 → Int8 → V → V) (schema : Schema)
    (batches : List (RecordBatch V)) (frame : DataFrame V) : Prop :=
  frame.batch.schema.fields.length = schema.fields.length ∧
    frame.batch.columns.length = schema.fields.length ∧
    ∀ (i : ℕ) (f : Field), schema.fields[i]? = some f →
      ∃ g c, frame.batch.schema.fields[i]? = some g ∧ frame.batch.columns[i]? = some c ∧
        KeepsColumn toFloat f (deliveredColumn batches i) g c

theorem keepsColumns_normalised {batches : List (RecordBatch V)} {whole : RecordBatch V}
    (hbatches : ∀ b ∈ batches, b.schema = whole.schema)
    (hrows : whole.rows = batches.flatMap RecordBatch.rows) :
    KeepsColumns toFloat whole.schema batches ⟨normalised toFloat whole⟩ := by
  have hfields : (normalised toFloat whole).schema.fields = whole.schema.fields.map castField :=
    castSchema_fields whole.schema
  refine ⟨by simp [hfields], by simp [normalised, whole.length_columns], ?_⟩
  intro i f hf
  obtain ⟨c, hc, htype⟩ := getElem?_column whole hf
  refine ⟨castField f, castColumn toFloat c, ?_, ?_, ?_⟩
  · rw [hfields, List.getElem?_map, hf, Option.map_some]
  · rw [normalised, List.getElem?_map, hc, Option.map_some]
  · rw [← deliveredColumn_eq hbatches hrows hf hc]
    exact keepsColumn_normalised htype

/-! ## §5 A query across the bridge -/

/-- **Results are complete and do not depend on the batches**: a stream read to its end gives the
frame of all delivered rows, column by column as they were delivered but for the cast; streams
with the same rows give the same frame; what is put together and what is normalised first makes
no difference; and a stream that fails anywhere gives an error. -/
theorem bridge_result_complete (harrow : arrow.Documented toFloat) {sql : Bytes}
    (hcall : failureOf env sql = none) (heap : Heap) :
    (∀ schema batches, env.Delivers schema batches →
      ∃ frame, (execSqlViaBridge arrow env sql heap).1 = .ok frame ∧
        frame.batch.rows =
          (batches.flatMap RecordBatch.rows).map (castRow toFloat schema.fields) ∧
        KeepsColumns toFloat schema batches frame) ∧
    (∀ (env' : Encounter V) (sql' : Bytes) (heap' : Heap) schema batches batches',
      failureOf env' sql' = none → env.Delivers schema batches →
      env'.Delivers schema batches' →
      batches.flatMap RecordBatch.rows = batches'.flatMap RecordBatch.rows →
      (execSqlViaBridge arrow env sql heap).1 = (execSqlViaBridge arrow env' sql' heap').1) ∧
    (∀ schema (batches : List (RecordBatch V)), (∀ b ∈ batches, b.schema = schema) →
      (gather arrow schema batches >>= normalizeArrowTypes arrow) =
        (batches.mapM (normalizeArrowTypes arrow) >>= gather arrow (castSchema schema))) ∧
    (env.Breaks → ∃ text, (execSqlViaBridge arrow env sql heap).1 = .err text) := by
  rw [execSqlViaBridge_answered hcall]
  refine ⟨?_, ?_, ?_, readStream_breaks harrow⟩
  · intro schema batches h
    obtain ⟨whole, hframe, rfl, hrows⟩ := readStream_delivers harrow h
    refine ⟨_, hframe, ?_, ?_⟩
    · rw [rows_normalised, hrows]
    · exact keepsColumns_normalised h.schema_eq hrows
  · intro env' sql' heap' schema batches batches' hcall' h h' hsame
    obtain ⟨whole, hframe, hschema, hrows⟩ := readStream_delivers harrow h
    obtain ⟨whole', hframe', hschema', hrows'⟩ := readStream_delivers harrow h'
    have hwhole : whole = whole' := by
      apply RecordBatch.ext_rows (hschema.trans hschema'.symm)
      rw [hrows, hrows', hsame]
    rw [execSqlViaBridge_answered hcall', hframe, hframe', hwhole]
  · exact fun schema batches h => gather_normalise harrow h

/-- A query that is answered by a stream of these batches. -/
def answering (schema : Schema) (batches : List (RecordBatch V)) : Encounter V where
  before := false
  connection := none
  query _ := .ok .answered
  behind := false
  wrap := none
  getSchema := ⟨false, 0, some schema, []⟩
  getNext := batches.map fun b => ⟨false, 0, some b, []⟩
  interruptText := ascii "Interrupted!"
  malloc := true

theorem answering_delivers {schema : Schema} {batches : List (RecordBatch V)}
    (h : ∀ b ∈ batches, b.schema = schema) :
    (answering schema batches).Delivers schema batches := by
  refine ⟨⟨rfl, rfl, rfl⟩, _, [], (List.append_nil _).symm, ⟨?_, h⟩, Or.inl rfl⟩
  apply List.forall₂_map_left_iff.mpr
  exact List.forall₂_same.mpr fun b _ => ⟨rfl, rfl, rfl⟩

/-- Four rows in one batch, or in two with an empty one between them. -/
def oneBatch : List (RecordBatch ℚ) := [mixedDecimals.append mixedDecimals rfl]

def threeBatches : List (RecordBatch ℚ) :=
  [mixedDecimals, .empty mixedDecimals.schema, mixedDecimals]

theorem bridge_result_complete_batches :
    (∃ frame, (execSqlViaBridge (Crate.plain fun _ _ x => x)
        (answering mixedDecimals.schema threeBatches) (ascii "FROM t") .empty).1 = .ok frame ∧
      frame.batch.rows = (threeBatches.flatMap RecordBatch.rows).map
        (castRow (fun _ _ x => x) mixedDecimals.schema.fields) ∧
      KeepsColumns (fun _ _ x => x) mixedDecimals.schema threeBatches frame) ∧
    (execSqlViaBridge (Crate.plain fun _ _ x => x)
        (answering mixedDecimals.schema threeBatches) (ascii "FROM t") .empty).1 =
      (execSqlViaBridge (Crate.plain fun _ _ x => x)
        (answering mixedDecimals.schema oneBatch) (ascii "FROM t") .empty).1 := by
  have hthree : (answering mixedDecimals.schema threeBatches).Delivers mixedDecimals.schema
      threeBatches := by
    apply answering_delivers
    simp [threeBatches, RecordBatch.empty]
  have hone : (answering mixedDecimals.schema oneBatch).Delivers mixedDecimals.schema
      oneBatch := by
    apply answering_delivers
    simp [oneBatch, RecordBatch.append]
  have hcall : failureOf (answering mixedDecimals.schema threeBatches) (ascii "FROM t") = none :=
    rfl
  have hresult := bridge_result_complete (Crate.plain_documented fun _ _ x => x) hcall .empty
  refine ⟨hresult.1 _ _ hthree, hresult.2.1 _ _ _ _ _ _ rfl hthree hone ?_⟩
  simp [oneBatch, threeBatches]

end Reader

end GgsqlDuckdb
