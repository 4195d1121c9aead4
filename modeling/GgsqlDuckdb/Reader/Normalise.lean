import GgsqlDuckdb.Reader.Arrow
import Mathlib.Data.Rat.Defs

/-!
# Decimal columns

`normalize_arrow_types` of `rust/src/reader.rs`: a batch with a `Decimal128` column is rebuilt
with these columns cast to `Float64`, any other batch is returned as it is.

## Main results

- `normalizeArrowTypes_ok`: both paths give the batch with its `Decimal128` columns cast.
- `rows_normalised`: row by row, so it does not matter what is put together first.
- `no_decimal_iff`: no decimal column is left if and only if all of them were `Decimal128`.
-/

namespace GgsqlDuckdb

open Library Arrow

namespace Reader

variable {V : Type}

/-! ## §1 The source -/

/-- `matches!(data_type, DataType::Decimal128(_, _))` -/
def isDecimal128 : DataType → Bool
  | .decimal128 _ _ => true
  | _ => false

theorem isDecimal128_iff {t : DataType} : isDecimal128 t = true ↔ ∃ p s, t = .decimal128 p s := by
  cases t <;> simp [isDecimal128]

def needsCast (schema : Schema) : Bool := schema.fields.any fun f => isDecimal128 f.dataType

/-- The loop over the fields and their columns. -/
def normalizeColumns (arrow : Crate V) :
    List Field → List (Column V) → Rust (List Field × List (Column V))
  | f :: fields, c :: columns => do
    let (newField, newColumn) ←
      if isDecimal128 f.dataType then do
        let casted ← (arrow.cast c .float64).mapErr
          (ascii "failed to cast column '" ++ f.name ++ ascii "' from Decimal to Float64: ")
        -- `Field::new` knows nothing of the metadata
        pure (Field.new f.name .float64 f.nullable, casted)
      else pure (f, c)
    let (newFields, newColumns) ← normalizeColumns arrow fields columns
    pure (newField :: newFields, newColumn :: newColumns)
  | _, _ => pure ([], [])

def normalizeArrowTypes (arrow : Crate V) (batch : RecordBatch V) : Rust (RecordBatch V) :=
  if needsCast batch.schema then do
    let (newFields, newColumns) ← normalizeColumns arrow batch.schema.fields batch.columns
    (arrow.tryNew (Schema.new newFields) newColumns).mapErr
      (ascii "failed to normalize arrow types: ")
  else pure batch

/-! ## §2 The batch it returns -/

/-- What becomes of a field. -/
def castField (f : Field) : Field :=
  if isDecimal128 f.dataType then Field.new f.name .float64 f.nullable else f

def castValue (toFloat : UInt8 → Int8 → V → V) : DataType → Option V → Option V
  | .decimal128 p s, v => v.map (toFloat p s)
  | _, v => v

/-- What becomes of a column. -/
def castColumn (toFloat : UInt8 → Int8 → V → V) (c : Column V) : Column V where
  dataType := if isDecimal128 c.dataType then .float64 else c.dataType
  values := c.values.map (castValue toFloat c.dataType)

/-- What becomes of a schema: a rebuilt one has lost its metadata. -/
def castSchema (schema : Schema) : Schema :=
  if needsCast schema then Schema.new (schema.fields.map castField) else schema

@[simp] theorem castField_name (f : Field) : (castField f).name = f.name := by
  unfold castField
  split <;> rfl

@[simp] theorem castField_nullable (f : Field) : (castField f).nullable = f.nullable := by
  unfold castField
  split <;> rfl

theorem castField_dataType (f : Field) :
    (castField f).dataType = if isDecimal128 f.dataType then .float64 else f.dataType := by
  unfold castField
  split <;> rfl

theorem castField_of_not {f : Field} (h : isDecimal128 f.dataType = false) : castField f = f := by
  simp [castField, h]

theorem castValue_of_not (toFloat : UInt8 → Int8 → V → V) {t : DataType}
    (h : isDecimal128 t = false) (v : Option V) : castValue toFloat t v = v := by
  unfold castValue
  split
  · cases h
  · rfl

@[simp] theorem castValue_isSome (toFloat : UInt8 → Int8 → V → V) (t : DataType) (v : Option V) :
    (castValue toFloat t v).isSome = v.isSome := by
  unfold castValue
  split <;> simp

theorem castColumn_of_not (toFloat : UInt8 → Int8 → V → V) {c : Column V}
    (h : isDecimal128 c.dataType = false) : castColumn toFloat c = c := by
  have hid : castValue toFloat c.dataType = id := funext (castValue_of_not toFloat h)
  cases c
  simp_all [castColumn]

/-- The fast path leaves a schema whose fields are all kept. -/
theorem castSchema_fields (schema : Schema) :
    (castSchema schema).fields = schema.fields.map castField := by
  unfold castSchema
  split
  · rfl
  · rename_i hfast
    have hkept : ∀ f ∈ schema.fields, castField f = f := by
      intro f hf
      apply castField_of_not
      simpa [needsCast] using fun hcast => hfast (List.any_eq_true.mpr ⟨f, hf, hcast⟩)
    exact ((List.map_congr_left hkept).trans (List.map_id _)).symm

theorem admits_cast (toFloat : UInt8 → Int8 → V → V) {f : Field} {n : ℕ} {c : Column V}
    (h : f.Admits n c) : (castField f).Admits n (castColumn toFloat c) := by
  obtain ⟨htype, hlength, hnulls⟩ := h
  refine ⟨?_, ?_, ?_⟩
  · rw [castField_dataType, ← htype]
    rfl
  · simpa [castColumn] using hlength
  · intro hnull v hv
    obtain ⟨v', hv', rfl⟩ := List.mem_map.mp hv
    rw [castField_nullable] at hnull
    simpa using hnulls hnull v' hv'

/-- The batch with its `Decimal128` columns cast. -/
def normalised (toFloat : UInt8 → Int8 → V → V) (b : RecordBatch V) : RecordBatch V where
  schema := castSchema b.schema
  columns := b.columns.map (castColumn toFloat)
  numRows := b.numRows
  admitted := by
    rw [castSchema_fields, List.forall₂_map_left_iff, List.forall₂_map_right_iff]
    exact b.admitted.imp fun _ _ => admits_cast toFloat

/-! ## §3 Both paths -/

variable {arrow : Crate V} {toFloat : UInt8 → Int8 → V → V}

/-- The cast of a column that is cast. -/
theorem cast_ok (harrow : arrow.Documented toFloat) {c : Column V}
    (h : isDecimal128 c.dataType = true) : arrow.cast c .float64 = .ok (castColumn toFloat c) := by
  obtain ⟨p, s, htype⟩ := isDecimal128_iff.mp h
  rw [harrow.cast_ok c p s htype]
  simp only [castColumn, htype]
  rfl

theorem normalizeColumns_ok (harrow : arrow.Documented toFloat) {n : ℕ} {fields : List Field}
    {columns : List (Column V)} (h : List.Forall₂ (fun f c => f.Admits n c) fields columns) :
    normalizeColumns arrow fields columns =
      .ok (fields.map castField, columns.map (castColumn toFloat)) := by
  induction h with
  | nil => rfl
  | @cons f c fields columns hc _ ih =>
    by_cases hcast : isDecimal128 f.dataType = true
    · have hcasted := cast_ok harrow (hc.1 ▸ hcast)
      simp [normalizeColumns, hcast, hcasted, ih, castField]
    · have hkept : castColumn toFloat c = c := by
        apply castColumn_of_not
        rw [hc.1]
        simpa using hcast
      simp [normalizeColumns, hcast, ih, castField, hkept]

/-- **Both paths give the batch with its `Decimal128` columns cast.** -/
theorem normalizeArrowTypes_ok (harrow : arrow.Documented toFloat) (b : RecordBatch V) :
    normalizeArrowTypes arrow b = .ok (normalised toFloat b) := by
  unfold normalizeArrowTypes
  by_cases hcast : needsCast b.schema = true
  · have hschema : (normalised toFloat b).schema = Schema.new (b.schema.fields.map castField) := by
      simp [normalised, castSchema, hcast]
    -- a batch with a field to cast has a column to count its rows off
    have hcolumns : (normalised toFloat b).columns ≠ [] := by
      intro hnone
      have hfields : b.schema.fields = [] := by
        simpa [normalised, ← List.length_eq_zero_iff, b.length_columns] using hnone
      simp [needsCast, hfields] at hcast
    have hbatch := harrow.tryNew_ok _ hcolumns
    rw [hschema] at hbatch
    simp only [hcast, ↓reduceIte, normalizeColumns_ok harrow b.admitted, Rust.ok_bind]
    rw [show b.columns.map (castColumn toFloat) = (normalised toFloat b).columns from rfl, hbatch]
    rfl
  · rw [if_neg hcast, Rust.pure_eq]
    apply congrArg
    have hkept : ∀ c ∈ b.columns, castColumn toFloat c = c := by
      intro c hc
      apply castColumn_of_not
      have htype : c.dataType ∈ b.schema.fields.map Field.dataType :=
        b.dataTypes ▸ List.mem_map_of_mem hc
      obtain ⟨f, hf, htype⟩ := List.mem_map.mp htype
      rw [← htype]
      simpa using fun h => hcast (List.any_eq_true.mpr ⟨f, hf, h⟩)
    have hcolumns : b.columns.map (castColumn toFloat) = b.columns :=
      (List.map_congr_left hkept).trans (List.map_id _)
    cases b
    simp_all [normalised, castSchema]

/-! ## §4 Row by row -/

/-- What becomes of a row. -/
def castRow (toFloat : UInt8 → Int8 → V → V) (fields : List Field) (row : List (Option V)) :
    List (Option V) :=
  List.zipWith (fun f v => f v) (fields.map fun f => castValue toFloat f.dataType) row

/-- **The cast is made row by row.** -/
theorem rows_normalised (toFloat : UInt8 → Int8 → V → V) (b : RecordBatch V) :
    (normalised toFloat b).rows = b.rows.map (castRow toFloat b.schema.fields) := by
  have hvalues : (normalised toFloat b).columns.map Column.values =
      List.zipWith (fun f values => values.map f)
        (b.schema.fields.map fun f => castValue toFloat f.dataType)
        (b.columns.map Column.values) := by
    have htypes : (b.schema.fields.map fun f => castValue toFloat f.dataType) =
        b.columns.map fun c => castValue toFloat c.dataType := by
      have hmap := congrArg (List.map (castValue toFloat)) b.dataTypes
      simpa [List.map_map, Function.comp_def] using hmap.symm
    rw [htypes]
    simp [normalised, castColumn, List.zipWith_map, Function.comp_def]
  unfold RecordBatch.rows
  rw [hvalues]
  apply Grid.rows_map
  simp [b.length_columns]

/-! ## §5 Which decimals are left -/

/-- A decimal type that the two tests of the source do not name. -/
def OtherDecimal (t : DataType) : Prop :=
  ∃ p s, t = .decimal32 p s ∨ t = .decimal64 p s ∨ t = .decimal256 p s

theorem isDecimal_iff {t : DataType} :
    t.isDecimal = true ↔ isDecimal128 t = true ∨ OtherDecimal t := by
  cases t <;> simp [DataType.isDecimal, isDecimal128, OtherDecimal]

theorem not_decimal128_of_other {t : DataType} (h : OtherDecimal t) : isDecimal128 t = false := by
  obtain ⟨p, s, rfl | rfl | rfl⟩ := h <;> rfl

/-- `result` has no decimal column, and where `batch` had one, `result` has floats. -/
structure DecimalFree (batch result : RecordBatch V) : Prop where
  left : ∀ c ∈ result.columns, c.dataType.isDecimal = false
  floats : ∀ (i : ℕ) (f : Field), batch.schema.fields[i]? = some f →
    f.dataType.isDecimal = true →
    ∃ g c, result.schema.fields[i]? = some g ∧ result.columns[i]? = some c ∧
      g.dataType = .float64 ∧ c.dataType = .float64

theorem getElem?_column (b : RecordBatch V) {i : ℕ} {f : Field}
    (hf : b.schema.fields[i]? = some f) :
    ∃ c, b.columns[i]? = some c ∧ c.dataType = f.dataType := by
  have htype := congrArg (fun types => types[i]?) b.dataTypes
  simp only [List.getElem?_map, hf, Option.map_some] at htype
  simpa using htype

theorem decimalFree_normalised_iff (toFloat : UInt8 → Int8 → V → V) (b : RecordBatch V) :
    DecimalFree b (normalised toFloat b) ↔
      ∀ f ∈ b.schema.fields, ¬ OtherDecimal f.dataType := by
  have hfields : (normalised toFloat b).schema.fields = b.schema.fields.map castField :=
    castSchema_fields b.schema
  constructor
  · intro hfree f hf hother
    obtain ⟨i, hi⟩ := List.mem_iff_getElem?.mp hf
    obtain ⟨g, c, hg, -, hfloat, -⟩ := hfree.floats i f hi (isDecimal_iff.mpr (Or.inr hother))
    -- the field is still there, with its type
    rw [hfields, List.getElem?_map, hi, Option.map_some, Option.some.injEq,
      castField_of_not (not_decimal128_of_other hother)] at hg
    rw [← hg] at hfloat
    obtain ⟨p, s, h | h | h⟩ := hother <;> simp [hfloat] at h
  · intro hnone
    have hcast : ∀ f ∈ b.schema.fields, (castField f).dataType.isDecimal = false ∧
        (f.dataType.isDecimal = true → (castField f).dataType = .float64) := by
      intro f hf
      rw [castField_dataType]
      by_cases h128 : isDecimal128 f.dataType = true
      · simp [h128, DataType.isDecimal]
      · have hplain : f.dataType.isDecimal = false := by
          rw [Bool.eq_false_iff]
          intro hdecimal
          exact (isDecimal_iff.mp hdecimal).elim h128 (hnone f hf)
        simp [h128, hplain]
    constructor
    · intro c hc
      have htype : c.dataType ∈ (normalised toFloat b).schema.fields.map Field.dataType :=
        (normalised toFloat b).dataTypes ▸ List.mem_map_of_mem hc
      rw [hfields] at htype
      obtain ⟨g, hg, hgc⟩ := List.mem_map.mp htype
      obtain ⟨f, hf, rfl⟩ := List.mem_map.mp hg
      rw [← hgc]
      exact (hcast f hf).1
    · intro i f hi hdecimal
      have hg : (normalised toFloat b).schema.fields[i]? = some (castField f) := by
        rw [hfields, List.getElem?_map, hi, Option.map_some]
      obtain ⟨c, hc, htype⟩ := getElem?_column _ hg
      have hfloat := (hcast f (List.mem_of_getElem? hi)).2 hdecimal
      exact ⟨_, c, hg, hc, hfloat, htype.trans hfloat⟩

/-- **No decimal column is left if and only if all of them were `Decimal128`.** -/
theorem no_decimal_iff (harrow : arrow.Documented toFloat) (batch : RecordBatch V) :
    ∃ result, normalizeArrowTypes arrow batch = .ok result ∧
      (DecimalFree batch result ↔ ∀ f ∈ batch.schema.fields, ¬ OtherDecimal f.dataType) :=
  ⟨_, normalizeArrowTypes_ok harrow batch, decimalFree_normalised_iff toFloat batch⟩

/-- A rule at 21.5 as `DECIMAL(3,1)`, next to the same number in four bytes. -/
def mixedDecimals : RecordBatch ℚ where
  schema := ⟨[Field.new (ascii "x") (.decimal128 3 1) true,
    Field.new (ascii "y") (.decimal32 3 1) true], []⟩
  columns := [⟨.decimal128 3 1, [some (43 / 2), none]⟩, ⟨.decimal32 3 1, [some (43 / 2), none]⟩]
  numRows := 2
  admitted := by decide

theorem no_decimal_iff_mixed :
    ∃ result, normalizeArrowTypes (Crate.plain fun _ _ x => x) mixedDecimals = .ok result ∧
      (DecimalFree mixedDecimals result ↔
        ∀ f ∈ mixedDecimals.schema.fields, ¬ OtherDecimal f.dataType) :=
  no_decimal_iff (Crate.plain_documented _) mixedDecimals

/-- The column `x` becomes floats, and `y` is left a decimal. -/
theorem decimal_left :
    ∃ result, normalizeArrowTypes (Crate.plain fun _ _ x => x) mixedDecimals = .ok result ∧
      result.columns.map Column.dataType = [.float64, .decimal32 3 1] ∧
      ¬ DecimalFree mixedDecimals result := by
  refine ⟨_, rfl, rfl, ?_⟩
  intro hfree
  have hleft := hfree.left ⟨.decimal32 3 1, [some (43 / 2), none]⟩ (.tail _ (.head _))
  cases hleft

end Reader

end GgsqlDuckdb
