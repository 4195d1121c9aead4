import GgsqlDuckdb.Text
import GgsqlDuckdb.Library.Grid
import Mathlib.Data.Int.Notation
import Mathlib.Data.List.Forall2

/-!
# Arrow data

The part of the `arrow` crate that `rust/src/reader.rs` sees: the type language, fields and
record batches as data, and the crate's functions as a parameter with their documented
behaviour.

A record batch carries the checks of its constructor, so every batch of the model has as many
columns as fields, all of one length, each of its field's type and without nulls where the
field forbids them.

## Main results

- `RecordBatch.ext_rows`: schema and rows determine a batch.
-/

namespace GgsqlDuckdb

open Library

/-! ## §1 Results of Rust code -/

/-- How a piece of Rust code is left: by a value, by an error with its text, by unwinding. -/
inductive Rust (α : Type) where
  | ok (a : α)
  | err (text : Bytes)
  | panic
  deriving Repr

namespace Rust

variable {α β : Type}

def bind : Rust α → (α → Rust β) → Rust β
  | .ok a, f => f a
  | .err text, _ => .err text
  | .panic, _ => .panic

instance : Monad Rust where
  pure := .ok
  bind := bind

/-- `map_err` with a `format!` that puts `context` in front. -/
def mapErr (context : Bytes) : Rust α → Rust α
  | .err text => .err (context ++ text)
  | r => r

@[simp] theorem ok_bind (a : α) (f : α → Rust β) : ((Rust.ok a : Rust α) >>= f) = f a := rfl

@[simp] theorem err_bind (text : Bytes) (f : α → Rust β) :
    ((Rust.err text : Rust α) >>= f) = .err text := rfl

@[simp] theorem pure_eq (a : α) : (pure a : Rust α) = .ok a := rfl

@[simp] theorem mapErr_ok (context : Bytes) (a : α) : (Rust.ok a).mapErr context = .ok a := rfl

instance : LawfulMonad Rust := by
  refine LawfulMonad.mk' Rust ?_ ?_ ?_
  · rintro _ (_ | _ | _) <;> rfl
  · intros
    rfl
  · rintro _ _ _ (_ | _ | _) _ _ <;> rfl

theorem mapM_ok {f : α → Rust β} {g : α → β} {l : List α} (h : ∀ a ∈ l, f a = .ok (g a)) :
    l.mapM f = .ok (l.map g) := by
  induction l with
  | nil => rfl
  | cons a l ih =>
    obtain ⟨ha, hl⟩ := List.forall_mem_cons.mp h
    simp [List.mapM_cons, ha, ih hl]

end Rust

namespace Arrow

/-! ## §2 The type language -/

inductive TimeUnit where
  | second
  | millisecond
  | microsecond
  | nanosecond
  deriving DecidableEq, Repr

inductive IntervalUnit where
  | yearMonth
  | dayTime
  | monthDayNano
  deriving DecidableEq, Repr

inductive UnionMode where
  | sparse
  | dense
  deriving DecidableEq, Repr

mutual

inductive DataType where
  | null
  | boolean
  | int8
  | int16
  | int32
  | int64
  | uint8
  | uint16
  | uint32
  | uint64
  | float16
  | float32
  | float64
  | timestamp (unit : TimeUnit) (timezone : Option Bytes)
  | date32
  | date64
  | time32 (unit : TimeUnit)
  | time64 (unit : TimeUnit)
  | duration (unit : TimeUnit)
  | interval (unit : IntervalUnit)
  | binary
  | fixedSizeBinary (size : Int32)
  | largeBinary
  | binaryView
  | utf8
  | largeUtf8
  | utf8View
  | list (item : Field)
  | listView (item : Field)
  | fixedSizeList (item : Field) (size : Int32)
  | largeList (item : Field)
  | largeListView (item : Field)
  | struct (fields : Fields)
  | union (ids : List Int8) (fields : Fields) (mode : UnionMode)
  | dictionary (key value : DataType)
  | decimal32 (precision : UInt8) (scale : Int8)
  | decimal64 (precision : UInt8) (scale : Int8)
  | decimal128 (precision : UInt8) (scale : Int8)
  | decimal256 (precision : UInt8) (scale : Int8)
  | map (entries : Field) (sorted : Bool)
  | runEndEncoded (runEnds values : Field)
  deriving DecidableEq, Repr

/-- A named, nullable column type with its metadata. -/
inductive Field where
  | mk (name : Bytes) (dataType : DataType) (nullable : Bool) (metadata : List (Bytes × Bytes))
  deriving DecidableEq, Repr

/-- The fields inside a type. -/
inductive Fields where
  | nil
  | cons (field : Field) (rest : Fields)
  deriving DecidableEq, Repr

end

def DataType.isDecimal : DataType → Bool
  | .decimal32 _ _ | .decimal64 _ _ | .decimal128 _ _ | .decimal256 _ _ => true
  | _ => false

namespace Field

def name : Field → Bytes
  | .mk name _ _ _ => name

def dataType : Field → DataType
  | .mk _ dataType _ _ => dataType

def nullable : Field → Bool
  | .mk _ _ nullable _ => nullable

/-- `Field::new` -/
def new (name : Bytes) (dataType : DataType) (nullable : Bool) : Field :=
  .mk name dataType nullable []

end Field

structure Schema where
  fields : List Field
  metadata : List (Bytes × Bytes)
  deriving DecidableEq, Repr

/-- `Schema::new` -/
def Schema.new (fields : List Field) : Schema := ⟨fields, []⟩

/-! ## §3 Record batches -/

/-- An Arrow array with its type; `none` is a null. -/
structure Column (V : Type) where
  dataType : DataType
  values : List (Option V)
  deriving DecidableEq, Repr

variable {V : Type}

/-- The column fits the field of a batch with `n` rows. -/
def Field.Admits (f : Field) (n : ℕ) (c : Column V) : Prop :=
  c.dataType = f.dataType ∧ c.values.length = n ∧
    (f.nullable = false → ∀ v ∈ c.values, v.isSome = true)

instance (f : Field) (n : ℕ) (c : Column V) : Decidable (f.Admits n c) :=
  inferInstanceAs (Decidable (_ ∧ _ ∧ (_ → _)))

structure RecordBatch (V : Type) where
  schema : Schema
  columns : List (Column V)
  numRows : ℕ
  admitted : List.Forall₂ (fun f c => f.Admits numRows c) schema.fields columns

namespace RecordBatch

/-- The rows a reader of the batch sees. -/
def rows (b : RecordBatch V) : List (List (Option V)) :=
  Grid.rows b.numRows (b.columns.map Column.values)

theorem length_columns (b : RecordBatch V) : b.columns.length = b.schema.fields.length :=
  b.admitted.length_eq.symm

theorem deep (b : RecordBatch V) : Grid.Deep b.numRows (b.columns.map Column.values) := by
  intro values hvalues
  obtain ⟨c, hc, rfl⟩ := List.mem_map.mp hvalues
  obtain ⟨i, hi, rfl⟩ := List.mem_iff_getElem.mp hc
  have hf : i < b.schema.fields.length := b.length_columns ▸ hi
  exact (List.forall₂_iff_get.mp b.admitted).2 i hf hi |>.2.1

@[simp] theorem length_rows (b : RecordBatch V) : b.rows.length = b.numRows :=
  Grid.length_rows b.deep

theorem dataTypes (b : RecordBatch V) :
    b.columns.map Column.dataType = b.schema.fields.map Field.dataType := by
  obtain ⟨schema, columns, n, hadmitted⟩ := b
  show columns.map Column.dataType = schema.fields.map Field.dataType
  generalize schema.fields = fields at hadmitted
  induction hadmitted with
  | nil => rfl
  | cons hc _ ih => simp [hc.1, ih]

/-- **Schema and rows determine a batch.** -/
theorem ext_rows {b b' : RecordBatch V} (hschema : b.schema = b'.schema)
    (hrows : b.rows = b'.rows) : b = b' := by
  have hnum : b.numRows = b'.numRows := by rw [← length_rows, ← length_rows, hrows]
  have hvalues : b.columns.map Column.values = b'.columns.map Column.values := by
    apply Grid.rows_injective b.deep (hnum ▸ b'.deep)
    · simp [length_columns, hschema]
    · unfold rows at hrows
      rw [hrows, hnum]
  have htypes : b.columns.map Column.dataType = b'.columns.map Column.dataType := by
    rw [dataTypes, dataTypes, hschema]
  have hcolumns : b.columns = b'.columns := by
    have hpairs : b.columns.map (fun c => (c.dataType, c.values)) =
        b'.columns.map (fun c => (c.dataType, c.values)) := by
      rw [← List.zip_map', ← List.zip_map', htypes, hvalues]
    apply List.map_injective_iff.mpr _ hpairs
    rintro ⟨_, _⟩ ⟨_, _⟩ heq
    cases heq
    rfl
  cases b
  cases b'
  simp_all

/-! ### Batches put together -/

/-- A batch without rows. -/
def empty (schema : Schema) : RecordBatch V where
  schema := schema
  columns := schema.fields.map fun f => ⟨f.dataType, []⟩
  numRows := 0
  admitted := by
    induction schema.fields with
    | nil => exact .nil
    | cons f fields ih => exact .cons ⟨rfl, rfl, by simp⟩ ih

@[simp] theorem rows_empty (schema : Schema) : (empty schema : RecordBatch V).rows = [] := by
  apply List.length_eq_zero_iff.mp
  exact length_rows _

def appendColumns (columns columns' : List (Column V)) : List (Column V) :=
  List.zipWith (fun c c' => ⟨c.dataType, c.values ++ c'.values⟩) columns columns'

theorem admitted_append {fields : List Field} {n m : ℕ} {columns columns' : List (Column V)}
    (h : List.Forall₂ (fun f c => f.Admits n c) fields columns)
    (h' : List.Forall₂ (fun f c => f.Admits m c) fields columns') :
    List.Forall₂ (fun f c => f.Admits (n + m) c) fields (appendColumns columns columns') := by
  induction h generalizing columns' with
  | nil => exact .nil
  | @cons f c _ _ hc _ ih =>
    cases h' with
    | @cons _ c' _ _ hc' hcolumns' =>
      refine .cons ⟨hc.1, ?_, ?_⟩ (ih hcolumns')
      · simp [hc.2.1, hc'.2.1]
      · intro hnull v hv
        rcases List.mem_append.mp hv with hleft | hright
        · exact hc.2.2 hnull v hleft
        · exact hc'.2.2 hnull v hright

theorem map_values_appendColumns (columns columns' : List (Column V)) :
    (appendColumns columns columns').map Column.values =
      Grid.append (columns.map Column.values) (columns'.map Column.values) := by
  simp [appendColumns, Grid.append, List.map_zipWith, List.zipWith_map]

/-- The rows of `b` in front of those of `b'`. -/
def append (b b' : RecordBatch V) (h : b'.schema = b.schema) : RecordBatch V where
  schema := b.schema
  columns := appendColumns b.columns b'.columns
  numRows := b.numRows + b'.numRows
  admitted := admitted_append b.admitted (h ▸ b'.admitted)

@[simp] theorem rows_append (b b' : RecordBatch V) (h : b'.schema = b.schema) :
    (b.append b' h).rows = b.rows ++ b'.rows := by
  unfold rows append
  rw [map_values_appendColumns]
  apply Grid.rows_append b.deep b'.deep
  simp [length_columns, h]

end RecordBatch

/-! ## §4 The functions of the crate -/

/-- What the reader calls of the crate.  `dropReleases` tells whether dropping a stream calls
its `release`, given whether that is set.  `importSchema` and `importBatch` are
`ArrowArrayStreamReader::try_new` and `next`, on what the callbacks of the stream gave: a code,
the structure they filled (`none` if it is released) and the text of `get_last_error`. -/
structure Crate (V : Type) where
  dropReleases : Bool → Bool
  importSchema : ℤ → Option Schema → Rust Schema
  importBatch : Schema → ℤ → Option (RecordBatch V) → Bytes → Option (Rust (RecordBatch V))
  newEmpty : Schema → Rust (RecordBatch V)
  concatBatches : Schema → List (RecordBatch V) → Rust (RecordBatch V)
  cast : Column V → DataType → Rust (Column V)
  tryNew : Schema → List (Column V) → Rust (RecordBatch V)

/-- Dropping a stream calls its `release` if that is set. -/
def Crate.DropsStreams (arrow : Crate V) : Prop := ∀ set, arrow.dropReleases set = set

/-- The documented behaviour of the other functions, where `toFloat p s` is the float of a decimal
of precision `p` and scale `s`. -/
structure Crate.Documented (arrow : Crate V) (toFloat : UInt8 → Int8 → V → V) : Prop where
  schema_ok : ∀ schema, arrow.importSchema 0 (some schema) = .ok schema
  schema_err : ∀ code out, code ≠ 0 → ∃ text, arrow.importSchema code out = .err text
  batch_ok : ∀ b text, arrow.importBatch b.schema 0 (some b) text = some (.ok b)
  batch_end : ∀ schema text, arrow.importBatch schema 0 none text = none
  batch_err : ∀ schema code out text, code ≠ 0 →
    ∃ text', arrow.importBatch schema code out text = some (.err text')
  newEmpty_ok : ∀ schema, ∃ b, arrow.newEmpty schema = .ok b ∧ b.schema = schema ∧ b.numRows = 0
  concatBatches_ok : ∀ schema batches, batches ≠ [] → (∀ b ∈ batches, b.schema = schema) →
    ∃ b, arrow.concatBatches schema batches = .ok b ∧ b.schema = schema ∧
      b.rows = batches.flatMap RecordBatch.rows
  cast_ok : ∀ c p s, c.dataType = .decimal128 p s →
    arrow.cast c .float64 = .ok ⟨.float64, c.values.map (Option.map (toFloat p s))⟩
  tryNew_ok : ∀ b : RecordBatch V, b.columns ≠ [] → arrow.tryNew b.schema b.columns = .ok b

/-! ### A crate that behaves as documented -/

namespace Crate

/-- The batches one after the other, if all are of this schema. -/
def concatAll (schema : Schema) : List (RecordBatch V) → Rust (RecordBatch V)
  | [] => .ok (.empty schema)
  | b :: batches => do
    let rest ← concatAll schema batches
    if h : rest.schema = b.schema then .ok (b.append rest h)
    else .err (ascii "Invalid argument error: batches of different schemas")

theorem concatAll_ok {schema : Schema} {batches : List (RecordBatch V)}
    (h : ∀ b ∈ batches, b.schema = schema) :
    ∃ b, concatAll schema batches = .ok b ∧ b.schema = schema ∧
      b.rows = batches.flatMap RecordBatch.rows := by
  induction batches with
  | nil => exact ⟨_, rfl, rfl, by simp⟩
  | cons b batches ih =>
    obtain ⟨hb, hbatches⟩ := List.forall_mem_cons.mp h
    obtain ⟨rest, hrest, hschema, hrows⟩ := ih hbatches
    refine ⟨b.append rest (hschema.trans hb.symm), ?_, hb, ?_⟩
    · simp [concatAll, hrest, hschema, hb]
    · simp [hrows]

def checked (schema : Schema) (columns : List (Column V)) (n : ℕ) : Rust (RecordBatch V) :=
  if h : List.Forall₂ (fun f c => f.Admits n c) schema.fields columns then
    .ok ⟨schema, columns, n, h⟩
  else .err (ascii "Invalid argument error: columns do not match the schema")

/-- The crate on values that are read as floats by `toFloat`. -/
def plain (toFloat : UInt8 → Int8 → V → V) : Crate V where
  dropReleases set := set
  importSchema code out :=
    match out with
    | some schema => if code = 0 then .ok schema else .err (ascii "Cannot get schema")
    | none => .err (ascii "Cannot get schema")
  importBatch schema code out text :=
    if code ≠ 0 then some (.err text)
    else out.map fun b =>
      if b.schema = schema then .ok b
      else .err (ascii "Invalid argument error: array of another schema")
  newEmpty schema := .ok (.empty schema)
  concatBatches := concatAll
  cast c t :=
    match c.dataType, t with
    | .decimal128 p s, .float64 => .ok ⟨.float64, c.values.map (Option.map (toFloat p s))⟩
    | _, _ => .err (ascii "Cast error: unsupported")
  tryNew schema columns :=
    match columns with
    | [] => .err (ascii "must either specify a row count or at least one column")
    | c :: _ => checked schema columns c.values.length

theorem plain_documented (toFloat : UInt8 → Int8 → V → V) :
    (plain toFloat).Documented toFloat := by
  constructor
  · intro schema
    rfl
  · intro code out hcode
    cases out with
    | none => exact ⟨_, rfl⟩
    | some schema => exact ⟨_, if_neg hcode⟩
  · intro b text
    simp [plain]
  · intro schema text
    rfl
  · intro schema code out text hcode
    exact ⟨_, if_pos hcode⟩
  · intro schema
    exact ⟨_, rfl, rfl, rfl⟩
  · intro schema batches _ h
    exact concatAll_ok h
  · intro c p s hc
    simp [plain, hc]
  · intro b hb
    -- the rows are counted off the first column
    obtain ⟨schema, columns, n, hadmitted⟩ := b
    cases columns with
    | nil => exact absurd rfl hb
    | cons c columns =>
      obtain ⟨f, _, ⟨-, hn, -⟩, -, -⟩ := List.forall₂_cons_right_iff.mp hadmitted
      subst hn
      exact dif_pos hadmitted

end Crate

end Arrow

end GgsqlDuckdb
