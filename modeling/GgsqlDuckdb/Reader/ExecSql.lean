import GgsqlDuckdb.Bridge.Invocation
import GgsqlDuckdb.Library.Ledger
import GgsqlDuckdb.Library.Utf8
import GgsqlDuckdb.Reader.Normalise

/-!
# One SQL text across the bridge

`ExecSqlCallback` (`src/ggsql_bridge.cpp`) and its caller `exec_sql_via_bridge`
(`rust/src/reader.rs`), with what crosses the boundary between them: the Arrow stream and its
`InnerStream` object, and the error buffer.

Objects are numbered in the order they are made; a pointer is a number.  What DuckDB does in a
call is part of an `Encounter`.  Memory runs out in `WriteError` only.

## Main results

- `execSqlCallback_answered`, `execSqlCallback_failed`: the two ways out of the callback.
- `execSqlViaBridge_answered`, `execSqlViaBridge_failed`: the caller behind either.
-/

namespace GgsqlDuckdb

open Library Arrow

namespace Reader

variable {V : Type}

/-! ## §1 What crosses the boundary -/

/-- The functions a stream of the bridge consists of. -/
inductive StreamFn where
  | innerGetSchema
  | innerGetNext
  | innerGetLastError
  | innerRelease
  deriving DecidableEq, Repr

/-- `ArrowArrayStream`; `none` is a null pointer. -/
structure ArrowArrayStream where
  getSchema : Option StreamFn
  getNext : Option StreamFn
  getLastError : Option StreamFn
  release : Option StreamFn
  privateData : Option ℕ
  deriving DecidableEq, Repr

/-- All bytes zero, as `FFI_ArrowArrayStream::empty()` is. -/
def ArrowArrayStream.empty : ArrowArrayStream := ⟨none, none, none, none, none⟩

/-- `ggsql_byte_buffer_t` -/
structure ByteBuffer where
  ptr : Option ℕ
  len : ℕ
  cap : ℕ
  deriving DecidableEq, Repr

/-- `ByteBuffer::EMPTY` -/
def ByteBuffer.empty : ByteBuffer := ⟨none, 0, 0⟩

/-- What the C++ side has allocated for the Rust side: the `InnerStream` objects, each with its
`interrupted`, and the error buffers with their bytes.  `freeCalls` counts the calls of
`free_buffer`. -/
structure Heap where
  streams : Ledger Bool
  buffers : Ledger Bytes
  freeCalls : ℕ
  deriving DecidableEq, Repr

def Heap.empty : Heap := ⟨[], [], 0⟩

/-- A call of a reading callback of a stream: the outer flag, and what DuckDB's own stream
answers (its return code, the structure it fills, the text of its last error). -/
structure Turn (α : Type) where
  interrupted : Bool
  code : ℤ
  out : Option α
  lastError : Bytes

/-- What a call of `exec_sql` meets in DuckDB: the outer flag before and behind `Query`, what is
thrown while the connection or its forwarder is made, what `Query` and the Arrow wrapper do, how
the stream answers, the text of an `InterruptException`, and whether there is memory for an
error text.  The stream is at its end where `getNext` is used up. -/
structure Encounter (V : Type) where
  before : Bool
  connection : Option Thrown
  query : Bytes → Except Thrown QueryResult
  behind : Bool
  wrap : Option Thrown
  getSchema : Turn Schema
  getNext : List (Turn (RecordBatch V))
  interruptText : Bytes
  malloc : Bool

/-! ## §2 The C++ side -/

/-- `WriteError` -/
def writeError (outErr : Option ByteBuffer) (msg : Bytes) (malloc : Bool) (heap : Heap) :
    Option ByteBuffer × Heap :=
  match outErr with
  | none => (none, heap)
  | some _ =>
    if msg = [] then (some .empty, heap)
    else if malloc then
      (some ⟨some heap.buffers.length, msg.length, msg.length⟩,
        { heap with buffers := heap.buffers.make msg })
    else (some .empty, heap)

/-- `CppFreeBuffer` -/
def cppFreeBuffer (buf : ByteBuffer) (heap : Heap) : ByteBuffer × Heap :=
  match buf.ptr with
  | none => (buf, { heap with freeCalls := heap.freeCalls + 1 })
  | some i =>
    (.empty, { heap with
      buffers := heap.buffers.release i
      freeCalls := heap.freeCalls + 1 })

/-- `EINTR` -/
def EINTR : ℤ := 4

/-- A reading callback of a stream: its code, and what it fills. -/
def innerGet {α : Type} (stream : ArrowArrayStream) (t : Turn α) (heap : Heap) :
    ℤ × Option α × Heap :=
  if t.interrupted then
    (EINTR, none, match stream.privateData with
      | none => heap
      | some i => { heap with streams := heap.streams.update i fun _ => true })
  else (t.code, t.out, heap)

/-- `InnerGetSchema` -/
abbrev innerGetSchema (stream : ArrowArrayStream) (t : Turn Schema) (heap : Heap) :
    ℤ × Option Schema × Heap :=
  innerGet stream t heap

/-- `InnerGetNext` -/
abbrev innerGetNext (stream : ArrowArrayStream) (t : Turn (RecordBatch V)) (heap : Heap) :
    ℤ × Option (RecordBatch V) × Heap :=
  innerGet stream t heap

/-- `InnerGetLastError` -/
def innerGetLastError {α : Type} (stream : ArrowArrayStream) (t : Turn α) (heap : Heap) : Bytes :=
  if (stream.privateData.bind fun i => heap.streams[i]?).any fun self => self.1 then
    ascii "Interrupted!"
  else t.lastError

/-- `InnerRelease` -/
def innerRelease (stream : ArrowArrayStream) (heap : Heap) : ArrowArrayStream × Heap :=
  if stream.release = none then (stream, heap)
  else
    ({ stream with release := none, privateData := none },
      match stream.privateData with
      | none => heap
      | some i => { heap with streams := heap.streams.release i })

/-- The text that is written for a failure: `ex.what()`, `GetError()` or one of the bridge's. -/
def failureText (interruptText : Bytes) : Failure → Bytes
  | .interrupted => interruptText
  | .engine e => e.what
  | .bridge what => what

/-- The first `try` block of `ExecSqlCallback`. -/
def runQuery (env : Encounter V) (query : Bytes) : Except Failure QueryResult :=
  let caught := Invocation.caught (ascii "ggsql bridge: unknown exception running SQL")
  -- `GetInnerConnection`
  if env.before then .error .interrupted
  else match env.connection with
    | some t => .error (caught t)
    | none => match env.query query with
      | .error t => .error (caught t)
      | .ok result => if env.behind then .error .interrupted else .ok result

/-- What the callback fails on, if it fails. -/
def failureOf (env : Encounter V) (query : Bytes) : Option Failure :=
  match runQuery env query with
  | .error f => some f
  | .ok .null => some (.bridge (ascii "ggsql bridge: Query returned null"))
  | .ok (.error e) => some (.engine e)
  | .ok .answered =>
    env.wrap.map (Invocation.caught
      (ascii "ggsql bridge: unknown exception building arrow stream"))

/-- The stream `ExecSqlCallback` fills, with the object `holder`. -/
def ArrowArrayStream.of (holder : ℕ) : ArrowArrayStream where
  getSchema := some .innerGetSchema
  getNext := some .innerGetNext
  getLastError := some .innerGetLastError
  release := some .innerRelease
  privateData := some holder

/-- The return code of `ExecSqlCallback`, its out parameters and the heap. -/
structure CallbackReturn where
  rc : ℤ
  outStream : Option ArrowArrayStream
  outErr : Option ByteBuffer
  heap : Heap
  deriving DecidableEq, Repr

/-- `ExecSqlCallback`; an out parameter is `none` where its pointer is null. -/
def execSqlCallback (env : Encounter V) (ctx : Bool) (sql : Option Bytes)
    (outStream : Option ArrowArrayStream) (outErr : Option ByteBuffer) (heap : Heap) :
    CallbackReturn :=
  let outStream := outStream.map fun _ => .empty
  let outErr := outErr.map fun _ => .empty
  match ctx, sql, outStream with
  | true, some query, some _ =>
    let holder := heap.streams.length
    let heap := { heap with streams := heap.streams.make false }
    match failureOf env query with
    | some f =>
      let (outErr, heap) := writeError outErr (failureText env.interruptText f) env.malloc heap
      -- the destructor of `holder`
      ⟨1, outStream, outErr, { heap with streams := heap.streams.release holder }⟩
    | none => ⟨0, some (.of holder), outErr, heap⟩
  | _, _, _ =>
    let (outErr, heap) := writeError outErr
      (ascii "ggsql bridge: null pointer in exec_sql callback") env.malloc heap
    ⟨1, outStream, outErr, heap⟩

/-! ## §3 The Rust side -/

/-- The drop of a stream, by its owner or while a panic unwinds. -/
def dropStream (arrow : Crate V) (stream : ArrowArrayStream) (heap : Heap) : Heap :=
  if arrow.dropReleases stream.release.isSome then (innerRelease stream heap).2 else heap

/-- `read_err_buffer` -/
def readErrBuffer (err : ByteBuffer) (heap : Heap) : Option Bytes × ByteBuffer × Heap :=
  match err.ptr with
  | none => (none, err, heap)
  | some i =>
    let bytes := ((heap.buffers[i]?.map Prod.fst).getD []).take err.len
    (some (Utf8.lossy bytes), cppFreeBuffer err heap)

/-- `reader.collect()`: the batches up to the end of the stream or the first error. -/
def collect (arrow : Crate V) (schema : Schema) (stream : ArrowArrayStream) :
    List (Turn (RecordBatch V)) → Heap → Rust (List (RecordBatch V)) × Heap
  | [], heap => (.ok [], heap)
  | t :: turns, heap =>
    let (code, out, heap) := innerGetNext stream t heap
    match arrow.importBatch schema code out (innerGetLastError stream t heap) with
    | none => (.ok [], heap)
    | some (.ok b) =>
      let (batches, heap) := collect arrow schema stream turns heap
      (batches >>= fun batches => pure (b :: batches), heap)
    | some (.err text) => (.err text, heap)
    | some .panic => (.panic, heap)

/-- A `DataFrame` of one record batch. -/
structure DataFrame (V : Type) where
  batch : RecordBatch V

/-- The single batch of all that was delivered. -/
def gather (arrow : Crate V) (schema : Schema) (batches : List (RecordBatch V)) :
    Rust (RecordBatch V) :=
  if batches.isEmpty then arrow.newEmpty schema
  else (arrow.concatBatches schema batches).mapErr (ascii "arrow concat_batches failed: ")

/-- `exec_sql_via_bridge` behind a return code of zero: the reader owns the stream. -/
def readStream (arrow : Crate V) (env : Encounter V) (stream : ArrowArrayStream) (heap : Heap) :
    Rust (DataFrame V) × Heap :=
  let (code, out, heap) := innerGetSchema stream env.getSchema heap
  match arrow.importSchema code out with
  | .ok schema =>
    let (batches, heap) := collect arrow schema stream env.getNext heap
    let frame := do
      let batches ← batches.mapErr (ascii "arrow stream read failed: ")
      let batch ← gather arrow schema batches
      let batch ← normalizeArrowTypes arrow batch
      pure (DataFrame.mk batch)
    (frame, dropStream arrow stream heap)
  | .err text =>
    (.err (ascii "arrow stream init failed: " ++ text), dropStream arrow stream heap)
  | .panic => (.panic, dropStream arrow stream heap)

/-- The error where the callback gave none. -/
def noMessage : Bytes := ascii "ggsql: exec_sql callback failed with no error message"

/-- `exec_sql_via_bridge` -/
def execSqlViaBridge (arrow : Crate V) (env : Encounter V) (sql : Bytes) (heap : Heap) :
    Rust (DataFrame V) × Heap :=
  let ret := execSqlCallback env true (some sql) (some .empty) (some .empty) heap
  let stream := ret.outStream.getD .empty
  if ret.rc ≠ 0 then
    let (msg, _, heap) := readErrBuffer (ret.outErr.getD .empty) ret.heap
    (.err (msg.getD noMessage), dropStream arrow stream heap)
  else readStream arrow env stream ret.heap

/-- The calls of `exec_sql_via_bridge` within one `ggsql_execute`.  Whether there is another, and
with what text, is up to the engine; behind a panic there is none. -/
def runCalls (arrow : Crate V) : List (Encounter V × Bytes) → Heap → Heap
  | [], heap => heap
  | (env, sql) :: calls, heap =>
    match execSqlViaBridge arrow env sql heap with
    | (.panic, heap) => heap
    | (_, heap) => runCalls arrow calls heap

/-! ## §4 The two ways out -/

variable {arrow : Crate V} {env : Encounter V} {sql : Bytes} {heap : Heap}

theorem execSqlCallback_answered (h : failureOf env sql = none) (s : ArrowArrayStream)
    (outErr : Option ByteBuffer) :
    execSqlCallback env true (some sql) (some s) outErr heap =
      ⟨0, some (.of heap.streams.length), outErr.map fun _ => .empty,
        { heap with streams := heap.streams.make false }⟩ := by
  simp only [execSqlCallback, Option.map_some, h]

theorem execSqlCallback_failed {f : Failure} (h : failureOf env sql = some f)
    (s : ArrowArrayStream) (outErr : Option ByteBuffer) :
    let made := { heap with streams := heap.streams.make false }
    let written := writeError (outErr.map fun _ => .empty) (failureText env.interruptText f)
      env.malloc made
    execSqlCallback env true (some sql) (some s) outErr heap =
      ⟨1, some .empty, written.1,
        { written.2 with streams := written.2.streams.release heap.streams.length }⟩ := by
  simp only [execSqlCallback, Option.map_some, h]

theorem execSqlViaBridge_answered (h : failureOf env sql = none) :
    execSqlViaBridge arrow env sql heap =
      readStream arrow env (.of heap.streams.length)
        { heap with streams := heap.streams.make false } := by
  simp [execSqlViaBridge, execSqlCallback_answered h]

theorem execSqlViaBridge_failed {ret : CallbackReturn}
    (hret : execSqlCallback env true (some sql) (some .empty) (some .empty) heap = ret)
    (hrc : ret.rc ≠ 0) :
    let read := readErrBuffer (ret.outErr.getD .empty) ret.heap
    execSqlViaBridge arrow env sql heap =
      (.err (read.1.getD noMessage), dropStream arrow (ret.outStream.getD .empty) read.2.2) := by
  simp [execSqlViaBridge, hret, hrc]

end Reader

end GgsqlDuckdb
