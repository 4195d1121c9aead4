import GgsqlDuckdb.Reader.ExecSql

/-!
# What is handed over, and who releases it

The objects that one call of `exec_sql` makes (the `InnerStream`, the bytes of an error) and
their owners: a stream belongs to the Rust side if and only if the callback returned zero, an
error buffer if and only if its pointer is set.

## Main results

- `execSqlCallback_handsOver`: the two ways out of the callback.
- `execSqlViaBridge_settled`: the caller leaves nothing unreleased, and nothing twice.
- `hand_over_contract`: both, and over any number of calls.
-/

namespace GgsqlDuckdb

open Library Arrow

namespace Reader

variable {V : Type}

/-! ## §1 What the Rust side owes -/

/-- All but these objects have been released, once. -/
def Heap.Owes (heap : Heap) (stream buffer : Option ℕ) : Prop :=
  heap.streams.Holds stream ∧ heap.buffers.Holds buffer

/-- Every object has been released once. -/
def Heap.Settled (heap : Heap) : Prop :=
  (∀ e ∈ heap.streams, e.2 = 1) ∧ (∀ e ∈ heap.buffers, e.2 = 1)

theorem Heap.owes_none_iff {heap : Heap} : heap.Owes none none ↔ heap.Settled :=
  and_congr Ledger.holds_none_iff Ledger.holds_none_iff

variable {heap : Heap} {stream : Option ℕ} {buffer : Option ℕ}

/-! ### The operations -/

theorem Heap.Owes.makeStream (h : heap.Owes none buffer) :
    Heap.Owes { heap with streams := heap.streams.make false } (some heap.streams.length)
      buffer :=
  ⟨h.1.make false, h.2⟩

theorem Heap.Owes.releaseStream {i : ℕ} (h : heap.Owes (some i) buffer) :
    Heap.Owes { heap with streams := heap.streams.release i } none buffer :=
  ⟨h.1.release, h.2⟩

theorem Heap.Owes.makeBuffer (h : heap.Owes stream none) (bytes : Bytes) :
    Heap.Owes { heap with buffers := heap.buffers.make bytes } stream
      (some heap.buffers.length) :=
  ⟨h.1, h.2.make bytes⟩

theorem Heap.Owes.freeBuffer {i : ℕ} (h : heap.Owes stream (some i)) (calls : ℕ) :
    Heap.Owes { heap with buffers := heap.buffers.release i, freeCalls := calls } stream none :=
  ⟨h.1, h.2.release⟩

theorem writeError_owes (h : heap.Owes stream none) (outErr : Option ByteBuffer) (msg : Bytes)
    (malloc : Bool) :
    (writeError outErr msg malloc heap).2.Owes stream
      ((writeError outErr msg malloc heap).1.bind ByteBuffer.ptr) := by
  unfold writeError
  cases outErr with
  | none => exact h
  | some _ =>
    simp only
    split
    · exact h
    · split
      · exact h.makeBuffer msg
      · exact h

theorem innerGet_owes {α : Type} (h : heap.Owes stream buffer) (s : ArrowArrayStream)
    (t : Turn α) : (innerGet s t heap).2.2.Owes stream buffer := by
  unfold innerGet
  split
  · cases s.privateData with
    | none => exact h
    | some i => exact ⟨h.1.update i fun _ => true, h.2⟩
  · exact h

/-! ## §2 The callback -/

/-- Callbacks and private data are set. -/
structure ArrowArrayStream.Complete (s : ArrowArrayStream) : Prop where
  getSchema : s.getSchema.isSome = true
  getNext : s.getNext.isSome = true
  getLastError : s.getLastError.isSome = true
  release : s.release.isSome = true
  privateData : s.privateData.isSome = true

/-- The two ways out of the callback: with a stream and no error, or with neither stream nor
object, and perhaps an error. -/
inductive HandsOver (outStream : Option ArrowArrayStream) (outErr : Option ByteBuffer)
    (ret : CallbackReturn) : Prop
  | stream {holder : ℕ} (hrc : ret.rc = 0) (hstream : ret.outStream = some (.of holder))
      (herr : ret.outErr = outErr.map fun _ => .empty) (howes : ret.heap.Owes (some holder) none)
  | error (hrc : ret.rc = 1) (hstream : ret.outStream = outStream.map fun _ => .empty)
      (howes : ret.heap.Owes none (ret.outErr.bind ByteBuffer.ptr))

theorem execSqlCallback_handsOver (h : heap.Settled) (env : Encounter V) (ctx : Bool)
    (sql : Option Bytes) (outStream : Option ArrowArrayStream) (outErr : Option ByteBuffer) :
    HandsOver outStream outErr (execSqlCallback env ctx sql outStream outErr heap) := by
  have hsettled := Heap.owes_none_iff.mpr h
  have hnull : HandsOver outStream outErr
      (let written := writeError (outErr.map fun _ => .empty)
        (ascii "ggsql bridge: null pointer in exec_sql callback") env.malloc heap
      ⟨1, outStream.map fun _ => .empty, written.1, written.2⟩) :=
    .error rfl rfl (writeError_owes hsettled _ _ _)
  cases ctx with
  | false => exact hnull
  | true =>
    cases sql with
    | none => exact hnull
    | some sql =>
      cases outStream with
      | none => exact hnull
      | some s =>
        have hmade := hsettled.makeStream
        cases hfailure : failureOf env sql with
        | none =>
          rw [execSqlCallback_answered hfailure]
          exact .stream rfl rfl rfl hmade
        | some f =>
          rw [execSqlCallback_failed hfailure]
          exact .error rfl rfl (writeError_owes hmade _ _ _).releaseStream

theorem HandsOver.zero_iff {outStream : Option ArrowArrayStream} {outErr : Option ByteBuffer}
    {ret : CallbackReturn} (h : HandsOver outStream outErr ret) :
    ret.rc = 0 ↔ (∃ s, ret.outStream = some s ∧ s.Complete) ∧
      ∀ e, ret.outErr = some e → e = .empty := by
  cases h with
  | stream hrc hstream herr _ =>
    refine iff_of_true hrc ⟨⟨_, hstream, ⟨rfl, rfl, rfl, rfl, rfl⟩⟩, ?_⟩
    intro e he
    rw [herr] at he
    obtain ⟨_, -, rfl⟩ := Option.map_eq_some_iff.mp he
    rfl
  | error hrc hstream _ =>
    apply iff_of_false
    · rw [hrc]
      decide
    -- what is left in `out_stream` is all zero
    · rintro ⟨⟨s, hs, hcomplete⟩, -⟩
      rw [hstream] at hs
      obtain ⟨_, -, rfl⟩ := Option.map_eq_some_iff.mp hs
      cases hcomplete.release

theorem HandsOver.nonzero_iff {outStream : Option ArrowArrayStream} {outErr : Option ByteBuffer}
    {ret : CallbackReturn} (h : HandsOver outStream outErr ret) :
    ret.rc ≠ 0 ↔ (∀ s, ret.outStream = some s → s.release = none) ∧
      ∀ e ∈ ret.heap.streams, e.2 = 1 := by
  cases h with
  | stream hrc hstream _ _ =>
    apply iff_of_false
    · exact not_not_intro hrc
    · rintro ⟨hreleased, -⟩
      cases hreleased _ hstream
  | error hrc hstream howes =>
    refine iff_of_true ?_ ⟨?_, ?_⟩
    · rw [hrc]
      decide
    · intro s hs
      rw [hstream] at hs
      obtain ⟨_, -, rfl⟩ := Option.map_eq_some_iff.mp hs
      rfl
    · exact Ledger.holds_none_iff.mp howes.1

/-! ## §3 The caller -/

variable {arrow : Crate V}

theorem dropStream_empty (arrow : Crate V) (heap : Heap) :
    dropStream arrow .empty heap = heap := by
  unfold dropStream
  split <;> rfl

theorem dropStream_of (hdrop : arrow.DropsStreams) {holder : ℕ}
    (h : heap.Owes (some holder) none) : (dropStream arrow (.of holder) heap).Settled := by
  unfold dropStream
  rw [hdrop]
  exact Heap.owes_none_iff.mp h.releaseStream

theorem ptr_getD (outErr : Option ByteBuffer) :
    (outErr.getD .empty).ptr = outErr.bind ByteBuffer.ptr := by
  cases outErr <;> rfl

theorem readErrBuffer_settled {err : ByteBuffer} (h : heap.Owes none err.ptr) :
    (readErrBuffer err heap).2.2.Settled := by
  apply Heap.owes_none_iff.mp
  unfold readErrBuffer cppFreeBuffer
  cases hptr : err.ptr with
  | none =>
    rw [hptr] at h
    exact h
  | some i =>
    rw [hptr] at h
    exact h.freeBuffer _

theorem collect_owes (arrow : Crate V) (schema : Schema) (s : ArrowArrayStream)
    (turns : List (Turn (RecordBatch V))) (h : heap.Owes stream buffer) :
    (collect arrow schema s turns heap).2.Owes stream buffer := by
  induction turns generalizing heap with
  | nil => exact h
  | cons t turns ih =>
    have hget := innerGet_owes h s t
    unfold collect
    simp only
    split
    · exact hget
    · exact ih hget
    · exact hget
    · exact hget

theorem readStream_settled (hdrop : arrow.DropsStreams) (env : Encounter V) {holder : ℕ}
    (h : heap.Owes (some holder) none) :
    (readStream arrow env (.of holder) heap).2.Settled := by
  have hget := innerGet_owes h (.of holder) env.getSchema
  unfold readStream
  simp only
  split
  · exact dropStream_of hdrop (collect_owes arrow _ _ env.getNext hget)
  · exact dropStream_of hdrop hget
  · exact dropStream_of hdrop hget

/-- **Nothing is left unreleased, and nothing is released twice.** -/
theorem execSqlViaBridge_settled (hdrop : arrow.DropsStreams) (h : heap.Settled)
    (env : Encounter V) (sql : Bytes) : (execSqlViaBridge arrow env sql heap).2.Settled := by
  have hcallback := execSqlCallback_handsOver h env true (some sql) (some .empty) (some .empty)
  cases hcallback with
  | stream hrc hstream _ howes =>
    simp only [execSqlViaBridge, hrc, hstream, ne_eq, not_true_eq_false, ↓reduceIte,
      Option.getD_some]
    exact readStream_settled hdrop env howes
  | error hrc hstream howes =>
    rw [execSqlViaBridge_failed rfl (by rw [hrc]; decide), hstream, Option.map_some,
      Option.getD_some, dropStream_empty]
    apply readErrBuffer_settled
    rwa [ptr_getD]

theorem runCalls_settled (hdrop : arrow.DropsStreams) (h : heap.Settled)
    (calls : List (Encounter V × Bytes)) : (runCalls arrow calls heap).Settled := by
  induction calls generalizing heap with
  | nil => exact h
  | cons call calls ih =>
    obtain ⟨env, sql⟩ := call
    have hcall := execSqlViaBridge_settled hdrop h env sql
    unfold runCalls
    split
    · rename_i heq
      rwa [heq] at hcall
    · rename_i heq
      rw [heq] at hcall
      exact ih hcall

/-! ## §4 The error of a failed call -/

/-- The text that reaches the Rust side, if one does. -/
def callbackMessage (env : Encounter V) (f : Failure) : Option Bytes :=
  let text := failureText env.interruptText f
  if text = [] ∨ env.malloc = false then none else some text

theorem readErrBuffer_writeError (outErr : ByteBuffer) (text : Bytes) (malloc : Bool)
    (heap : Heap) (streams : Ledger Bool) :
    let written := writeError (some outErr) text malloc heap
    (readErrBuffer (written.1.getD .empty) { written.2 with streams := streams }).1 =
      if text = [] ∨ malloc = false then none else some (Utf8.lossy text) := by
  by_cases htext : text = []
  · simp [writeError, htext, readErrBuffer, ByteBuffer.empty]
  · cases malloc with
    | false => simp [writeError, htext, readErrBuffer, ByteBuffer.empty]
    | true => simp [writeError, htext, readErrBuffer, Ledger.make]

theorem execSqlViaBridge_message {env : Encounter V} {sql : Bytes} {f : Failure}
    (h : failureOf env sql = some f) :
    (execSqlViaBridge arrow env sql heap).1 =
      .err (((callbackMessage env f).map Utf8.lossy).getD noMessage) := by
  rw [execSqlViaBridge_failed (execSqlCallback_failed h .empty (some .empty))
    (show (1 : ℤ) ≠ 0 by decide)]
  simp only [Option.map_some, readErrBuffer_writeError, callbackMessage]
  apply congrArg (fun msg => Rust.err (Option.getD msg noMessage))
  split <;> rfl

/-- A callback that does not return zero has failed on something. -/
theorem failed_of_nonzero {env : Encounter V} {sql : Bytes} {s : ArrowArrayStream}
    {outErr : Option ByteBuffer}
    (h : (execSqlCallback env true (some sql) (some s) outErr heap).rc ≠ 0) :
    ∃ f, failureOf env sql = some f := by
  rw [← Option.ne_none_iff_exists']
  intro hnone
  rw [execSqlCallback_answered hnone] at h
  exact h rfl

/-! ### Calls of `free_buffer` -/

@[simp] theorem writeError_freeCalls (outErr : Option ByteBuffer) (msg : Bytes) (malloc : Bool)
    (heap : Heap) : (writeError outErr msg malloc heap).2.freeCalls = heap.freeCalls := by
  unfold writeError
  split
  · rfl
  · split
    · rfl
    · split <;> rfl

theorem execSqlCallback_freeCalls (env : Encounter V) (ctx : Bool) (sql : Option Bytes)
    (outStream : Option ArrowArrayStream) (outErr : Option ByteBuffer) (heap : Heap) :
    (execSqlCallback env ctx sql outStream outErr heap).heap.freeCalls = heap.freeCalls := by
  unfold execSqlCallback
  simp only
  split
  · split <;> simp
  · simp

theorem innerGet_freeCalls {α : Type} (s : ArrowArrayStream) (t : Turn α) (heap : Heap) :
    (innerGet s t heap).2.2.freeCalls = heap.freeCalls := by
  unfold innerGet
  split
  · cases s.privateData <;> rfl
  · rfl

theorem collect_freeCalls (arrow : Crate V) (schema : Schema) (s : ArrowArrayStream)
    (turns : List (Turn (RecordBatch V))) (heap : Heap) :
    (collect arrow schema s turns heap).2.freeCalls = heap.freeCalls := by
  induction turns generalizing heap with
  | nil => rfl
  | cons t turns ih =>
    have hget := innerGet_freeCalls s t heap
    unfold collect
    simp only
    split
    · exact hget
    · exact (ih _).trans hget
    · exact hget
    · exact hget

theorem dropStream_freeCalls (arrow : Crate V) (s : ArrowArrayStream) (heap : Heap) :
    (dropStream arrow s heap).freeCalls = heap.freeCalls := by
  unfold dropStream innerRelease
  split
  · split
    · rfl
    · cases s.privateData <;> rfl
  · rfl

theorem readStream_freeCalls (arrow : Crate V) (env : Encounter V) (s : ArrowArrayStream)
    (heap : Heap) : (readStream arrow env s heap).2.freeCalls = heap.freeCalls := by
  have hget := innerGet_freeCalls s env.getSchema heap
  unfold readStream
  simp only
  split
  · rw [dropStream_freeCalls, collect_freeCalls, hget]
  · rw [dropStream_freeCalls, hget]
  · rw [dropStream_freeCalls, hget]

theorem readErrBuffer_freeCalls (err : ByteBuffer) (heap : Heap) :
    (readErrBuffer err heap).2.2.freeCalls =
      heap.freeCalls + if err.ptr.isSome then 1 else 0 := by
  unfold readErrBuffer cppFreeBuffer
  cases hptr : err.ptr <;> rfl

/-- `free_buffer` is called once where the pointer of the buffer is set. -/
theorem execSqlViaBridge_freeCalls (h : heap.Settled) (env : Encounter V) (sql : Bytes) :
    (execSqlViaBridge arrow env sql heap).2.freeCalls = heap.freeCalls +
      if ((execSqlCallback env true (some sql) (some .empty) (some .empty) heap).outErr.bind
        ByteBuffer.ptr).isSome then 1 else 0 := by
  have hcalls := execSqlCallback_freeCalls env true (some sql) (some .empty) (some .empty) heap
  have hcallback := execSqlCallback_handsOver h env true (some sql) (some .empty) (some .empty)
  cases hcallback with
  | stream hrc hstream herr =>
    simp only [execSqlViaBridge, hrc, ne_eq, not_true_eq_false, ↓reduceIte, readStream_freeCalls,
      hcalls, herr]
    rfl
  | error hrc hstream =>
    rw [execSqlViaBridge_failed rfl (by rw [hrc]; decide), dropStream_freeCalls, ← ptr_getD]
    rw [readErrBuffer_freeCalls, hcalls]

/-! ## §5 The contract -/

/-- **The hand-over contract of `exec_sql`**: a callback returns zero exactly with a complete
stream and no error, and anything else exactly with no stream and no object; its caller turns
every failure into an error, with the callback's text if there is one, and frees the error
buffer exactly where there is one; and over any number of calls, however they end, every stream
object has been released once and every error buffer freed once. -/
theorem hand_over_contract (hdrop : arrow.DropsStreams) :
    (∀ (env : Encounter V) ctx sql outStream outErr heap, heap.Settled →
      let ret := execSqlCallback env ctx sql outStream outErr heap
      (ret.rc = 0 ↔ (∃ s, ret.outStream = some s ∧ s.Complete) ∧
        ∀ e, ret.outErr = some e → e = .empty) ∧
      (ret.rc ≠ 0 ↔ (∀ s, ret.outStream = some s → s.release = none) ∧
        ∀ e ∈ ret.heap.streams, e.2 = 1)) ∧
    (∀ (env : Encounter V) sql heap, heap.Settled →
      let ret := execSqlCallback env true (some sql) (some .empty) (some .empty) heap
      (ret.rc ≠ 0 → ∃ f, failureOf env sql = some f ∧
        (execSqlViaBridge arrow env sql heap).1 =
          .err (((callbackMessage env f).map Utf8.lossy).getD noMessage) ∧
        ∀ text, callbackMessage env f = some text → Utf8.WellFormed text →
          (execSqlViaBridge arrow env sql heap).1 = .err text) ∧
      (execSqlViaBridge arrow env sql heap).2.freeCalls =
        heap.freeCalls + if (ret.outErr.bind ByteBuffer.ptr).isSome then 1 else 0) ∧
    (∀ (calls : List (Encounter V × Bytes)) heap, heap.Settled →
      (runCalls arrow calls heap).Settled) := by
  refine ⟨?_, ?_, fun calls heap h => runCalls_settled hdrop h calls⟩
  · intro env ctx sql outStream outErr heap h
    have hcallback := execSqlCallback_handsOver h env ctx sql outStream outErr
    exact ⟨hcallback.zero_iff, hcallback.nonzero_iff⟩
  · intro env sql heap h
    refine ⟨fun hrc => ?_, execSqlViaBridge_freeCalls h env sql⟩
    obtain ⟨f, hf⟩ := failed_of_nonzero hrc
    have herror : (execSqlViaBridge arrow env sql heap).1 = _ := execSqlViaBridge_message hf
    refine ⟨f, hf, herror, ?_⟩
    intro text htext hformed
    rw [herror, htext, Option.map_some, Option.getD_some, Utf8.lossy_wellFormed hformed]

/-- A query DuckDB refuses with this text. -/
def refusing (what : Bytes) : Encounter V where
  before := false
  connection := none
  query _ := .ok (.error ⟨false, what⟩)
  behind := false
  wrap := none
  getSchema := ⟨false, 0, none, []⟩
  getNext := []
  interruptText := ascii "Interrupted!"
  malloc := true

/-- A refused query, a stream that is interrupted behind its first batch, and an error text there
is no memory for. -/
def threeCalls : List (Encounter ℚ × Bytes) :=
  [(refusing (ascii "Catalog Error"), ascii "FROM nowhere"),
    ({ (refusing [] : Encounter ℚ) with
        query := fun _ => .ok .answered
        getSchema := ⟨false, 0, some mixedDecimals.schema, []⟩
        getNext := [⟨false, 0, some mixedDecimals, []⟩, ⟨true, 0, some mixedDecimals, []⟩] },
      ascii "FROM t"),
    ({ refusing (ascii "Out of Memory Error") with malloc := false }, ascii "FROM t")]

theorem hand_over_contract_three :
    (runCalls (Crate.plain fun _ _ x => x) threeCalls .empty).Settled := by
  apply (hand_over_contract fun _ => rfl).2.2
  constructor <;> simp [Heap.empty]

/-- Three stream objects and one buffer have been made in the three calls. -/
example : runCalls (Crate.plain fun _ _ x => x) threeCalls .empty =
    ⟨[(false, 1), (true, 1), (false, 1)], [(ascii "Catalog Error", 1)], 1⟩ := by
  decide +kernel

end Reader

end GgsqlDuckdb
