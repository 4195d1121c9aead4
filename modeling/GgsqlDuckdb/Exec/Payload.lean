import GgsqlDuckdb.Exec.Dispatch
import GgsqlDuckdb.Library.Ledger
import GgsqlDuckdb.Library.Machine
import GgsqlDuckdb.Library.Roster

/-!
# The payload on its way to C++

`ByteBuffer` of `rust/src/ffi.rs`, `ggsql_execute` and `ggsql_free_buffer` of `rust/src/lib.rs`,
and what `RunGgsqlQuery` of `src/ggsql_exec.cpp` does with the buffer, for any number of queries at
once.  A vector that is handed over is kept in a ledger; a buffer that does not describe one, or
one that has been dropped, is recorded as a fault.

## Main results

- `Sound`: the invariant, that every live vector is in the hands of one call.
- `payload_crosses`: the buffers are sound, and the calls end as they would without them.
- `errors_named`: the text of an exception is that of the Rust side.
-/

namespace GgsqlDuckdb

open Library

namespace Payload

/-! ## §1 Buffers -/

/-- A `Vec<u8>` -/
structure RustVec where
  bytes : Bytes
  capacity : ℕ
  fits : bytes.length ≤ capacity
  deriving DecidableEq, Repr

/-- The pointer of a vector without capacity dangles, and is not null. -/
inductive Pointer where
  | null
  | dangling
  | block (i : ℕ)
  deriving DecidableEq, Repr

structure ByteBuffer where
  ptr : Pointer
  len : ℕ
  cap : ℕ
  deriving DecidableEq, Repr

/-- `ByteBuffer::EMPTY` -/
def ByteBuffer.empty : ByteBuffer where
  ptr := .null
  len := 0
  cap := 0

/-- The vectors that have been handed over, and whether anything has been undefined. -/
structure Heap where
  blocks : Library.Ledger RustVec
  fault : Bool
  deriving DecidableEq, Repr

/-- `ByteBuffer::from_vec` -/
def fromVec (v : RustVec) (h : Heap) : ByteBuffer × Heap :=
  if v.capacity = 0 then (⟨.dangling, v.bytes.length, v.capacity⟩, h)
  else
    (⟨.block h.blocks.length, v.bytes.length, v.capacity⟩, { h with blocks := h.blocks.make v })

/-- `drop(Vec::from_raw_parts(ptr, len, cap))` -/
def dropVec (b : ByteBuffer) (h : Heap) : Heap :=
  match b.ptr with
  | .block i =>
    match h.blocks[i]? with
    | some (v, 0) =>
      if b.len = v.bytes.length ∧ b.cap = v.capacity then { h with blocks := h.blocks.release i }
      else { h with fault := true }
    | _ => { h with fault := true }
  | _ => { h with fault := true }

/-- `ggsql_free_buffer` -/
def ggsqlFreeBuffer (buf : Option ByteBuffer) (h : Heap) : Option ByteBuffer × Heap :=
  match buf with
  | none => (none, h)
  | some b =>
    if b.ptr ≠ .null ∧ 0 < b.cap then (some .empty, dropVec b h) else (some .empty, h)

/-- `payload.assign`, behind its test. -/
def assign (b : ByteBuffer) (h : Heap) : Bytes × Heap :=
  if b.ptr ≠ .null ∧ 0 < b.len then
    match b.ptr with
    | .block i =>
      match h.blocks[i]? with
      | some (v, 0) =>
        if b.len ≤ v.bytes.length then (v.bytes.take b.len, h) else ([], { h with fault := true })
      | _ => ([], { h with fault := true })
    | _ => ([], { h with fault := true })
  else ([], h)

/-! ## §2 The entry point -/

/-- How `run` ends, with its vectors. -/
inductive RustEnd where
  | ok (payload : RustVec)
  | err (msg : RustVec)
  | panic
  deriving DecidableEq, Repr

def panicText : Bytes := ascii "ggsql: panic in Rust side"

/-- The vector that `ggsql_execute` hands over. -/
def RustEnd.vec : RustEnd → RustVec
  | .ok payload => payload
  | .err msg => msg
  | .panic => ⟨panicText, panicText.length, le_rfl⟩

def RustEnd.rc : RustEnd → ℕ
  | .ok _ => 0
  | .err _ => 1
  | .panic => 2

/-- The end of `run` without its vectors. -/
def RustEnd.plain : RustEnd → RustResult
  | .ok payload => .ok payload.bytes
  | .err msg => .err msg.bytes
  | .panic => .panic

/-- Which of the pointers are set. -/
structure Arguments where
  query : Bool
  bridge : Bool
  writer : Bool
  options : Bool
  deriving DecidableEq, Repr

/-- `ggsql_execute`; `r` is the end of `run`, if it is reached. -/
def ggsqlExecute (args : Arguments) (out : Option ByteBuffer) (r : RustEnd) (h : Heap) :
    ℕ × Option ByteBuffer × Heap :=
  match out with
  | none => (1, none, h)
  | some b =>
    if args.query && args.bridge && args.writer && args.options then
      let (b, h) := fromVec r.vec h
      (r.rc, some b, h)
    else (1, some b, h)

/-! ## §3 Calls of `RunGgsqlQuery` -/

/-- Where a call stands. -/
inductive CallPc where
  | entry
  | executing (out : ByteBuffer)
  | returned (rc : ℕ) (out : ByteBuffer)
  | copied (rc : ℕ) (out : ByteBuffer) (payload : Bytes)
  | released (rc : ℕ) (payload : Bytes)
  | ended (o : Outcome)
  deriving DecidableEq, Repr

/-- A call, with how `run` ended for it and what its last look at the outer flag found. -/
structure Call where
  result : Option RustEnd
  exit : Option Bool
  pc : CallPc
  deriving DecidableEq, Repr

end Payload

structure Payload where
  heap : Payload.Heap
  calls : List Payload.Call
  deriving DecidableEq, Repr

namespace Payload

def empty : Payload where
  heap := { blocks := [], fault := false }
  calls := []

inductive Label where
  | call
  | enter (k : ℕ) (interrupted : Bool)
  | execute (k : ℕ) (r : RustEnd)
  | assign (k : ℕ)
  | free (k : ℕ)
  | finish (k : ℕ) (interrupted : Bool)
  deriving DecidableEq, Repr

def set (s : Payload) (k : ℕ) (c : Call) (h : Heap) : Payload where
  heap := h
  calls := s.calls.modify k fun _ => c

/-- `RunGgsqlQuery`, up to its next use of the buffer. -/
def step (s : Payload) : Label → Option Payload
  | .call => some { s with calls := s.calls ++ [⟨none, none, .entry⟩] }
  | .enter k interrupted =>
    match s.calls[k]? with
    | some ⟨_, _, .entry⟩ =>
      if interrupted then some (s.set k ⟨none, none, .ended .interrupted⟩ s.heap)
      else some (s.set k ⟨none, none, .executing .empty⟩ s.heap)
    | _ => none
  | .execute k r =>
    match s.calls[k]? with
    | some ⟨_, _, .executing out⟩ =>
      -- the strings and the bridge are objects of the caller
      match ggsqlExecute ⟨true, true, true, true⟩ (some out) r s.heap with
      | (rc, some out, h) => some (s.set k ⟨some r, none, .returned rc out⟩ h)
      | _ => none
    | _ => none
  | .assign k =>
    match s.calls[k]? with
    | some ⟨r, _, .returned rc out⟩ =>
      let (payload, h) := Payload.assign out s.heap
      some (s.set k ⟨r, none, .copied rc out payload⟩ h)
    | _ => none
  | .free k =>
    match s.calls[k]? with
    | some ⟨r, _, .copied rc out payload⟩ =>
      let (_, h) := ggsqlFreeBuffer (some out) s.heap
      some (s.set k ⟨r, none, .released rc payload⟩ h)
    | _ => none
  | .finish k interrupted =>
    match s.calls[k]? with
    | some ⟨r, _, .released rc payload⟩ =>
      some (s.set k ⟨r, some interrupted, .ended (GgsqlDuckdb.finish interrupted rc payload)⟩
        s.heap)
    | _ => none

/-- Every interleaving of any number of queries. -/
def payload : Machine Payload Label where
  init s := s = empty
  step := step

/-! ## §4 What the calls hold -/

def Pointer.block? : Pointer → Option ℕ
  | .block i => some i
  | _ => none

/-- The block in the hands of a call. -/
def Call.block (c : Call) : Option ℕ :=
  match c.pc with
  | .returned _ out => out.ptr.block?
  | .copied _ out _ => out.ptr.block?
  | _ => none

/-- The blocks in the hands of the calls. -/
def held (s : Payload) : List ℕ := s.calls.filterMap Call.block

/-- The buffer describes a vector that has been handed over. -/
structure Describes (h : Heap) (out : ByteBuffer) (v : RustVec) : Prop where
  len : out.len = v.bytes.length
  cap : out.cap = v.capacity
  ptr : if v.capacity = 0 then out.ptr = .dangling
    else ∃ i n, out.ptr = .block i ∧ h.blocks[i]? = some (v, n)

/-- Where a call may stand. -/
inductive Call.Fits (h : Heap) : Call → Prop where
  | entry : Fits h ⟨none, none, .entry⟩
  | executing : Fits h ⟨none, none, .executing .empty⟩
  | returned (r : RustEnd) {out : ByteBuffer} (hout : Describes h out r.vec) :
      Fits h ⟨some r, none, .returned r.rc out⟩
  | copied (r : RustEnd) {out : ByteBuffer} (hout : Describes h out r.vec) :
      Fits h ⟨some r, none, .copied r.rc out r.vec.bytes⟩
  | released (r : RustEnd) : Fits h ⟨some r, none, .released r.rc r.vec.bytes⟩
  | interrupted : Fits h ⟨none, none, .ended .interrupted⟩
  | ended (r : RustEnd) (exit : Bool) :
      Fits h ⟨some r, some exit, .ended (GgsqlDuckdb.finish exit r.rc r.vec.bytes)⟩

/-- What holds between any two steps. -/
structure Sound (s : Payload) : Prop where
  fault : s.heap.fault = false
  /-- No block is in two hands. -/
  nodup : s.held.Nodup
  /-- What is in no hands has been dropped, once. -/
  owes : s.heap.blocks.Owes {i | i ∈ s.held}
  fits : ∀ c ∈ s.calls, c.Fits s.heap

/-- The blocks of `h` are still there. -/
def Kept (h h' : Heap) : Prop :=
  ∀ (i : ℕ) (v : RustVec) (n : ℕ), h.blocks[i]? = some (v, n) → ∃ n', h'.blocks[i]? = some (v, n')

theorem Describes.kept {h h' : Heap} {out : ByteBuffer} {v : RustVec} (hd : Describes h out v)
    (hkept : Kept h h') : Describes h' out v := by
  refine ⟨hd.len, hd.cap, ?_⟩
  have hptr := hd.ptr
  split_ifs at hptr ⊢ with hcap
  · exact hptr
  · obtain ⟨i, n, hi, hblock⟩ := hptr
    obtain ⟨n', hn'⟩ := hkept i v n hblock
    exact ⟨i, n', hi, hn'⟩

theorem Call.Fits.kept {h h' : Heap} {c : Call} (hc : c.Fits h) (hkept : Kept h h') :
    c.Fits h' := by
  cases hc with
  | entry => exact .entry
  | executing => exact .executing
  | returned r hout => exact .returned r (hout.kept hkept)
  | copied r hout => exact .copied r (hout.kept hkept)
  | released r => exact .released r
  | interrupted => exact .interrupted
  | ended r exit => exact .ended r exit

theorem kept_make (h : Heap) (v : RustVec) : Kept h { h with blocks := h.blocks.make v } := by
  intro i w n hi
  refine ⟨n, ?_⟩
  show (h.blocks ++ [(v, 0)])[i]? = some (w, n)
  rw [List.getElem?_append_left (List.getElem?_eq_some_iff.mp hi).1]
  exact hi

theorem kept_release (h : Heap) (j : ℕ) : Kept h { h with blocks := h.blocks.release j } := by
  intro i w n hi
  show ∃ n', (h.blocks.modify j fun e => (e.1, e.2 + 1))[i]? = some (w, n')
  rw [List.getElem?_modify, hi]
  by_cases hij : j = i
  · exact ⟨n + 1, by simp [hij]⟩
  · exact ⟨n, by simp [hij]⟩

/-! ## §5 One operation at a time -/

variable {s s' : Payload} {k : ℕ} {c c' : Call}

/-- The block that a buffer describes. -/
theorem Describes.cases {h : Heap} {out : ByteBuffer} {v : RustVec} (hd : Describes h out v) :
    (v.capacity = 0 ∧ out.ptr = .dangling) ∨
      (v.capacity ≠ 0 ∧ ∃ i n, out.ptr = .block i ∧ h.blocks[i]? = some (v, n)) := by
  have hptr := hd.ptr
  split_ifs at hptr with hcap
  · exact Or.inl ⟨hcap, hptr⟩
  · exact Or.inr ⟨hcap, hptr⟩

/-- A block in the hands of a call has not been dropped. -/
theorem Sound.live (hs : Sound s) {i n : ℕ} {v : RustVec} (hk : s.calls[k]? = some c)
    (hblock : c.block = some i) (hi : s.heap.blocks[i]? = some (v, n)) : n = 0 := by
  have hheld : i ∈ s.held := List.mem_filterMap.mpr ⟨c, List.mem_of_getElem? hk, hblock⟩
  exact (hs.owes i (v, n) hi).1 hheld

theorem Describes.block_made {h : Heap} {out : ByteBuffer} {v : RustVec} (hd : Describes h out v)
    {i : ℕ} (hi : out.ptr.block? = some i) : ∃ w n, h.blocks[i]? = some (w, n) := by
  rcases hd.cases with ⟨-, hptr⟩ | ⟨-, j, n, hptr, hblock⟩
  · rw [hptr] at hi
    cases hi
  · rw [hptr] at hi
    obtain rfl : j = i := Option.some.inj hi
    exact ⟨v, n, hblock⟩

/-- A block in hands has been made. -/
theorem Call.Fits.block_made {h : Heap} (hc : c.Fits h) {i : ℕ} (hi : c.block = some i) :
    ∃ v n, h.blocks[i]? = some (v, n) := by
  cases hc with
  | returned r hout => exact hout.block_made hi
  | copied r hout => exact hout.block_made hi
  | entry => cases hi
  | executing => cases hi
  | released r => cases hi
  | interrupted => cases hi
  | ended r exit => cases hi

/-- A vector is read as it was handed over. -/
theorem assign_eq {out : ByteBuffer} {v : RustVec} {h : Heap} (hd : Describes h out v)
    (hlive : ∀ i n, out.ptr = .block i → h.blocks[i]? = some (v, n) → n = 0) :
    Payload.assign out h = (v.bytes, h) := by
  unfold Payload.assign
  rcases hd.cases with ⟨hcap, hptr⟩ | ⟨-, i, n, hptr, hblock⟩
  · -- without capacity there are no bytes
    have hnil : v.bytes = [] := by
      have hfits := v.fits
      rw [hcap] at hfits
      exact List.eq_nil_of_length_eq_zero (Nat.le_zero.mp hfits)
    rw [if_neg (by simp [hd.len, hnil]), hnil]
  · obtain rfl := hlive i n hptr hblock
    by_cases hlen : 0 < out.len
    · rw [if_pos ⟨by simp [hptr], hlen⟩, hptr]
      simp only [hblock]
      rw [if_pos hd.len.le, hd.len, List.take_length]
    · have hnil : v.bytes = [] := by
        have hlen' := hd.len
        exact List.eq_nil_of_length_eq_zero (by omega)
      rw [if_neg fun h => hlen h.2, hnil]

/-- A vector is dropped as it was handed over, and only if there is one. -/
theorem ggsqlFreeBuffer_eq {out : ByteBuffer} {v : RustVec} {h : Heap} (hd : Describes h out v)
    (hlive : ∀ i n, out.ptr = .block i → h.blocks[i]? = some (v, n) → n = 0) :
    (v.capacity = 0 ∧ out.ptr.block? = none ∧ ggsqlFreeBuffer (some out) h = (some .empty, h)) ∨
      ∃ i, out.ptr.block? = some i ∧
        ggsqlFreeBuffer (some out) h = (some .empty, { h with blocks := h.blocks.release i }) := by
  unfold ggsqlFreeBuffer
  dsimp only
  rcases hd.cases with ⟨hcap, hptr⟩ | ⟨hcap, i, n, hptr, hblock⟩
  · left
    refine ⟨hcap, by rw [hptr]; rfl, ?_⟩
    rw [if_neg (by simp [hd.cap, hcap])]
  · right
    obtain rfl := hlive i n hptr hblock
    refine ⟨i, by rw [hptr]; rfl, ?_⟩
    rw [if_pos ⟨by simp [hptr], by rw [hd.cap]; omega⟩]
    unfold dropVec
    rw [hptr]
    simp only [hblock]
    rw [if_pos ⟨hd.len, hd.cap⟩]

/-- What `from_vec` hands over. -/
theorem fromVec_cases (v : RustVec) (h : Heap) :
    (v.capacity = 0 ∧ fromVec v h = (⟨.dangling, v.bytes.length, v.capacity⟩, h)) ∨
      (v.capacity ≠ 0 ∧ fromVec v h =
        (⟨.block h.blocks.length, v.bytes.length, v.capacity⟩,
          { h with blocks := h.blocks.make v })) := by
  unfold fromVec
  split_ifs with hcap
  · exact Or.inl ⟨hcap, rfl⟩
  · exact Or.inr ⟨hcap, rfl⟩

/-! ## §6 Steps keep the invariant -/

theorem fits_set {h : Heap} (hs : Sound s) (hkept : Kept s.heap h) (hc' : c'.Fits h) :
    ∀ d ∈ (s.set k c' h).calls, d.Fits h := by
  intro d hd
  obtain ⟨j, hj⟩ := List.mem_iff_getElem?.mp hd
  rcases getElem?_modify_cases hj with ⟨-, b, -, rfl⟩ | ⟨-, hold⟩
  · exact hc'
  · exact (hs.fits d (List.mem_of_getElem? hold)).kept hkept

/-- A step that changes no hands. -/
theorem Sound.same (hs : Sound s) (hk : s.calls[k]? = some c) (hblock : c'.block = c.block)
    (hc' : c'.Fits s.heap) : Sound (s.set k c' s.heap) := by
  have hheld : (s.set k c' s.heap).held = s.held := filterMap_modify_at hk hblock
  refine ⟨hs.fault, ?_, ?_, fits_set hs (fun i v n h => ⟨n, h⟩) hc'⟩
  · rw [hheld]
    exact hs.nodup
  · rw [hheld]
    exact hs.owes

/-- A call takes a new vector. -/
theorem Sound.take (hs : Sound s) (hk : s.calls[k]? = some c) (hnone : c.block = none)
    (v : RustVec) (hblock : c'.block = some s.heap.blocks.length)
    (hc' : c'.Fits { s.heap with blocks := s.heap.blocks.make v }) :
    Sound (s.set k c' { s.heap with blocks := s.heap.blocks.make v }) := by
  have hperm : (s.set k c' { s.heap with blocks := s.heap.blocks.make v }).held.Perm
      (s.heap.blocks.length :: s.held) :=
    perm_filterMap_modify (f := fun _ => c') hk hnone hblock
  have hfresh : s.heap.blocks.length ∉ s.held := by
    intro hmem
    obtain ⟨d, hd, hdblock⟩ := List.mem_filterMap.mp hmem
    -- a block in hands is one that has been made
    obtain ⟨w, n, hi⟩ := (hs.fits d hd).block_made hdblock
    exact absurd (List.getElem?_eq_some_iff.mp hi).1 (lt_irrefl _)
  refine ⟨hs.fault, ?_, ?_, fits_set hs (kept_make s.heap v) hc'⟩
  · rw [hperm.nodup_iff, List.nodup_cons]
    exact ⟨hfresh, hs.nodup⟩
  · have hset : {i | i ∈ (s.set k c' { s.heap with blocks := s.heap.blocks.make v }).held} =
        insert s.heap.blocks.length {i | i ∈ s.held} := by
      ext i
      rw [Set.mem_insert_iff]
      exact hperm.mem_iff.trans List.mem_cons
    rw [hset]
    exact hs.owes.make v

/-- A call drops its vector. -/
theorem Sound.drop (hs : Sound s) (hk : s.calls[k]? = some c) {i : ℕ} (hblock : c.block = some i)
    (hnone : c'.block = none)
    (hc' : c'.Fits { s.heap with blocks := s.heap.blocks.release i }) :
    Sound (s.set k c' { s.heap with blocks := s.heap.blocks.release i }) := by
  have hperm : s.held.Perm
      (i :: (s.set k c' { s.heap with blocks := s.heap.blocks.release i }).held) :=
    perm_filterMap_release (f := fun _ => c') hk hblock hnone
  have hnodup := hperm.nodup_iff.mp hs.nodup
  rw [List.nodup_cons] at hnodup
  refine ⟨hs.fault, hnodup.2, ?_, fits_set hs (kept_release s.heap i) hc'⟩
  have hset : {j | j ∈ s.held} = insert i
      {j | j ∈ (s.set k c' { s.heap with blocks := s.heap.blocks.release i }).held} := by
    ext j
    rw [Set.mem_insert_iff]
    exact hperm.mem_iff.trans List.mem_cons
  have howes := hs.owes
  rw [hset] at howes
  exact howes.release hnodup.1

/-- The return code and the bytes are those of the end of `run`. -/
theorem plain_eq (r : RustEnd) : GgsqlDuckdb.ggsqlExecute r.plain = (r.rc, r.vec.bytes) := by
  cases r <;> rfl

theorem Sound.execute (hs : Sound s) {r : RustEnd} {out : ByteBuffer} {q : Option RustEnd}
    {exit : Option Bool} (hk : s.calls[k]? = some ⟨q, exit, .executing out⟩)
    (h : step s (.execute k r) = some s') : Sound s' := by
  simp only [step, hk, ggsqlExecute, Bool.and_self, if_true] at h
  rcases fromVec_cases r.vec s.heap with ⟨hcap, hfrom⟩ | ⟨hcap, hfrom⟩
  · rw [hfrom] at h
    obtain rfl := Option.some.inj h
    have hout : Describes s.heap ⟨.dangling, r.vec.bytes.length, r.vec.capacity⟩ r.vec := by
      refine ⟨rfl, rfl, ?_⟩
      rw [if_pos hcap]
    exact hs.same hk rfl (.returned r hout)
  · rw [hfrom] at h
    obtain rfl := Option.some.inj h
    refine hs.take hk rfl r.vec rfl (.returned r ⟨rfl, rfl, ?_⟩)
    rw [if_neg hcap]
    refine ⟨s.heap.blocks.length, 0, rfl, ?_⟩
    show (s.heap.blocks ++ [(r.vec, 0)])[s.heap.blocks.length]? = some (r.vec, 0)
    rw [List.getElem?_concat_length]

theorem sound_step {l : Label} (hs : Sound s) (h : payload.step s l = some s') : Sound s' := by
  cases l with
  | call =>
    obtain rfl := Option.some.inj h
    have hheld : held { s with calls := s.calls ++ [⟨none, none, .entry⟩] } = s.held := by
      unfold held
      rw [List.filterMap_append]
      exact List.append_nil _
    refine ⟨hs.fault, hheld ▸ hs.nodup, hheld ▸ hs.owes, ?_⟩
    intro c hc
    rcases List.mem_append.mp hc with hold | hnew
    · exact hs.fits c hold
    · obtain rfl := List.mem_singleton.mp hnew
      exact .entry
  | enter k interrupted =>
    simp only [payload, step] at h
    split at h
    · rename_i hk
      cases interrupted with
      | true =>
        obtain rfl := Option.some.inj h
        exact hs.same hk rfl .interrupted
      | false =>
        obtain rfl := Option.some.inj h
        exact hs.same hk rfl .executing
    · cases h
  | execute k r =>
    simp only [payload] at h
    cases hk : s.calls[k]? with
    | none => simp [step, hk] at h
    | some c =>
      obtain ⟨q, exit, pc⟩ := c
      cases pc with
      | executing out => exact hs.execute hk h
      | _ => simp [step, hk] at h
  | assign k =>
    simp only [payload, step] at h
    split at h
    · rename_i q exit rc out hk
      obtain rfl := Option.some.inj h
      cases hs.fits _ (List.mem_of_getElem? hk) with
      | returned r hout =>
        have hread : Payload.assign out s.heap = (r.vec.bytes, s.heap) := by
          apply assign_eq hout
          intro i n hptr hi
          exact hs.live hk (congrArg Pointer.block? hptr) hi
        rw [hread]
        exact hs.same hk rfl (.copied r hout)
    · cases h
  | free k =>
    simp only [payload, step] at h
    split at h
    · rename_i q exit rc out bytes hk
      obtain rfl := Option.some.inj h
      cases hs.fits _ (List.mem_of_getElem? hk) with
      | copied r hout =>
        rcases ggsqlFreeBuffer_eq hout (fun i n hptr hi =>
          hs.live hk (congrArg Pointer.block? hptr) hi) with ⟨-, hnone, hfree⟩ | ⟨i, hi, hfree⟩
        · rw [hfree]
          exact hs.same hk hnone.symm (.released r)
        · rw [hfree]
          exact hs.drop hk hi rfl (.released r)
    · cases h
  | finish k interrupted =>
    simp only [payload, step] at h
    split at h
    · rename_i q exit rc bytes hk
      obtain rfl := Option.some.inj h
      cases hs.fits _ (List.mem_of_getElem? hk) with
      | released r => exact hs.same hk rfl (.ended r interrupted)
    · cases h

theorem sound_of_reachable (h : payload.Reachable s) : Sound s := by
  refine h.invariant Sound ?_ fun _ _ _ hs hstep => sound_step hs hstep
  rintro s₀ rfl
  refine ⟨rfl, List.nodup_nil, ?_, nofun⟩
  rintro i e ⟨⟩

end Payload

open Payload

/-- **The payload crosses as it is.**  In every interleaving of any number of queries, whatever
vectors they end with: a buffer that is read or dropped always describes a live vector, as it was
handed over; every vector is in the hands of the one call that will drop it, or has been dropped
once; and a call ends as it would if `ggsql_execute` returned its code and its bytes. -/
theorem payload_crosses {s : Payload} (hs : payload.Reachable s) :
    s.heap.fault = false ∧
    (∀ i e, s.heap.blocks[i]? = some e →
      (e.2 = 0 ∧ (∃ c ∈ s.calls, c.block = some i) ∧
        ∀ (k k' : ℕ) (c c' : Call), s.calls[k]? = some c → s.calls[k']? = some c' →
          c.block = some i → c'.block = some i → k = k') ∨
      (e.2 = 1 ∧ ∀ c ∈ s.calls, c.block ≠ some i)) ∧
    (∀ c ∈ s.calls, ∀ o, c.pc = .ended o →
      (c.result = none ∧ o = .interrupted) ∨
        ∃ r exit, c.result = some r ∧ c.exit = some exit ∧
          o = finish exit (GgsqlDuckdb.ggsqlExecute r.plain).1
            (GgsqlDuckdb.ggsqlExecute r.plain).2) ∧
    ((∀ c ∈ s.calls, ∃ o, c.pc = .ended o) → ∀ e ∈ s.heap.blocks, e.2 = 1) := by
  have hsound := sound_of_reachable hs
  refine ⟨hsound.fault, ?_, ?_, ?_⟩
  · intro i e hi
    by_cases hheld : i ∈ s.held
    · obtain ⟨c, hc, hblock⟩ := List.mem_filterMap.mp hheld
      refine Or.inl ⟨(hsound.owes i e hi).1 hheld, ⟨c, hc, hblock⟩, ?_⟩
      intro k k' c c' hk hk' hcblock hcblock'
      exact index_unique hsound.nodup hk hk' hcblock hcblock'
    · refine Or.inr ⟨(hsound.owes i e hi).2 hheld, ?_⟩
      intro c hc hblock
      exact hheld (List.mem_filterMap.mpr ⟨c, hc, hblock⟩)
  · intro c hc o ho
    cases hsound.fits c hc with
    | interrupted =>
      obtain rfl : Outcome.interrupted = o := CallPc.ended.inj ho
      exact Or.inl ⟨rfl, rfl⟩
    | ended r exit =>
      refine Or.inr ⟨r, exit, rfl, rfl, ?_⟩
      rw [plain_eq]
      exact (CallPc.ended.inj ho).symm
    | entry => cases ho
    | executing => cases ho
    | returned => cases ho
    | copied => cases ho
    | released => cases ho
  · intro hended e he
    obtain ⟨i, hi⟩ := List.mem_iff_getElem?.mp he
    refine (hsound.owes i e hi).2 ?_
    intro hheld
    obtain ⟨c, hc, hblock⟩ := List.mem_filterMap.mp hheld
    obtain ⟨o, ho⟩ := hended c hc
    rw [Call.block, ho] at hblock
    cases hblock

/-- Two queries at once, one without a payload, one with room to spare in its message. -/
def twoQueries : List Payload.Label :=
  [.call, .call, .enter 0 false, .enter 1 false, .execute 1 (.err ⟨ascii "no", 8, by decide⟩),
    .execute 0 (.ok ⟨[], 0, le_rfl⟩), .assign 0, .assign 1, .free 1, .finish 1 false, .free 0,
    .finish 0 true]

theorem payload_crosses_two :
    ∃ s, payload.run Payload.empty twoQueries = some s ∧ s.heap.fault = false ∧
      (s.heap.blocks.map Prod.snd) = [1] ∧
      s.calls.map Call.pc = [.ended .interrupted, .ended (.invalidInput (ascii "no"))] := by
  obtain ⟨s, hrun, hpcs, hblocks⟩ := Machine.run_decided
    (fun s : Payload => s.calls.map Call.pc =
      [.ended .interrupted, .ended (.invalidInput (ascii "no"))] ∧ s.heap.blocks.length = 1)
    (show ((payload.run Payload.empty twoQueries).any _) = true by decide +kernel)
  obtain ⟨hfault, -, -, hall⟩ := payload_crosses ⟨Payload.empty, twoQueries, rfl, hrun⟩
  have hended : ∀ c ∈ s.calls, ∃ o, c.pc = .ended o := by
    intro c hc
    have hmem : c.pc ∈ s.calls.map Call.pc := List.mem_map_of_mem hc
    rw [hpcs, List.mem_cons, List.mem_singleton] at hmem
    rcases hmem with h | h
    · exact ⟨_, h⟩
    · exact ⟨_, h⟩
  obtain ⟨e, he⟩ := List.length_eq_one_iff.mp hblocks
  refine ⟨s, hrun, hfault, ?_, hpcs⟩
  have hone := hall hended e (he ▸ List.mem_singleton_self e)
  rw [he, List.map_singleton, hone]

namespace Dispatch

variable {α β Options Spec Output : Type}

/-! ## §7 The texts of errors -/

/-- The text of a failure names the extension. -/
def Fault.Named : Fault → Prop
  | .error msg => ascii "ggsql: " <+: msg
  | _ => True

/-- The failure of `r`, if it fails, is named. -/
def FailsNamed (r : Except Fault α) : Prop := ∀ f, r = .error f → f.Named

theorem FailsNamed.ok (a : α) : FailsNamed (.ok a) := nofun

theorem FailsNamed.bind {r : Except Fault α} {k : α → Except Fault β} (hr : FailsNamed r)
    (hk : ∀ a, FailsNamed (k a)) : FailsNamed (r >>= k) := by
  cases r with
  | ok a => exact hk a
  | error f =>
    rintro _ ⟨⟩
    exact hr f rfl

theorem mapErr_named {front : Bytes} (hfront : ascii "ggsql: " <+: front)
    (r : Except CrateFault α) : FailsNamed (mapErr front r) := by
  intro f hf
  cases r with
  | ok a => cases hf
  | error e =>
    cases e with
    | error text =>
      cases hf
      exact hfront.trans (List.prefix_append front text)
    | panicked =>
      cases hf
      trivial

variable (crates : Crates Options Spec)

theorem renderWith_named (w : Writer Options Spec Output) (into : Output → Bytes) (spec : Spec)
    (options : Bytes) : FailsNamed (renderWith crates w into spec options) := by
  apply (mapErr_named (by decide) _).bind
  intro parsed
  apply (mapErr_named (by decide) _).bind
  intro _
  apply (mapErr_named (by decide) _).bind
  intro output
  exact .ok _

theorem servePlot_named (hep mode : Bytes) : FailsNamed (servePlot crates hep mode) := by
  apply (mapErr_named (by decide) _).bind
  intro r
  split_ifs
  · exact .ok _
  · exact .ok _
  · rintro _ ⟨⟩
    trivial

theorem arm_named (writer : Bytes) (spec : Spec) (options : Bytes) :
    FailsNamed (arm crates writer spec options) := by
  unfold arm
  split_ifs with hsvg hpdf hhep hhtml hserve hspec hblank
  · exact renderWith_named crates _ _ spec options
  · exact renderWith_named crates _ _ spec options
  · exact renderWith_named crates _ _ spec options
  · exact (renderWith_named crates _ _ spec options).bind fun _ => .ok _
  · exact (renderWith_named crates _ _ spec options).bind fun hep => servePlot_named crates hep _
  · exact (mapErr_named (by decide) _).bind fun _ => .ok _
  · rintro _ ⟨⟩
    show ascii "ggsql: " <+: strayOptions
    decide
  · rintro _ ⟨⟩
    trivial

theorem fromUtf8_named {front : Bytes} (hfront : ascii "ggsql: " <+: front) (text : Bytes) :
    FailsNamed (fromUtf8 crates front text) := by
  unfold fromUtf8
  split_ifs
  · exact .ok _
  · rintro _ ⟨⟩
    exact hfront.trans (List.prefix_append front _)

theorem run_named (query writer options : Bytes) :
    FailsNamed (run crates query writer options) := by
  apply (fromUtf8_named crates (by decide) query).bind
  intro _
  apply (fromUtf8_named crates (by decide) writer).bind
  intro _
  apply (fromUtf8_named crates (by decide) options).bind
  intro _
  apply (mapErr_named (by decide) _).bind
  intro spec
  exact arm_named crates writer spec options

/-- The bytes of a failure begin with the name of the extension. -/
theorem rustResult_named {f : Fault} (hf : f.Named) :
    ascii "ggsql: " <+: (GgsqlDuckdb.ggsqlExecute (rustResult (.error f))).2 ∧
      (GgsqlDuckdb.ggsqlExecute (rustResult (.error f))).1 ≠ 0 := by
  cases f with
  | error msg => exact ⟨hf, Nat.one_ne_zero⟩
  | unknownWriter writer =>
    refine ⟨?_, Nat.one_ne_zero⟩
    show ascii "ggsql: " <+: ascii "ggsql: unknown writer '" ++ writer ++ ascii "'"
    rw [List.append_assoc]
    exact (by decide : ascii "ggsql: " <+: ascii "ggsql: unknown writer '").trans
      (List.prefix_append _ _)
  | panicked => exact ⟨by decide, (by decide : 2 ≠ 0)⟩
  | unreachable => exact ⟨by decide, (by decide : 2 ≠ 0)⟩

end Dispatch

open Dispatch in
/-- **The text of an exception is that of the Rust side.**  Whatever the engine and the server do, a
query that is not interrupted returns the payload of `run`, or throws the text of its failure,
which begins with `ggsql: `; the text that `RunGgsqlQuery` keeps for an empty message is never
used. -/
theorem errors_named {Options Spec : Type} (crates : Crates Options Spec)
    (query writer options : Bytes) (exit : Bool) :
    let r := run crates query writer options
    let o := finish exit (GgsqlDuckdb.ggsqlExecute (rustResult r)).1
      (GgsqlDuckdb.ggsqlExecute (rustResult r)).2
    (exit = true ∧ o = .interrupted) ∨
    (exit = false ∧ ∃ bytes, r = .ok bytes ∧ o = .payload bytes) ∨
    (exit = false ∧ ∃ f msg, r = .error f ∧ o = .invalidInput msg ∧
      msg = (GgsqlDuckdb.ggsqlExecute (rustResult (.error f))).2 ∧ ascii "ggsql: " <+: msg) := by
  intro r o
  cases exit with
  | true => exact Or.inl ⟨rfl, rfl⟩
  | false =>
    right
    cases hr : r with
    | ok bytes =>
      left
      refine ⟨rfl, bytes, rfl, ?_⟩
      show finish false (GgsqlDuckdb.ggsqlExecute (rustResult r)).1 _ = _
      rw [hr]
      rfl
    | error f =>
      right
      obtain ⟨hnamed, hrc⟩ := rustResult_named (run_named crates query writer options f hr)
      have hne : (GgsqlDuckdb.ggsqlExecute (rustResult (.error f))).2 ≠ [] := by
        intro hnil
        rw [hnil] at hnamed
        exact absurd hnamed (by decide)
      refine ⟨rfl, f, _, rfl, ?_, rfl, hnamed⟩
      show finish false (GgsqlDuckdb.ggsqlExecute (rustResult r)).1
        (GgsqlDuckdb.ggsqlExecute (rustResult r)).2 = _
      rw [hr]
      unfold finish
      rw [if_neg Bool.false_ne_true, if_pos hrc, if_neg hne]

end GgsqlDuckdb
