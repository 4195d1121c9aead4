import GgsqlDuckdb.Text

/-!
# One invocation of the bridge

`RunGgsqlQuery` (`src/ggsql_exec.cpp`) with its `BridgeCtx` and the `InterruptForwarder`
thread (`src/ggsql_bridge.cpp`), cut into the steps between which another thread may run.
The value of the outer connection's interrupt flag is an argument of every step, since the
flag belongs to the connection and not to the invocation.

Whatever DuckDB and the Rust side decide is resolved by the label of a step: whether a
connection or a thread can be created, how a query ends, which stream is read, what
`ggsql_execute` returns.  The Rust side may call back, read and release streams in any order,
which covers what `rust/src/reader.rs` does.

An inner query or stream read may fail with an interruption only while the inner flag is
set: that is what the bridge relies on from DuckDB.
-/

namespace GgsqlDuckdb

/-! ## §1 Results that cross the bridge -/

/-- An error DuckDB reports or throws; its type is lost when the text crosses the bridge. -/
structure EngineError where
  interruption : Bool
  what : Bytes
  deriving DecidableEq, Repr

/-- What a `catch` clause of the bridge receives. -/
inductive Thrown where
  | exception (e : EngineError)
  | unknown
  deriving DecidableEq, Repr

/-- The `QueryResult` of an inner query that did not throw. -/
inductive QueryResult where
  | null
  | error (e : EngineError)
  | answered
  deriving DecidableEq, Repr

/-- Why a callback of the bridge fails: its own `InterruptException`, an error of DuckDB's
or a text of its own. -/
inductive Failure where
  | interrupted
  | engine (e : EngineError)
  | bridge (what : Bytes)
  deriving DecidableEq, Repr

def Failure.interruption : Failure → Bool
  | .interrupted => true
  | .engine e => e.interruption
  | .bridge _ => false

/-- The two reading callbacks of an Arrow stream, `InnerGetSchema` and `InnerGetNext`. -/
inductive StreamCall where
  | getSchema
  | getNext
  deriving DecidableEq, Repr

/-- What a callback handed back to the Rust side. -/
inductive Answer where
  | failed (f : Failure)
  | stream (i : ℕ)
  | read (call : StreamCall) (i : ℕ)
  | readFailed (call : StreamCall) (i : ℕ) (f : Failure)
  deriving DecidableEq, Repr

def Answer.interruption : Answer → Bool
  | .failed f => f.interruption
  | .readFailed _ _ f => f.interruption
  | _ => false

/-- `InnerStream`, without the Arrow data it carries. -/
structure InnerStream where
  interrupted : Bool
  released : Bool
  deriving DecidableEq, Repr

/-- How the closure that `ggsql_execute` runs ends. -/
inductive RustResult where
  | ok (payload : Bytes)
  | err (msg : Bytes)
  | panic
  deriving DecidableEq, Repr

/-- The return code of `ggsql_execute` and the bytes it leaves in `out`. -/
def ggsqlExecute : RustResult → ℕ × Bytes
  | .ok payload => (0, payload)
  | .err msg => (1, msg)
  | .panic => (2, ascii "ggsql: panic in Rust side")

/-- How `RunGgsqlQuery` is left. -/
inductive Outcome where
  | interrupted
  | invalidInput (msg : Bytes)
  | payload (bytes : Bytes)
  deriving DecidableEq, Repr

/-- The end of `RunGgsqlQuery`, behind its last look at the outer flag. -/
def finish (outer : Bool) (rc : ℕ) (payload : Bytes) : Outcome :=
  if outer then .interrupted
  else if rc ≠ 0 then
    .invalidInput (if payload = [] then ascii "ggsql: unknown error" else payload)
  else .payload payload

/-! ## §2 The state -/

/-- Where the main thread stands.  From `teardown` on, the outcome is decided and the
`BridgeCtx` is destroyed. -/
inductive MainPc where
  | entry
  | rust
  | getInner
  | opening
  | attaching
  | querying
  | running
  | checking (r : QueryResult)
  | wrapping
  | reading (call : StreamCall) (i : ℕ)
  | delegating (call : StreamCall) (i : ℕ)
  | returned (rc : ℕ) (payload : Bytes)
  | teardown (o : Outcome)
  | stopping (o : Outcome)
  | notifying (o : Outcome)
  | joining (o : Outcome)
  | freeing (o : Outcome)
  | closing (o : Outcome)
  | ended (o : Outcome)
  deriving DecidableEq, Repr

def MainPc.outcome : MainPc → Option Outcome
  | .teardown o | .stopping o | .notifying o | .joining o | .freeing o | .closing o
  | .ended o => some o
  | _ => none

/-- The main thread is past a check of the outer flag and about to call `Query`. -/
def MainPc.pastCheck : MainPc → Bool
  | .opening | .attaching | .querying => true
  | _ => false

inductive Party where
  | main
  | worker
  deriving DecidableEq, Repr

/-- The memory of an `InterruptForwarder`: `stopped`, and who holds `mutex`. -/
structure InterruptForwarder where
  stopped : Bool
  holder : Option Party
  deriving DecidableEq, Repr

/-- Where the forwarder thread stands in `InterruptForwarder::Run`. -/
inductive ThreadPc where
  | notStarted
  | starting
  | testing
  | reading
  | forwarding
  | pausing
  | waiting
  | exited
  deriving DecidableEq, Repr

/-- An invocation of `RunGgsqlQuery` with its `BridgeCtx`.  `inner` is the interrupt flag of
the inner connection while that connection exists, and `fault` records an access to a
destroyed object. -/
structure Invocation where
  pc : MainPc
  inner : Option Bool
  forwarder : Option InterruptForwarder
  thread : ThreadPc
  streams : List InnerStream
  answers : List Answer
  fault : Bool
  deriving DecidableEq, Repr

namespace Invocation

def start : Invocation where
  pc := .entry
  inner := none
  forwarder := none
  thread := .notStarted
  streams := []
  answers := []
  fault := false

/-- Return to the Rust side with `a`. -/
def answer (v : Invocation) (a : Answer) : Invocation :=
  { v with pc := .rust, answers := v.answers ++ [a] }

/-- An error of DuckDB's may be an interruption only while the inner flag is set. -/
def admits (v : Invocation) (e : EngineError) : Bool := !e.interruption || v.inner == some true

/-! ## §3 The main thread -/

inductive MainLabel where
  | entryCheck
  | callback
  | getInner
  | openConnection (failure : Option Bytes)
  | startForwarder (failure : Option Bytes)
  | queryBegin
  | startStatement
  | queryThrows (t : Thrown)
  | queryReturns (r : QueryResult)
  | queryCheck
  | wrap (failure : Option Thrown)
  | readStream (call : StreamCall) (i : ℕ)
  | streamCheck
  | streamEnd (failure : Option EngineError)
  | releaseStream (i : ℕ)
  | rustReturn (r : RustResult)
  | finalCheck
  | lockStop
  | setStop
  | notify
  | join
  | freeForwarder
  | freeInner
  deriving DecidableEq, Repr

/-- The failure a `catch` clause of `ExecSqlCallback` writes. -/
def caught (unknownText : Bytes) : Thrown → Failure
  | .exception e => .engine e
  | .unknown => .bridge unknownText

def Thrown.admitted (v : Invocation) : Thrown → Bool
  | .exception e => v.admits e
  | .unknown => true

def QueryResult.admitted (v : Invocation) : QueryResult → Bool
  | .error e => v.admits e
  | _ => true

/-- One step of the main thread while the outer flag is `outer`. -/
def mainStep (outer : Bool) (v : Invocation) (l : MainLabel) : Option Invocation :=
  match v.pc, l with
  | .entry, .entryCheck =>
    -- nothing is built before the first check, so nothing is torn down after it
    some { v with pc := if outer then .ended .interrupted else .rust }
  | .rust, .callback => some { v with pc := .getInner }
  | .getInner, .getInner =>
    if outer then some (v.answer (.failed .interrupted))
    else some { v with pc := if v.inner.isNone then .opening else .querying }
  -- the inner connection, with an interrupt flag of its own
  | .opening, .openConnection none => some { v with inner := some false, pc := .attaching }
  | .opening, .openConnection (some what) => some (v.answer (.failed (.engine ⟨false, what⟩)))
  | .attaching, .startForwarder none =>
    some { v with
      forwarder := some { stopped := false, holder := none }
      thread := .starting
      pc := .querying }
  | .attaching, .startForwarder (some what) =>
    some (v.answer (.failed (.engine ⟨false, what⟩)))
  | .querying, .queryBegin => some { v with pc := .running }
  -- starting a statement clears the connection's interrupt flag
  | .running, .startStatement => some { v with inner := v.inner.map fun _ => false }
  | .running, .queryThrows t =>
    if Thrown.admitted v t then
      some (v.answer (.failed (caught (ascii "ggsql bridge: unknown exception running SQL") t)))
    else none
  | .running, .queryReturns r =>
    if QueryResult.admitted v r then some { v with pc := .checking r } else none
  | .checking r, .queryCheck =>
    -- the result is dropped, whatever it was
    if outer then some (v.answer (.failed .interrupted))
    else
      match r with
      | .null => some (v.answer (.failed (.bridge (ascii "ggsql bridge: Query returned null"))))
      | .error e => some (v.answer (.failed (.engine e)))
      | .answered => some { v with pc := .wrapping }
  | .wrapping, .wrap none =>
    some { v.answer (.stream v.streams.length) with
      streams := v.streams ++ [{ interrupted := false, released := false }] }
  | .wrapping, .wrap (some t) =>
    if Thrown.admitted v t then
      some (v.answer
        (.failed (caught (ascii "ggsql bridge: unknown exception building arrow stream") t)))
    else none
  | .rust, .readStream call i =>
    if (v.streams[i]?.any fun st => !st.released) then some { v with pc := .reading call i }
    else none
  | .reading call i, .streamCheck =>
    if outer then
      some { v.answer (.readFailed call i .interrupted) with
        streams := v.streams.modify i fun st => { st with interrupted := true } }
    else some { v with pc := .delegating call i }
  | .delegating call i, .streamEnd none => some (v.answer (.read call i))
  | .delegating call i, .streamEnd (some e) =>
    if v.admits e then some (v.answer (.readFailed call i (.engine e))) else none
  | .rust, .releaseStream i =>
    if (v.streams[i]?.any fun st => !st.released) then
      some { v with streams := v.streams.modify i fun st => { st with released := true } }
    else none
  | .rust, .rustReturn r =>
    some { v with pc := .returned (ggsqlExecute r).1 (ggsqlExecute r).2 }
  | .returned rc payload, .finalCheck => some { v with pc := .teardown (finish outer rc payload) }
  | .teardown o, .lockStop =>
    -- the destructor of the forwarder runs first, if there is a forwarder
    match v.forwarder with
    | none => some { v with pc := .closing o }
    | some f =>
      if f.holder = none then
        some { v with forwarder := some { f with holder := some .main }, pc := .stopping o }
      else none
  | .stopping o, .setStop =>
    some { v with
      forwarder := v.forwarder.map fun _ => { stopped := true, holder := none }
      pc := .notifying o }
  | .notifying o, .notify => some { v with pc := .joining o }
  -- `thread.join` returns only behind the end of `Run`
  | .joining o, .join => if v.thread = .exited then some { v with pc := .freeing o } else none
  | .freeing o, .freeForwarder => some { v with forwarder := none, pc := .closing o }
  | .closing o, .freeInner => some { v with inner := none, pc := .ended o }
  | _, _ => none

/-! ## §4 The forwarder thread -/

inductive ThreadLabel where
  | lock
  | test
  | read
  | interrupt
  | pause
  | wake (timedOut : Bool)
  deriving DecidableEq, Repr

/-- A step of the thread on the memory of its forwarder. -/
def withForwarder (v : Invocation) (f : InterruptForwarder → Option Invocation) :
    Option Invocation :=
  match v.forwarder with
  | none => some { v with fault := true }
  | some fwd => f fwd

/-- One step of `InterruptForwarder::Run` while the outer flag is `outer`.  The mutex is
held except while the thread waits. -/
def threadStep (outer : Bool) (v : Invocation) (l : ThreadLabel) : Option Invocation :=
  match v.thread, l with
  | .starting, .lock => v.withForwarder fun f =>
    if f.holder = none then
      some { v with forwarder := some { f with holder := some .worker }, thread := .testing }
    else none
  | .testing, .test => v.withForwarder fun f =>
    if f.stopped then
      some { v with forwarder := some { f with holder := none }, thread := .exited }
    else some { v with thread := .reading }
  | .reading, .read => some { v with thread := if outer then .forwarding else .pausing }
  -- `Interrupt` on the inner connection
  | .forwarding, .interrupt =>
    match v.inner with
    | none => some { v with fault := true }
    | some _ => some { v with inner := some true, thread := .pausing }
  | .pausing, .pause => v.withForwarder fun f =>
    -- `wait_for` looks at its predicate before it waits
    if f.stopped then some { v with thread := .testing }
    else some { v with forwarder := some { f with holder := none }, thread := .waiting }
  | .waiting, .wake timedOut => v.withForwarder fun f =>
    if f.holder = none then
      if f.stopped ∨ timedOut then
        some { v with forwarder := some { f with holder := some .worker }, thread := .testing }
      -- a spurious wake-up waits again
      else some v
    else none
  | _, _ => none

end Invocation

end GgsqlDuckdb
