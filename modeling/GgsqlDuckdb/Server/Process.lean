import GgsqlDuckdb.Exec.Dispatch
import GgsqlDuckdb.Server.Heartbeat

/-!
# The calls of a process and its one plot server

Any number of `ggsql_execute` calls run in a process at a time.  Those in the `url` and `silent`
modes come to `register_plot`, which takes the server from `SERVER.get_or_try_init(start_server)`
(`rust/src/server.rs`): the first call that finds no server starts it while the others wait, and a
start that fails leaves the next one to try again.

What `run` does in front of `register_plot` is one step of the machine `process`, for it touches
nothing that two calls share; behind it the steps are those of the machine `registry`.  A window
is opened by `serve_plot` as the registration returns.

## Main results

- `run_eq_stage`: `run` is what comes in front of the server, then `serve_plot`.
- `stage_serve`: which calls come to the server, and with what.
-/

namespace GgsqlDuckdb

open Library Library.Utf8

namespace Dispatch

variable {Options Spec : Type} (crates : Crates Options Spec)

/-! ## §1 In front of the server -/

/-- The crates with another answer of the plot server. -/
def Crates.withServer (registerPlot : Bytes → Except CrateFault Registration) :
    Crates Options Spec :=
  { crates with registerPlot := registerPlot }

/-- The modes that `serve_plot` is called in. -/
def Serving (writer : Bytes) : Prop := writer = ascii "url" ∨ writer = ascii "silent"

instance (writer : Bytes) : Decidable (Serving writer) := inferInstanceAs (Decidable (_ ∨ _))

/-- What `run` has come to when it neither fails nor is through: its payload, or the document it
hands to `serve_plot`. -/
inductive Stage where
  | payload (b : Bytes)
  | serve (hep : Bytes)
  deriving DecidableEq, Repr

/-- The `match` of `run`, up to `serve_plot`. -/
def armStage (writer : Bytes) (spec : Spec) (options : Bytes) : Except Fault Stage :=
  if Serving writer then do
    let hep ← renderWith crates crates.hepWriter id spec options
    return .serve hep
  else do
    let payload ← arm crates writer spec options
    return .payload payload

/-- `run`, up to `serve_plot`. -/
def stage (query writer options : Bytes) : Except Fault Stage := do
  fromUtf8 crates (ascii "ggsql: query is not valid UTF-8: ") query
  fromUtf8 crates (ascii "ggsql: writer name is not valid UTF-8: ") writer
  fromUtf8 crates (ascii "ggsql: writer options are not valid UTF-8: ") options
  let spec ← mapErr (ascii "ggsql: ") (crates.execute query)
  armStage crates writer spec options

/-- What is left of `run`. -/
def Stage.finish (writer : Bytes) : Stage → Except Fault Bytes
  | .payload b => .ok b
  | .serve hep => servePlot crates hep writer

/-- What `serve_plot` returns for a registration. -/
def served (mode : Bytes) (r : Server.Registered) : Except Fault Bytes :=
  if mode = ascii "url" then .ok r.plotUrl
  else if mode = ascii "silent" then .ok []
  else .error .unreachable

variable {crates} {writer : Bytes}

theorem servePlot_ok {hep mode : Bytes} {r : Registration} (h : crates.registerPlot hep = .ok r) :
    servePlot crates hep mode =
      served mode (Server.registered r.baseUrl.bytes r.now r.state r.id) := by
  unfold servePlot served
  rw [h]
  rfl

theorem served_of_serving (h : Serving writer) (r : Server.Registered) :
    served writer r = .ok (if writer = ascii "url" then r.plotUrl else []) := by
  unfold served
  split_ifs with hurl hsilent
  · rfl
  · rfl
  · exact absurd h (not_or.mpr ⟨hurl, hsilent⟩)

theorem arm_of_serving (h : Serving writer) (spec : Spec) (options : Bytes) :
    arm crates writer spec options =
      (do let hep ← renderWith crates crates.hepWriter id spec options
          servePlot crates hep writer) := by
  rcases h with rfl | rfl
  · rfl
  · rfl

theorem arm_eq_stage (spec : Spec) (options : Bytes) :
    arm crates writer spec options =
      (armStage crates writer spec options >>= Stage.finish crates writer) := by
  unfold armStage
  split_ifs with hserve
  · rw [arm_of_serving hserve]
    cases renderWith crates crates.hepWriter id spec options with
    | ok hep => rfl
    | error f => rfl
  · cases arm crates writer spec options with
    | ok payload => rfl
    | error f => rfl

/-- **`run` is what comes in front of the server, then `serve_plot`.** -/
theorem run_eq_stage (query options : Bytes) :
    run crates query writer options =
      (stage crates query writer options >>= Stage.finish crates writer) := by
  simp only [run, stage, bind_assoc, arm_eq_stage]

/-- Nothing in front of the server depends on it. -/
theorem stage_withServer (registerPlot : Bytes → Except CrateFault Registration)
    (query options : Bytes) :
    stage (crates.withServer registerPlot) query writer options =
      stage crates query writer options := by
  have harm : ∀ spec, armStage (crates.withServer registerPlot) writer spec options =
      armStage crates writer spec options := by
    intro spec
    unfold armStage
    split_ifs with hserve
    · rfl
    · -- the arms of the other modes have no server
      have hmode : ¬ (writer = ascii "url" ∨ writer = ascii "silent") := hserve
      have hplain : arm (crates.withServer registerPlot) writer spec options =
          arm crates writer spec options := by
        unfold arm
        rw [if_neg hmode, if_neg hmode]
        rfl
      rw [hplain]
  simp only [stage, harm]
  rfl

theorem ok_of_bind {ε α β : Type} {r : Except ε α} {k : α → Except ε β} {b : β}
    (h : (r >>= k) = .ok b) : ∃ a, r = .ok a ∧ k a = .ok b := by
  cases r with
  | ok a => exact ⟨a, rfl, h⟩
  | error f => cases h

theorem ok_of_mapErr {α : Type} {front : Bytes} {r : Except CrateFault α} {a : α}
    (h : mapErr front r = .ok a) : r = .ok a := by
  cases r with
  | ok b => exact congrArg Except.ok (Except.ok.inj h)
  | error f => cases f <;> cases h

/-- **A call comes to the server** in a serving mode only, with what the HEP writer rendered of
its specification. -/
theorem stage_serve {query options hep : Bytes}
    (h : stage crates query writer options = .ok (.serve hep)) :
    Serving writer ∧ ∃ spec, crates.execute query = .ok spec ∧
      renderWith crates crates.hepWriter id spec options = .ok hep := by
  obtain ⟨_, -, h⟩ := ok_of_bind h
  obtain ⟨_, -, h⟩ := ok_of_bind h
  obtain ⟨_, -, h⟩ := ok_of_bind h
  obtain ⟨spec, hspec, h⟩ := ok_of_bind h
  unfold armStage at h
  split_ifs at h with hserve
  · obtain ⟨hep', hrender, hend⟩ := ok_of_bind h
    cases hend
    exact ⟨hserve, spec, ok_of_mapErr hspec, hrender⟩
  · obtain ⟨payload, -, hend⟩ := ok_of_bind h
    cases hend

end Dispatch

namespace Server

open Dispatch

/-! ## §2 Starting the server -/

/-- What the system answers to `start_server`. -/
structure StartOutcome where
  /-- `Server::http`, with the IP address and the port that were bound; another kind of address
  is `none`. -/
  bound : Except Bytes (Option (Text × Text))
  /-- `thread::Builder::spawn` -/
  spawned : Except Bytes Unit
  now : ℕ

/-- `start_server` -/
def startServer (o : StartOutcome) : Except Bytes Registry := do
  let addr ← o.bound.mapError (ascii "failed to bind http server: " ++ ·)
  match addr with
  | none => throw (ascii "server bound to non-IP address")
  | some (ip, port) =>
    o.spawned.mapError (ascii "failed to spawn http thread: " ++ ·)
    return {
      baseUrl := ascii "http://" ++ ip.bytes ++ ascii ":" ++ port.bytes
      state := .empty
      announced := []
      now := o.now
      calls := []
      requests := [] }

/-! ## §3 The process -/

/-- Where a call of `ggsql_execute` is. -/
inductive JobPc where
  | running
  /-- At `SERVER.get_or_try_init`. -/
  | registering (hep : Bytes)
  /-- In `start_server`. -/
  | starting (hep : Bytes)
  /-- In `register_plot` behind `get_or_try_init`. -/
  | waiting
  | ended (result : Except Fault Bytes)

/-- A call of `ggsql_execute`, with the number of its registration at the server. -/
structure Job (Options Spec : Type) where
  crates : Crates Options Spec
  query : Bytes
  writer : Bytes
  options : Bytes
  registration : Option ℕ
  pc : JobPc

variable {Options Spec : Type}

/-- What the call comes to in front of the server. -/
def Job.stage (job : Job Options Spec) : Except Fault Stage :=
  Dispatch.stage job.crates job.query job.writer job.options

/-- A process: `SERVER`, the calls so far, and the pages handed to `open::that`. -/
structure Process (Options Spec : Type) where
  server : Option Registry
  jobs : List (Job Options Spec)
  opened : List Bytes

inductive ProcessLabel (Options Spec : Type) where
  | call (crates : Crates Options Spec) (query writer options : Bytes)
  | dispatch (j : ℕ)
  | enter (j : ℕ)
  | start (j : ℕ) (o : StartOutcome)
  | register (j : ℕ) (id : PlotId)
  | server (l : RegistryLabel)
  | finish (j : ℕ) (noOpenBrowser : Bool)

def JobPc.isStarting : JobPc → Bool
  | .starting _ => true
  | _ => false

def JobPc.isEnded : JobPc → Bool
  | .ended _ => true
  | _ => false

namespace Process

def setJob (p : Process Options Spec) (j : ℕ) (pc : JobPc) : Process Options Spec :=
  { p with jobs := p.jobs.modify j fun job => { job with pc := pc } }

/-- The place of the call `j`. -/
def pcOf (p : Process Options Spec) (j : ℕ) : Option JobPc := p.jobs[j]?.map Job.pc

/-- The place of a call that has come out of `run` up to the server. -/
def dispatched : Except Fault Stage → JobPc
  | .error f => .ended (.error f)
  | .ok (.payload b) => .ended (.ok b)
  | .ok (.serve hep) => .registering hep

def startFault (text : Bytes) : Fault := .error (ascii "ggsql: serve failed: " ++ text)

def step (p : Process Options Spec) : ProcessLabel Options Spec → Option (Process Options Spec)
  | .call crates query writer options =>
    some { p with jobs := p.jobs ++ [⟨crates, query, writer, options, none, .running⟩] }
  | .dispatch j =>
    match p.jobs[j]? with
    | some ⟨crates, query, writer, options, _, .running⟩ =>
      some (p.setJob j (dispatched (stage crates query writer options)))
    | _ => none
  | .enter j =>
    match p.server, p.pcOf j with
    | none, some (.registering hep) =>
      -- one initialisation at a time
      if p.jobs.any fun job => job.pc.isStarting then none else some (p.setJob j (.starting hep))
    | _, _ => none
  | .start j o =>
    match p.pcOf j with
    | some (.starting hep) =>
      match startServer o with
      | .ok s => some { p.setJob j (.registering hep) with server := some s }
      | .error text => some (p.setJob j (.ended (.error (startFault text))))
    | _ => none
  | .register j id =>
    match p.server, p.pcOf j with
    | some s, some (.registering hep) =>
      (s.step (.begin id hep)).map fun s' =>
        { p with
          server := some s'
          jobs := p.jobs.modify j fun job =>
            { job with registration := some s.calls.length, pc := .waiting } }
    | _, _ => none
  | .server l =>
    match p.server, l with
    -- registrations begin in a call
    | some _, .begin _ _ => none
    | some s, l => (s.step l).map fun s' => { p with server := some s' }
    | none, _ => none
  | .finish j noOpenBrowser =>
    match p.server, p.jobs[j]? with
    | some s, some ⟨_, _, writer, _, some k, .waiting⟩ =>
      match s.calls[k]? with
      | some ⟨_, _, .returned r⟩ =>
        some { p.setJob j (.ended (served writer r)) with
          opened := p.opened ++ if spawns noOpenBrowser r then [r.openUrl] else [] }
      | _ => none
    | _, _ => none

end Process

def process (Options Spec : Type) : Machine (Process Options Spec) (ProcessLabel Options Spec) where
  init p := p.server = none ∧ p.jobs = [] ∧ p.opened = []
  step := Process.step

end Server

end GgsqlDuckdb
