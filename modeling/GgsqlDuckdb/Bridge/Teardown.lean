import GgsqlDuckdb.Bridge.Forwarding
import GgsqlDuckdb.Library.Lifetime

/-!
# Teardown of the forwarder

The objects behind a `BridgeCtx` one by one (`src/ggsql_bridge.cpp`,
`src/include/ggsql_bridge.hpp`): the inner connection and the members of the
`InterruptForwarder`, constructed in the order of their declaration and destroyed in the
reverse order, while the forwarder's thread is anywhere in its loop.  What the main thread has
left to do is a script of single actions; a step that touches an object that is not alive is
recorded as a fault.

## Main results

- `audit`: the check of a script against the objects it touches.
- `Sound`: the invariant, that every script in work passes the audit.
- `teardown_safe`: nothing that is destroyed is touched again.
-/

namespace GgsqlDuckdb

open Library

/-! ## §1 Members and their order -/

/-- The connection that `BridgeCtx::inner` owns, and the members of `InterruptForwarder`, of
which `outer` and `inner` are references. -/
inductive Member where
  | connection
  | outer
  | inner
  | mutex
  | condition
  | stopped
  | worker
  deriving DecidableEq, Repr

/-- `InterruptForwarder`, in the order of declaration. -/
def InterruptForwarder.members : List Member :=
  [.outer, .inner, .mutex, .condition, .stopped, .worker]

/-- The owning pointers of a `BridgeCtx`. -/
inductive Owner where
  | inner
  | interruptForwarder
  deriving DecidableEq, Repr

/-- `BridgeCtx`, in the order of declaration. -/
def bridgeOwners : List Owner := [.inner, .interruptForwarder]

def Owner.members : Owner → List Member
  | .inner => [.connection]
  | .interruptForwarder => InterruptForwarder.members

def bridgeMembers : List Member := bridgeOwners.flatMap Owner.members

/-- A single action of the main thread. -/
inductive Action where
  | construct (m : Member)
  | lock
  | setStopped
  | unlock
  | notify
  | join
  | destroy (m : Member)
  deriving DecidableEq, Repr

/-- The branch of `GetInnerConnection` that makes the connection and its forwarder. -/
def getInnerConnection : List Action :=
  .construct .connection :: InterruptForwarder.members.map .construct

/-- `~InterruptForwarder`: its body, and then its members. -/
def forwarderDestructor : List Action :=
  [.lock, .setStopped, .unlock, .notify, .join] ++
    InterruptForwarder.members.reverse.map .destroy

def Owner.destructor : Owner → List Action
  | .inner => [.destroy .connection]
  | .interruptForwarder => forwarderDestructor

/-- `~BridgeCtx` -/
def bridgeDestructor (owns : Owner → Bool) : List Action :=
  (bridgeOwners.reverse.filter owns).flatMap Owner.destructor

/-! ## §2 The state -/

/-- A `BridgeCtx` with the outer flag and the forwarder thread.  `alive` is what is
constructed and not destroyed, the last constructed in front; `destroying` says that
`~BridgeCtx` has been entered, and `joined` that `worker.join` has returned. -/
structure Teardown where
  outerFlag : Bool
  script : List Action
  destroying : Bool
  alive : List Member
  stopped : Bool
  holder : Option Party
  joined : Bool
  thread : ThreadPc
  fault : Bool
  deriving DecidableEq, Repr

namespace Teardown

/-- Before the first callback. -/
def start (outerFlag : Bool) : Teardown where
  outerFlag := outerFlag
  script := []
  destroying := false
  alive := []
  stopped := false
  holder := none
  joined := false
  thread := .notStarted
  fault := false

/-- The pointers that are not null while no constructor is at work. -/
def owns (alive : List Member) : Owner → Bool
  | .inner => alive.contains .connection
  | .interruptForwarder => alive.contains .worker

/-- What is left to do when the constructor of the forwarder throws: its members built so far
are destroyed again. -/
def unwind (alive : List Member) : List Action :=
  (alive.filter InterruptForwarder.members.contains).map .destroy

end Teardown

/-- The members that an action of the main thread touches. -/
def Action.touches : Action → List Member
  | .construct _ => []
  | .lock => [.mutex]
  | .setStopped => [.stopped]
  | .unlock => [.mutex]
  | .notify => [.condition]
  | .join => [.worker]
  | .destroy m => [m]

/-- The members that a step of the thread touches. -/
def Invocation.ThreadLabel.touches : Invocation.ThreadLabel → List Member
  | .lock => [.mutex]
  | .test => [.stopped, .mutex]
  | .read => [.outer]
  | .interrupt => [.inner, .connection]
  | .pause => [.stopped, .condition, .mutex]
  | .wake _ => [.condition, .mutex, .stopped]

/-! ## §3 Steps -/

namespace Teardown

open Invocation (ThreadLabel)

/-- What an action does to objects that are alive. -/
def perform (s : Teardown) : Action → Option Teardown
  | .construct .mutex => some { s with alive := .mutex :: s.alive, holder := none }
  | .construct .stopped => some { s with alive := .stopped :: s.alive, stopped := false }
  | .construct .worker =>
    -- the thread runs from here on
    some { s with alive := .worker :: s.alive, thread := .starting, joined := false }
  | .construct m => some { s with alive := m :: s.alive }
  | .lock => if s.holder = none then some { s with holder := some .main } else none
  | .setStopped => some { s with stopped := true }
  | .unlock => some { s with holder := none }
  | .notify => some s
  | .join => if s.thread = .exited then some { s with joined := true } else none
  | .destroy m => some { s with alive := s.alive.erase m }

/-- The next action of the main thread. -/
def act (s : Teardown) : Option Teardown :=
  match s.script with
  | [] => none
  | a :: rest =>
    if ∀ m ∈ a.touches, m ∈ s.alive then { s with script := rest }.perform a
    else some { s with script := rest, fault := true }

/-- The thread stands where it does this next. -/
def offers : ThreadPc → ThreadLabel → Bool
  | .starting, .lock => true
  | .testing, .test => true
  | .reading, .read => true
  | .forwarding, .interrupt => true
  | .pausing, .pause => true
  | .waiting, .wake _ => true
  | _, _ => false

/-- One step of `InterruptForwarder::Run` on objects that are alive. -/
def move (s : Teardown) : ThreadLabel → Option Teardown
  | .lock =>
    if s.holder = none then some { s with holder := some .worker, thread := .testing } else none
  | .test =>
    if s.stopped then some { s with holder := none, thread := .exited }
    else some { s with thread := .reading }
  | .read => some { s with thread := if s.outerFlag then .forwarding else .pausing }
  | .interrupt => some { s with thread := .pausing }
  | .pause =>
    -- `wait_for` looks at its predicate before it waits
    if s.stopped then some { s with thread := .testing }
    else some { s with holder := none, thread := .waiting }
  | .wake timedOut =>
    if s.holder = none then
      if s.stopped ∨ timedOut then
        some { s with holder := some .worker, thread := .testing }
      -- a spurious wake-up waits again
      else some s
    else none

def threadStep (s : Teardown) (t : ThreadLabel) : Option Teardown :=
  if offers s.thread t then
    if ∀ m ∈ t.touches, m ∈ s.alive then s.move t else some { s with fault := true }
  else none

end Teardown

inductive TeardownLabel where
  | interrupt
  | getInner
  | act
  | fail
  | destroy
  | thread (t : Invocation.ThreadLabel)
  deriving DecidableEq, Repr

def Teardown.step (s : Teardown) : TeardownLabel → Option Teardown
  | .interrupt => some { s with outerFlag := true }
  | .getInner =>
    if s.script = [] ∧ s.destroying = false ∧ .connection ∉ s.alive then
      some { s with script := getInnerConnection }
    else none
  | .act => s.act
  -- the constructor that comes next throws
  | .fail =>
    match s.script with
    | .construct _ :: _ => some { s with script := Teardown.unwind s.alive }
    | _ => none
  | .destroy =>
    if s.script = [] ∧ s.destroying = false then
      some { s with script := bridgeDestructor (Teardown.owns s.alive), destroying := true }
    else none
  | .thread t => s.threadStep t

/-- Every interleaving of the bridge's owner, the forwarder's thread and the interrupts of the
outer connection. -/
def teardown : Machine Teardown TeardownLabel where
  init s := ∃ outerFlag, s = .start outerFlag
  step := Teardown.step

/-! ## §4 The audit of a script -/

/-- What a script depends on: the live members, whether the main thread holds the mutex, and
whether no thread runs that the main thread has not joined. -/
structure Work where
  alive : List Member
  locked : Bool
  quiet : Bool
  deriving DecidableEq, Repr

/-- One action of a script; `none` where the action is out of place. -/
def Work.pass (w : Work) : Action → Option Work
  | .construct m =>
    if w.locked = false ∧ w.quiet ∧ Scoped bridgeMembers (m :: w.alive) then
      some { w with alive := m :: w.alive, quiet := m != .worker }
    else none
  | .lock =>
    if w.locked = false ∧ .mutex ∈ w.alive then some { w with locked := true } else none
  | .setStopped => if w.locked ∧ .stopped ∈ w.alive then some w else none
  | .unlock => if w.locked ∧ .mutex ∈ w.alive then some { w with locked := false } else none
  | .notify => if .condition ∈ w.alive then some w else none
  | .join =>
    if w.locked = false ∧ .worker ∈ w.alive then some { w with quiet := true } else none
  | .destroy m =>
    if w.quiet ∧ w.alive.head? = some m then some { w with alive := w.alive.tail } else none

/-- No pointer is half constructed. -/
def settled (alive : List Member) : Bool :=
  alive == [] || alive == [.connection] || alive == bridgeMembers.reverse

/-- Every action is in its place, and the end leaves no pointer half constructed. -/
def Work.audit (w : Work) : List Action → Bool
  | [] => !w.locked && settled w.alive
  | a :: rest =>
    match w.pass a with
    | none => false
    | some w' => w'.audit rest

theorem Work.audit_cons {w : Work} {a : Action} {rest : List Action} :
    w.audit (a :: rest) = true ↔ ∃ w', w.pass a = some w' ∧ w'.audit rest = true := by
  rw [Work.audit]
  cases w.pass a <;> simp

theorem Work.pass_touches {w w' : Work} {a : Action} (h : w.pass a = some w') :
    ∀ m ∈ a.touches, m ∈ w.alive := by
  intro m hm
  cases a <;> simp only [Action.touches, List.mem_singleton, List.not_mem_nil] at hm <;>
    simp only [Work.pass, Option.ite_none_right_eq_some] at h
  case destroy n =>
    rw [hm]
    exact List.mem_of_mem_head? h.1.2
  case notify => exact hm ▸ h.1
  all_goals exact hm ▸ h.1.2

/-- Unwinding passes from wherever a constructor throws. -/
theorem audit_unwind {alive : List Member} (h : Scoped bridgeMembers alive) :
    Work.audit ⟨alive, false, true⟩ (Teardown.unwind alive) = true := by
  have hall : ∀ n ∈ List.range 8,
      Work.audit ⟨(bridgeMembers.take n).reverse, false, true⟩
        (Teardown.unwind (bridgeMembers.take n).reverse) = true := by decide
  rw [h.eq_take]
  apply hall
  rw [List.mem_range]
  exact Nat.lt_succ_iff.mpr h.length_le

/-- `~BridgeCtx` passes, whatever it finds. -/
theorem audit_destructor {alive : List Member} {quiet : Bool} (h : settled alive = true)
    (hunquiet : quiet = false → alive = bridgeMembers.reverse) :
    Work.audit ⟨alive, false, quiet⟩ (bridgeDestructor (Teardown.owns alive)) = true := by
  unfold settled at h
  rw [Bool.or_eq_true, Bool.or_eq_true, beq_iff_eq, beq_iff_eq, beq_iff_eq] at h
  -- with a forwarder the destructor joins the thread, and without one there is none
  rcases h with (rfl | rfl) | rfl
  · rfl
  · cases quiet with
    | true => decide
    | false => cases hunquiet rfl
  · cases quiet <;> decide

theorem construct_notMem_destructor (owns : Owner → Bool) (m : Member) :
    .construct m ∉ bridgeDestructor owns := by
  intro hmem
  obtain ⟨x, -, hx⟩ := List.mem_flatMap.mp hmem
  cases x <;> simp [Owner.destructor, forwarderDestructor] at hx

/-! ## §5 The invariant -/

/-- The thread is inside the loop with the mutex held. -/
def ThreadPc.holds : ThreadPc → Bool
  | .testing | .reading | .forwarding | .pausing => true
  | _ => false

/-- The thread is behind a test of `stopped` that let it through. -/
def ThreadPc.pastTest : ThreadPc → Bool
  | .reading | .forwarding | .pausing => true
  | _ => false

namespace Teardown

open Invocation (ThreadLabel)

/-- No thread runs that the main thread has not joined. -/
def quiet (s : Teardown) : Bool := s.thread == .notStarted || s.joined

def work (s : Teardown) : Work where
  alive := s.alive
  locked := s.holder == some .main
  quiet := s.quiet

/-- What holds between any two steps. -/
structure Sound (s : Teardown) : Prop where
  audited : s.work.audit s.script = true
  layout : Scoped bridgeMembers s.alive
  /-- While a thread may run, everything is alive. -/
  unquiet : s.quiet = false → s.alive = bridgeMembers.reverse
  joined : s.joined = true → s.thread = .exited
  holder : s.holder = some .worker ↔ s.thread.holds = true
  stopped : s.stopped = true → s.thread.pastTest = false
  /-- Nothing is constructed once `~BridgeCtx` has been entered. -/
  destroying : s.destroying = true → ∀ m, .construct m ∉ s.script
  living : s.destroying = false → s.stopped = false ∧ .setStopped ∉ s.script
  fault : s.fault = false

variable {s s' : Teardown}

theorem Sound.start (outerFlag : Bool) : Sound (start outerFlag) := by
  constructor <;> simp [Teardown.start, work, quiet, Work.audit, settled, Scoped.nil,
    ThreadPc.holds]

theorem holds_of_pastTest {pc : ThreadPc} (h : pc.pastTest = true) : pc.holds = true := by
  cases pc <;> first | rfl | cases h

theorem not_holds_of_quiet (hjoined : s.joined = true → s.thread = .exited)
    (h : s.quiet = true) : s.thread.holds = false := by
  unfold quiet at h
  rcases (Bool.or_eq_true _ _).mp h with hnew | hdone
  · rw [eq_of_beq hnew]
    rfl
  · rw [hjoined hdone]
    rfl

/-- A thread that takes steps keeps everything alive. -/
theorem Sound.all_alive (hs : Sound s) {t : ThreadLabel} (h : offers s.thread t = true)
    (m : Member) : m ∈ s.alive := by
  have hquiet : s.quiet = false := by
    unfold quiet
    rw [Bool.or_eq_false_iff]
    constructor
    · cases hthread : s.thread <;> simp_all [offers]
    · by_contra hjoined
      rw [Bool.not_eq_false] at hjoined
      rw [hs.joined hjoined] at h
      simp [offers] at h
  rw [hs.unquiet hquiet]
  cases m <;> decide

/-! ## §6 Steps keep the invariant -/

/-- The audit follows what the main thread does. -/
theorem work_perform {a : Action} {w : Work} (hpass : s.work.pass a = some w)
    (h : s.perform a = some s') : s'.work = w := by
  cases a with
  | construct m =>
    obtain ⟨⟨hlocked, hquiet, -⟩, ⟨⟩⟩ := Option.ite_none_right_eq_some.mp hpass
    have hq : s.quiet = true := hquiet
    have hl : (s.holder == some Party.main) = false := hlocked
    cases m <;> obtain rfl := Option.some.inj h <;> grind [work, quiet]
  | lock =>
    obtain ⟨-, ⟨⟩⟩ := Option.ite_none_right_eq_some.mp hpass
    obtain ⟨-, ⟨⟩⟩ := Option.ite_none_right_eq_some.mp h
    rfl
  | setStopped =>
    obtain ⟨-, ⟨⟩⟩ := Option.ite_none_right_eq_some.mp hpass
    obtain rfl := Option.some.inj h
    rfl
  | unlock =>
    obtain ⟨-, ⟨⟩⟩ := Option.ite_none_right_eq_some.mp hpass
    obtain rfl := Option.some.inj h
    rfl
  | notify =>
    obtain ⟨-, ⟨⟩⟩ := Option.ite_none_right_eq_some.mp hpass
    obtain rfl := Option.some.inj h
    rfl
  | join =>
    obtain ⟨-, ⟨⟩⟩ := Option.ite_none_right_eq_some.mp hpass
    obtain ⟨-, ⟨⟩⟩ := Option.ite_none_right_eq_some.mp h
    simp [work, quiet]
  | destroy m =>
    obtain ⟨⟨-, hhead⟩, ⟨⟩⟩ := Option.ite_none_right_eq_some.mp hpass
    obtain rfl := Option.some.inj h
    obtain ⟨rest, hrest⟩ := List.head?_eq_some_iff.mp hhead
    have halive : s.alive = m :: rest := hrest
    simp [work, halive, quiet]

/-- What an action leaves alone. -/
theorem perform_frame {a : Action} (h : s.perform a = some s') :
    s'.script = s.script ∧ s'.destroying = s.destroying ∧ s'.fault = s.fault := by
  unfold perform at h
  split at h <;> grind

theorem perform_stopped {a : Action} (h : s.perform a = some s') :
    s'.stopped = s.stopped ∨ (a = .construct .stopped ∧ s'.stopped = false) ∨
      (a = .setStopped ∧ s'.stopped = true) := by
  unfold perform at h
  split at h <;> grind

theorem perform_thread {a : Action} (h : s.perform a = some s') :
    (s'.thread = s.thread ∧ (s'.joined = s.joined ∨ s.thread = .exited)) ∨
      (a = .construct .worker ∧ s'.thread = .starting ∧ s'.joined = false) := by
  unfold perform at h
  split at h <;> grind

/-- The main thread takes the mutex only when it is free, and gives back only its own. -/
theorem perform_holder {a : Action} {w : Work} (hpass : s.work.pass a = some w)
    (h : s.perform a = some s') :
    s'.holder = s.holder ∨ (a = .construct .mutex ∧ s'.holder = none) ∨
      (s.holder ≠ some .worker ∧ s'.holder ≠ some .worker) := by
  unfold perform at h
  split at h <;> grind [Work.pass, work]

theorem pass_construct {m : Member} {w : Work} (h : s.work.pass (.construct m) = some w) :
    s.quiet = true ∧ Scoped bridgeMembers (m :: s.alive) := by
  obtain ⟨⟨-, hquiet, hlayout⟩, -⟩ := Option.ite_none_right_eq_some.mp h
  exact ⟨hquiet, hlayout⟩

theorem pass_layout {a : Action} {w : Work} (h : s.work.pass a = some w)
    (hlayout : Scoped bridgeMembers s.alive) : Scoped bridgeMembers w.alive := by
  cases a with
  | construct m =>
    obtain ⟨⟨-, -, hnext⟩, ⟨⟩⟩ := Option.ite_none_right_eq_some.mp h
    exact hnext
  | destroy m =>
    obtain ⟨⟨-, hhead⟩, ⟨⟩⟩ := Option.ite_none_right_eq_some.mp h
    obtain ⟨rest, hrest⟩ := List.head?_eq_some_iff.mp hhead
    have halive : s.alive = m :: rest := hrest
    rw [halive] at hlayout
    rw [hrest]
    exact hlayout.of_destroy
  | _ =>
    obtain ⟨-, ⟨⟩⟩ := Option.ite_none_right_eq_some.mp h
    exact hlayout

/-- Whoever is not quiet afterwards has everything alive. -/
theorem pass_unquiet {a : Action} {w : Work} (h : s.work.pass a = some w)
    (hunquiet : s.quiet = false → s.alive = bridgeMembers.reverse) (hw : w.quiet = false) :
    w.alive = bridgeMembers.reverse := by
  cases a with
  | construct m =>
    obtain ⟨⟨-, -, hnext⟩, ⟨⟩⟩ := Option.ite_none_right_eq_some.mp h
    -- only `worker`, the last member, starts a thread
    have hworker : m = .worker := by simpa using hw
    subst hworker
    have hlast : Scoped (bridgeMembers.dropLast ++ [Member.worker]) (.worker :: s.alive) := hnext
    exact hlast.complete (by decide)
  | destroy m =>
    obtain ⟨⟨hquiet, -⟩, ⟨⟩⟩ := Option.ite_none_right_eq_some.mp h
    exact absurd hquiet (Bool.eq_false_iff.mp hw)
  | join =>
    obtain ⟨-, ⟨⟩⟩ := Option.ite_none_right_eq_some.mp h
    cases hw
  | _ =>
    obtain ⟨-, ⟨⟩⟩ := Option.ite_none_right_eq_some.mp h
    exact hunquiet hw

theorem Sound.perform {a : Action} {rest : List Action} (hs : Sound s)
    (hscript : s.script = a :: rest)
    (h : Teardown.perform { s with script := rest } a = some s') : Sound s' := by
  have haudit := hs.audited
  rw [hscript] at haudit
  obtain ⟨w, hpass, hrest⟩ := Work.audit_cons.mp haudit
  -- the script in `s` is not looked at by the action
  let m : Teardown := { s with script := rest }
  have hm : m.work.pass a = some w := hpass
  have hwork : s'.work = w := work_perform hm h
  obtain ⟨hscript', hdestroying, hfault⟩ := perform_frame h
  have hthread := perform_thread h
  have halive : s'.alive = w.alive := congrArg Work.alive hwork
  have hquiet : s'.quiet = w.quiet := congrArg Work.quiet hwork
  constructor
  -- `audited`
  · rw [hwork, hscript']
    exact hrest
  -- `layout`
  · rw [halive]
    exact pass_layout hpass hs.layout
  -- `unquiet`
  · intro hq
    rw [halive]
    exact pass_unquiet hpass hs.unquiet (hquiet ▸ hq)
  -- `joined`: `worker.join` returns only behind the end of the thread
  · intro hjoined
    rcases hthread with ⟨hsame, hj | hexited⟩ | ⟨-, -, hnot⟩
    · rw [hsame]
      exact hs.joined (hj ▸ hjoined)
    · rw [hsame]
      exact hexited
    · rw [hnot] at hjoined
      cases hjoined
  -- `holder`: a new mutex and a new thread find the old thread at rest
  · have hrest : ∀ m, a = .construct m → s.thread.holds = false := by
      intro m ha
      subst ha
      exact not_holds_of_quiet hs.joined (pass_construct hpass).1
    have hthread' : s'.thread.holds = s.thread.holds := by
      rcases hthread with ⟨hsame, -⟩ | ⟨ha, hnew, -⟩
      · rw [hsame]
      · rw [hnew, hrest _ ha]
        rfl
    have hholder' : s'.holder = some .worker ↔ s.holder = some .worker := by
      rcases perform_holder hm h with hsame | ⟨ha, hnone⟩ | ⟨hbefore, hafter⟩
      · rw [hsame]
      · rw [hnone, hs.holder, hrest _ ha]
        simp
      · exact iff_of_false hafter hbefore
    rw [hholder', hthread', hs.holder]
  -- `stopped` is set under the mutex, so not between a test and the next wait
  · intro hset
    by_contra hpast
    rw [Bool.not_eq_false] at hpast
    have hsame : s'.thread = s.thread := by
      rcases hthread with ⟨hsame, -⟩ | ⟨-, hnew, -⟩
      · exact hsame
      · rw [hnew] at hpast
        cases hpast
    rw [hsame] at hpast
    rcases perform_stopped h with hold | ⟨-, hclear⟩ | ⟨ha, -⟩
    · rw [hold] at hset
      rw [hs.stopped hset] at hpast
      cases hpast
    · rw [hclear] at hset
      cases hset
    · subst ha
      obtain ⟨⟨hlocked, -⟩, -⟩ := Option.ite_none_right_eq_some.mp hpass
      have hmain : s.holder = some .main := eq_of_beq hlocked
      have hworker := hs.holder.mpr (holds_of_pastTest hpast)
      rw [hmain] at hworker
      cases hworker
  -- `destroying`
  · intro hd c hc
    rw [hscript'] at hc
    apply hs.destroying (hdestroying.symm.trans hd) c
    rw [hscript]
    exact List.mem_cons_of_mem _ hc
  -- `living`
  · intro hd
    obtain ⟨hclear, hno⟩ := hs.living (hdestroying.symm.trans hd)
    rw [hscript, List.mem_cons, not_or] at hno
    refine ⟨?_, hscript' ▸ hno.2⟩
    rcases perform_stopped h with hold | ⟨-, hnew⟩ | ⟨ha, -⟩
    · exact hold.trans hclear
    · exact hnew
    · exact absurd ha.symm hno.1
  · exact hfault.trans hs.fault

/-- The next action finds all it touches alive. -/
theorem Sound.act_cases (hs : Sound s) (h : s.act = some s') :
    ∃ a rest, s.script = a :: rest ∧ Teardown.perform { s with script := rest } a = some s' := by
  unfold Teardown.act at h
  split at h
  · cases h
  · rename_i a rest hscript
    have haudit := hs.audited
    rw [hscript] at haudit
    obtain ⟨w, hpass, -⟩ := Work.audit_cons.mp haudit
    have halive : ∀ m ∈ a.touches, m ∈ s.alive := Work.pass_touches hpass
    rw [if_pos halive] at h
    exact ⟨a, rest, hscript, h⟩

/-! ## §7 The thread and the owner -/

theorem move_frame {t : ThreadLabel} (h : s.move t = some s') :
    s'.script = s.script ∧ s'.destroying = s.destroying ∧ s'.alive = s.alive ∧
      s'.stopped = s.stopped ∧ s'.joined = s.joined ∧ s'.fault = s.fault := by
  unfold move at h
  split at h <;> grind

/-- The thread takes the mutex only when it is free, and looks at `stopped` before it goes on
to the outer flag. -/
theorem move_thread {t : ThreadLabel} (hoffer : offers s.thread t = true)
    (h : s.move t = some s') (hholder : s.holder = some .worker ↔ s.thread.holds = true)
    (hstopped : s.stopped = true → s.thread.pastTest = false) :
    s'.thread ≠ .notStarted ∧ (s'.holder = some .worker ↔ s'.thread.holds = true) ∧
      (s'.holder = some .main ↔ s.holder = some .main) ∧
      (s.stopped = true → s'.thread.pastTest = false) := by
  unfold move at h
  unfold offers at hoffer
  split at h <;> grind [ThreadPc.holds, ThreadPc.pastTest]

theorem Sound.threadStep {t : ThreadLabel} (hs : Sound s) (h : s.threadStep t = some s') :
    Sound s' := by
  obtain ⟨hoffer, hmove⟩ := Option.ite_none_right_eq_some.mp h
  rw [if_pos fun m _ => hs.all_alive hoffer m] at hmove
  obtain ⟨hscript, hdestroying, halive, hstop, hjoin, hfault⟩ := move_frame hmove
  obtain ⟨hstarted, hholder, hmain, hpast⟩ := move_thread hoffer hmove hs.holder hs.stopped
  have hnotStarted : s.thread ≠ .notStarted := by
    intro hnone
    rw [hnone] at hoffer
    cases hoffer
  have hquiet : s'.quiet = s.quiet := by
    simp [quiet, hjoin, beq_eq_false_iff_ne.mpr hstarted, beq_eq_false_iff_ne.mpr hnotStarted]
  have hwork : s'.work = s.work := by
    simp only [work, halive, hquiet, Work.mk.injEq, true_and, and_true]
    rw [Bool.eq_iff_iff, beq_iff_eq, beq_iff_eq]
    exact hmain
  constructor
  · rw [hwork, hscript]
    exact hs.audited
  · rw [halive]
    exact hs.layout
  · rw [hquiet, halive]
    exact hs.unquiet
  -- a thread that is joined has left and takes no step
  · intro hj
    rw [hjoin] at hj
    rw [hs.joined hj] at hoffer
    cases hoffer
  · exact hholder
  · rw [hstop]
    exact hpast
  · rw [hdestroying, hscript]
    exact hs.destroying
  · rw [hdestroying, hstop, hscript]
    exact hs.living
  · exact hfault.trans hs.fault

theorem Sound.getInner (hs : Sound s) (hscript : s.script = []) (hliving : s.destroying = false)
    (hnone : .connection ∉ s.alive) : Sound { s with script := getInnerConnection } := by
  have hempty : s.alive = [] := by
    have hfirst : Scoped (.connection :: InterruptForwarder.members) s.alive := hs.layout
    exact hfirst.eq_nil hnone
  have hquiet : s.quiet = true := by
    by_contra hq
    have hall := hs.unquiet (Bool.eq_false_iff.mpr hq)
    rw [hempty] at hall
    cases hall
  have hunlocked : (s.holder == some Party.main) = false := by
    have hend := hs.audited
    rw [hscript] at hend
    simpa [Work.audit, work] using (Bool.and_eq_true _ _).mp hend |>.1
  refine ⟨?_, hs.layout, hs.unquiet, hs.joined, hs.holder, hs.stopped, ?_, ?_, hs.fault⟩
  · have hwork : s.work = ⟨[], false, true⟩ := by
      simp [work, hempty, hquiet, hunlocked]
    show s.work.audit getInnerConnection = true
    rw [hwork]
    decide
  · intro hd
    exact absurd (hliving.symm.trans hd) Bool.false_ne_true
  · refine fun hd => ⟨(hs.living hd).1, ?_⟩
    show .setStopped ∉ getInnerConnection
    decide

theorem Sound.fail (hs : Sound s) {m : Member} {rest : List Action}
    (hscript : s.script = .construct m :: rest) :
    Sound { s with script := unwind s.alive } := by
  have haudit := hs.audited
  rw [hscript] at haudit
  obtain ⟨w, hpass, -⟩ := Work.audit_cons.mp haudit
  obtain ⟨⟨hunlocked, hquiet, -⟩, -⟩ := Option.ite_none_right_eq_some.mp hpass
  have hdestroys : ∀ a ∈ unwind s.alive, ∃ c, a = .destroy c := by
    intro a ha
    obtain ⟨c, -, rfl⟩ := List.mem_map.mp ha
    exact ⟨c, rfl⟩
  refine ⟨?_, hs.layout, hs.unquiet, hs.joined, hs.holder, hs.stopped, ?_, ?_, hs.fault⟩
  · have hwork : s.work = ⟨s.alive, false, true⟩ := by
      rw [← hunlocked, ← hquiet]
      rfl
    show s.work.audit (unwind s.alive) = true
    rw [hwork]
    exact audit_unwind hs.layout
  · intro _ c hc
    obtain ⟨d, hd⟩ := hdestroys _ hc
    cases hd
  · intro hd
    refine ⟨(hs.living hd).1, ?_⟩
    intro hset
    obtain ⟨d, hd⟩ := hdestroys _ hset
    cases hd

theorem Sound.destroy (hs : Sound s) (hscript : s.script = []) :
    Sound { s with script := bridgeDestructor (owns s.alive), destroying := true } := by
  have hend := hs.audited
  rw [hscript] at hend
  obtain ⟨hunlocked, hsettled⟩ := (Bool.and_eq_true _ _).mp hend
  have hwork : s.work = ⟨s.alive, false, s.quiet⟩ := by
    rw [Bool.not_eq_true'] at hunlocked
    rw [← hunlocked]
    rfl
  refine ⟨?_, hs.layout, hs.unquiet, hs.joined, hs.holder, hs.stopped, ?_, ?_, hs.fault⟩
  · show s.work.audit (bridgeDestructor (owns s.alive)) = true
    rw [hwork]
    exact audit_destructor hsettled hs.unquiet
  · exact fun _ m => construct_notMem_destructor _ m
  · intro hd
    cases hd

theorem sound_step {l : TeardownLabel} (hs : Sound s) (h : teardown.step s l = some s') :
    Sound s' := by
  cases l with
  | interrupt =>
    obtain rfl := Option.some.inj h
    exact ⟨hs.audited, hs.layout, hs.unquiet, hs.joined, hs.holder, hs.stopped, hs.destroying,
      hs.living, hs.fault⟩
  | getInner =>
    obtain ⟨⟨hscript, hliving, hnone⟩, ⟨⟩⟩ := Option.ite_none_right_eq_some.mp h
    exact hs.getInner hscript hliving hnone
  | act =>
    obtain ⟨a, rest, hscript, hperform⟩ := hs.act_cases h
    exact hs.perform hscript hperform
  | fail =>
    simp only [teardown, Teardown.step] at h
    split at h
    · rename_i hscript
      obtain rfl := Option.some.inj h
      exact hs.fail hscript
    · cases h
  | destroy =>
    obtain ⟨⟨hscript, -⟩, ⟨⟩⟩ := Option.ite_none_right_eq_some.mp h
    exact hs.destroy hscript
  | thread t => exact hs.threadStep h

theorem sound_of_reachable (h : teardown.Reachable s) : Sound s := by
  refine h.invariant Sound ?_ fun _ _ _ hs hstep => sound_step hs hstep
  rintro s₀ ⟨outerFlag, rfl⟩
  exact .start outerFlag

/-! ## §8 Safety -/

theorem offers_interrupt {pc : ThreadPc} (h : offers pc .interrupt = true) :
    pc = .forwarding := by
  cases pc <;> first | rfl | cases h

/-- Behind a set `stopped` the thread does not call `Interrupt`, and `stopped` stays set. -/
theorem stopped_step {l : TeardownLabel} (hs : Sound s) (hstop : s.stopped = true)
    (h : teardown.step s l = some s') : s'.stopped = true ∧ l ≠ .thread .interrupt := by
  have hdestroying : s.destroying = true := by
    by_contra hliving
    rw [(hs.living (Bool.eq_false_iff.mpr hliving)).1] at hstop
    cases hstop
  cases l with
  | interrupt =>
    obtain rfl := Option.some.inj h
    exact ⟨hstop, nofun⟩
  | getInner =>
    obtain ⟨⟨-, hliving, -⟩, -⟩ := Option.ite_none_right_eq_some.mp h
    exact absurd (hliving.symm.trans hdestroying) Bool.false_ne_true
  | act =>
    refine ⟨?_, nofun⟩
    obtain ⟨a, rest, hscript, hperform⟩ := hs.act_cases h
    rcases perform_stopped hperform with hsame | ⟨ha, -⟩ | ⟨-, hset⟩
    · exact hsame.trans hstop
    · -- nothing is constructed any more
      apply absurd _ (hs.destroying hdestroying .stopped)
      rw [hscript, ha]
      exact List.mem_cons_self
    · exact hset
  | fail =>
    refine ⟨?_, nofun⟩
    simp only [teardown, Teardown.step] at h
    split at h
    · obtain rfl := Option.some.inj h
      exact hstop
    · cases h
  | destroy =>
    obtain ⟨⟨-, hliving⟩, -⟩ := Option.ite_none_right_eq_some.mp h
    exact absurd (hliving.symm.trans hdestroying) Bool.false_ne_true
  | thread t =>
    obtain ⟨hoffer, hmove⟩ := Option.ite_none_right_eq_some.mp h
    rw [if_pos fun m _ => hs.all_alive hoffer m] at hmove
    refine ⟨(move_frame hmove).2.2.2.1.trans hstop, ?_⟩
    intro ht
    cases ht
    -- `Interrupt` is called only behind a test that found `stopped` clear
    have hpast := hs.stopped hstop
    rw [offers_interrupt hoffer] at hpast
    cases hpast

end Teardown

/-- **Teardown of the forwarder is safe**: no step touches an object that is not alive; behind
a set `stopped` the thread never calls `Interrupt`; and the members and the connection are
destroyed only when the thread has been joined, or never ran. -/
theorem teardown_safe {s : Teardown} (hs : teardown.Reachable s) :
    s.fault = false ∧
    (∀ t s', teardown.step s (.thread t) = some s' → ∀ m ∈ t.touches, m ∈ s.alive) ∧
    (s.stopped = true → ∀ tr s', teardown.run s tr = some s' → .thread .interrupt ∉ tr) ∧
    (∀ m rest, s.script = .destroy m :: rest →
      s.thread = .notStarted ∨ (s.joined = true ∧ s.thread = .exited)) := by
  have hsound := Teardown.sound_of_reachable hs
  refine ⟨hsound.fault, ?_, ?_, ?_⟩
  · intro t s' hstep m _
    obtain ⟨hoffer, -⟩ := Option.ite_none_right_eq_some.mp hstep
    exact hsound.all_alive hoffer m
  · intro hstop tr s' hrun
    have hcount : tr.countP (· == .thread .interrupt) + 0 ≤ 0 :=
      Machine.run_countP_le _ (fun _ => 0) (fun s => s.Sound ∧ s.stopped = true)
        (fun s l s' hI hstep => by
          obtain ⟨hset, hne⟩ := Teardown.stopped_step hI.1 hI.2 hstep
          refine ⟨⟨Teardown.sound_step hI.1 hstep, hset⟩, ?_⟩
          simp [hne])
        ⟨hsound, hstop⟩ hrun
    intro hmem
    have hpos := List.count_pos_iff.mpr hmem
    rw [List.count] at hpos
    omega
  · intro m rest hscript
    have haudit := hsound.audited
    rw [hscript] at haudit
    obtain ⟨w, hpass, -⟩ := Work.audit_cons.mp haudit
    obtain ⟨⟨hquiet, -⟩, -⟩ := Option.ite_none_right_eq_some.mp hpass
    rcases (Bool.or_eq_true _ _).mp hquiet with hnew | hjoined
    · exact Or.inl (eq_of_beq hnew)
    · exact Or.inr ⟨hjoined, hsound.joined hjoined⟩

/-- `~BridgeCtx` is entered while the thread stands between its test of `stopped` and its call
of `Interrupt`; the destructor gets the mutex once the thread waits, and stops it. -/
def betweenRun : List TeardownLabel :=
  .interrupt :: .getInner :: List.replicate 7 .act ++
    [.thread .lock, .thread .test, .thread .read, .destroy, .thread .interrupt,
      .thread .pause, .act, .act]

theorem teardown_safe_between :
    ∃ s, teardown.run (.start false) betweenRun = some s ∧
      s.stopped = true ∧ s.thread = .waiting ∧
      s.fault = false ∧
      (∀ t s', teardown.step s (.thread t) = some s' → ∀ m ∈ t.touches, m ∈ s.alive) ∧
      (s.stopped = true → ∀ tr s', teardown.run s tr = some s' → .thread .interrupt ∉ tr) ∧
      (∀ m rest, s.script = .destroy m :: rest →
        s.thread = .notStarted ∨ (s.joined = true ∧ s.thread = .exited)) := by
  obtain ⟨s, hrun, hstop, hthread⟩ := Machine.run_decided
    (fun s : Teardown => s.stopped = true ∧ s.thread = .waiting)
    (show ((teardown.run (.start false) betweenRun).any _) = true by decide +kernel)
  exact ⟨s, hrun, hstop, hthread, teardown_safe ⟨.start false, betweenRun, ⟨false, rfl⟩, hrun⟩⟩

end GgsqlDuckdb
