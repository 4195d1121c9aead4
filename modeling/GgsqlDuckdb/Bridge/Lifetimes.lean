import GgsqlDuckdb.Bridge.Teardown

/-!
# Lifetimes in an invocation

An invocation of the bridge builds and destroys its connection and its forwarder in single
steps.  Each of them is a run of single actions on the members, so that what is safe in every
interleaving of these actions is safe in every interleaving of an invocation.

## Main results

- `Follows`: an invocation and the members behind it.
- `follows_main`, `follows_thread`: each step of an invocation is a run on the members.
- `bridge_follows`: so is every run.
- `bridge_faultless`: no step of an invocation touches a destroyed object.
-/

namespace GgsqlDuckdb

open Library

/-! ## §1 The members behind an invocation -/

/-- What the main thread is about to do with the members. -/
def MainPc.script (inner : Bool) : MainPc → List Action
  | .opening => getInnerConnection
  | .attaching => InterruptForwarder.members.map .construct
  | .stopping _ => forwarderDestructor.drop 1 ++ [.destroy .connection]
  | .notifying _ => forwarderDestructor.drop 3 ++ [.destroy .connection]
  | .joining _ => forwarderDestructor.drop 4 ++ [.destroy .connection]
  | .freeing _ => forwarderDestructor.drop 5 ++ [.destroy .connection]
  | .closing _ => if inner then [.destroy .connection] else []
  | _ => []

/-- `~BridgeCtx` has been entered. -/
def MainPc.destroying : MainPc → Bool
  | .stopping _ | .notifying _ | .joining _ | .freeing _ | .closing _ | .ended _ => true
  | _ => false

/-- The destructor of the forwarder is at work. -/
def MainPc.stops : MainPc → Bool
  | .stopping _ | .notifying _ | .joining _ | .freeing _ => true
  | _ => false

namespace Invocation

def alive (v : Invocation) : List Member :=
  (if v.forwarder.isSome then InterruptForwarder.members.reverse else []) ++
    (if v.inner.isSome then [.connection] else [])

/-- The forwarder is younger than its connection, and there while it is being stopped. -/
structure Placed (v : Invocation) : Prop where
  entry : v.pc = .entry → v.inner = none
  opening : v.pc = .opening → v.inner = none
  attaching : v.pc = .attaching → v.forwarder = none ∧ v.inner.isSome
  stops : v.pc.stops = true → v.forwarder.isSome
  closing : ∀ o, v.pc = .closing o → v.forwarder = none
  inner : v.forwarder.isSome → v.inner.isSome

/-- The state of the members behind an invocation. -/
def members (v : Invocation) (outer stopped : Bool) (holder : Option Party) (joined : Bool) :
    Teardown where
  outerFlag := outer
  script := v.pc.script v.inner.isSome
  destroying := v.pc.destroying
  alive := v.alive
  stopped := stopped
  holder := holder
  joined := joined
  thread := v.thread
  fault := false

end Invocation

/-- The members behind an invocation, and the thread that works on them. -/
structure Follows (b : Bridge) (s : Teardown) : Prop where
  placed : b.inv.Placed
  fault : b.inv.fault = false
  members : s = b.inv.members b.outer s.stopped s.holder s.joined
  forwarder : ∀ f, b.inv.forwarder = some f → s.stopped = f.stopped ∧ s.holder = f.holder

theorem Follows.start (outer : Bool) : Follows ⟨outer, .start⟩ (.start outer) := by
  refine ⟨?_, rfl, rfl, nofun⟩
  constructor <;> simp [Invocation.start, MainPc.stops]

/-! ## §2 Steps that leave the members alone -/

/-- A place where nothing is constructed or destroyed. -/
def MainPc.living : MainPc → Bool
  | .entry | .opening | .attaching => false
  | pc => !pc.destroying

theorem MainPc.living_script {pc : MainPc} (h : pc.living = true) (inner : Bool) :
    pc.script inner = [] := by
  cases pc <;> first | rfl | cases h

theorem MainPc.living_destroying {pc : MainPc} (h : pc.living = true) : pc.destroying = false := by
  cases pc <;> first | rfl | cases h

theorem MainPc.living_stops {pc : MainPc} (h : pc.living = true) : pc.stops = false := by
  cases pc <;> first | rfl | cases h

namespace Invocation

/-- The step neither constructs nor destroys. -/
def MainLabel.idle : MainLabel → Bool
  | .entryCheck | .getInner | .openConnection _ | .startForwarder _ | .lockStop | .setStop
  | .notify | .join | .freeForwarder | .freeInner => false
  | _ => true

section Effects

variable {outer : Bool} {v v' : Invocation} {l : MainLabel}

theorem mainStep_idle (hl : l.idle = true) (h : mainStep outer v l = some v') :
    v.pc.living = true ∧ v'.pc.living = true ∧ v'.inner.isSome = v.inner.isSome ∧
      v'.forwarder = v.forwarder := by
  unfold mainStep at h
  split at h <;> grind [answer, MainLabel.idle, MainPc.living, MainPc.destroying]

theorem mainStep_fault (h : mainStep outer v l = some v') : v'.fault = v.fault := by
  unfold mainStep at h
  split at h <;> grind [answer]

theorem Placed.living (hliving : v.pc.living = true)
    (hinner : v.forwarder.isSome → v.inner.isSome) : Placed v := by
  constructor
  · intro hpc
    rw [hpc] at hliving
    cases hliving
  · intro hpc
    rw [hpc] at hliving
    cases hliving
  · intro hpc
    rw [hpc] at hliving
    cases hliving
  · intro hstops
    rw [MainPc.living_stops hliving] at hstops
    cases hstops
  · intro o hpc
    rw [hpc] at hliving
    cases hliving
  · exact hinner

theorem Placed.ended {o : Outcome} (hpc : v.pc = .ended o) (hforwarder : v.forwarder = none) :
    Placed v := by
  constructor <;> simp [hpc, hforwarder, MainPc.stops]

/-- The places at which the forwarder is being stopped. -/
theorem Placed.stopping (hstops : v.pc.stops = true) (hforwarder : v.forwarder.isSome)
    (hinner : v.inner.isSome) : Placed v := by
  constructor
  · intro hpc
    rw [hpc] at hstops
    cases hstops
  · intro hpc
    rw [hpc] at hstops
    cases hstops
  · intro hpc
    rw [hpc] at hstops
    cases hstops
  · exact fun _ => hforwarder
  · intro o hpc
    rw [hpc] at hstops
    cases hstops
  · exact fun _ => hinner

/-- Without a connection there is no forwarder. -/
theorem Placed.forwarder_eq_none (hv : Placed v) (hinner : v.inner = none) :
    v.forwarder = none := by
  cases hforwarder : v.forwarder with
  | none => rfl
  | some f =>
    have hsome := hv.inner (hforwarder ▸ rfl)
    rw [hinner] at hsome
    cases hsome

/-- While the forwarder is being stopped both are there. -/
theorem Placed.both (hv : Placed v) (hstops : v.pc.stops = true) :
    (∃ f, v.forwarder = some f) ∧ ∃ flag, v.inner = some flag := by
  have hforwarder := hv.stops hstops
  exact ⟨Option.isSome_iff_exists.mp hforwarder, Option.isSome_iff_exists.mp (hv.inner hforwarder)⟩

end Effects

end Invocation

variable {b b' : Bridge} {s : Teardown}

/-- Between two living places the members stay as they are. -/
theorem Follows.of_living (hf : Follows b s) {v : Invocation} (hpc : b.inv.pc.living = true)
    (hliving : v.pc.living = true) (hinner : v.inner.isSome = b.inv.inner.isSome)
    (hforwarder : v.forwarder = b.inv.forwarder) (hthread : v.thread = b.inv.thread)
    (hfault : v.fault = b.inv.fault) : Follows { b with inv := v } s := by
  have hmembers : v.members = b.inv.members := by
    funext outer stopped holder joined
    simp only [Invocation.members, Invocation.alive, hinner, hforwarder, hthread,
      MainPc.living_script hpc, MainPc.living_script hliving, MainPc.living_destroying hpc,
      MainPc.living_destroying hliving]
  constructor
  · apply Invocation.Placed.living hliving
    rw [hinner, hforwarder]
    exact hf.placed.inner
  · exact hfault.trans hf.fault
  · rw [hmembers]
    exact hf.members
  · intro f hsome
    exact hf.forwarder f (hforwarder ▸ hsome)

/-! ## §3 Steps of the main thread -/

namespace Invocation

section Lifecycle

variable {outer : Bool} {v v' : Invocation} {failure : Option Bytes}

theorem entryCheck_eq (h : mainStep outer v .entryCheck = some v') :
    v.pc = .entry ∧ v' = { v with pc := if outer then .ended .interrupted else .rust } := by
  unfold mainStep at h
  split at h <;> grind

theorem getInner_eq (h : mainStep outer v .getInner = some v') :
    v.pc = .getInner ∧ (v' = v.answer (.failed .interrupted) ∨
      v' = { v with pc := if v.inner.isNone then .opening else .querying }) := by
  unfold mainStep at h
  split at h <;> grind

theorem openConnection_eq (h : mainStep outer v (.openConnection failure) = some v') :
    v.pc = .opening ∧
      ((failure = none ∧ v' = { v with inner := some false, pc := .attaching }) ∨
        ∃ what, v' = v.answer (.failed (.engine ⟨false, what⟩))) := by
  unfold mainStep at h
  split at h <;> grind

theorem startForwarder_eq (h : mainStep outer v (.startForwarder failure) = some v') :
    v.pc = .attaching ∧
      ((failure = none ∧ v' = { v with
        forwarder := some { stopped := false, holder := none }
        thread := .starting
        pc := .querying }) ∨
        ∃ what, v' = v.answer (.failed (.engine ⟨false, what⟩))) := by
  unfold mainStep at h
  split at h <;> grind

theorem lockStop_eq (h : mainStep outer v .lockStop = some v') :
    ∃ o, v.pc = .teardown o ∧
      ((v.forwarder = none ∧ v' = { v with pc := .closing o }) ∨
        ∃ f, v.forwarder = some f ∧ f.holder = none ∧
          v' = { v with
            forwarder := some { f with holder := some .main }
            pc := .stopping o }) := by
  unfold mainStep at h
  split at h <;> grind

theorem setStop_eq (h : mainStep outer v .setStop = some v') :
    ∃ o, v.pc = .stopping o ∧ v' = { v with
      forwarder := v.forwarder.map fun _ => { stopped := true, holder := none }
      pc := .notifying o } := by
  unfold mainStep at h
  split at h <;> grind

theorem notify_eq (h : mainStep outer v .notify = some v') :
    ∃ o, v.pc = .notifying o ∧ v' = { v with pc := .joining o } := by
  unfold mainStep at h
  split at h <;> grind

theorem join_eq (h : mainStep outer v .join = some v') :
    ∃ o, v.pc = .joining o ∧ v.thread = .exited ∧ v' = { v with pc := .freeing o } := by
  unfold mainStep at h
  split at h <;> grind

theorem freeForwarder_eq (h : mainStep outer v .freeForwarder = some v') :
    ∃ o, v.pc = .freeing o ∧ v' = { v with forwarder := none, pc := .closing o } := by
  unfold mainStep at h
  split at h <;> grind

theorem freeInner_eq (h : mainStep outer v .freeInner = some v') :
    ∃ o, v.pc = .closing o ∧ v' = { v with inner := none, pc := .ended o } := by
  unfold mainStep at h
  split at h <;> grind

end Lifecycle

end Invocation

/-- A run on the members that keeps up with the main thread. -/
def KeepsUp (b : Bridge) (s : Teardown) (v : Invocation) : Prop :=
  ∃ tr s', teardown.run s tr = some s' ∧ Follows { b with inv := v } s'

theorem KeepsUp.idle {v : Invocation} (h : Follows { b with inv := v } s) : KeepsUp b s v :=
  ⟨[], s, rfl, h⟩

section Keeping

open Invocation

variable {v : Invocation}

theorem Follows.entryCheck (hf : Follows b s) (h : mainStep b.outer b.inv .entryCheck = some v) :
    KeepsUp b s v := by
  obtain ⟨outer, pc, inner, forwarder, thread, streams, answers, fault⟩ := b
  obtain ⟨hplaced, hfault, hs, hforwarder⟩ := hf
  obtain ⟨⟨⟩, rfl⟩ := entryCheck_eq h
  obtain rfl : inner = none := hplaced.entry rfl
  obtain rfl : forwarder = none := hplaced.forwarder_eq_none rfl
  cases outer with
  | false => exact .idle ⟨.living rfl nofun, hfault, hs, nofun⟩
  -- nothing has been built, so `~BridgeCtx` has nothing to do
  | true => exact ⟨[.destroy], _, by rw [hs]; rfl, .ended rfl rfl, hfault, rfl, nofun⟩

theorem Follows.getInner (hf : Follows b s) (h : mainStep b.outer b.inv .getInner = some v) :
    KeepsUp b s v := by
  obtain ⟨hpc, hv⟩ := getInner_eq h
  have hliving : b.inv.pc.living = true := by
    rw [hpc]
    rfl
  rcases hv with rfl | rfl
  · exact .idle (hf.of_living hliving rfl rfl rfl rfl rfl)
  obtain ⟨outer, pc, inner, forwarder, thread, streams, answers, fault⟩ := b
  obtain ⟨hplaced, hfault, hs, hforwarder⟩ := hf
  subst hpc
  cases inner with
  | none =>
    obtain rfl : forwarder = none := hplaced.forwarder_eq_none rfl
    exact ⟨[.getInner], _, by rw [hs]; rfl, ⟨nofun, fun _ => rfl, nofun, nofun, nofun, nofun⟩,
      hfault, rfl, nofun⟩
  | some flag => exact .idle ⟨.living rfl hplaced.inner, hfault, hs, hforwarder⟩

theorem Follows.openConnection (hf : Follows b s) {failure : Option Bytes}
    (h : mainStep b.outer b.inv (.openConnection failure) = some v) : KeepsUp b s v := by
  obtain ⟨outer, pc, inner, forwarder, thread, streams, answers, fault⟩ := b
  obtain ⟨hplaced, hfault, hs, hforwarder⟩ := hf
  obtain ⟨⟨⟩, hv⟩ := openConnection_eq h
  obtain rfl : inner = none := hplaced.opening rfl
  obtain rfl : forwarder = none := hplaced.forwarder_eq_none rfl
  rcases hv with ⟨-, rfl⟩ | ⟨what, rfl⟩
  · exact ⟨[.act], _, by rw [hs]; rfl, ⟨nofun, nofun, fun _ => ⟨rfl, rfl⟩, nofun, nofun, nofun⟩,
      hfault, rfl, nofun⟩
  · exact ⟨[.fail], _, by rw [hs]; rfl, .living rfl nofun, hfault, rfl, nofun⟩

theorem Follows.startForwarder (hf : Follows b s) {failure : Option Bytes}
    (h : mainStep b.outer b.inv (.startForwarder failure) = some v) : KeepsUp b s v := by
  obtain ⟨outer, pc, inner, forwarder, thread, streams, answers, fault⟩ := b
  obtain ⟨hplaced, hfault, hs, hforwarder⟩ := hf
  obtain ⟨⟨⟩, hv⟩ := startForwarder_eq h
  obtain ⟨rfl, hsome⟩ : forwarder = none ∧ inner.isSome := hplaced.attaching rfl
  obtain ⟨flag, rfl⟩ := Option.isSome_iff_exists.mp hsome
  rcases hv with ⟨-, rfl⟩ | ⟨what, rfl⟩
  · refine ⟨List.replicate 6 .act, _, by rw [hs]; rfl, .living rfl fun _ => rfl, hfault, rfl, ?_⟩
    rintro f ⟨⟩
    exact ⟨rfl, rfl⟩
  -- the connection stays, without a forwarder
  · exact ⟨[.fail], _, by rw [hs]; rfl, .living rfl nofun, hfault, rfl, nofun⟩

theorem Follows.lockStop (hf : Follows b s) (h : mainStep b.outer b.inv .lockStop = some v) :
    KeepsUp b s v := by
  obtain ⟨outer, pc, inner, forwarder, thread, streams, answers, fault⟩ := b
  obtain ⟨hplaced, hfault, hs, hforwarder⟩ := hf
  obtain ⟨o, ⟨⟩, hv⟩ := lockStop_eq h
  rcases hv with ⟨⟨⟩, rfl⟩ | ⟨f, ⟨⟩, hfree, rfl⟩
  · cases inner with
    | none =>
      exact ⟨[.destroy], _, by rw [hs]; rfl, ⟨nofun, nofun, nofun, nofun, fun _ _ => rfl, nofun⟩,
        hfault, rfl, nofun⟩
    | some flag =>
      exact ⟨[.destroy], _, by rw [hs]; rfl, ⟨nofun, nofun, nofun, nofun, fun _ _ => rfl, nofun⟩,
        hfault, rfl, nofun⟩
  · obtain ⟨flag, rfl⟩ := Option.isSome_iff_exists.mp (hplaced.inner rfl)
    obtain ⟨hstop, hholder⟩ := hforwarder f rfl
    have hnone : s.holder = none := hholder.trans hfree
    rw [hnone] at hs
    refine ⟨[.destroy, .act], _, by rw [hs]; rfl, .stopping rfl rfl rfl, hfault, rfl, ?_⟩
    rintro g ⟨⟩
    exact ⟨hstop, rfl⟩

theorem Follows.setStop (hf : Follows b s) (h : mainStep b.outer b.inv .setStop = some v) :
    KeepsUp b s v := by
  obtain ⟨outer, pc, inner, forwarder, thread, streams, answers, fault⟩ := b
  obtain ⟨hplaced, hfault, hs, hforwarder⟩ := hf
  obtain ⟨o, ⟨⟩, rfl⟩ := setStop_eq h
  obtain ⟨⟨f, ⟨⟩⟩, flag, ⟨⟩⟩ := hplaced.both rfl
  refine ⟨[.act, .act], _, by rw [hs]; rfl, .stopping rfl rfl rfl, hfault, rfl, ?_⟩
  rintro g ⟨⟩
  exact ⟨rfl, rfl⟩

theorem Follows.notify (hf : Follows b s) (h : mainStep b.outer b.inv .notify = some v) :
    KeepsUp b s v := by
  obtain ⟨outer, pc, inner, forwarder, thread, streams, answers, fault⟩ := b
  obtain ⟨hplaced, hfault, hs, hforwarder⟩ := hf
  obtain ⟨o, ⟨⟩, rfl⟩ := notify_eq h
  obtain ⟨⟨f, ⟨⟩⟩, flag, ⟨⟩⟩ := hplaced.both rfl
  refine ⟨[.act], _, by rw [hs]; rfl, .stopping rfl rfl rfl, hfault, rfl, ?_⟩
  exact hforwarder

theorem Follows.join (hf : Follows b s) (h : mainStep b.outer b.inv .join = some v) :
    KeepsUp b s v := by
  obtain ⟨outer, pc, inner, forwarder, thread, streams, answers, fault⟩ := b
  obtain ⟨hplaced, hfault, hs, hforwarder⟩ := hf
  obtain ⟨o, ⟨⟩, ⟨⟩, rfl⟩ := join_eq h
  obtain ⟨⟨f, ⟨⟩⟩, flag, ⟨⟩⟩ := hplaced.both rfl
  refine ⟨[.act], _, by rw [hs]; rfl, .stopping rfl rfl rfl, hfault, rfl, ?_⟩
  exact hforwarder

theorem Follows.freeForwarder (hf : Follows b s)
    (h : mainStep b.outer b.inv .freeForwarder = some v) : KeepsUp b s v := by
  obtain ⟨outer, pc, inner, forwarder, thread, streams, answers, fault⟩ := b
  obtain ⟨hplaced, hfault, hs, hforwarder⟩ := hf
  obtain ⟨o, ⟨⟩, rfl⟩ := freeForwarder_eq h
  obtain ⟨⟨f, ⟨⟩⟩, flag, ⟨⟩⟩ := hplaced.both rfl
  exact ⟨List.replicate 6 .act, _, by rw [hs]; rfl,
    ⟨nofun, nofun, nofun, nofun, fun _ _ => rfl, nofun⟩, hfault, rfl, nofun⟩

theorem Follows.freeInner (hf : Follows b s) (h : mainStep b.outer b.inv .freeInner = some v) :
    KeepsUp b s v := by
  obtain ⟨outer, pc, inner, forwarder, thread, streams, answers, fault⟩ := b
  obtain ⟨hplaced, hfault, hs, hforwarder⟩ := hf
  obtain ⟨o, ⟨⟩, rfl⟩ := freeInner_eq h
  obtain rfl : forwarder = none := hplaced.closing o rfl
  cases inner with
  | none => exact .idle ⟨.ended rfl rfl, hfault, hs, nofun⟩
  | some flag => exact ⟨[.act], _, by rw [hs]; rfl, .ended rfl rfl, hfault, rfl, nofun⟩

/-- Each step of the main thread is a run on the members. -/
theorem follows_main {l : MainLabel} (hf : Follows b s)
    (h : mainStep b.outer b.inv l = some v) : KeepsUp b s v := by
  cases hl : l.idle with
  | true =>
    obtain ⟨hpc, hliving, hinner, hforwarder⟩ := mainStep_idle hl h
    have hthread : v.thread = b.inv.thread := by
      rcases mainStep_thread h with hsame | ⟨hattaching, -⟩
      · exact hsame
      · rw [hattaching] at hpc
        cases hpc
    exact .idle (hf.of_living hpc hliving hinner hforwarder hthread (mainStep_fault h))
  | false =>
    cases l with
    | entryCheck => exact hf.entryCheck h
    | getInner => exact hf.getInner h
    | openConnection failure => exact hf.openConnection h
    | startForwarder failure => exact hf.startForwarder h
    | lockStop => exact hf.lockStop h
    | setStop => exact hf.setStop h
    | notify => exact hf.notify h
    | join => exact hf.join h
    | freeForwarder => exact hf.freeForwarder h
    | freeInner => exact hf.freeInner h
    | _ => cases hl

/-! ## §4 Steps of the thread -/

theorem threadStep_offers {outer : Bool} {u : Invocation} {t : ThreadLabel}
    (h : threadStep outer u t = some v) : Teardown.offers u.thread t = true := by
  unfold threadStep at h
  split at h <;> grind [Teardown.offers]

theorem Placed.of_thread {u : Invocation} (hu : Placed u) (hpc : v.pc = u.pc)
    (hinner : v.inner.isSome = u.inner.isSome)
    (hforwarder : v.forwarder.isSome = u.forwarder.isSome) : Placed v := by
  obtain ⟨hentry, hopening, hattaching, hstops, hclosing, hyoung⟩ := hu
  have hnone : v.inner = none ↔ u.inner = none := by
    rw [← Option.not_isSome_iff_eq_none, ← Option.not_isSome_iff_eq_none, hinner]
  have hnone' : v.forwarder = none ↔ u.forwarder = none := by
    rw [← Option.not_isSome_iff_eq_none, ← Option.not_isSome_iff_eq_none, hforwarder]
  constructor
  · rw [hpc, hnone]
    exact hentry
  · rw [hpc, hnone]
    exact hopening
  · rw [hpc, hnone', hinner]
    exact hattaching
  · rw [hpc, hforwarder]
    exact hstops
  · simp only [hpc, hnone']
    exact hclosing
  · rw [hinner, hforwarder]
    exact hyoung

/-- A step of the thread is the same step on the members. -/
theorem follows_thread {t : ThreadLabel} (hf : Follows b s) (hsound : s.Sound)
    (h : threadStep b.outer b.inv t = some v) : KeepsUp b s v := by
  have hoffer := threadStep_offers h
  have hthread : s.thread = b.inv.thread := by rw [hf.members]; rfl
  have halive : s.alive = b.inv.alive := by rw [hf.members]; rfl
  -- while the thread runs everything is alive
  have hall : ∀ m, m ∈ b.inv.alive := by
    intro m
    rw [← halive]
    exact hsound.all_alive (hthread ▸ hoffer) m
  have hmembers := hf.members
  obtain ⟨outer, pc, inner, forwarder, thread, streams, answers, fault⟩ := b
  obtain ⟨hplaced, hfault, hs, hforwarder⟩ := hf
  obtain ⟨f, rfl⟩ : ∃ f, forwarder = some f := by
    cases forwarder with
    | some f => exact ⟨f, rfl⟩
    | none =>
      have hworker := hall .worker
      cases inner <;> simp [Invocation.alive] at hworker
  obtain ⟨flag, rfl⟩ : ∃ flag, inner = some flag := by
    exact Option.isSome_iff_exists.mp (hplaced.inner rfl)
  obtain ⟨hstop, hholder⟩ := hforwarder f rfl
  have hplaced' := fun w hpc hinner hforwarder =>
    @Placed.of_thread w _ hplaced hpc hinner hforwarder
  cases t with
  | lock =>
    cases thread <;> cases hoffer
    obtain ⟨hfree, ⟨⟩⟩ := Option.ite_none_right_eq_some.mp h
    rw [hholder, hfree] at hs
    refine ⟨[.thread .lock], _, by rw [hs]; rfl, hplaced' _ rfl rfl rfl, hfault, rfl, ?_⟩
    rintro g ⟨⟩
    exact ⟨hstop, rfl⟩
  | test =>
    cases thread <;> cases hoffer
    obtain ⟨stopped, holder⟩ := f
    obtain rfl : s.stopped = stopped := hstop
    cases hset : s.stopped with
    | true =>
      rw [hset] at hs
      simp only [threadStep, withForwarder, hset, if_true] at h
      obtain rfl := Option.some.inj h
      refine ⟨[.thread .test], _, by rw [hs]; rfl, hplaced' _ rfl rfl rfl, hfault, rfl, ?_⟩
      rintro g ⟨⟩
      exact ⟨rfl, rfl⟩
    | false =>
      rw [hset] at hs
      simp only [threadStep, withForwarder, hset] at h
      obtain rfl := Option.some.inj h
      refine ⟨[.thread .test], _, by rw [hs]; rfl, hplaced' _ rfl rfl rfl, hfault, rfl, ?_⟩
      rintro g ⟨⟩
      exact ⟨rfl, hholder⟩
  | read =>
    cases thread <;> cases hoffer
    obtain rfl := Option.some.inj h
    refine ⟨[.thread .read], _, by rw [hs]; rfl, hplaced' _ rfl rfl rfl, hfault, rfl, ?_⟩
    exact hforwarder
  | interrupt =>
    cases thread <;> cases hoffer
    obtain rfl := Option.some.inj h
    refine ⟨[.thread .interrupt], _, by rw [hs]; rfl, hplaced' _ rfl rfl rfl, hfault, rfl, ?_⟩
    exact hforwarder
  | pause =>
    cases thread <;> cases hoffer
    obtain ⟨stopped, holder⟩ := f
    obtain rfl : s.stopped = stopped := hstop
    cases hset : s.stopped with
    | true =>
      rw [hset] at hs
      simp only [threadStep, withForwarder, hset, if_true] at h
      obtain rfl := Option.some.inj h
      refine ⟨[.thread .pause], _, by rw [hs]; rfl, hplaced' _ rfl rfl rfl, hfault, rfl, ?_⟩
      rintro g ⟨⟩
      exact ⟨rfl, hholder⟩
    | false =>
      rw [hset] at hs
      simp only [threadStep, withForwarder, hset] at h
      obtain rfl := Option.some.inj h
      refine ⟨[.thread .pause], _, by rw [hs]; rfl, hplaced' _ rfl rfl rfl, hfault, rfl, ?_⟩
      rintro g ⟨⟩
      exact ⟨rfl, rfl⟩
  | wake timedOut =>
    cases thread <;> cases hoffer
    obtain ⟨hfree, hwake⟩ := Option.ite_none_right_eq_some.mp h
    obtain ⟨stopped, holder⟩ := f
    obtain rfl : s.stopped = stopped := hstop
    rw [hholder, hfree] at hs
    have hmove : s.move (.wake timedOut) =
        if s.stopped ∨ timedOut then some { s with holder := some .worker, thread := .testing }
        else some s := if_pos (hholder.trans hfree)
    have hrun : ∀ s', s.move (.wake timedOut) = some s' →
        teardown.run s [.thread (.wake timedOut)] = some s' := by
      intro s' hs'
      rw [Machine.run_single, ← hs']
      show s.threadStep (.wake timedOut) = _
      unfold Teardown.threadStep
      rw [if_pos (hthread ▸ rfl), if_pos fun m _ => halive ▸ hall m]
    split at hwake
    next hwoken =>
      obtain rfl := Option.some.inj hwake
      rw [if_pos hwoken] at hmove
      refine ⟨_, _, hrun _ hmove, hplaced' _ rfl rfl rfl, hfault, ?_, ?_⟩
      · rw [hs]
        rfl
      · rintro g ⟨⟩
        exact ⟨rfl, rfl⟩
    next hspurious =>
      obtain rfl := Option.some.inj hwake
      rw [if_neg hspurious] at hmove
      refine ⟨_, _, hrun _ hmove, hplaced, hfault, ?_, hforwarder⟩
      exact hmembers

end Keeping

/-! ## §5 Runs -/

theorem follows_step {l : BridgeLabel} (hf : Follows b s) (hsound : s.Sound)
    (h : bridge.step b l = some b') :
    ∃ tr s', teardown.run s tr = some s' ∧ Follows b' s' := by
  cases l with
  | interrupt =>
    obtain rfl := Option.some.inj h
    refine ⟨[.interrupt], { s with outerFlag := true }, rfl, hf.placed, hf.fault, ?_,
      hf.forwarder⟩
    rw [hf.members]
    rfl
  | main l =>
    obtain ⟨v, hv, rfl⟩ := Option.map_eq_some_iff.mp h
    exact follows_main hf hv
  | thread t =>
    obtain ⟨v, hv, rfl⟩ := Option.map_eq_some_iff.mp h
    exact follows_thread hf hsound hv

/-- **An invocation is a run on its members**: behind every state that an invocation reaches
stand members that some interleaving of single actions reaches. -/
theorem bridge_follows (h : bridge.Reachable b) : ∃ s, teardown.Reachable s ∧ Follows b s := by
  refine h.invariant (fun b => ∃ s, teardown.Reachable s ∧ Follows b s) ?_ ?_
  · rintro ⟨outer, inv⟩ hstart
    obtain rfl : inv = .start := hstart
    exact ⟨_, .of_init ⟨outer, rfl⟩, .start outer⟩
  · rintro b l b' ⟨s, hs, hf⟩ hstep
    obtain ⟨tr, s', hrun, hf'⟩ := follows_step hf (Teardown.sound_of_reachable hs) hstep
    exact ⟨s', hs.run hrun, hf'⟩

/-- **No step of an invocation touches a destroyed object.** -/
theorem bridge_faultless (h : bridge.Reachable b) : b.inv.fault = false := by
  obtain ⟨s, -, hf⟩ := bridge_follows h
  exact hf.fault

end GgsqlDuckdb
