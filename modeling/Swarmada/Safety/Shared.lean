import Swarmada.Command.Held
import Swarmada.Safety.Clear
import Swarmada.Transition.Pool
import Swarmada.Transition.Versioned

/-! # What the goroutines of one robot share

One control-plane process that leads, and one Robot of it.  The Robot is stored at
the API server, whose status writes are a compare-and-swap on `resourceVersion`
and either land or fail; a read past the cache returns the stored object and a
cached read any version of it so far.  The rest is the dispatchers' own memory:
the estop ordering record with its write lock, the stops sent and not yet recorded,
and the stops in force for the robot's AssignActions.

Each of the calls that run on it, an outcome write, a clear, a stop's record, an
edit of the record and a fence, is a thread; a step is what happens between two
points at which another goroutine can be seen.
-/

namespace Swarmada.Safety

open Api Transition

structure EstopOrder where
  issued : Nat := 0
  lastStop : Nat := 0
  lastClear : Nat := 0
  stoppedBy : Nat := 0
deriving DecidableEq, Repr

namespace EstopOrder

def issueEstopEpoch (order : EstopOrder) (stop : Bool) : EstopOrder :=
  { order with
    issued := order.issued + 1
    lastStop := if stop then order.issued + 1 else order.lastStop }

def issueClearEpoch (order : EstopOrder) : EstopOrder :=
  { order with issued := order.issued + 1, lastClear := order.issued + 1 }

def supersededByLaterStop (order : EstopOrder) (epoch : Nat) : Bool :=
  order.lastStop > epoch

end EstopOrder

inductive CallKind where
  | trigger | resume | clear
deriving DecidableEq, Repr

inductive Event where
  | issued (kind : CallKind) (epoch : Nat)
  | read (thread : Nat)
  | wrote (thread : Nat) (kind : CallKind) (epoch : Nat) (state : RobotEstopState)
  | confirmed (epoch : Nat)
  | outcomeSuperseded (epoch : Nat)
  | tracked (thread : Nat) (id : String)
  | ended (version : Nat) (ids : List String)
  | recorded (id : String)
  | recordFull (id : String)
  | heldCleared (version : Nat) (ids : List String)
deriving DecidableEq, Repr

structure Shared where
  cell : Versioned Robot
  past : List (Versioned Robot) := []
  order : EstopOrder := {}
  writer : Option Nat := none
  seen : List String := []
  records : String → Option StopRecord := fun _ => none
  inflight : List String := []
  /-- the stops in force for the robot's AssignActions (`command.Dispatcher`) -/
  held : List String := []
  path : ClearPath := .hold
  leading : Bool := true

namespace Shared

variable (shared : Shared)

def cached (age : Nat) : Option (Versioned Robot) :=
  (shared.cell :: shared.past)[age]?

/-- A status patch under the `resourceVersion` of the Robot it was computed from. -/
def patch (base : Versioned Robot) (next : Robot) : Option Shared :=
  match shared.cell.swap base next with
  | none => none
  | some cell => some { shared with cell, past := shared.cell :: shared.past }

theorem patch_eq_some {shared after : Shared} {base : Versioned Robot} {next : Robot}
    (patched : shared.patch base next = some after) :
    base.version = shared.cell.version ∧
      after = { shared with cell := shared.cell.write next, past := shared.cell :: shared.past } := by
  unfold patch at patched
  cases swapped : shared.cell.swap base next with
  | none => simp [swapped] at patched
  | some =>
    obtain ⟨same, rfl⟩ := Versioned.swap_eq_some swapped
    simp only [swapped, Option.some.injEq] at patched
    exact ⟨same, patched.symm⟩

def inflightOf : List StopRecord :=
  shared.inflight.filterMap shared.records

def unrecordedInForce : Bool :=
  shared.inflightOf.any fun record => record.clearedAt.isNone

def untrackInflight (id : String) : Shared :=
  { shared with inflight := shared.inflight.filter (· ≠ id) }

def updateRecords (ids : List String) (change : StopRecord → StopRecord) : Shared :=
  { shared with
    records := fun id => if id ∈ ids then (shared.records id).map change else shared.records id }

theorem updateRecords_eq_some {shared : Shared} {ids : List String} {change : StopRecord → StopRecord}
    {id : String} {record : StopRecord} (known : (shared.updateRecords ids change).records id = some record) :
    ∃ before, shared.records id = some before ∧ record = if id ∈ ids then change before else before := by
  simp only [updateRecords] at known
  split at known
  next member =>
    obtain ⟨before, found, rfl⟩ := Option.map_eq_some_iff.mp known
    exact ⟨before, found, by rw [if_pos member]⟩
  next absent =>
    exact ⟨record, known, by rw [if_neg absent]⟩

def inForce (stored : Robot) : Option String :=
  stopInForce shared.unrecordedInForce (Command.heldStops shared.held) stored

end Shared

end Swarmada.Safety
