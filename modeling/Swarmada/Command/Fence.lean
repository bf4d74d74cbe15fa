import Swarmada.Command.Held
import Swarmada.Estopscope.Holder

/-! # A robot's fences and its ControlStreams

What the command dispatcher keeps for one robot: the stops in force, the send lock,
the streams of its adapters and what has been processed on each of them.  A sender is
named by the order in which its stream was registered.  Correlation of a Command with
its result is left out: no check below reads it.
-/

namespace Swarmada.Command

open Api

def below : List Nat → List Nat → Bool
  | reported :: rest, version :: others =>
    if reported = version then below rest others else reported < version
  | _, _ => false

def latchContractMin : List Nat := [1, 4, 0]

/-- A Command that lets a robot move on: the admission to a zone, or the grant of a
resource under the robot_id the grant names. -/
structure Motion where
  zone : String := ""
  resource : String := ""
  robotID : String := ""
deriving DecidableEq, Repr

def Motion.key (motion : Motion) : String :=
  if motion.zone ≠ "" then "zone/" ++ motion.zone else "resource/" ++ motion.resource

structure FenceState where
  stored : Robot
  past : List Robot := []
  streams : String → Option Nat := fun _ => none
  opened : Nat := 0
  held : List String := []
  gen : Nat := 0
  lock : Option Nat := none
  ready : List (Nat × String) := []
  registered : List (Nat × String) := []
  /-- the contract told for a sender; `some none` is a version that cannot be read -/
  contract : Nat → Option (Option (List Nat)) := fun _ => none
  withheld : List Motion := []

/-- What the ordering of AssignActions, fences and motion Commands is stated over. -/
inductive Event where
  | opened (sender : Nat)
  | added (stop : String)
  | heldCleared
  | checked (call : Nat)
  | assignSent (call sender : Nat) (wire : String)
  | fenceSent (sender : Nat) (wire stop : String)
  | clearedFenceSent (sender : Nat) (wire stop : String)
  | fencing (call sender : Nat) (wire : String) (robot : Robot)
  | ready (call sender : Nat) (wire : String)
  | motionSent (call sender : Nat) (motion : Motion)
  | holdSent (call sender : Nat) (motion : Motion)
deriving DecidableEq

namespace FenceState

variable (state : FenceState)

/-- The Robot as some reader may see it: version `0` is the stored one. -/
def version (age : Nat) : Option Robot := (state.stored :: state.past)[age]?

def addHeld (stop : String) : FenceState :=
  { state with held := Command.addHeld state.held stop, gen := state.gen + 1 }

def clearHeld : FenceState := { state with held := [] }

def locked (call : Nat) : FenceState := { state with lock := some call }

def unlocked : FenceState := { state with lock := none }

def markReady (sender : Nat) (wire : String) : FenceState :=
  { state with ready := (sender, wire) :: state.ready }

def markRegistered (sender : Nat) (wire : String) : FenceState :=
  { state with registered := (sender, wire) :: state.registered }

def boundByLatch (sender : Nat) : Bool :=
  match state.contract sender with
  | some (some version) => !below version latchContractMin
  | some none | none => false

def registerStream (adapter : String) : FenceState :=
  { state with
    streams := Function.update state.streams adapter (some state.opened),
    opened := state.opened + 1 }

def deregister (adapter : String) (sender : Nat) : FenceState :=
  if state.streams adapter = some sender then
    { state with streams := Function.update state.streams adapter none }
  else state

def forgetStream (sender : Nat) : FenceState :=
  { state with
    ready := state.ready.filter (fun mark => mark.1 ≠ sender),
    registered := state.registered.filter (fun mark => mark.1 ≠ sender),
    contract := Function.update state.contract sender none }

def write (robot : Robot) : FenceState :=
  { state with stored := robot, past := state.stored :: state.past }

def withhold (motion : Motion) : FenceState :=
  { state with withheld := motion :: state.withheld.filter (fun other => other.key ≠ motion.key) }

def takeWithheld (motion : Motion) : FenceState :=
  { state with withheld := state.withheld.filter (fun other => other.key ≠ motion.key) }

def isWithheld (motion : Motion) : Bool :=
  state.withheld.any (fun other => other.key = motion.key)

end FenceState

end Swarmada.Command
