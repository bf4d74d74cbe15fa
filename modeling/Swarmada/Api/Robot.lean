import Mathlib.Data.List.Dedup
import Mathlib.Data.List.Sort

/-! # The Robot object

The part of the `Robot` resource the emergency-stop protocol reads and writes.
Times are natural numbers on one clock, and the Kubernetes names are strings.
-/

namespace Swarmada.Api

inductive RobotEstopState where
  | unset | normal | stopping | stopped | failed | resuming
deriving DecidableEq, Repr

inductive EstopHoldKind where
  | fleetZone | swarmadaConfig
deriving DecidableEq, Repr

structure EstopHold where
  kind : EstopHoldKind
  name : String
  uid : String := ""
deriving DecidableEq, Repr

inductive StopScope where
  | robot | zone | namespace | reported | endState
deriving DecidableEq, Repr

inductive StopCarrierKind where
  | robot | fleetZone | swarmadaConfig
deriving DecidableEq, Repr

structure StopCarrier where
  kind : StopCarrierKind
  name : String
  uid : String := ""
deriving DecidableEq, Repr

structure RobotStop where
  id : String
  scope : StopScope
  carrier : Option StopCarrier
  sentAt : Nat
  acknowledgedAt : Option Nat := none
  clearedAt : Option Nat := none
deriving DecidableEq, Repr

def uncleared (stops : List RobotStop) : List String :=
  (stops.filter (fun stop => stop.clearedAt.isNone)).map RobotStop.id

inductive CapabilityStatus where
  | active | degraded | paused | inactive | unavailable | failed
deriving DecidableEq, Repr

structure CapabilityStatusEntry where
  name : String
  status : CapabilityStatus
  paused : Bool := false
deriving DecidableEq, Repr

structure EstopBaseline where
  activeCapabilities : List String
  recordedAt : Nat
deriving DecidableEq, Repr

structure Robot where
  ns : String
  name : String
  uid : String := ""
  annotations : List (String × String) := []
  finalizers : List String := []
  deleting : Bool := false
  adapter : String := ""
  zone : String := ""
  currentZone : String := ""
  containingZones : List String := []
  specZoneMatchesCurrent : Option Bool := none
  estopState : RobotEstopState := .unset
  estopHeldBy : List EstopHold := []
  stops : List RobotStop := []
  estopBaseline : Option EstopBaseline := none
  capabilities : List CapabilityStatusEntry := []
deriving DecidableEq, Repr

/-- The estop trigger on every carrier; its presence counts, whatever its value. -/
def triggerAnnotation : String := "swarmada.io/estop-triggered"

def processedAnnotation : String := "swarmada.io/estop-processed"

def robotIDAnnotation : String := "swarmada.io/robot-id"

namespace Robot

def trigger (robot : Robot) : Option String :=
  robot.annotations.lookup triggerAnnotation

/-- The robot_id its adapter knows it by: the annotation, or the object name without one. -/
def wire (robot : Robot) : String :=
  match robot.annotations.lookup robotIDAnnotation with
  | some id => if id = "" then robot.name else id
  | none => robot.name

def inStopState (robot : Robot) : Bool :=
  match robot.estopState with
  | .stopping | .stopped | .failed => true
  | .unset | .normal | .resuming => false

def unclearedStops (robot : Robot) : List String :=
  uncleared robot.stops

theorem mem_unclearedStops {robot : Robot} {id : String} : id ∈ robot.unclearedStops ↔
      ∃ stop ∈ robot.stops, stop.clearedAt = none ∧ stop.id = id := by
  simp [unclearedStops, uncleared, and_assoc]

end Robot

end Swarmada.Api
