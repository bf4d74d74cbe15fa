import Swarmada.Api.FleetAction
import Swarmada.Api.ZoneRestrictions

namespace Swarmada.Api

inductive ZoneMaintenanceMode where
  | graceful | immediate
deriving DecidableEq, Repr

def ZoneMaintenanceMode.text : ZoneMaintenanceMode → String
  | .graceful => "Graceful"
  | .immediate => "Immediate"

inductive ZoneMaintenancePhase where
  | unset | scheduled | active | completed | cancelled
deriving DecidableEq, Repr

inductive ZoneMaintenanceDesiredState where
  | active | completed
deriving DecidableEq, Repr

/-- The zone name counts only under the type Zone. -/
inductive ZoneMaintenanceScope where
  | namespace
  | zone (zoneName : String)
deriving DecidableEq, Repr

def ZoneMaintenanceScope.zoneName : ZoneMaintenanceScope → String
  | .namespace => ""
  | .zone zoneName => zoneName

structure PausedRobotEntry where
  name : String
  pausedAt : Nat
deriving DecidableEq, Repr

structure WindingDownRobot where
  name : String
  assignedAction : String
deriving DecidableEq, Repr

structure ContinuousCapabilityEntry where
  robotName : String
  capabilities : List String
deriving DecidableEq, Repr

structure ZoneMaintenanceSpec where
  scope : ZoneMaintenanceScope
  mode : ZoneMaintenanceMode := .graceful
  desiredState : ZoneMaintenanceDesiredState := .active
  reason : String := ""
  scheduledStart : Option Nat := none
  autoResumeAfterMinutes : Nat := 0
  requireEstopClearBeforeResume : Option Bool := none
deriving DecidableEq, Repr

structure ZoneMaintenanceStatus where
  phase : ZoneMaintenancePhase := .unset
  activatedAt : Option Nat := none
  completedAt : Option Nat := none
  autoResumeAt : Option Nat := none
  pausedRobots : List PausedRobotEntry := []
  windingDownRobots : List WindingDownRobot := []
  continuousCapabilities : List ContinuousCapabilityEntry := []
  scopeResolved : Option Condition := none
  resumeBlockedByEstop : Option Condition := none
deriving DecidableEq, Repr

structure ZoneMaintenance where
  name : String
  /-- `swarmada.io/zonemaintenance-resume` is on the object -/
  finalizer : Bool := false
  deleting : Bool := false
  spec : ZoneMaintenanceSpec
  status : ZoneMaintenanceStatus := {}
deriving DecidableEq, Repr

inductive ZoneEstopStatus where
  | unset | clear | triggered | childTriggered
deriving DecidableEq, Repr

structure CompositeZone extends FleetZone where
  memberZones : List String := []
  estopStatus : ZoneEstopStatus := .unset
deriving DecidableEq, Repr

inductive MemberResolutionReason where
  | notFound | cycle | depthExceeded
deriving DecidableEq, Repr

def MemberResolutionReason.text : MemberResolutionReason → String
  | .notFound => "NotFound"
  | .cycle => "Cycle"
  | .depthExceeded => "DepthExceeded"

structure UnresolvedMember where
  name : String
  reason : MemberResolutionReason
deriving DecidableEq, Repr

structure MaintenanceConfig where
  defaultGracefulDrainTimeoutSeconds : Nat := 0
  requireEstopClearBeforeResume : Option Bool := none
deriving DecidableEq, Repr

end Swarmada.Api
