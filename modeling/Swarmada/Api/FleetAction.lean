import Swarmada.Api.Robot

namespace Swarmada.Api

inductive ActionPhase
  | unset | pending | assigned | inProgress | succeeded | failed | cancelled | paused | revoking | preempted
deriving DecidableEq, Repr

inductive RobotPhase
  | discovered | idle | assigned | inProgress | charging | error | offline | maintenance
deriving DecidableEq, Repr

inductive DesiredState
  | running | paused | returning | cancelled
deriving DecidableEq, Repr

inductive ActionFailurePolicy
  | unset | requeue | alert | abandon
deriving DecidableEq, Repr

structure ActionRetryPolicy where
  maxRetries : Nat
  backoffSeconds : Nat
deriving DecidableEq, Repr

structure ActionSpec where
  desiredState : DesiredState := .running
  deadline : Option Nat := none
  timeoutSeconds : Option Nat := none
  onFailure : ActionFailurePolicy := .unset
  retryPolicy : Option ActionRetryPolicy := none
deriving DecidableEq, Repr

/-- The status messages.  A later pass reads the requeue waits and the unconfirmed pause
back; the others are compared only with the message to be written. -/
inductive ActionMessage
  | none
  | requeuing
  | requeueUnderStop (stops : List String)
  | requeueHeld (stops : List String)
  | requeueWithdrawn
  | estopPausedUnconfirmed
  | text (words : String)
deriving DecidableEq, Repr

structure FleetAction where
  name : String
  created : Nat
  deleting : Bool := false
  spec : ActionSpec := {}
  cancelRequested : Option String := none
  requeueRequested : Option String := none
  failureAlerted : Bool := false
  phase : ActionPhase := .unset
  assignedRobot : String := ""
  assignmentGeneration : Nat := 0
  leaseExpiresAt : Option Nat := none
  pendingSince : Option Nat := none
  scheduledAt : Option Nat := none
  startedAt : Option Nat := none
  disconnectedAt : Option Nat := none
  completionTime : Option Nat := none
  failedAt : Option Nat := none
  failureReason : String := ""
  retryCount : Nat := 0
  renewalHeld : Bool := false
  message : ActionMessage := .none
deriving DecidableEq, Repr

structure FleetRobot extends Robot where
  phase : RobotPhase := .discovered
  assignedAction : String := ""
deriving DecidableEq, Repr

end Swarmada.Api
