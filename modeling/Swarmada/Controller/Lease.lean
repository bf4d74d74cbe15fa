import Swarmada.Api.FleetAction
import Swarmada.Estopscope.Holder
import Swarmada.Executorguard.Guard

namespace Swarmada.Controller

open Api Estopscope Executorguard

inductive CancelDisposition
  | stoppedSafely | completed | recovered | stopUnconfirmed
deriving DecidableEq, Repr

inductive Reachability
  | executing | free | lost
deriving DecidableEq, Repr

inductive LeaseAction
  | renew | revoke | hold | reassign | confirmStop
deriving DecidableEq, Repr

def leaseProvablyDead (lease : Option Nat) (now skew : Nat) : Bool :=
  match lease with
  | some expires => !decide (now < expires + skew)
  | none => false

def lostPhase (phase : RobotPhase) : Bool :=
  phase == .offline || phase == .error

variable (action : FleetAction)

def classifyRobot (robot : Option FleetRobot) : Reachability :=
  match robot with
  | none => .lost
  | some robot =>
    if lostPhase robot.phase then .lost
    else if robot.assignedAction = action.name then .executing
    else .free

def evaluateLease (phase : ActionPhase) (reach : Reachability) (lease : Option Nat) (now skew : Nat) : LeaseAction :=
  match phase with
  | .assigned | .inProgress =>
    match reach with
    | .executing => .renew
    | .lost => .revoke
    | .free => .hold
  | .revoking =>
    match reach with
    | .executing => .renew
    | .free => .reassign
    | .lost => if leaseProvablyDead lease now skew then .reassign else .hold
  | .preempted =>
    match reach with
    | .executing | .free => .confirmStop
    | .lost => if leaseProvablyDead lease now skew then .reassign else .hold
  | .unset | .pending | .succeeded | .failed | .cancelled | .paused => .hold

def referenceOf : Option Nat :=
  if action.phase = .paused ∧ action.leaseExpiresAt = none then none
  else latest [some action.created, action.pendingSince, action.completionTime, action.failedAt]

def robotUnderEstop (robot : Robot) : Bool :=
  robot.inStopState || (heldOnRecord robot).isSome

def estopHoldsWork (robot : Robot) : Bool :=
  robotUnderEstop robot || robot.estopState == .resuming

def stopConfirmed (robot : Robot) : Bool := robot.estopState == .stopped

def completionDeadline : Option Nat :=
  match action.spec.timeoutSeconds, action.startedAt with
  | some seconds, some started => if 0 < seconds then some (started + seconds) else none
  | _, _ => none

def actionCompletionExpired (now : Nat) : Bool :=
  match completionDeadline action with
  | some deadline => !decide (now < deadline)
  | none => false

def reasonStopUnconfirmed : String := "StopUnconfirmed"

def reasonCapabilityLost : String := "CapabilityLost"

def reasonCapabilityLostDuringExecution : String := "CapabilityLostDuringExecution"

def defaultMaxRetries : Nat := 3

def maxRetriesOf : Nat :=
  match action.spec.retryPolicy with
  | some policy => policy.maxRetries
  | none => defaultMaxRetries

/-- A Failed action that goes back to Pending once its backoff has run. -/
def awaitsRetry : Bool :=
  action.phase == .failed &&
    (action.spec.onFailure == .unset || action.spec.onFailure == .requeue) &&
    action.scheduledAt.isSome && decide (action.retryCount < maxRetriesOf action)

def heldByOperator : Bool :=
  action.requeueRequested.isNone &&
    (action.spec.desiredState == .paused || action.spec.desiredState == .returning)

def isRequeueWaitMessage : ActionMessage → Bool
  | .requeuing | .requeueUnderStop _ | .requeueHeld _ => true
  | .none | .requeueWithdrawn | .estopPausedUnconfirmed | .text _ => false

inductive RequeueVerdict
  | runs | dropped | waits | held
deriving DecidableEq, Repr

def requeueAskedUnder (stops : List String) : RequeueVerdict × ActionMessage :=
  if pausedRequeueRuns true (isRequeueWaitMessage action.message)
      (action.message == .requeueUnderStop stops) then
    (.runs, .requeueUnderStop stops)
  else if action.message = .requeueHeld stops then (.waits, .none)
  else (.held, .requeueHeld stops)

/-- No other hold rewrites the message that records when a standing request was asked. -/
def keepRequeueWait (message : ActionMessage) : ActionMessage :=
  if action.requeueRequested.isSome && isRequeueWaitMessage action.message then action.message else message

def pausedLeaseHeldAfterClear (robot : Robot) : Bool :=
  action.renewalHeld || robot.estopState == .resuming

def renewalHeldAfterClear (robot : Option FleetRobot) : Bool :=
  match action.phase with
  | .assigned | .inProgress | .revoking =>
    action.renewalHeld || robot.any (·.estopState == .resuming)
  | _ => false

def freed (robot : FleetRobot) : FleetRobot :=
  { robot with
    assignedAction := ""
    phase := if robot.phase = .inProgress ∨ robot.phase = .assigned then .idle else robot.phase }

theorem leaseProvablyDead_iff :
    leaseProvablyDead lease now skew = true ↔ ∃ expires, lease = some expires ∧ expires + skew ≤ now := by
  cases lease <;> simp [leaseProvablyDead]

end Swarmada.Controller
