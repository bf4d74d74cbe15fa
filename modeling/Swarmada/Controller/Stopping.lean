import Swarmada.Controller.Gate

namespace Swarmada.Controller

open Api Executorguard Transition

variable (original : Versioned FleetAction)

/-- The status write, which lands only over the version that was read. -/
def patchActionStatus (action : FleetAction) : Pass (Option (Versioned FleetAction)) :=
  call (.patchStatus original action)

/-- A status write that ends the pass, whatever becomes of it. -/
def settle (action : FleetAction) : Pass Unit := do
  let _ ← patchActionStatus original action

def confirmedStopWithDisposition (action : FleetAction) (robot : String) : Pass (Bool × CancelDisposition) := do
  let (ok, disposition) ← pushCancel robot
  if ok ∧ disposition ≠ .stopUnconfirmed then pure (true, disposition)
  else do
    let timings ← call .leaseTimings
    let now ← call .now
    let dead := leaseProvablyDead action.leaseExpiresAt now timings.skew
    pure (dead, if ok then .stopUnconfirmed else .stoppedSafely)

def note (action : FleetAction) (message : ActionMessage) : Pass Unit :=
  if action.message = message then pure () else settle original { action with message := message }

def holdStop (message : ActionMessage) : Pass Unit :=
  note original original.value message

variable (reason : String)

def cancelledMessage : ActionMessage :=
  .text (if reason = "" ∨ reason = "true" then "cancelled by operator" else "cancelled: " ++ reason)

def finalizeCancel (action : FleetAction) (reason : String) : Pass Unit := do
  if ← releaseBoundUnlessCovered original action.assignedRobot then
    let now ← call .now
    settle original
      { action with
        phase := .cancelled, assignedRobot := "", leaseExpiresAt := none
        message := cancelledMessage reason, completionTime := some now }
  else pure ()

def cancellingMessage : ActionMessage := .text "cancel requested — awaiting confirmed stop"

def handleCancel : Pass Unit :=
  if original.value.assignedRobot = "" then finalizeCancel original original.value reason
  else do
    let (confirmed, _) ← confirmedStopWithDisposition original.value original.value.assignedRobot
    if confirmed then finalizeCancel original original.value reason
    else holdStop original cancellingMessage

/-- The requeue is the one edit that moves work a stop paused: what it can prove off the
action is released under its authority. -/
def finalizeRequeue : Pass Unit := do
  if ← releaseRobotForStop original original.value.assignedRobot then
    let reentered ← call .now
    match ← patchActionStatus original
        { original.value with
          phase := .pending, assignedRobot := "", leaseExpiresAt := none
          message := .text (if reason = "" ∨ reason = "true" then "requeued for zone maintenance"
            else "requeued: " ++ reason)
          pendingSince := some reentered } with
    | none => pure ()
    | some written => do
        let timings ← call .leaseTimings
        let now ← call .now
        match ← recordersDecision written now timings.skew true with
        | none => pure ()
        | some _ => do
            let _ ← call (.setRequeue none)
  else pure ()

def finalizeCapabilityLossFailure : Pass Unit := do
  let now ← call .now
  match ← patchActionStatus original
      { original.value with
        phase := .failed, failureReason := reasonCapabilityLostDuringExecution, failedAt := some now
        message := .text "adapter recovered the robot after capability loss; task failed" } with
  | none => pure ()
  | some _ => do
      let _ ← call (.setRequeue none)

def finalizeStopUnconfirmed : Pass Unit := do
  let now ← call .now
  let timings ← call .leaseTimings
  match ← patchActionStatus original
      { original.value with
        leaseExpiresAt := some (original.value.leaseExpiresAt.getD (now + timings.duration))
        phase := .failed, failureReason := reasonStopUnconfirmed, failedAt := some now
        message := .text ("requeue (" ++ reason ++ ") not carried out: the robot's stop was commanded and its rest " ++
          "was not witnessed; " ++ original.value.assignedRobot ++ " stays bound until its lease has provably expired") } with
  | none => pure ()
  | some _ => do
      let _ ← call (.setRequeue none)

def handleRequeue (waitMessage : ActionMessage) : Pass Unit :=
  let reason := original.value.requeueRequested.getD ""
  if original.value.assignedRobot = "" then finalizeRequeue original reason
  else do
    let (confirmed, disposition) ← confirmedStopWithDisposition original.value original.value.assignedRobot
    if disposition = .stopUnconfirmed then finalizeStopUnconfirmed original reason
    else if confirmed = false then holdStop original waitMessage
    else if reason = reasonCapabilityLost ∧ disposition = .recovered then finalizeCapabilityLossFailure original
    else if reason = reasonCapabilityLost ∧ disposition = .completed then do
      let _ ← call (.setRequeue none)
    else finalizeRequeue original reason

def handleCompletionTimeout : Pass Unit := do
  let (confirmed, _) ← confirmedStopWithDisposition original.value original.value.assignedRobot
  if confirmed = false then holdStop original (.text "timeoutSeconds elapsed — awaiting confirmed stop")
  else if ← releaseRobotForStop original original.value.assignedRobot then
    let now ← call .now
    let reason := "timeoutSeconds (" ++ toString (original.value.spec.timeoutSeconds.getD 0) ++
      "s) elapsed since status.startedAt"
    settle original
      { original.value with
        phase := .failed, failedAt := some now, completionTime := some now, failureReason := reason
        message := .text reason }
  else pure ()

variable (action : Versioned FleetAction)

def clearLeaseHorizon : Pass Unit :=
  if action.value.leaseExpiresAt = none then pure ()
  else settle action { action.value with leaseExpiresAt := none }

def retireTerminalAction : Pass Unit := do
  if ← releaseRobotForStop action action.value.assignedRobot then
    let timings ← call .leaseTimings
    let now ← call .now
    match ← recordersDecision action now timings.skew false with
    | none => pure ()
    | some decision => if 0 < decision.wait then pure () else clearLeaseHorizon action
  else pure ()

def requeueFailedAction : Pass Unit := do
  match ← patchActionStatus action
      { action.value with
        retryCount := action.value.retryCount + 1
        phase := .pending, assignedRobot := "", leaseExpiresAt := none
        message := .text ("requeued after failure (retry " ++ toString (action.value.retryCount + 1) ++ "/" ++
          toString (maxRetriesOf action.value) ++ ")")
        scheduledAt := none, startedAt := none, failedAt := none, completionTime := none, failureReason := "" } with
  | none => pure ()
  | some written =>
    if written.value.failureAlerted then do
      let _ ← call (.setAlerted written false)
    else pure ()

/-- The annotation's write returns the action as the API server then holds it, and the rest
of the pass goes on with that. -/
def alertFailedOnce : Pass (Versioned FleetAction) :=
  if action.value.failureAlerted then pure action
  else do
    match ← call (.setAlerted action true) with
    | none => pure action
    | some alerted => pure alerted

/-- The stops that hold the work of the bound robot, whether it confirmed its stop, and
whether its Robot object is gone; every stop of the namespace counts then. -/
def stopsOverBoundRobot (action : FleetAction) : Pass (List String × Bool × Bool) := do
  match ← call (.getRobotLive action.assignedRobot) with
  | some live => do
      let stops ← stopNames live.value
      pure (stops, stopConfirmed live.value.toRobot, false)
  | none => do
      let stops ← call (.covering action.assignedRobot)
      pure (stops, false, true)

def awaitingDecision (why : String) : ActionMessage := .text ("awaiting operator decision: " ++ why)

def heldFailedAction : Pass Bool := do
  let timings ← call .leaseTimings
  let now ← call .now
  let dead := leaseProvablyDead action.value.leaseExpiresAt now timings.skew
  if action.value.cancelRequested.isSome ∨ action.value.spec.desiredState = .cancelled then do
    if dead then finalizeCancel action action.value (action.value.cancelRequested.getD "desiredState=Cancelled")
    else holdStop action cancellingMessage
    pure true
  else do
    let robot ← call (.getRobotLive action.value.assignedRobot)
    let (stops, _, gone) ← stopsOverBoundRobot action.value
    if stops = [] ∧ (gone = true ∨ robot.all fun live => !estopHoldsWork live.value.toRobot) then pure false
    else if action.value.requeueRequested.isSome then do
      handleRequeue action (if stops = [] then .requeuing else .requeueUnderStop stops)
      pure true
    else if dead = false then pure true
    else do
      note action action.value (keepRequeueWait action.value
        (awaitingDecision ("robot " ++ action.value.assignedRobot ++ " did not confirm the stop that failed this action")))
      pure true

def settleFailedAction : Pass Unit := do
  if ← releaseRobotForStop action action.value.assignedRobot then
    let timings ← call .leaseTimings
    let now ← call .now
    match ← recordersDecision action now timings.skew false with
    | none => pure ()
    | some decision =>
      if 0 < decision.wait then pure ()
      else if awaitsRetry action.value then do
        let waits ← if action.value.failedAt = none then pure false else call (.ask .backoffRunning)
        if waits then clearLeaseHorizon action else requeueFailedAction action
      else if action.value.spec.onFailure = .abandon then clearLeaseHorizon action
      else do
        let alerted ← alertFailedOnce action
        clearLeaseHorizon alerted
  else pure ()

def handleFailedAction : Pass Unit := do
  let held ←
    if action.value.failureReason = reasonStopUnconfirmed ∧ action.value.assignedRobot ≠ "" then
      heldFailedAction action
    else pure false
  if held then pure ()
  else if action.value.failureReason = reasonStopUnconfirmed ∧ action.value.leaseExpiresAt ≠ none then do
    let timings ← call .leaseTimings
    let now ← call .now
    if leaseProvablyDead action.value.leaseExpiresAt now timings.skew then settleFailedAction action
    else pure ()
  else settleFailedAction action

end Swarmada.Controller
