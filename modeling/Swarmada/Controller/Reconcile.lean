import Swarmada.Controller.Holding

/-! # One pass of the FleetAction controller

`reconcileAction` up to the calls it makes.  What a pass returns (when to look again) is
left out: a pass may start at any time.
-/

namespace Swarmada.Controller

open Api Executorguard Transition

/-- The adapter refused: the robot is not executing, and the action goes back to Pending,
unless a stop holds the robot. -/
def releaseRejectedAssignment (committed : Versioned FleetAction) (robot : String) : Pass Unit := do
  let held ←
    match ← call (.getRobotLive robot) with
    | none => pure none
    | some live => do
        let stops ← stopNames live.value
        pure (if stops = [] ∧ estopHoldsWork live.value.toRobot = false then none else some live)
  match held with
  | some live => do
      let timings ← call .leaseTimings
      let now ← call .now
      pauseAssignedForEstop committed live now timings.duration timings.skew
  | none => do
      match ← patchActionStatus committed
          { committed.value with
            phase := .pending, assignedRobot := "", leaseExpiresAt := none
            message := .text "adapter rejected the assignment; rescheduling" } with
      | none => pure ()
      | some written => do
          let _ ← releaseRobotForStop written robot

variable (original : Versioned FleetAction)

/-- The action first, then the robot, each under the version that was read; then the wire. -/
def commit (action : FleetAction) (robot : Versioned FleetRobot) (duration : Nat) : Pass Unit := do
  let scheduled ← call .now
  match ← call (.mintGeneration action.assignmentGeneration) with
  | none => pure ()
  | some generation => do
      let issued ← call .now
      match ← patchActionStatus original
          { action with
            pendingSince := none, phase := .assigned, assignedRobot := robot.value.name, message := .none
            renewalHeld := false, scheduledAt := some (action.scheduledAt.getD scheduled)
            assignmentGeneration := generation, leaseExpiresAt := some (issued + duration) } with
      | none => pure ()
      | some committed => do
          if ← call (.patchRobot (some committed) robot
              { robot.value with phase := .inProgress, assignedAction := action.name }) then
            if ← call (.pushAssignAction robot.value.name generation) then
              releaseRejectedAssignment committed robot.value.name
            else pure ()
          else do
            let now ← call .now
            settle committed
              { committed.value with
                phase := .pending, assignedRobot := "", leaseExpiresAt := none, pendingSince := some now
                message := .text "robot commit failed after task assignment; reverted to Pending" }

def withheld (action : FleetAction) : Pass Bool := do
  if ← call (.ask .destinationStopped) then do
    settle original { action with phase := .pending }
    pure true
  else if ← call (.ask .restrictionsRefuse) then do
    if ← call (.ask .restrictionsTerminal) then do
      let now ← call .now
      settle original
        { action with
          phase := .failed, failureReason := "ZoneEntryDenied", failedAt := some now
          message := .text "zone restrictions refuse this action" }
    else settle original { action with phase := .pending, message := .text "zone restrictions hold this action" }
    pure true
  else if ← call (.ask .streamsMissing) then do
    settle original { action with phase := .pending, message := .text "sensor-stream dependency holds this action" }
    pure true
  else pure false

def assign (action : FleetAction) (robots : List (Versioned FleetRobot)) (duration : Nat) : Pass Unit := do
  match ← call (.selectRobot robots) with
  | none => settle original { action with phase := .pending, message := .text "no eligible robot" }
  | some robot =>
    if ← call (.ask .zoneCapacityDenied) then
      settle original
        { action with phase := .pending, message := .text "awaiting zone capacity (traffic deconfliction)" }
    else if ← call (.ask .victimStillRunning) then
      settle original
        { action with message := .text "awaiting confirmed stop before a type-changing handover" }
    else if ← call (.ask .victimTaken) then commit original action robot duration
    else pure ()

variable (robot : Option (Versioned FleetRobot)) (timings : LeaseTimings)

def schedule (now : Nat) : Pass Unit := do
  let seen ← call .now
  let action := { original.value with pendingSince := some (original.value.pendingSince.getD seen) }
  let robots ← call .listRobots
  match ← executorGate (some original) action robots now timings.skew false with
  | none => pure ()
  | some gate =>
    if 0 < gate.wait then
      note original action (.text ("robot " ++ gate.blocked ++ " still records this action: " ++ gate.why))
    else if ← withheld original action then pure ()
    else assign original action robots timings.duration

def revokingHeld : Pass Unit :=
  note original original.value
    (.text "assigned robot lost, lease provably dead — awaiting operator cancel (onDisconnect=Never)")

def requeueDead : Pass Unit := do
  match robot with
  | some copy =>
    if copy.value.assignedAction = original.value.name then call (.mergeRobot original copy.value.name)
    else pure ()
  | none => pure ()
  settle original
    { original.value with
      phase := .pending, assignedRobot := "", leaseExpiresAt := none, disconnectedAt := none
      message := .text "prior lease provably dead — requeued for reassignment" }

def reassign (now : Nat) : Pass Unit :=
  if original.value.phase = .revoking then do
    match ← call .onDisconnectPolicy with
    | .afterTimeout seconds =>
      let since := original.value.disconnectedAt.getD now
      if now < since + seconds then
        settle original
          { original.value with
            disconnectedAt := some since
            message := .text "assigned robot lost — holding until AfterTimeout ceiling" }
      else requeueDead original robot
    | .whenActionExpired =>
      if actionCompletionExpired original.value now then
        finalizeCancel original { original.value with disconnectedAt := none }
          "expired while disconnected (onDisconnect=WhenActionExpired)"
      else revokingHeld original
    | .never => revokingHeld original
  else requeueDead original robot

def renewLease (now duration : Nat) : Pass Unit :=
  if renewalHeldAfterClear original.value (robot.map (·.value)) then holdRenewalAfterClear original
  else do
    let lost ←
      if robot.isSome ∧ (original.value.phase = .assigned ∨ original.value.phase = .inProgress) then do
        let satisfied ← call (.ask .capabilitiesSatisfied)
        pure (!satisfied)
      else pure false
    if lost then
      if original.value.requeueRequested.isSome then pure ()
      else do
        let _ ← call (.setRequeue (some reasonCapabilityLost))
    else do
      let renewed := { original.value with leaseExpiresAt := some (now + duration) }
      match ← patchActionStatus original
          (if original.value.phase = .revoking then
            { renewed with
              phase := .inProgress, disconnectedAt := none
              message := .text "re-adopted after connectivity recovered" }
          else renewed) with
      | none => pure ()
      | some written => call (.pushRenewLease written.value.assignedRobot)

def revoke (now duration : Nat) : Pass Unit :=
  settle original
    { original.value with
      phase := .revoking
      leaseExpiresAt := some (original.value.leaseExpiresAt.getD (now + duration))
      disconnectedAt := some (original.value.disconnectedAt.getD now)
      message := .text "assigned robot unreachable — awaiting provable lease expiry" }

def succeedOnCompletedCancel : Pass Unit := do
  let now ← call .now
  settle original
    { original.value with
      phase := .succeeded, completionTime := some now, startedAt := some (original.value.startedAt.getD now)
      message := .text "robot reported the action complete in answer to its preemption cancel; not requeued" }

def decideLease (now : Nat) : Pass Unit :=
  match evaluateLease original.value.phase (classifyRobot original.value (robot.map (·.value)))
      original.value.leaseExpiresAt now timings.skew with
  | .confirmStop => do
      let (stopped, disposition) ← confirmedStopWithDisposition original.value original.value.assignedRobot
      if stopped = false then pure ()
      else if ← releaseRobotForStop original original.value.assignedRobot then
        if disposition = .completed then succeedOnCompletedCancel original else reassign original robot now
      else pure ()
  | .renew => renewLease original robot now timings.duration
  | .revoke => revoke original now timings.duration
  | .hold => pure ()
  | .reassign => reassign original robot now

def timesOut (now : Nat) : Pass Bool :=
  match robot with
  | none => pure false
  | some copy =>
    if original.value.phase = .inProgress ∧ classifyRobot original.value (some copy.value) ≠ .lost ∧
        actionCompletionExpired original.value now = true then do
      let (stops, _) ← stopOver copy.value.name
      pure (stops = [] && !estopHoldsWork copy.value.toRobot)
    else pure false

def reconcileAssigned (now : Nat) : Pass Unit := do
  let robot ← call (.getRobot original.value.assignedRobot)
  let stopped := robot.filter fun copy => robotUnderEstop copy.value.toRobot
  match stopped, original.value.phase with
  | some copy, .assigned => pauseAssignedForEstop original copy now timings.duration timings.skew
  | some copy, .inProgress =>
    applyPauseTransition original (some copy) estopPausedInProgressMessage now timings.duration .stopConfirmed
  | _, .revoking => do
      if ← holdRevoking original robot now timings.skew then pure ()
      else decideLease original robot timings now
  | _, .preempted => do
      if ← holdPreemptedUnderStop original robot then pure ()
      else decideLease original robot timings now
  | _, .paused => holdPaused original robot now timings.duration timings.skew
  | _, _ => do
      if ← holdDeclared original robot now timings.duration then pure ()
      else if ← timesOut original robot now then handleCompletionTimeout original
      else decideLease original robot timings now

/-- The deadline of an action that has not started, the lease, the Paused action no robot is
bound to, and the scheduling. -/
def reconcileLease : Pass Unit := do
  let now ← call .now
  let waiting := original.value.phase = .unset ∨ original.value.phase = .pending
  if waiting ∧ original.value.spec.deadline.any (· < now) = true then
    settle original
      { original.value with
        phase := .failed, completionTime := some now, failedAt := some now
        failureReason := "deadline exceeded before scheduling"
        message := .text "deadline exceeded before scheduling" }
  else if original.value.assignedRobot ≠ "" ∧ (original.value.phase = .assigned ∨ original.value.phase = .inProgress ∨
      original.value.phase = .revoking ∨ original.value.phase = .paused ∨ original.value.phase = .preempted) then
    reconcileAssigned original timings now
  else if original.value.phase = .paused then do
    let _ ← recordersDecision original now timings.skew false
  else if waiting then schedule original timings now
  else pure ()

def reconcileLive : Pass Unit := do
  let timings ← call .leaseTimings
  if original.value.cancelRequested.isSome then handleCancel original (original.value.cancelRequested.getD "")
  else if original.value.spec.desiredState = .cancelled then handleCancel original "desiredState=Cancelled"
  else if original.value.requeueRequested.isSome then do
    let (verdict, message) ← requeueOvertakenByEstop original timings.skew
    match verdict with
    | .dropped => pure ()
    | .runs => handleRequeue original message
    | .held => settle original { original.value with message := message }
    | .waits => reconcileLease original timings
  else if original.value.phase = .paused ∧ isRequeueWaitMessage original.value.message = true then
    settle original { original.value with message := .requeueWithdrawn }
  else reconcileLease original timings

def syncHeldFinalizer (read : Versioned FleetAction) : Pass (Option (Versioned FleetAction)) := do
  if ← call (.ask .finalizerChanges) then call (.patchFinalizer read) else pure (some read)

def reconcileAction (task : String) : Pass Unit := do
  match ← call .getAction with
  | none => releaseOrphanedRecords task
  | some read => do
      call .forgetOrphan
      match ← syncHeldFinalizer read with
      | none => pure ()
      | some action =>
        if action.value.deleting then
          if ← call (.ask .heldWhileDeleted) then
            note action action.value (awaitingDecision "this action was deleted while a robot under a stop records it")
          else pure ()
        else
          match action.value.phase with
          | .succeeded | .cancelled => retireTerminalAction action
          | .failed => handleFailedAction action
          | _ => reconcileLive action

end Swarmada.Controller
