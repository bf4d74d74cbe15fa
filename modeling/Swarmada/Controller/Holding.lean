import Swarmada.Controller.Stopping

namespace Swarmada.Controller

open Api Executorguard Transition

inductive PauseIntake
  | stopConfirmed | cancelRobot | underStop
deriving DecidableEq, Repr

def pausedMessageWithStop (message : String) (acknowledged : Bool) (disposition : CancelDisposition) (bound : Bool) :
    String :=
  if acknowledged = false ∨ disposition = .stopUnconfirmed then
    let said := if acknowledged then "its adapter could not witness its rest" else "has not acknowledged it"
    if bound then
      message ++ "; the robot was told to stop and " ++ said ++ ": the cancel is sent once and not " ++
        "repeated, and the lease is no longer renewed to the robot, so it stops on its own lease; the action " ++
        "stays bound to it until an operator requeues or cancels it"
    else
      message ++ "; the robot was told to stop and " ++ said ++ ": it keeps its record of the action, and " ++
        "the cancel is sent again, until its adapter acknowledges it or, once the action is requeued, its " ++
        "lease is provably dead"
  else if disposition = .completed then message ++ "; the robot was told to stop and reported the action complete"
  else message ++ "; the robot was told to stop and acknowledged it"

variable (original : Versioned FleetAction)

/-- An Assigned action whose robot confirmed its stop keeps everything. -/
def pauseAssignedUnderStop (message : String) (now duration : Nat) : Pass Unit :=
  let lease :=
    if original.value.renewalHeld then some (original.value.leaseExpiresAt.getD (now + duration))
    else some (now + duration)
  settle original { original.value with phase := .paused, leaseExpiresAt := lease, message := .text message }

variable (robot : Option (Versioned FleetRobot))

def releasePaused (robotOff : Bool) : Pass Bool :=
  match robot with
  | none => pure true
  | some copy =>
    if robotOff = true ∧ copy.value.assignedAction = original.value.name then do
      let covered ← stopCovering copy.value
      if keepsRecord covered false then pure true
      else call (.patchRobot (some original) copy (freed copy.value))
    else pure true

/-- The two ways into Paused of a hold: an Assigned action is released from its robot, an
InProgress one stays bound. -/
def applyPauseTransition (message : String) (now duration : Nat) (intake : PauseIntake) : Pass Unit :=
  match original.value.phase with
  | .assigned =>
    if intake = .underStop then pauseAssignedUnderStop original message now duration
    else do
      let (robotOff, message) ←
        if intake = .cancelRobot ∧ robot.isSome then do
          let (ok, disposition) ← pushCancel original.value.assignedRobot
          pure (ok && disposition != .stopUnconfirmed, pausedMessageWithStop message ok disposition false)
        else pure (intake == .stopConfirmed, message)
      if ← releasePaused original robot robotOff then
        settle original
          { original.value with
            phase := .paused, assignedRobot := "", leaseExpiresAt := none, message := .text message }
      else pure ()
  | .inProgress => do
      let message ←
        if intake = .cancelRobot then do
          let (ok, disposition) ← pushCancel original.value.assignedRobot
          pure (pausedMessageWithStop message ok disposition true)
        else pure message
      let stamped := robot.any fun copy => stopConfirmed copy.value.toRobot && !original.value.renewalHeld
      let lease :=
        if stamped then some (now + duration) else some (original.value.leaseExpiresAt.getD (now + duration))
      settle original { original.value with phase := .paused, leaseExpiresAt := lease, message := .text message }
  | _ => pure ()

def stopOver (robot : String) : Pass (List String × Bool) := do
  match ← call (.getRobotLive robot) with
  | none => pure ([], false)
  | some live => do
      let stops ← stopNames live.value
      pure (stops, stopConfirmed live.value.toRobot)

def waitForAPerson (action : FleetAction) (robot : String) : Pass Unit :=
  note original action (keepRequeueWait action
    (awaitingDecision ("robot " ++ robot ++ " did not confirm the stop and its lease is provably dead")))

def estopPausedAssignedMessage : String := "paused by estop — operator resume/requeue/cancel required"

def estopPausedInProgressMessage : String := "paused by estop — operator resume/cancel required"

/-- Pauses an Assigned action whose robot's stop is not confirmed: the robot stays bound, and
only one that is gone releases the action. -/
def pauseAssignedUnconfirmed (now duration skew : Nat) : Pass Unit := do
  let lease := original.value.leaseExpiresAt.getD (now + duration)
  let action := { original.value with phase := .paused, leaseExpiresAt := some lease }
  if leaseProvablyDead (some lease) now skew = false then
    settle original { action with message := .estopPausedUnconfirmed }
  else do
    match ← call (.getRobotLive action.assignedRobot) with
    | some live => do
        let (stops, confirmed) ← stopOver live.value.name
        if waitsForAPerson stops confirmed true (heldByOperator action) then
          waitForAPerson original action live.value.name
        else settle original { action with message := .text estopPausedAssignedMessage }
    | none =>
      settle original
        { action with assignedRobot := "", leaseExpiresAt := none, message := .text estopPausedAssignedMessage }

def pauseAssignedForEstop (robot : Versioned FleetRobot) (now duration skew : Nat) : Pass Unit :=
  if stopConfirmed robot.value.toRobot then
    applyPauseTransition original (some robot) estopPausedAssignedMessage now duration .underStop
  else pauseAssignedUnconfirmed original now duration skew

def holdUnderUnconfirmedStop (robot : String) (stops : List String) (now duration skew : Nat) : Pass Unit :=
  if original.value.leaseExpiresAt = none then
    settle original { original.value with leaseExpiresAt := some (now + duration) }
  else if waitsForAPerson stops false (leaseProvablyDead original.value.leaseExpiresAt now skew)
      (heldByOperator original.value) then
    waitForAPerson original original.value robot
  else pure ()

def estopHeldRevokingMessage : ActionMessage :=
  .text "held by estop — robot under an emergency stop, lease not renewed"

def holdRenewalAfterClear : Pass Unit :=
  if original.value.renewalHeld then pure () else settle original { original.value with renewalHeld := true }

def holdPaused (now duration skew : Nat) : Pass Unit := do
  let (stops, confirmed) ←
    match robot with
    | some copy => stopOver copy.value.name
    | none => pure ([], false)
  if stops ≠ [] ∧ confirmed = false then
    holdUnderUnconfirmedStop original original.value.assignedRobot stops now duration skew
  else if original.value.message = .estopPausedUnconfirmed then
    pauseAssignedUnconfirmed original now duration skew
  else
    match robot with
    | none => pure ()
    | some copy =>
      if pausedLeaseHeldAfterClear original.value copy.value.toRobot then holdRenewalAfterClear original
      else if classifyRobot original.value (some copy.value) ≠ .lost ∧ stopConfirmed copy.value.toRobot = true ∧
          leaseProvablyDead original.value.leaseExpiresAt now skew = false then
        settle original { original.value with leaseExpiresAt := some (now + duration) }
      else pure ()

def holdRevoking (now skew : Nat) : Pass Bool := do
  let (stops, confirmed, _) ← stopsOverBoundRobot original.value
  if stops ≠ [] ∨ robot.any (fun copy => estopHoldsWork copy.value.toRobot) = true then do
    if waitsForAPerson stops confirmed (leaseProvablyDead original.value.leaseExpiresAt now skew)
        (heldByOperator original.value) then
      waitForAPerson original original.value original.value.assignedRobot
    else note original original.value (keepRequeueWait original.value estopHeldRevokingMessage)
    pure true
  else pure false

def holdPreemptedUnderStop : Pass Bool := do
  let (stops, _, _) ← stopsOverBoundRobot original.value
  if stops = [] ∧ robot.all (fun copy => !estopHoldsWork copy.value.toRobot) = true then pure false
  else do
    note original original.value (keepRequeueWait original.value
      (awaitingDecision ("a stop holds robot " ++ original.value.assignedRobot)))
    pure true

def returningHeldMessage : CancelDisposition → String
  | .completed =>
    "held after desiredState=Returning — robot reported the action complete; operator resume/cancel required"
  | .recovered =>
    "held after desiredState=Returning — robot recovered mid-commitment; operator resume/cancel required"
  | .stopUnconfirmed =>
    "held after desiredState=Returning — robot's stop was commanded and its rest was not witnessed; " ++
      "operator resume/cancel required"
  | .stoppedSafely => "held after desiredState=Returning — robot stopped safely; operator resume/cancel required"

def holdDeclared (now duration : Nat) : Pass Bool :=
  match original.value.spec.desiredState with
  | .paused => do
      applyPauseTransition original robot
        (if original.value.phase = .inProgress then "held by desiredState=Paused — operator resume/cancel required"
          else "held by desiredState=Paused — operator resume/requeue/cancel required")
        now duration .cancelRobot
      pure true
  | .returning => do
      let (confirmed, disposition) ← confirmedStopWithDisposition original.value original.value.assignedRobot
      if confirmed = false then holdStop original (.text "return requested — awaiting confirmed recovery")
      else applyPauseTransition original robot (returningHeldMessage disposition) now duration .stopConfirmed
      pure true
  | .running | .cancelled => pure false

def stopsOverRobots : List FleetRobot → Pass (List String)
  | [] => pure []
  | robot :: rest => do
      let names ← stopNames robot
      let others ← stopsOverRobots rest
      pure (names ++ others.filter fun name => !names.contains name)

def stopsOverWork (action : FleetAction) : Pass (List String) :=
  if action.assignedRobot ≠ "" then do
    match ← call (.getRobotLive action.assignedRobot) with
    | none => pure []
    | some live => stopsOverRobots [live.value]
  else do
    let robots ← call .listRobotsLive
    stopsOverRobots ((robots.map (·.value)).filter fun robot => robot.assignedAction == action.name)

def requeueOvertakenByEstop (skew : Nat) : Pass (RequeueVerdict × ActionMessage) :=
  if original.value.phase = .paused then do
    let stops ← stopsOverWork original.value
    if stops = [] then pure (.runs, .requeuing) else pure (requeueAskedUnder original.value stops)
  else if original.value.assignedRobot = "" ∨ (original.value.phase ≠ .assigned ∧
      original.value.phase ≠ .inProgress ∧ original.value.phase ≠ .revoking) then
    pure (.runs, .requeuing)
  else do
    match ← call (.getRobot original.value.assignedRobot) with
    | none => pure (.runs, .requeuing)
    | some copy => do
        let (stops, confirmed) ← stopOver copy.value.name
        if original.value.phase = .revoking then
          if stops = [] ∧ estopHoldsWork copy.value.toRobot = false then pure (.runs, .requeuing)
          else do
            let now ← call .now
            if waitsForAPerson stops confirmed (leaseProvablyDead original.value.leaseExpiresAt now skew) false then
              pure (requeueAskedUnder original.value stops)
            else pure (.waits, .none)
        else if stops = [] ∧ robotUnderEstop copy.value.toRobot = false then pure (.runs, .requeuing)
        else do
          let _ ← call (.setRequeue none)
          pure (.dropped, .none)

end Swarmada.Controller
