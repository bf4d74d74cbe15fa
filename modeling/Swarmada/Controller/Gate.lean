import Swarmada.Controller.Cluster

namespace Swarmada.Controller

open Api Executorguard Transition

abbrev Pass := Program Op Op.Reply

def call (op : Op) : Pass op.Reply := Program.perform op

def stopCovering (robot : FleetRobot) : Pass String := do
  let names ← call (.covering robot.name)
  if names ≠ [] then pure (", ".intercalate names)
  else if robotUnderEstop robot.toRobot then pure ("robot/" ++ robot.name)
  else pure ""

def stopNames (robot : FleetRobot) : Pass (List String) := do
  let names ← call (.covering robot.name)
  if robotUnderEstop robot.toRobot ∧ names = [] then pure ["robot/" ++ robot.name]
  else pure names

def pushCancel (robot : String) : Pass (Bool × CancelDisposition) := call (.pushCancel robot)

/-- Each robot that records the action as the API server holds it is asked to cancel it,
unless a stop keeps its record. -/
def recordersOf (action : FleetAction) (moveAuthorized : Bool) : List (Versioned FleetRobot) → Pass (List Recorder)
  | [] => pure []
  | robot :: rest =>
    if robot.value.assignedAction ≠ action.name ∨ robot.value.name = action.assignedRobot then
      recordersOf action moveAuthorized rest
    else do
      match ← call (.getRobotLive robot.value.name) with
      | none => recordersOf action moveAuthorized rest
      | some live =>
        if live.value.assignedAction ≠ action.name then recordersOf action moveAuthorized rest
        else do
          let covered ← stopCovering live.value
          let confirmed ←
            if keepsRecord covered moveAuthorized then pure false
            else do
              let (ok, disposition) ← pushCancel live.value.name
              pure (ok && disposition != .stopUnconfirmed)
          let others ← recordersOf action moveAuthorized rest
          pure ({ robot := live.value.name, cancelConfirmed := confirmed, covered := covered } :: others)

variable (basis : Option (Versioned FleetAction))

def releaseRecord (task robot : String) : Pass Bool := do
  match ← call (.getRobot robot) with
  | none => pure true
  | some copy =>
    if copy.value.assignedAction ≠ task then pure true
    else call (.patchRobot basis copy (freed copy.value))

def releaseRecords (basis : Option (Versioned FleetAction)) (task : String) : List String → Pass Bool
  | [] => pure true
  | robot :: rest => do
      if ← releaseRecord basis task robot then releaseRecords basis task rest else pure false

def executorGate (action : FleetAction)
    (robots : List (Versioned FleetRobot)) (now skew : Nat) (moveAuthorized : Bool) : Pass (Option Decision) := do
  let recorders ← recordersOf action moveAuthorized robots
  if recorders = [] then pure (some {})
  else do
    let decision := Input.decide
      { horizon := action.leaseExpiresAt, reference := referenceOf action, recorders := recorders
        now := now, skew := skew, moveAuthorized := moveAuthorized }
    if ← releaseRecords basis action.name decision.release then pure (some decision) else pure none

def recordersDecision (action : Versioned FleetAction) (now skew : Nat) (moveAuthorized : Bool) :
    Pass (Option Decision) := do
  let robots ← call .listRobotsLive
  executorGate (some action) action.value robots now skew moveAuthorized

def releaseOrphanedRecords (task : String) : Pass Unit := do
  match ← call .getActionLive with
  | some _ => pure ()
  | none => do
      let robots ← call .listRobotsLive
      if robots.all (fun robot => robot.value.assignedAction != task) then call .forgetOrphan
      else do
        let now ← call .now
        let since ← call (.orphanedSince now)
        let timings ← call .leaseTimings
        match ← executorGate none { name := task, created := since } robots now timings.skew false with
        | none => pure ()
        | some decision => if 0 < decision.wait then pure () else call .forgetOrphan

def releaseRobotForStop (action : Versioned FleetAction) (robot : String) : Pass Bool :=
  if robot = "" then pure true else releaseRecord (some action) action.value.name robot

/-- The same for a cancel: the record is kept while a stop covers the robot. -/
def releaseBoundUnlessCovered (action : Versioned FleetAction) (robot : String) : Pass Bool :=
  if robot = "" then pure true
  else do
    match ← call (.getRobotLive robot) with
    | none => pure true
    | some live =>
      if live.value.assignedAction ≠ action.value.name then pure true
      else do
        let covered ← stopCovering live.value
        if keepsRecord covered false then pure true else releaseRobotForStop action robot

end Swarmada.Controller
