import Swarmada.Controller.Reconcile

/-! # The controller and what moves around it

One worker runs the passes, so the passes over the action and those over other actions
never overlap.  Everything else moves at any time: users, the robots' adapters and their
reports, the other controllers, the caches and the clock.
-/

namespace Swarmada.Controller

open Api Executorguard Transition

/-- What a robot's adapter reports, live or retained.  A failure under a stop is the
stop's outcome. -/
inductive Report
  | running | succeeded | failed (reason : String) | failedUnderStop | superseded
  | retainedSucceeded | retainedFailed (reason : String) | retainedUnderStop
deriving DecidableEq, Repr

namespace Report

def movesFrom (report : Report) (phase : ActionPhase) : Bool :=
  match report with
  | .running | .succeeded | .failed _ | .failedUnderStop | .superseded | .retainedUnderStop =>
    phase == .assigned || phase == .inProgress
  | .retainedSucceeded | .retainedFailed _ =>
    phase == .assigned || phase == .inProgress || phase == .paused || phase == .revoking || phase == .preempted

def ends : Report → Bool
  | .succeeded | .failed _ | .superseded | .retainedSucceeded | .retainedFailed _ => true
  | .running | .failedUnderStop | .retainedUnderStop => false

def written (report : Report) (now : Nat) (action : FleetAction) : FleetAction :=
  match report with
  | .running => { action with phase := .inProgress, startedAt := some (action.startedAt.getD now) }
  | .succeeded | .retainedSucceeded =>
    { action with
      phase := .succeeded, completionTime := some now, startedAt := some (action.startedAt.getD now) }
  | .failed reason | .retainedFailed reason =>
    { action with
      phase := .failed, failedAt := some now, completionTime := some now
      failureReason := if reason = "" then "robot reported action failure" else reason }
  | .failedUnderStop | .retainedUnderStop =>
    { action with phase := .paused, message := .text "paused by estop — the robot reported the action failed" }
  | .superseded =>
    { action with phase := .cancelled, completionTime := some now, message := .text "superseded in place" }

end Report

structure ActionEdit where
  spec : ActionSpec
  cancelRequested : Option String := none
  requeueRequested : Option String := none
  deleting : Bool := false
  startedAt : Option Nat := none
  renewalHeld : Bool := false

def ActionEdit.edited (edit : ActionEdit) (action : FleetAction) : FleetAction :=
  { action with
    spec := edit.spec, cancelRequested := edit.cancelRequested, requeueRequested := edit.requeueRequested
    deleting := edit.deleting, startedAt := edit.startedAt, renewalHeld := edit.renewalHeld }

inductive Act
  | tick (seconds : Nat)
  | syncAction
  | syncRobot (robot : String)
  | create (spec : ActionSpec)
  | delete
  | edit (change : ActionEdit)
  | report (news : Report)
  | createRobot (robot : Robot) (phase : RobotPhase)
  | deleteRobot (robot : String)
  | robotStatus (robot : Robot) (phase : RobotPhase)
  | preempt
  | preemptCancel (robot : String)
  | preemptCompleted (robot : String)
  | take (robot other : String)
  | free (robot : String)

def Act.byWorker : Act → Bool
  | .preempt | .preemptCancel _ | .preemptCompleted _ | .take _ _ | .free _ => true
  | _ => false

def Cluster.robotDeletable (c : Cluster) (settings : Settings) (robot : FleetRobot) : Bool :=
  robot.assignedAction != settings.task ||
    match c.action with
    | none => !(deleteLosesKey robot.name
        { horizon := none, reference := none, recorders := [], now := c.now, skew := maxSkew, actionGone := true }).1
    | some action =>
      !(deleteLosesKey robot.name
        { horizon := action.value.leaseExpiresAt, reference := referenceOf action.value, recorders := []
          now := c.now, skew := maxSkew }).1

def Act.step (settings : Settings) (c : Cluster) : Act → Option (Cluster × List Event)
  | .tick seconds => some ({ c with now := c.now + seconds }, [.clock (c.now + seconds)])
  | .syncAction => some ({ c with cachedAction := c.action }, [])
  | .syncRobot robot =>
    some ({ c with cachedRobots := fun other => if other = robot then c.robots.objects robot else c.cachedRobots other },
      [])
  | .create spec =>
    match c.action with
    | some _ => none
    | none => some (c.writeAction { name := settings.task, created := c.now, spec := spec }, [])
  | .delete => c.action.map fun _ => ({ c with actions := c.actions.remove () }, [])
  | .edit change => c.action.map fun current => (c.writeAction (change.edited current.value), [])
  | .report news =>
    match c.action with
    | none => none
    | some current =>
      if news.movesFrom current.value.phase = true ∧ current.value.assignedRobot ≠ "" ∧
          current.value.assignmentGeneration ∈ c.sent then
        some (c.writeAction (news.written c.now current.value),
          if news.ends then [.ended current.value.assignedRobot] else [])
      else none
  | .createRobot robot phase =>
    match c.robots.objects robot.name with
    | some _ => none
    | none =>
      if robot.name ≠ "" then
        some ({ c.writeRobot robot.name { toRobot := robot, phase := phase } with names := robot.name :: c.names }, [])
      else none
  | .deleteRobot robot =>
    match c.robots.objects robot with
    | none => none
    | some current =>
      if c.robotDeletable settings current.value then some ({ c with robots := c.robots.remove robot }, [])
      else none
  | .robotStatus robot phase =>
    (c.robots.objects robot.name).map fun current =>
      (c.writeRobot robot.name
        { toRobot := robot, phase := phase, assignedAction := current.value.assignedAction }, [])
  | .preempt =>
    match c.action with
    | none => none
    | some current =>
      if current.value.assignedRobot ≠ "" ∧
          (current.value.phase = .assigned ∨ current.value.phase = .inProgress) then
        some (c.writeAction { current.value with phase := .preempted }, [])
      else none
  | .preemptCancel robot => some (c, [.acknowledged robot])
  | .preemptCompleted robot =>
    match c.action with
    | none => none
    | some current =>
      if current.value.assignedRobot ≠ "" ∧
          (current.value.phase = .assigned ∨ current.value.phase = .inProgress) then
        some (c.writeAction { current.value with phase := .succeeded, completionTime := some c.now },
          [.acknowledged robot])
      else none
  | .take robot other =>
    match c.robots.objects robot with
    | none => none
    | some current =>
      if other ≠ settings.task then
        some (c.writeRobot robot { current.value with phase := .inProgress, assignedAction := other }, [])
      else none
  | .free robot =>
    match c.robots.objects robot with
    | none => none
    | some current =>
      if current.value.assignedAction ≠ settings.task then
        some (c.writeRobot robot (freed current.value), [])
      else none

structure System where
  cluster : Cluster
  pass : Pass Unit

def System.empty : System := { cluster := .empty, pass := .done () }

inductive Label
  | start
  | answer (given : Answer)
  | abort
  | restart
  | act (move : Act)

def System.step (settings : Settings) (s : System) : Label → Option (System × List Event)
  | .start =>
    match s.pass with
    | .done _ => some ({ s with pass := reconcileAction settings.task }, [])
    | .call _ _ => none
  | .answer answer =>
    match s.pass with
    | .done _ => none
    | .call op next =>
      match perform settings s.cluster op answer with
      | none => none
      | some (cluster, reply, events) => some ({ cluster := cluster, pass := next reply }, events)
  | .abort => some ({ s with pass := .done () }, [])
  | .restart =>
    some
      ({ cluster :=
          { s.cluster with
            orphaned := none, cachedAction := s.cluster.action, cachedRobots := s.cluster.robots.objects }
         pass := .done () }, [])
  | .act act =>
    match s.pass with
    | .call _ _ =>
      if act.byWorker then none
      else (act.step settings s.cluster).map fun moved => ({ s with cluster := moved.1 }, moved.2)
    | .done _ => (act.step settings s.cluster).map fun moved => ({ s with cluster := moved.1 }, moved.2)

def controller (settings : Settings) : Machine System Label Event where
  step := System.step settings

end Swarmada.Controller
