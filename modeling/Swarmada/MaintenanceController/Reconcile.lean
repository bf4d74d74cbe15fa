import Swarmada.Controller.Lease
import Swarmada.MaintenanceController.Scope
import Swarmada.Transition.Machine

/-! # The maintenance window's reconcile

One worker runs the passes, so two windows are never reconciled at the same time.  A pass
reads its own window, the robots and the zones as they are.  The list of the other windows
comes from a cache that follows in its own time, and every write can fail.
-/

namespace Swarmada.MaintenanceController

open Api Controller Transition

structure World where
  windows : List ZoneMaintenance := []
  past : List (List ZoneMaintenance) := []
  robots : List FleetRobot := []
  zones : List CompositeZone := []
  config : Option MaintenanceConfig := none

inductive Event
  | paused (window robot : String)
  | resumed (window robot : String)
  | requeued (window action reason : String)
  | compositionUnresolved (window message : String)
  | activated (window zone mode reason : String) (robotsInScope : List String)
  | deactivated (window zone closedBy : String) (duration : Option Nat)
  | clearRejected (window robot : String)
deriving DecidableEq, Repr

structure Pass where
  window : String
  now : Nat
  behind : String → Nat := fun _ => 0
  fails : String → Bool := fun _ => false
  refused : Bool := false
  covering : String → List String := fun _ => []

variable (pass : Pass) (world : World)

namespace World

def listed (behind : Nat) : List ZoneMaintenance :=
  (world.windows :: world.past).getD behind world.windows

def window (name : String) : Option ZoneMaintenance :=
  world.windows.find? (fun window => window.name = name)

def writeWindows (windows : List ZoneMaintenance) : World :=
  { world with windows, past := world.windows :: world.past }

def writeWindow (window : ZoneMaintenance) : World :=
  world.writeWindows (world.windows.map fun other => if other.name = window.name then window else other)

def removeWindow (name : String) : World :=
  world.writeWindows (world.windows.filter fun other => other.name ≠ name)

end World

def setRobotPhase (phase : RobotPhase) (robot : FleetRobot) : FleetRobot :=
  if robot.phase = phase ∨ robot.phase = .error then robot else { robot with phase }

/-- The robots after a pass wrote the phase of some.  A write lands on the version that was read. -/
def World.withPhase (written : List FleetRobot) (phase : RobotPhase) : World :=
  { world with robots := world.robots.map fun robot => if robot ∈ written then setRobotPhase phase robot else robot }

def stopNames (robot : FleetRobot) : List String :=
  if robotUnderEstop robot.toRobot ∧ pass.covering robot.name = [] then ["robot/" ++ robot.name]
  else pass.covering robot.name

def continuousCapabilities (robot : FleetRobot) : List String :=
  ((robot.capabilities.filter fun entry => !entry.paused && entry.status ≠ .inactive).map
    CapabilityStatusEntry.name).insertionSort (· ≤ ·)

def pauseTime (window : ZoneMaintenance) (robot : String) : Option Nat :=
  (window.status.pausedRobots.find? fun entry => entry.name = robot).map PausedRobotEntry.pausedAt

def recorded (window : ZoneMaintenance) (robot : FleetRobot) : Bool := (pauseTime window robot.name).isSome

def robotsInScopeAndPausedOutside (window : ZoneMaintenance) : List FleetRobot × List FleetRobot :=
  (world.robots.filter fun robot => covers world.zones window robot,
    world.robots.filter fun robot => !covers world.zones window robot && recorded window robot)

def robotsPausedByWindow (window : ZoneMaintenance) : List FleetRobot :=
  let (inScope, outside) := robotsInScopeAndPausedOutside world window
  inScope ++ outside

def coveredByOtherActive (all : List CompositeZone) (windows : List ZoneMaintenance) (self : String)
    (robot : FleetRobot) : Bool :=
  windows.any fun other =>
    other.name ≠ self && !other.deleting && other.status.phase = .active &&
      (recorded other robot || covers all other robot)

def requireEstopClearBeforeResume (config : Option MaintenanceConfig) (spec : ZoneMaintenanceSpec) : Bool :=
  (spec.requireEstopClearBeforeResume.or (config.bind MaintenanceConfig.requireEstopClearBeforeResume)).getD true

def estopClear (all : List CompositeZone) (robot : FleetRobot) : Bool :=
  if robotUnderEstop robot.toRobot then false
  else if robot.estopState ≠ .unset ∧ robot.estopState ≠ .normal then false
  else
    let zoneName := Estopscope.reportedZone robot.toRobot
    if zoneName = "" then true
    else
      match zoneNamed all zoneName with
      | none => true
      | some zone => zone.estopStatus = .unset || zone.estopStatus = .clear

structure Resumed where
  freed : List FleetRobot := []
  blocked : List FleetRobot := []
  failed : Bool := false

def resumeEach (pass : Pass) (world : World) (requireClear : Bool) : List FleetRobot → Resumed
  | [] => {}
  | robot :: rest =>
    if robot.phase ≠ .maintenance then resumeEach pass world requireClear rest
    else if pass.fails robot.name then { failed := true }
    else if coveredByOtherActive world.zones (world.listed (pass.behind robot.name)) pass.window robot then
      resumeEach pass world requireClear rest
    else
      let after := resumeEach pass world requireClear rest
      if requireClear && !estopClear world.zones robot then { after with blocked := robot :: after.blocked }
      else { after with freed := robot :: after.freed }

def resumeAll (window : ZoneMaintenance) (gated : Bool) : Resumed :=
  resumeEach pass world (gated && requireEstopClearBeforeResume world.config window.spec)
    (robotsPausedByWindow world window)

def Resumed.events (resumed : Resumed) (window : String) : List Event :=
  (resumed.blocked.map fun robot => .clearRejected window robot.name) ++
    resumed.freed.map fun robot => .resumed window robot.name

def byName (entries : List PausedRobotEntry) : List PausedRobotEntry :=
  entries.insertionSort fun a b => a.name ≤ b.name

def pausedEntry (window : ZoneMaintenance) (now : Nat) (robot : FleetRobot) : PausedRobotEntry :=
  { name := robot.name, pausedAt := (pauseTime window robot.name).getD now }

def heldPaused (now : Nat) (world : World) (window : ZoneMaintenance) : List PausedRobotEntry :=
  byName (((robotsPausedByWindow world window).filter fun robot => robot.phase = .maintenance).map
    (pausedEntry window now))

def patchStatusIfChanged (original window : ZoneMaintenance) (world : World) : World :=
  if window.status = original.status ∨ pass.refused then world else world.writeWindow window

def deactivated (window : ZoneMaintenance) (closedBy : String) : Event :=
  .deactivated window.name window.spec.scope.zoneName closedBy (window.status.activatedAt.map (pass.now - ·))

def closeHeld (window : ZoneMaintenance) : ZoneMaintenance :=
  { window with
    status := { window.status with
      pausedRobots := heldPaused pass.now world window
      windingDownRobots := []
      continuousCapabilities := []
      resumeBlockedByEstop := some
        { status := true, reason := "EstopNotClear"
          message := "auto-resume is holding: one or more robots have an estop that is not Clear" } } }

def closeCompleted (window : ZoneMaintenance) : ZoneMaintenance :=
  { window with
    status := { window.status with
      phase := .completed
      completedAt := some pass.now
      pausedRobots := []
      windingDownRobots := []
      continuousCapabilities := []
      resumeBlockedByEstop := some { status := false, reason := "Resumed", message := "all robots resumed" } } }

def close (original window : ZoneMaintenance) (trigger : String) : World × List Event :=
  let resumed := resumeAll pass world window true
  let after := world.withPhase resumed.freed .idle
  let events := resumed.events window.name
  if resumed.failed then (after, events)
  else if resumed.blocked ≠ [] then
    (patchStatusIfChanged pass original (closeHeld pass after window) after, events)
  else
    (patchStatusIfChanged pass original (closeCompleted pass window) after,
      if pass.refused then events else deactivated pass window trigger :: events)

def defaultGracefulDrainTimeout : Nat := 300

def gracefulDrainTimeoutFor (config : Option MaintenanceConfig) : Nat :=
  match config with
  | none => defaultGracefulDrainTimeout
  | some config =>
    if 0 < config.defaultGracefulDrainTimeoutSeconds then config.defaultGracefulDrainTimeoutSeconds
    else defaultGracefulDrainTimeout

structure Drained where
  paused : List FleetRobot := []
  entries : List PausedRobotEntry := []
  windingDown : List WindingDownRobot := []
  continuous : List ContinuousCapabilityEntry := []
  requeued : List String := []
  failed : Bool := false

/-- The loop over the robots in scope.  `force` is the mode Immediate or a drain that has
run out. -/
def drainEach (pass : Pass) (window : ZoneMaintenance) (force : Bool) : List FleetRobot → Drained
  | [] => {}
  | robot :: rest =>
    let after := drainEach pass window force rest
    if robot.phase = .maintenance then
      let running := continuousCapabilities robot
      { after with
        entries := pausedEntry window pass.now robot :: after.entries
        continuous :=
          if running = [] then after.continuous
          else { robotName := robot.name, capabilities := running } :: after.continuous }
    else if robot.phase = .idle ∧ robot.assignedAction = "" then
      if pass.fails robot.name then { failed := true }
      else
        { after with
          paused := robot :: after.paused
          entries := { name := robot.name, pausedAt := pass.now } :: after.entries }
    else if robot.phase = .inProgress ∨ robot.assignedAction ≠ "" then
      let asks := force && robot.assignedAction ≠ "" && !estopHoldsWork robot.toRobot
      if asks && pass.fails robot.name then { failed := true }
      else
        { after with
          windingDown := { name := robot.name, assignedAction := robot.assignedAction } :: after.windingDown
          requeued :=
            if asks && stopNames pass robot = [] then robot.assignedAction :: after.requeued else after.requeued }
    else after

def drainExpired (window : ZoneMaintenance) : Bool :=
  window.spec.mode ≠ .immediate &&
    window.status.activatedAt.any fun activatedAt => activatedAt + gracefulDrainTimeoutFor world.config < pass.now

def drained (window : ZoneMaintenance) (now : Nat) (drain : Drained) (leftScope : List FleetRobot) : ZoneMaintenance :=
  { window with
    status := { window.status with
      pausedRobots := byName (drain.entries ++
        (leftScope.filter fun robot => robot.phase = .maintenance).map (pausedEntry window now))
      windingDownRobots := drain.windingDown.insertionSort fun a b => a.name ≤ b.name
      continuousCapabilities := drain.continuous.insertionSort fun a b => a.robotName ≤ b.robotName } }

def requeueReason (window : ZoneMaintenance) : String :=
  if window.spec.reason = "" then "zone maintenance" else window.spec.reason

def drain (original window : ZoneMaintenance) (justActivated : Bool) : World × List Event :=
  let (robots, leftScope) := robotsInScopeAndPausedOutside world window
  let opened : List Event :=
    if justActivated then
      [.activated window.name window.spec.scope.zoneName window.spec.mode.text window.spec.reason
        ((robots.map fun robot => robot.name).insertionSort (· ≤ ·))]
    else []
  let drain := drainEach pass window (window.spec.mode = .immediate || drainExpired pass world window) robots
  let after := world.withPhase drain.paused .maintenance
  let events := (drain.requeued.map fun action => .requeued window.name action (requeueReason window)) ++
    (drain.paused.map fun robot => .paused window.name robot.name) ++ opened
  if drain.failed then (after, events)
  else (patchStatusIfChanged pass original (drained window pass.now drain leftScope) after, events)

def activate (window : ZoneMaintenance) : ZoneMaintenance :=
  { window with
    status := { window.status with
      phase := .active
      activatedAt := some pass.now
      autoResumeAt :=
        if 0 < window.spec.autoResumeAfterMinutes then some (pass.now + window.spec.autoResumeAfterMinutes * 60)
        else window.status.autoResumeAt
      scopeResolved := window.status.scopeResolved.map fun _ =>
        { status := true, reason := "Resolved", message := "every member of the composite scope resolved" } } }

def unresolvedMessage (window : ZoneMaintenance) (members : List UnresolvedMember) : String :=
  "not activated: composite scope " ++ window.spec.scope.zoneName ++ " does not fully resolve (" ++
    describeUnresolved members ++ "); no robot is paused"

def unresolvable (window : ZoneMaintenance) (members : List UnresolvedMember) : ZoneMaintenance :=
  { window with
    status := { window.status with
      scopeResolved := some
        { status := false, reason := "CompositionUnresolved", message := unresolvedMessage window members } } }

def advance (original window : ZoneMaintenance) (justActivated : Bool) : World × List Event :=
  let operatorClose : Bool := window.spec.desiredState = .completed
  let deadlineReached := window.status.autoResumeAt.any (· ≤ pass.now)
  if deadlineReached || operatorClose then
    close pass world original window (if operatorClose && !deadlineReached then "operator-close" else "auto-resume")
  else drain pass world original window justActivated

def progress (window : ZoneMaintenance) : World × List Event :=
  let operatorClose : Bool := window.spec.desiredState = .completed
  if !operatorClose && window.spec.scheduledStart.any (pass.now < ·) then
    (patchStatusIfChanged pass window { window with status := { window.status with phase := .scheduled } } world, [])
  else if !operatorClose && window.status.phase ≠ .active then
    let members := (resolveScope world.zones window.spec.scope).unresolved
    if members ≠ [] then
      (patchStatusIfChanged pass window (unresolvable window members) world,
        if (unresolvable window members).status ≠ window.status ∧ pass.refused then []
        else [.compositionUnresolved window.name (unresolvedMessage window members)])
    else advance pass world window (activate pass window) true
  else advance pass world window window false

/-- The deletion of a window resumes its robots whatever their estops say. -/
def finalize (window : ZoneMaintenance) : World × List Event :=
  let resumed := resumeAll pass world window false
  let after := world.withPhase resumed.freed .idle
  let events := resumed.events window.name
  if resumed.failed || pass.refused then (after, events)
  else (after.removeWindow window.name, deactivated pass window "delete" :: events)

def reconcile : World × List Event :=
  match world.window pass.window with
  | none => (world, [])
  | some window =>
    if window.deleting then if window.finalizer then finalize pass world window else (world, [])
    else if !window.finalizer then
      (if pass.refused then world else world.writeWindow { window with finalizer := true }, [])
    else if window.status.phase = .completed ∨ window.status.phase = .cancelled then (world, [])
    else progress pass world window

inductive Act
  | reconcile (pass : Pass)
  | create (name : String) (spec : ZoneMaintenanceSpec)
  | edit (name : String) (spec : ZoneMaintenanceSpec)
  | delete (name : String)
  | robot (before after : FleetRobot)
  | addRobot (robot : FleetRobot)
  | removeRobot (robot : FleetRobot)
  | zones (zones : List CompositeZone)
  | config (config : Option MaintenanceConfig)

/-- Only the passes put a robot into Maintenance. -/
def step : Act → Option (World × List Event)
  | .reconcile pass => some (reconcile pass world)
  | .create name spec =>
    match world.window name with
    | some _ => none
    | none => some (world.writeWindows (world.windows ++ [{ name, spec }]), [])
  | .edit name spec => (world.window name).map fun window => (world.writeWindow { window with spec }, [])
  | .delete name =>
    (world.window name).map fun window =>
      (if window.finalizer then world.writeWindow { window with deleting := true } else world.removeWindow name, [])
  | .robot before after =>
    if before ∈ world.robots ∧ after.name = before.name ∧
        (after.phase = .maintenance → before.phase = .maintenance) then
      some ({ world with robots := world.robots.map fun robot => if robot = before then after else robot }, [])
    else none
  | .addRobot robot =>
    if robot.phase ≠ .maintenance ∧ world.robots.all (fun other => other.name ≠ robot.name) then
      some ({ world with robots := world.robots ++ [robot] }, [])
    else none
  | .removeRobot robot => some ({ world with robots := world.robots.filter (· ≠ robot) }, [])
  | .zones zones => some ({ world with zones }, [])
  | .config config => some ({ world with config }, [])

def maintenance : Machine World Act Event := { step }

end Swarmada.MaintenanceController
