import Swarmada.Controller.Lease
import Swarmada.Transition.Machine
import Swarmada.Transition.Program
import Swarmada.Transition.Store

/-! # The cluster a FleetAction is reconciled in

One namespace, the FleetActions created in it under one name, and its Robots.  The API
server's status writes are compare-and-swap on `resourceVersion`.  The controller's cache
follows each object in its own time.  An adapter reports under the tokens of assignments
it was sent, and whatever else a pass asks (the stops over a robot, the scheduler's
choice, an adapter's answer) is the surroundings' to answer.
-/

namespace Swarmada.Controller

open Api Executorguard Transition

/-- The name reconciled, and the namespace's clock-skew margin, within what the
configuration admits. -/
structure Settings where
  task : String
  skew : Nat
  named : task ≠ ""
  admitted : skew ≤ maxSkew

structure Cluster where
  now : Nat
  actions : Store Unit FleetAction
  robots : Store String FleetRobot
  names : List String
  cachedAction : Option (Versioned FleetAction)
  cachedRobots : String → Option (Versioned FleetRobot)
  orphaned : Option Nat
  mark : Nat
  sent : List Nat

variable (c : Cluster)

namespace Cluster

def empty : Cluster where
  now := 0
  actions := { next := 1, objects := fun _ => none }
  robots := { next := 1, objects := fun _ => none }
  names := []
  cachedAction := none
  cachedRobots := fun _ => none
  orphaned := none
  mark := 0
  sent := []

def action : Option (Versioned FleetAction) := c.actions.objects ()

def writeAction (action : FleetAction) : Cluster :=
  { c with actions := c.actions.put () action }

def writeRobot (robot : String) (value : FleetRobot) : Cluster :=
  { c with robots := c.robots.put robot value }

def listCached : List (Versioned FleetRobot) := c.names.filterMap c.cachedRobots

def listLive : List (Versioned FleetRobot) := c.names.filterMap c.robots.objects

end Cluster

inductive Event
  | clock (now : Nat)
  | assigned (robot : String) (horizon : Nat)
  | leased (robot : String) (horizon : Nat)
  | recorded (robot : String)
  /-- the robot's adapter acknowledged a cancel, and not with the stop unconfirmed -/
  | acknowledged (robot : String)
  | refused (robot : String)
  | ended (robot : String)
deriving DecidableEq, Repr

structure LeaseTimings where
  duration : Nat
  renew : Nat
  skew : Nat

inductive ActionCancellationPolicy
  | never | afterTimeout (seconds : Nat) | whenActionExpired
deriving DecidableEq, Repr

inductive Question
  | finalizerChanges | heldWhileDeleted | backoffRunning | capabilitiesSatisfied | destinationStopped
  | restrictionsRefuse | restrictionsTerminal | streamsMissing | zoneCapacityDenied | victimStillRunning
  | victimTaken
deriving DecidableEq, Repr

/-- The calls of one pass, with the copies a write was computed from and is decided on. -/
inductive Op
  | getAction
  | getActionLive
  | forgetOrphan
  | orphanedSince (now : Nat)
  | now
  | leaseTimings
  | getRobot (robot : String)
  | getRobotLive (robot : String)
  | listRobots
  | listRobotsLive
  | patchFinalizer (original : Versioned FleetAction)
  | patchStatus (original : Versioned FleetAction) (action : FleetAction)
  | setRequeue (value : Option String)
  | setAlerted (basis : Versioned FleetAction) (value : Bool)
  | patchRobot (basis : Option (Versioned FleetAction)) (original : Versioned FleetRobot) (robot : FleetRobot)
  | mergeRobot (basis : Versioned FleetAction) (robot : String)
  | pushCancel (robot : String)
  | pushAssignAction (robot : String) (generation : Nat)
  | pushRenewLease (robot : String)
  | covering (robot : String)
  | onDisconnectPolicy
  | mintGeneration (previous : Nat)
  | selectRobot (listed : List (Versioned FleetRobot))
  | ask (question : Question)

@[reducible] def Op.Reply : Op → Type
  | .getAction | .getActionLive => Option (Versioned FleetAction)
  | .forgetOrphan | .mergeRobot _ _ | .pushRenewLease _ => Unit
  | .orphanedSince _ | .now => Nat
  | .leaseTimings => LeaseTimings
  | .getRobot _ | .getRobotLive _ => Option (Versioned FleetRobot)
  | .listRobots | .listRobotsLive => List (Versioned FleetRobot)
  | .patchFinalizer _ | .patchStatus _ _ | .setAlerted _ _ => Option (Versioned FleetAction)
  | .setRequeue _ | .patchRobot _ _ _ => Bool
  | .pushCancel _ => Bool × CancelDisposition
  | .pushAssignAction _ _ | .ask _ => Bool
  | .covering _ => List String
  | .onDisconnectPolicy => ActionCancellationPolicy
  | .mintGeneration _ => Option Nat
  | .selectRobot _ => Option (Versioned FleetRobot)

/-- What the surroundings decide of a call.  A write lands, is refused, or lands with its
answer lost. -/
inductive Answer
  | plain
  | landed | refused | lost
  | duration (seconds : Nat)
  | cancel (acknowledged : Bool) (disposition : CancelDisposition)
  | rejected (rejected : Bool)
  | stops (names : List String)
  | policy (policy : ActionCancellationPolicy)
  | generation (minted : Option Nat)
  | robot (chosen : Option String)
  | answer (yes : Bool)

def leaseEvents (original action : FleetAction) : List Event :=
  match action.leaseExpiresAt with
  | none => []
  | some horizon =>
    if action.assignedRobot = "" then []
    else if original.assignedRobot = "" then [.assigned action.assignedRobot horizon]
    else if original.leaseExpiresAt = some horizon then []
    else [.leased action.assignedRobot horizon]

def selectable (robot : FleetRobot) : Bool :=
  robot.phase == .idle ||
    ((robot.phase == .inProgress || robot.phase == .assigned) && robot.assignedAction != "")

def recordEvents (task : String) (robot : FleetRobot) : List Event :=
  if robot.assignedAction = task then [.recorded robot.name] else []

def perform (settings : Settings) (c : Cluster) : (op : Op) → Answer → Option (Cluster × op.Reply × List Event)
  | .getAction, .plain => some (c, c.cachedAction, [])
  | .getActionLive, .plain => some (c, c.action, [])
  | .forgetOrphan, .plain => some ({ c with orphaned := none }, (), [])
  | .orphanedSince now, .plain =>
    match c.orphaned with
    | some first => some (c, first, [])
    | none => some ({ c with orphaned := some now }, now, [])
  | .now, .plain => some (c, c.now, [])
  | .leaseTimings, .duration seconds =>
    if seconds ≤ maxLease then
      some (c, { duration := seconds, renew := seconds / 3, skew := settings.skew }, [])
    else none
  | .getRobot robot, .plain => some (c, c.cachedRobots robot, [])
  | .getRobotLive robot, .plain => some (c, c.robots.objects robot, [])
  | .listRobots, .plain => some (c, c.listCached, [])
  | .listRobotsLive, .plain => some (c, c.listLive, [])
  | .patchFinalizer original, .landed =>
    if c.actions.holds () original then
      some (c.writeAction original.value, some ⟨original.value, c.actions.next⟩, [])
    else none
  | .patchFinalizer _, .refused => some (c, none, [])
  | .patchStatus original action, .landed =>
    if c.actions.holds () original then
      some (c.writeAction action, some ⟨action, c.actions.next⟩, leaseEvents original.value action)
    else none
  | .patchStatus original action, .lost =>
    if c.actions.holds () original then
      some (c.writeAction action, none, leaseEvents original.value action)
    else none
  | .patchStatus _ _, .refused => some (c, none, [])
  | .setRequeue value, .landed =>
    c.action.map fun current => (c.writeAction { current.value with requeueRequested := value }, true, [])
  | .setRequeue _, .refused => some (c, false, [])
  | .setAlerted _ value, .landed =>
    c.action.map fun current =>
      let alerted := { current.value with failureAlerted := value }
      (c.writeAction alerted, some ⟨alerted, c.actions.next⟩, [])
  | .setAlerted _ _, .refused => some (c, none, [])
  | .patchRobot _ original robot, .landed =>
    if c.robots.holds robot.name original then
      some (c.writeRobot robot.name robot, true, recordEvents settings.task robot)
    else none
  | .patchRobot _ original robot, .lost =>
    if c.robots.holds robot.name original then
      some (c.writeRobot robot.name robot, false, recordEvents settings.task robot)
    else none
  | .patchRobot _ _ _, .refused => some (c, false, [])
  | .mergeRobot _ robot, .landed =>
    (c.robots.objects robot).map fun current =>
      (c.writeRobot robot { current.value with assignedAction := "" }, (), [])
  | .mergeRobot _ _, .refused => some (c, (), [])
  | .pushCancel robot, .cancel acknowledged disposition =>
    some (c, (acknowledged, disposition),
      if acknowledged ∧ disposition ≠ .stopUnconfirmed then [.acknowledged robot] else [])
  | .pushAssignAction robot generation, .rejected rejected =>
    some ({ c with sent := generation :: c.sent }, rejected, if rejected then [.refused robot] else [])
  | .pushRenewLease _, .plain => some (c, (), [])
  | .covering _, .stops names => some (c, names, [])
  | .onDisconnectPolicy, .policy policy => some (c, policy, [])
  | .mintGeneration previous, .generation minted =>
    match minted with
    | none => some (c, none, [])
    | some generation =>
      if nextGeneration c.mark previous ≤ generation then
        some ({ c with mark := generation }, some generation, [])
      else none
  | .selectRobot listed, .robot chosen =>
    match chosen with
    | none => some (c, none, [])
    | some name =>
      match listed.find? fun robot => robot.value.name == name && selectable robot.value with
      | some robot => some (c, some robot, [])
      | none => none
  | .ask _, .answer yes => some (c, yes, [])
  | _, _ => none

end Swarmada.Controller
