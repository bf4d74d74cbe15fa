import Swarmada.ModelRollout.Reconcile

/-! # The rollout controller and what moves around it

One worker runs the passes over a rollout, one at a time.  Robots report, an operator resumes or
holds the rollout and the progress of a batch is written, all between any two calls of a pass.
What a read through the cache returns is the surroundings' to choose.
-/

namespace Swarmada.ModelRollout

open Transition

/-- The names of the robots the selector matches; names are unique in a namespace. -/
structure Fleet where
  names : List String
  distinct : names.Nodup

structure World where
  fleet : Fleet
  robots : String → Versioned (Option ModelEntry)
  rollout : Versioned Rollout
  /-- the rollout marked the robot, and the robot has reported nothing but Updating since -/
  marked : String → Bool := fun _ => false

variable (w : World)

namespace World

/-- The model entry is Updating because of the rollout. -/
def outOfService (name : String) : Bool :=
  w.marked name && (w.robots name).value.any fun entry => entry.status == .updating

def unavailable : List String := w.fleet.names.filter w.outOfService

def report (name : String) (entry : ModelEntry) : World :=
  { w with
    robots := Function.update w.robots name ((w.robots name).write (some entry))
    marked := Function.update w.marked name (w.marked name && entry.status == .updating) }

def mark (name : String) (read : Option ModelEntry) : World :=
  { w with
    robots := Function.update w.robots name ((w.robots name).write (some (markUpdating read)))
    marked := Function.update w.marked name true }

def writeRollout (rollout : Rollout) : World := { w with rollout := w.rollout.write rollout }

def patchStatus (base new : Status) : World :=
  w.writeRollout { w.rollout.value with status := base.merge new w.rollout.value.status }

def processed (request : String) : World :=
  w.writeRollout { w.rollout.value with resumeProcessed := some request }

def touch (name : String) : World :=
  { w with robots := Function.update w.robots name ((w.robots name).write (w.robots name).value) }

end World

inductive Event where
  | started
  | pushed (robot : String) (update : ModelUpdate) (acknowledged : Bool)
  | marked (robot : String)
  | written
  | resumed
deriving DecidableEq, Repr

inductive Answer where
  | plain
  | rollout (copy : Versioned Rollout)
  | listing (robots : List Robot)
  | holds (why : String → String)
  | why (held : String)
  | pushed (reply : PushReply)
  | robot (copy : Versioned (Option ModelEntry))
  | number (value : Nat)

def perform : (op : Op) → Answer → Option (World × op.Reply × List Event)
  | .getRollout, .rollout copy => some (w, copy, [])
  | .listRobots _, .listing robots => some (w, robots, [])
  | .readHolds, .holds why => some (w, why, [])
  | .patchResume base new, .plain => some (w.patchStatus base new, (), [.resumed])
  | .markProcessed request, .plain => some (w.processed request, (w.processed request).rollout, [])
  | .heldNow _, .why held => some (w, held, [])
  | .push robot update, .pushed reply => some (w, reply, [.pushed robot update reply.acknowledged])
  | .getRobot _, .robot copy => some (w, copy, [])
  | .patchRobot robot read, .plain =>
    -- the mark carries the version it was computed from
    if read.version = (w.robots robot).version then some (w.mark robot read.value, true, [.marked robot])
    else some (w, false, [])
  | .reread, .number version => some (w, version, [])
  | .patchGrant robot _, .plain => some (w.touch robot, (), [])
  | .now, .number time => some (w, time, [])
  | .patchStatus base new, .plain => some (w.patchStatus base new, (), [.written])
  | _, _ => none

inductive Act where
  | report (robot : String) (entry : ModelEntry)
  | touch (robot : String)
  | resume (request : String)
  | desire (state : RolloutDesiredState)
  | progress (batch : List BatchRobot)

def Act.step : Act → World
  | .report robot entry => w.report robot entry
  | .touch robot => w.touch robot
  | .resume request => w.writeRollout { w.rollout.value with resume := some request }
  | .desire state =>
    w.writeRollout { w.rollout.value with spec := { w.rollout.value.spec with desiredState := state } }
  | .progress batch =>
    w.writeRollout { w.rollout.value with status := { w.rollout.value.status with currentBatch := batch } }

structure System where
  world : World
  pass : Pass Unit := .done ()

inductive Label where
  | start
  | answer (given : Answer)
  | abort
  | act (move : Act)

def System.step (pusher : Bool) (s : System) : Label → Option (System × List Event)
  | .start =>
    match s.pass with
    | .done _ => some ({ s with pass := reconcile pusher }, [.started])
    | .call _ _ => none
  | .answer given =>
    match s.pass with
    | .done _ => none
    | .call op next =>
      match perform s.world op given with
      | none => none
      | some (world, reply, events) => some ({ world := world, pass := next reply }, events)
  | .abort => some ({ s with pass := .done () }, [])
  | .act move => some ({ s with world := move.step s.world }, [])

def controller (pusher : Bool) : Machine System Label Event := ⟨System.step pusher⟩

def World.lists (robots : List Robot) : Bool :=
  names robots = w.fleet.names ∧ ∀ rob ∈ robots, rob.model = (w.robots rob.name).value

def World.reads : Op → Answer → Bool
  | .getRollout, .rollout copy => copy = w.rollout
  | .listRobots _, .listing robots => w.lists robots
  | .getRobot robot, .robot copy => copy = w.robots robot
  | .reread, .number version => version = w.rollout.version
  | _, _ => true

def System.answers (s : System) (allowed : World → Op → Answer → Bool) : Label → Bool
  | .answer given =>
    match s.pass with
    | .done _ => true
    | .call op _ => allowed s.world op given
  | _ => true

/-- The runs without stale reads. -/
def Current (_ : List Event) (s : System) (label : Label) : Prop := s.answers World.reads label = true

instance (history : List Event) (s : System) (label : Label) : Decidable (Current history s label) :=
  inferInstanceAs (Decidable (_ = true))

def World.listing : List Robot :=
  w.fleet.names.map fun name => { name := name, batteryPercent := some 100, model := (w.robots name).value }

/-- A pass starts, or its call is answered from what is stored: no stop holds a robot and every push
is acknowledged. -/
def System.usual (s : System) : Label :=
  match s.pass with
  | .done _ => .start
  | .call op _ =>
    .answer <|
      match op with
      | .getRollout => .rollout s.world.rollout
      | .listRobots _ => .listing s.world.listing
      | .readHolds => .holds fun _ => ""
      | .heldNow _ => .why ""
      | .push _ _ => .pushed (.answered true "")
      | .getRobot robot => .robot (s.world.robots robot)
      | .reread => .number s.world.rollout.version
      | .now => .number 0
      | _ => .plain

inductive Turn where
  | steps (count : Nat)
  | act (move : Act)

def System.steps (pusher : Bool) : Nat → System → System × List Label
  | 0, s => (s, [])
  | count + 1, s =>
    match s.step pusher s.usual with
    | none => (s, [])
    | some (after, _) =>
      let (last, labels) := System.steps pusher count after
      (last, s.usual :: labels)

def System.turns (pusher : Bool) : List Turn → System → List Label
  | [], _ => []
  | .steps count :: rest, s =>
    let (after, labels) := s.steps pusher count
    labels ++ System.turns pusher rest after
  | .act move :: rest, s => .act move :: System.turns pusher rest { s with world := move.step s.world }

def upgrade (pauseOnError : Bool) (fleet : Fleet) : World where
  fleet := fleet
  robots := fun _ => ⟨some { status := .active, runningVersion := "1.0.0" }, 0⟩
  rollout :=
    { value :=
        { name := "grasp"
          spec :=
            { modelName := "grasp", newVersion := "2.0.0", rollbackPolicy := .auto
              rollingUpdate := some { maxUnavailable := "1", pauseOnError := some pauseOnError } } }
      version := 0 }

def pair : Fleet := ⟨["arm", "cart"], by decide⟩

def failure (reason : String) : ModelEntry := { status := .failed, runningVersion := "1.0.0", failureReason := reason }

end Swarmada.ModelRollout
