import Swarmada.Command.Motion
import Swarmada.Transition.Pool

/-! # The command dispatcher of one robot

The entry points that meet on the robot's send lock, each cut at the mutexes it takes:
`fence.mu` and `Dispatcher.mu` make one step atomic, the send lock is held over steps.
A wire robot_id names one Robot, and is fixed when the Robot is created.
-/

namespace Swarmada.Command

open Api Transition

structure Settings where
  requireRegister : Bool
  requireContract : Bool

/-- The manager's settings; `latch` is its flag `--require-latch-contract`. -/
def managerSettings (latch : Bool) : Settings := { requireRegister := true, requireContract := latch }

/-- The fences of the stops in force on a new stream (`fenceOnRegister`), for a register
or ahead of an AssignAction. -/
structure Pass where
  sender : Nat
  wire : String
  robot : Robot
  assigning : Bool

inductive Assign where
  | lock
  | lookup
  | contract (sender : Nat)
  | held (sender : Nat)
  | ready (sender : Nat)
  | registered (sender : Nat)
  | recheck (sender : Nat)
  | send (sender : Nat)

inductive Thread where
  | idle
  /-- `SendFence`, or `SendClearedFence`, before the send lock -/
  | fence (robot : Robot) (stop : String) (cleared : Bool)
  | fenceLookup (robot : Robot) (stop : String) (cleared : Bool)
  | fenceSend (sender : Nat) (wire stop : String) (cleared : Bool)
  | assign (robot : Robot) (stage : Assign)
  /-- `RobotRegistered` with so many reads of the Robot left -/
  | registering (sender : Nat) (wire : String) (attempts : Nat)
  | registered (sender : Nat) (wire : String) (robot : Robot)
  | adding (pass : Pass) (rest : List String)
  | sending (pass : Pass) (rest : List String)
  | move (mover : Mover)
  | forgetting (sender : Nat)
  | negotiating (sender : Nat) (version : Option (List Nat))

inductive Act where
  | sendFence (age : Nat) (stop : String)
  | sendClearedFence (age : Nat) (stop : String)
  | roundTripAssign (age : Nat)
  | robotRegistered (sender : Nat)
  | roundTripMotion (age : Nat) (motion : Motion)
  | roundTripHold (age : Nat) (motion : Motion)
  | robotReleased (age : Nat)
  | registerStream (adapter : String)
  | deregister (adapter : String) (sender : Nat)
  | streamNegotiated (adapter : String) (sender : Nat) (version : Option (List Nat))
  | clearHeld
  | write (robot : Robot)
  /-- the thread's next step; `ok` is the answer of its read or send -/
  | next (ok : Bool)

def sameRobot (robot other : Robot) : Bool :=
  robot.ns = other.ns && robot.name = other.name && robot.uid = other.uid && robot.wire = other.wire

def begin (state : FenceState) : Act → Option (FenceState × Thread × List Event)
  | .sendFence age stop =>
    (state.version age).map fun robot => (state, .fence robot stop false, [])
  | .sendClearedFence age stop =>
    (state.version age).map fun robot => (state, .fence robot stop true, [])
  | .roundTripAssign age => (state.version age).map fun robot => (state, .assign robot .lock, [])
  | .robotRegistered sender =>
    let wire := state.stored.wire
    some (state.markRegistered sender wire, .registering sender wire 4, [])
  | .roundTripMotion age motion =>
    (state.version age).map fun robot => (state, .move (.counting { robot, motion }), [])
  | .roundTripHold age motion =>
    (state.version age).map fun robot => (state, .move (.holding { robot, motion }), [])
  | .robotReleased age =>
    (state.version age).map fun robot => (state, .move (.releasing robot state.toRelease), [])
  | .registerStream adapter =>
    some (state.registerStream adapter, .idle, [.opened state.opened])
  | .deregister adapter sender => some (state.deregister adapter sender, .forgetting sender, [])
  | .streamNegotiated adapter sender version =>
    if state.streams adapter = some sender then some (state, .negotiating sender version, [])
    else some (state, .idle, [])
  | .clearHeld => some (state.clearHeld, .idle, [.heldCleared])
  | .write robot => if sameRobot robot state.stored then some (state.write robot, .idle, []) else none
  | .next _ => none

def Assign.step (settings : Settings) (me : Nat) (state : FenceState) (robot : Robot) :
    Assign → Option (FenceState × Thread × List Event)
  | .lock => if state.lock.isSome then none else some (state.locked me, .assign robot .lookup, [])
  | .lookup =>
    match state.streams robot.adapter with
    | none => some (state.unlocked, .idle, [])
    | some sender => some (state, .assign robot (.contract sender), [])
  | .contract sender =>
    if settings.requireContract && !state.boundByLatch sender then some (state.unlocked, .idle, [])
    else some (state, .assign robot (.held sender), [])
  | .held sender =>
    if state.held = [] then some (state, .assign robot (.ready sender), [.checked me])
    else some (state.unlocked, .idle, [])
  | .ready sender =>
    if settings.requireRegister && !state.ready.contains (sender, robot.wire) then
      some (state, .assign robot (.registered sender), [])
    else some (state, .assign robot (.send sender), [])
  | .registered sender =>
    if state.registered.contains (sender, robot.wire) then
      some (state, .adding { sender, wire := robot.wire, robot, assigning := true } (recordedInForce robot),
        [.fencing me sender robot.wire robot])
    else some (state.unlocked, .idle, [])
  | .recheck sender =>
    if state.held = [] then some (state, .assign robot (.send sender), [.checked me])
    else some (state.unlocked, .idle, [])
  | .send sender => some (state.unlocked, .idle, [.assignSent me sender robot.wire])

def Thread.step (settings : Settings) (me : Nat) (state : FenceState) :
    Thread → Bool → Option (FenceState × Thread × List Event)
  | .idle, _ => none
  | .fence robot stop false, _ =>
    if state.lock.isSome then none
    else some ((state.addHeld stop).locked me, .fenceLookup robot stop false, [.added stop])
  | .fence robot stop true, _ =>
    if state.lock.isSome then none else some (state.locked me, .fenceLookup robot stop true, [])
  | .fenceLookup robot stop cleared, _ =>
    match state.streams robot.adapter with
    | none => some (state.unlocked, .idle, [])
    | some sender => some (state, .fenceSend sender robot.wire stop cleared, [])
  | .fenceSend sender wire stop cleared, ok =>
    let event := if cleared then Event.clearedFenceSent sender wire stop else .fenceSent sender wire stop
    some (state.unlocked, .idle, if ok then [event] else [])
  | .assign robot stage, _ => stage.step settings me state robot
  | .registering _ _ 0, _ => some (state, .idle, [])
  | .registering sender wire (attempts + 1), found =>
    if found then some (state, .registered sender wire state.stored, [])
    else some (state, .registering sender wire attempts, [])
  | .registered sender wire robot, _ =>
    if state.lock.isSome then none
    else
      some (state.locked me, .adding { sender, wire, robot, assigning := false } (recordedInForce robot),
        [.fencing me sender wire robot])
  | .adding pass (stop :: rest), _ => some (state.addHeld stop, .adding pass rest, [.added stop])
  | .adding pass [], _ => some (state, .sending pass (heldStops state.held), [])
  | .sending pass (stop :: rest), ok =>
    if ok then some (state, .sending pass rest, [.fenceSent pass.sender pass.wire stop])
    else some (state.unlocked, .idle, [])
  | .sending pass [], _ =>
    let marked := state.markReady pass.sender pass.wire
    if pass.assigning then
      some (marked, .assign pass.robot (.recheck pass.sender), [.ready me pass.sender pass.wire])
    else some (marked.unlocked, .idle, [.ready me pass.sender pass.wire])
  | .move mover, ok =>
    match mover.step me state ok with
    | none => none
    | some (after, next, events) => some (after, (next.map Thread.move).getD .idle, events)
  | .forgetting sender, _ => some (state.forgetStream sender, .idle, [])
  | .negotiating sender version, _ =>
    some ({ state with contract := Function.update state.contract sender (some version) }, .idle, [])

def dispatch (settings : Settings) (me : Nat) (state : FenceState) (thread : Thread) (act : Act) :
    Option (FenceState × Thread × List Event) :=
  match act with
  | .next ok => thread.step settings me state ok
  | call => match thread with
    | .idle => begin state call
    | _ => none

def dispatchers (settings : Settings) : Pool FenceState Thread Act Event where
  step := dispatch settings

/-- Nothing is in force for the robot and no call is running. Streams of its adapters may be open already, with marks
of an earlier robot of its robot_id. -/
structure Created (config : Config FenceState Thread) : Prop where
  held : config.shared.held = []
  lock : config.shared.lock = none
  marks : ∀ mark ∈ config.shared.ready, mark.1 < config.shared.opened
  idle : ∀ i, config.threads i = .idle

end Swarmada.Command
