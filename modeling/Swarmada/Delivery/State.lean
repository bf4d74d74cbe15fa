import Swarmada.Safety.Recording

/-! # Estops on their way over SafetyStreams

The estop dispatcher's streams and waiters.  A sender and a waiter are named by the
order in which they came; a waiter's number stands for the pointer the dispatcher keeps
to it.  Times are read on one clock.
-/

namespace Swarmada.Delivery

open Api Safety

structure Identity where
  ns : String
  adapter : String
deriving DecidableEq, Repr

structure PendingKey where
  ns : String
  robot : String
  estopID : String
deriving DecidableEq, Repr

inductive AckState where
  | stopping | stopped | failed
deriving DecidableEq, Repr

structure PendingEstop where
  adapter : String
  sender : Nat
  robot : String
  key : PendingKey
  epoch : Nat
  deadline : Option Nat := none
  settled : Bool := false
  resend : Bool := false
  taken : Bool := false
  ch : List AckState := []
deriving DecidableEq, Repr

structure Order where
  issued : Nat := 0
  lastStop : Nat := 0
  lastClear : Nat := 0
deriving DecidableEq, Repr

inductive Task where
  | resendHeld (sender : Nat) (identity : Identity) (moved : List String)
  | resendHeldTo (sender : Nat) (identity : Identity) (robot : Robot) (estopID : String)
deriving DecidableEq

structure Dispatcher where
  now : Nat := 0
  confirmTimeout : Nat := 10000
  identities : List Identity := []
  streams : Identity → Option Nat := fun _ => none
  waiters : Nat → PendingEstop
  count : Nat := 0
  pending : PendingKey → Option Nat := fun _ => none
  /-- the keys of `pending`, in no order the code relies on -/
  awaited : List PendingKey := []
  orders : String × String → Option Order := fun _ => none
  robots : List Robot := []
  issued : List String := []
  tasks : List Task := []

inductive Event where
  | opened (sender : Nat) (identity : Identity)
  | bound (thread : Nat) (key : PendingKey) (sender : Nat)
  | pushed (sender : Nat) (key : PendingKey) (ok : Bool)
  | ackReceived (sender : Nat) (identity : Identity) (robot estopID : String) (state : AckState)
  /-- a stop's state is handed to the writer of `estopState` -/
  | outcome (robot : Robot) (estopID : String) (state : RobotEstopState)
  /-- the thread goes on to push what it has bound to the new stream, for the robots `moved` -/
  | handover (thread sender : Nat) (identity : Identity) (moved : List String)
  | listed (sender : Nat) (identity : Identity) (moved : List String) (robots : List Robot)
  | listFailed (sender : Nat)
  | started (thread : Nat) (task : Task)
deriving DecidableEq

namespace Dispatcher

variable (d : Dispatcher)

def changeWaiter (p : Nat) (change : PendingEstop → PendingEstop) : Dispatcher :=
  { d with waiters := Function.update d.waiters p (change (d.waiters p)) }

def addWaiter (waiter : PendingEstop) : Dispatcher :=
  { d with
    waiters := Function.update d.waiters d.count waiter,
    count := d.count + 1,
    pending := Function.update d.pending waiter.key (some d.count),
    awaited := if waiter.key ∈ d.awaited then d.awaited else waiter.key :: d.awaited }

def settle (p : Nat) : Dispatcher := d.changeWaiter p fun waiter => { waiter with settled := true }

def startWindowAt (p deadline : Nat) : Dispatcher :=
  d.changeWaiter p fun waiter => { waiter with deadline := some deadline }

def bind (p sender : Nat) : Dispatcher :=
  d.changeWaiter p fun waiter => { waiter with sender }

def deregister (p : Nat) : Dispatcher :=
  let key := (d.waiters p).key
  if d.pending key = some p then
    { d with pending := Function.update d.pending key none, awaited := d.awaited.filter (· ≠ key) }
  else d

def deliver (p : Nat) (state : AckState) : Dispatcher :=
  d.changeWaiter p fun waiter =>
    if waiter.ch.length < 4 then { waiter with ch := waiter.ch ++ [state] } else waiter

def receive (p : Nat) : Dispatcher :=
  d.changeWaiter p fun waiter => { waiter with ch := waiter.ch.tail }

def expired (p : Nat) : Bool :=
  match (d.waiters p).deadline with
  | some deadline => deadline ≤ d.now
  | none => false

def orderFor (ns name : String) : Order := (d.orders (ns, name)).getD {}

def setOrder (ns name : String) (order : Order) : Dispatcher :=
  { d with orders := Function.update d.orders (ns, name) (some order) }

def issueEstopEpoch (ns name : String) (stop : Bool) : Dispatcher :=
  let order := d.orderFor ns name
  let epoch := order.issued + 1
  d.setOrder ns name { order with issued := epoch, lastStop := if stop then epoch else order.lastStop }

def issueClearEpoch (ns name : String) : Dispatcher :=
  let order := d.orderFor ns name
  d.setOrder ns name { order with issued := order.issued + 1, lastClear := order.issued + 1 }

/-- The stop of this carrier on the robot that a predecessor recorded: in force, and
neither issued nor run out by this process. -/
def predecessorStop (robot : Robot) (scope : EstopScope) (carrier : Option StopCarrier) : Option RobotStop :=
  let want := (newStopRecord robot "" scope carrier 0).entry
  match want.carrier with
  | none => none
  | some wanted =>
    robot.stops.find? fun stop =>
      stop.clearedAt.isNone && stop.scope = want.scope &&
      (match stop.carrier with
        | none => false
        | some found => found.kind = wanted.kind && found.name = wanted.name &&
            (found.uid = "" || wanted.uid = "" || found.uid = wanted.uid)) &&
      !d.issued.contains stop.id &&
      match d.pending ⟨robot.ns, robot.wire, stop.id⟩ with
      | none => true
      | some p => (d.waiters p).epoch = 0

def register (robot : Robot) (estopID : String) (epoch sender : Nat) : Dispatcher :=
  let key : PendingKey := ⟨robot.ns, robot.wire, estopID⟩
  let released := match d.pending key with
    | some old =>
      if (d.waiters old).resend then
        d.changeWaiter old fun waiter => { waiter with resend := false, taken := true }
      else d
    | none => d
  released.addWaiter { adapter := robot.adapter, sender, robot := robot.name, key, epoch }

variable (identity : Identity)

def wanted (replaced p : Nat) : Bool :=
  let waiter := d.waiters p
  waiter.sender = replaced && waiter.key.ns = identity.ns && waiter.adapter = identity.adapter &&
    !waiter.settled && !d.expired p &&
    match d.orders (waiter.key.ns, waiter.robot) with
    | none => false
    | some order => order.lastStop = waiter.epoch && order.lastClear ≤ waiter.epoch

/-- The keys of the estops that `rebindLocked` moves, in the order of their estop_ids. -/
def moves : List PendingKey :=
  match d.streams identity with
  | none => []
  | some replaced =>
    (d.awaited.filter fun key =>
      match d.pending key with
      | none => false
      | some p => d.wanted identity replaced p).insertionSort (fun first second => first.estopID ≤ second.estopID)

def rebind (d : Dispatcher) (sender : Nat) : List PendingKey → Dispatcher
  | [] => d
  | key :: rest =>
    match d.pending key with
    | none => d.rebind sender rest
    | some p => (d.bind p sender).rebind sender rest

def movedRobots (keys : List PendingKey) : List String :=
  keys.filterMap fun key => (d.pending key).map fun p => (d.waiters p).robot

def withStream : Dispatcher :=
  { d with
    identities := d.identities ++ [identity],
    streams := Function.update d.streams identity (some d.identities.length) }

/-- `RegisterStream` up to the release of the dispatcher's mutex: the new stream, with
every estop moved onto it. -/
def registerStream : Dispatcher :=
  (d.withStream identity).rebind d.identities.length (d.moves identity)

def closeStream (sender : Nat) : Dispatcher :=
  if d.streams identity = some sender then { d with streams := Function.update d.streams identity none } else d

def holdsStop (moved : List String) (robot : Robot) : Bool :=
  robot.ns = identity.ns && robot.adapter = identity.adapter && !moved.contains robot.name && robot.inStopState

/-- What `resendHeld` starts for such a robot: a re-send of each recorded stop with no
`clearedAt`, or of a stop minted for it when the robot records none. -/
def heldTasks (sender : Nat) (identity : Identity) (mint : String → String) (robot : Robot) : List Task :=
  match robot.unclearedStops with
  | [] => [.resendHeldTo sender identity robot (mint robot.name)]
  | ids => ids.map (.resendHeldTo sender identity robot)

def minted (mint : String → String) (robots : List Robot) : List String :=
  (robots.filter fun robot => robot.unclearedStops.isEmpty).map fun robot => mint robot.name

def start (tasks : List Task) : Dispatcher := { d with tasks := d.tasks ++ tasks }

end Dispatcher

end Swarmada.Delivery
