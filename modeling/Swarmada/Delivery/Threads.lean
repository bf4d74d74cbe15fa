import Swarmada.Delivery.State

/-! # The calls and goroutines of the estop dispatcher

`TriggerEstop` with its windows, `RegisterStream` with what it moves and re-sends,
`RouteAck`, and the stops re-sent when a stream opens.  Each is cut where it takes
`Dispatcher.mu`, sends on a stream or waits.
-/

namespace Swarmada.Delivery

open Api Safety Transition

structure Call where
  robot : Robot
  estopID : String
  epoch : Nat

def Call.key (call : Call) : PendingKey := ⟨call.robot.ns, call.robot.wire, call.estopID⟩

inductive Thread where
  | idle
  | triggering (ns name : String) (epoch : Nat)
  | registering (call : Call)
  | sending (call : Call) (p sender : Nat)
  | unsent (call : Call) (p sender : Nat)
  | sent (call : Call) (p : Nat)
  | delivering (call : Call) (p : Nat)
  | acknowledged (call : Call) (p : Nat)
  | confirming (call : Call) (p : Nat)
  | leaving (p : Nat)
  | routing (p : Nat) (state : AckState)
  | moving (sender : Nat) (identity : Identity) (moved : List String) (rest : List PendingKey)
  | listing (sender : Nat) (identity : Identity) (moved : List String)
  | resending (sender : Nat) (identity : Identity) (robot : Robot) (estopID : String)
  | repushing (sender : Nat) (key : PendingKey)
  | heldSending (sender p : Nat)
  | heldSent (p : Nat)
  | heldWaiting (p : Nat)

inductive Act where
  | trigger (ns name : String)
  | clear (ns name : String)
  | confirmResume (ns name : String)
  | registerStream (identity : Identity)
  | closeStream (sender : Nat)
  | routeAck (sender : Nat) (robotID estopID : String) (state : AckState)
  | run (task : Nat)
  | tick
  | robots (robots : List Robot)
  | order (ns name : String)
  /-- the trigger's read of the Robot, the stop ID it mints, and whether the write of an
  outcome it owes at once succeeds -/
  | read (robot : Robot) (scope : EstopScope) (carrier : Option StopCarrier) (fresh : String) (written : Bool)
  | register
  | push (ok : Bool)
  | window (deadline : Nat)
  | receive
  | timeout
  | taken
  | list (mint : String → String)
  | next
  | cancel

variable (d : Dispatcher)

/-- `RouteAck` up to the release of the mutex: the ack is taken only on the stream its
estop is bound to, from the adapter the estop was sent to. -/
def Dispatcher.routeAck (sender : Nat) (identity : Identity) (robotID estopID : String)
    (state : AckState) : Dispatcher × Thread :=
  match d.pending ⟨identity.ns, robotID, estopID⟩ with
  | none => (d, .idle)
  | some p =>
    if robotID ≠ "" ∧ (d.waiters p).adapter = identity.adapter ∧ (d.waiters p).sender = sender then
      (if state = .stopping then d else d.settle p, .routing p state)
    else (d, .idle)

def begin : Act → Option (Dispatcher × Thread × List Event)
  | .trigger ns name =>
    let issued := d.issueEstopEpoch ns name true
    some (issued, .triggering ns name (issued.orderFor ns name).lastStop, [])
  | .clear ns name => some (d.issueClearEpoch ns name, .idle, [])
  | .confirmResume ns name => some (d.issueEstopEpoch ns name false, .idle, [])
  | .closeStream sender =>
    match d.identities[sender]? with
    | none => none
    | some identity => some (d.closeStream identity sender, .idle, [])
  | .routeAck sender robotID estopID state =>
    match d.identities[sender]? with
    | none => none
    | some identity =>
      let (routed, next) := d.routeAck sender identity robotID estopID state
      some (routed, next, [.ackReceived sender identity robotID estopID state])
  | .tick => some ({ d with now := d.now + 1 }, .idle, [])
  | .robots robots => some ({ d with robots }, .idle, [])
  | .order ns name => some (d.setOrder ns name (d.orderFor ns name), .idle, [])
  | _ => none

/-- `RegisterStream`: every estop it moves is bound to the new stream at once, and
pushed down it afterwards. -/
def registers (me : Nat) (identity : Identity) : Dispatcher × Thread × List Event :=
  let sender := d.identities.length
  let keys := d.moves identity
  let moved := d.movedRobots keys
  (d.registerStream identity, .moving sender identity moved keys,
    keys.map (.bound me · sender) ++ [.handover me sender identity moved, .opened sender identity])

def runs (me : Nat) (task : Nat) : Option (Dispatcher × Thread × List Event) :=
  match d.tasks[task]? with
  | none => none
  | some taken =>
    let started : Thread := match taken with
      | .resendHeld sender identity moved => .listing sender identity moved
      | .resendHeldTo sender identity robot estopID => .resending sender identity robot estopID
    some ({ d with tasks := d.tasks.eraseIdx task }, started, [.started me taken])

def Dispatcher.ranOut (robot : Robot) (stop : RobotStop) : Bool :=
  match stop.acknowledgedAt with
  | some acked => robot.estopState ≠ .stopped && acked + d.confirmTimeout ≤ d.now
  | none => false

def Dispatcher.reads (robot : Robot) (epoch : Nat) (scope : EstopScope)
    (carrier : Option StopCarrier) (fresh : String) (written : Bool) :
    Option (Dispatcher × Thread × List Event) :=
  match d.predecessorStop robot scope carrier with
  | some stop =>
    if d.ranOut robot stop then
      some (d, if written then .registering { robot, estopID := stop.id, epoch } else .idle,
        [.outcome robot stop.id .failed])
    else some (d, .registering { robot, estopID := stop.id, epoch }, [])
  | none =>
    if fresh ∈ d.issued then none
    else some ({ d with issued := fresh :: d.issued }, .registering { robot, estopID := fresh, epoch }, [])

def answered (call : Call) (p : Nat) (waits : Thread) : Option (Dispatcher × Thread × List Event) :=
  match (d.waiters p).ch with
  | [] => none
  | .stopped :: _ => some (d.receive p, .leaving p, [.outcome call.robot call.estopID .stopped])
  | .failed :: _ => some (d.receive p, .leaving p, [.outcome call.robot call.estopID .failed])
  | .stopping :: _ => some (d.receive p, waits, [])

def resends (me sender : Nat) (identity : Identity) (robot : Robot) (estopID : String) :
    Dispatcher × Thread × List Event :=
  let key : PendingKey := ⟨robot.ns, robot.wire, estopID⟩
  match d.pending key with
  | some p =>
    if (d.waiters p).sender = sender then (d, .idle, [])
    else (d.bind p sender, .repushing sender key, [.bound me key sender])
  | none =>
    (d.addWaiter
        { adapter := identity.adapter, sender, robot := robot.name, key, epoch := 0, resend := true },
      .heldSending sender d.count, [.bound me key sender])

def Thread.step (me : Nat) (d : Dispatcher) : Thread → Act → Option (Dispatcher × Thread × List Event)
  | .idle, .registerStream identity => some (registers d me identity)
  | .idle, .run task => runs d me task
  | .idle, act => begin d act
  | .triggering ns name epoch, .read robot scope carrier fresh written =>
    if robot.ns = ns ∧ robot.name = name then d.reads robot epoch scope carrier fresh written else none
  | .triggering .., .cancel => some (d, .idle, [])
  | .registering call, .register =>
    match d.streams ⟨call.robot.ns, call.robot.adapter⟩ with
    | none => some (d, .idle, [.outcome call.robot call.estopID .failed])
    | some sender =>
      some (d.register call.robot call.estopID call.epoch sender, .sending call d.count sender,
        [.bound me call.key sender])
  | .sending call p sender, .push ok =>
    some (d, if ok then .sent call p else .unsent call p sender, [.pushed sender call.key ok])
  | .unsent call p sender, .next =>
    if (d.waiters p).sender = sender then
      some (d.settle p, .leaving p, [.outcome call.robot call.estopID .failed])
    else some (d, .sent call p, [])
  | .sent call p, .window deadline => some (d.startWindowAt p deadline, .delivering call p, [])
  | .delivering call p, .receive => answered d call p (.acknowledged call p)
  | .delivering call p, .timeout | .confirming call p, .timeout =>
    if d.expired p then some (d.settle p, .leaving p, [.outcome call.robot call.estopID .failed]) else none
  | .delivering _ p, .cancel | .confirming _ p, .cancel => some (d, .leaving p, [])
  | .acknowledged call p, .window deadline =>
    some (d.startWindowAt p deadline, .confirming call p, [.outcome call.robot call.estopID .stopping])
  | .confirming call p, .receive => answered d call p (.confirming call p)
  | .leaving p, .next => some (d.deregister p, .idle, [])
  | .routing p state, .next => some (d.deliver p state, .idle, [])
  | .moving sender identity moved (key :: rest), .push ok =>
    some (d, .moving sender identity moved rest, [.pushed sender key ok])
  | .moving sender identity moved [], .next => some (d.start [.resendHeld sender identity moved], .idle, [])
  | .listing sender identity moved, .list mint =>
    let robots := d.robots.filter (Dispatcher.holdsStop identity moved)
    let minted := Dispatcher.minted mint robots
    if minted.any d.issued.contains then none
    else
      some ({ d.start (robots.flatMap (Dispatcher.heldTasks sender identity mint)) with
          issued := minted ++ d.issued },
        .idle, [.listed sender identity moved d.robots])
  | .listing sender _ _, .cancel => some (d, .idle, [.listFailed sender])
  | .resending sender identity robot estopID, .next => some (resends d me sender identity robot estopID)
  | .repushing sender key, .push ok => some (d, .idle, [.pushed sender key ok])
  | .heldSending sender p, .push ok =>
    some (if ok then d else d.settle p, if ok then .heldSent p else .leaving p,
      [.pushed sender (d.waiters p).key ok])
  | .heldSent p, .window deadline => some (d.startWindowAt p deadline, .heldWaiting p, [])
  | .heldWaiting p, .receive =>
    match (d.waiters p).ch with
    | [] => none
    | .stopping :: _ => some (d.receive p, .heldWaiting p, [])
    | _ :: _ => some (d.receive p, .leaving p, [])
  | .heldWaiting p, .taken => if (d.waiters p).taken then some (d, .leaving p, []) else none
  | .heldWaiting p, .timeout => if d.expired p then some (d.settle p, .leaving p, []) else none
  | _, _ => none

def dispatchers : Pool Dispatcher Thread Act Event where
  step := Thread.step

instance : Inhabited PendingEstop where
  default := { adapter := "", sender := 0, robot := "", key := ⟨"", "", ""⟩, epoch := 0 }

/-- A process that has just begun to lead, with the Robots as the API server holds them. -/
def takeover (robots : List Robot) : Config Dispatcher Thread where
  shared := { waiters := fun _ => default, robots }
  threads := fun _ => .idle

end Swarmada.Delivery
