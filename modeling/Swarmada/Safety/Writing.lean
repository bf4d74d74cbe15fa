import Swarmada.Safety.Shared

namespace Swarmada.Safety

open Api Transition

structure Call where
  kind : CallKind
  epoch : Nat
  copy : Versioned Robot
  confirming : Bool := false
  /-- the stop is a predecessor's whose confirmation window has ended: Failed is
  written before it is sent again (`runOutRecorded`) -/
  runsOut : Bool := false

inductive Writer where
  | looking (kind : CallKind) (epoch : Nat)
  | sent (call : Call)
  | entering (call : Call) (state : RobotEstopState)
  | reading (call : Call) (state : RobotEstopState) (attempt : Nat)
  | deciding (call : Call) (state : RobotEstopState) (attempt : Nat) (stored : Versioned Robot)
  | patching (call : Call) (state : RobotEstopState) (attempt : Nat) (stored : Versioned Robot) (next : Robot)
  | backoff (call : Call) (state : RobotEstopState) (attempt : Nat)

inductive WriteAct where
  | lookup (age : Nat) (runsOut : Bool)
  | confirm
  /-- the call ends where it waits: a failed lookup, a refused confirmation, an ended context -/
  | quit
  | outcome (state : RobotEstopState)
  | enter
  | read (served : Bool)
  | decide (now : Nat)
  /-- the API server refuses the patch for another reason than a conflict, or serves it;
  after a conflict the call's context may have ended -/
  | patch (refused contextDone : Bool)
  | relock
deriving DecidableEq

def Call.saw (call : Call) (state : RobotEstopState) : Call :=
  { call with copy := { call.copy with value := { call.copy.value with estopState := state } } }

def Call.wrote (call : Call) (next : Robot) : Call :=
  { call with copy := { call.copy with value :=
      { call.copy.value with estopState := next.estopState, estopBaseline := next.estopBaseline } } }

/-- The call once `writeEstopState` has returned: a trigger that wrote Stopping awaits its confirmation, one that ran
a window out sends its stop again, any other is over. -/
def Call.returned (call : Call) (state : RobotEstopState) : Option Writer :=
  if call.kind = .trigger ∧ state = .stopping then some (.sent { call with confirming := true })
  else if call.kind = .trigger ∧ call.runsOut ∧ state = .failed then
    some (.sent { call with runsOut := false })
  else none

def isStopOutcome (confirming : Bool) (state : RobotEstopState) : Bool :=
  match state with
  | .stopped | .failed => true
  | .stopping => !confirming
  | .unset | .normal | .resuming => false

def givesUp (leading contextDone : Bool) (state : RobotEstopState) (attempt : Nat) : Bool :=
  if isEstopRelease state then attempt = 4 else !leading || contextDone || attempt = 29

def orderRefuses (order : EstopOrder) (state : RobotEstopState) (epoch : Nat) : Bool :=
  if isEstopRelease state then order.supersededByLaterStop epoch else order.stoppedBy > epoch

def EstopOrder.wrote (order : EstopOrder) (state : RobotEstopState) (epoch : Nat) : EstopOrder :=
  { order with stoppedBy := if state = .stopped then epoch else 0 }

def EstopOrder.found (order : EstopOrder) (state : RobotEstopState) (epoch : Nat) : EstopOrder :=
  if state = .stopped then { order with stoppedBy := epoch } else order

variable (derive : Option (Robot → List CapabilityStatusEntry))

def Writer.step (me : Nat) (shared : Shared) : Writer → WriteAct → Option (Shared × Option Writer × List Event)
  | .looking .trigger epoch, .lookup age runsOut =>
    match shared.cached age with
    | none => none
    | some copy => some (shared, some (.sent { kind := .trigger, epoch, copy, runsOut }), [])
  | .looking .resume epoch, .confirm =>
    if shared.cell.value.estopState = .resuming then
      some (shared, some (.entering { kind := .resume, epoch, copy := shared.cell } .normal), [])
    else some (shared, none, [])
  | .looking _ _, .quit => some (shared, none, [])
  | .sent _, .quit => some (shared, none, [])
  | .sent call, .outcome state =>
    if call.kind = .trigger ∧ isStopOutcome call.confirming state then
      -- a process that no longer leads writes no outcome
      if shared.leading then some (shared, some (.entering call state), [])
      else some (shared, call.returned state, [])
    else none
  | .entering call state, .enter =>
    if shared.writer ≠ none then none
    else if orderRefuses shared.order state call.epoch then
      some (shared, call.returned state, if state = .failed then [.outcomeSuperseded call.epoch] else [])
    else some ({ shared with writer := some me }, some (.reading call state 0), [])
  | .reading call state attempt, .read served =>
    some (shared, some (.deciding call state attempt (if served then shared.cell else call.copy)),
      [.read me])
  | .deciding call state attempt stored, .decide now =>
    match writeEstopStateOnce derive now shared.inForce stored.value state with
    | .stands =>
      some ({ shared with writer := none }, (call.saw stored.value.estopState).returned state, [])
    | .stored =>
      some ({ shared with writer := none, order := shared.order.found state call.epoch },
        (call.saw state).returned state, if state = .stopped then [.confirmed call.epoch] else [])
    | .patch next => some (shared, some (.patching call state attempt stored next), [])
  | .patching call state attempt stored next, .patch refused contextDone =>
    if refused then some ({ shared with writer := none }, call.returned state, [])
    else
      match shared.patch stored next with
      | some patched =>
        some ({ patched with writer := none, order := shared.order.wrote state call.epoch },
          (call.wrote next).returned state, [.wrote me call.kind call.epoch state])
      | none =>
        if givesUp shared.leading contextDone state attempt then
          some ({ shared with writer := none }, call.returned state, [])
        else some ({ shared with writer := none }, some (.backoff call state attempt), [])
  | .backoff call state attempt, .relock =>
    if shared.writer ≠ none then none
    else some ({ shared with writer := some me }, some (.reading call state (attempt + 1)), [])
  | _, _ => none

end Swarmada.Safety
