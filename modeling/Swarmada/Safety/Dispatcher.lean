import Swarmada.Safety.Writing
import Swarmada.Safety.Clearing
import Swarmada.Safety.Recording

namespace Swarmada.Safety

open Api Transition

inductive Fencer where
  | sending (id : String)
  /-- `fenceOnRegister`, of `RobotRegistered` or of an AssignAction, with the Robot read for it -/
  | registering (robot : Robot)

inductive Thread where
  | idle
  | write (writer : Writer)
  | clear (clearer : Clearer)
  | record (recorder : Recorder)
  | fence (fencer : Fencer)

inductive Act where
  /-- `TriggerEstop`, `ConfirmResume` and `ClearEstop` take their epochs -/
  | trigger
  | confirmResume
  | clearEstop (ends : Ends)
  | track (age : Nat) (id : String) (scope : EstopScope) (carrier : Option StopCarrier) (sentAt : Nat)
  | acknowledged (id : String) (time : Nat)
  | recordAcknowledged (id : String) (time : Nat)
  | routeClearAck (id : String)
  | removeCleared
  | sendFence (id : String)
  /-- `RobotRegistered` reads the Robot past the cache, an AssignAction from it -/
  | robotRegistered
  | roundTripAssign (age : Nat)
  | addHeld
  | otherWrite (next : Robot)
  | contractReported (path : ClearPath)
  | stepDown
  | write (act : WriteAct)
  | clear (act : ClearAct)
  | record (act : RecordAct)

def continueAs {α : Type} (wrap : α → Thread) : Option α → Thread
  | some next => wrap next
  | none => .idle

def proceed {α : Type} (wrap : α → Thread) :
    Option (Shared × Option α × List Event) → Option (Shared × Thread × List Event)
  | none => none
  | some (shared, next, events) => some (shared, continueAs wrap next, events)

def begin (me : Nat) (shared : Shared) : Act → Option (Shared × Thread × List Event)
  | .trigger =>
    let order := shared.order.issueEstopEpoch true
    some ({ shared with order }, .write (.looking .trigger order.issued),
      [.issued .trigger order.issued])
  | .confirmResume =>
    let order := shared.order.issueEstopEpoch false
    some ({ shared with order }, .write (.looking .resume order.issued),
      [.issued .resume order.issued])
  | .clearEstop ends =>
    let order := shared.order.issueClearEpoch
    some ({ shared with order },
      -- a process that does not lead returns ErrNotLeading
      if shared.leading then .clear (.reading { epoch := order.issued, ends } 0) else .idle,
      [.issued .clear order.issued])
  | .track age id scope carrier sentAt =>
    if id ∈ shared.seen then none
    else
      match shared.cached age with
      | none => none
      | some copy =>
        some ({ shared with
            seen := id :: shared.seen
            records := Function.update shared.records id
              (some (newStopRecord copy.value id scope carrier sentAt))
            inflight := id :: shared.inflight },
          .record (.tracked id), [.tracked me id])
  | .acknowledged id time =>
    some (shared.updateRecords [id] (fun record => { record with acked := record.acked.or (some time) }),
      .idle, [])
  | .recordAcknowledged id time =>
    some (shared, .record (.editReading (.acknowledge id time) none), [])
  | .routeClearAck id =>
    -- a stop cleared before its record landed: the record is not written at all
    if id ∈ shared.inflight ∧ ((shared.records id).bind StopRecord.clearedAt).isSome then
      some (shared.updateRecords [id] (fun record => { record with removed := true }), .idle, [])
    else some (shared, .record (.editReading (.lift id) none), [])
  | .removeCleared => some (shared, .record (.editReading .removeCleared none), [])
  | .sendFence id => if id ∈ shared.seen then some (shared, .fence (.sending id), []) else none
  | .robotRegistered => some (shared, .fence (.registering shared.cell.value), [])
  | .roundTripAssign age =>
    match shared.cached age with
    | none => none
    | some copy => some (shared, .fence (.registering copy.value), [])
  | .otherWrite next =>
    -- `estopState` and `stops` have no other writer
    if next.estopState = shared.cell.value.estopState ∧ next.stops = shared.cell.value.stops then
      some ({ shared with cell := shared.cell.write next, past := shared.cell :: shared.past },
        .idle, [])
    else none
  | .contractReported path => some ({ shared with path }, .idle, [])
  | .stepDown => some ({ shared with leading := false }, .idle, [])
  | _ => none

def Fencer.add (shared : Shared) : Fencer → Shared
  | .sending id => { shared with held := Command.addHeld shared.held id }
  | .registering robot => { shared with held := Command.addRecorded shared.held robot }

def dispatch (derive : Option (Robot → List CapabilityStatusEntry)) (me : Nat) (shared : Shared) :
    Thread → Act → Option (Shared × Thread × List Event)
  | .idle, act => begin me shared act
  | .write writer, .write act => proceed .write (writer.step derive me shared act)
  | .clear clearer, .clear act => proceed .clear (clearer.step me shared act)
  | .record recorder, .record act => proceed .record (recorder.step shared act)
  | .fence fencer, .addHeld => some (fencer.add shared, .idle, [])
  | _, _ => none

def dispatchers (derive : Option (Robot → List CapabilityStatusEntry)) : Pool Shared Thread Act Event where
  step := dispatch derive

def writesOutcome (thread : Nat) (state : RobotEstopState) : List (Nat × Act) :=
  [(thread, .write (.outcome state)), (thread, .write .enter), (thread, .write (.read true)),
    (thread, .write (.decide 0)), (thread, .write (.patch false false))]

def takeover (robot : Robot) : Config Shared Thread where
  shared := { cell := { value := robot, version := 0 }, seen := robot.stops.map RobotStop.id }
  threads := fun _ => .idle

end Swarmada.Safety
