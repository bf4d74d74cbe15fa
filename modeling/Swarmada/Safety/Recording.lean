import Swarmada.Safety.Shared

/-! # The writes of `status.stops`

A stop is recorded by a goroutine of its own once it has been sent.  The other
edits of the list set a stop's `acknowledgedAt`, remove the entry of a stop whose
EstopClear the adapter answered, or remove every cleared entry of an adapter that
has no EstopClear.  Each of them is retried until it lands or is not needed.
-/

namespace Swarmada.Safety

open Api Transition

inductive EstopScope where
  | robot | zone | namespace
deriving DecidableEq, Repr

def newStopRecord (robot : Robot) (id : String) (scope : EstopScope) (carrier : Option StopCarrier)
    (sentAt : Nat) : StopRecord :=
  let entry : RobotStop :=
    match scope with
    | .zone => { id, scope := .zone, carrier, sentAt }
    | .namespace => { id, scope := .namespace, carrier, sentAt }
    | .robot =>
      { id, scope := .robot, sentAt
        carrier := some (carrier.getD { kind := .robot, name := robot.name, uid := robot.uid }) }
  { entry }

def maxRecordedStops : Nat := 256

inductive RecordChange where
  | unneeded
  | full
  | append (next : Robot)

variable (record : StopRecord)

/-- The entry as it is appended: with the first STOPPING's arrival, and with the
`clearedAt` of a clear that ended the stop already. -/
def StopRecord.landing : RobotStop :=
  { record.entry with acknowledgedAt := record.acked, clearedAt := record.clearedAt }

def StopRecord.decided (robot : Robot) : Bool :=
  (robot.stops.map RobotStop.id).contains record.entry.id || maxRecordedStops ≤ robot.stops.length

/-- `clearOf` waits for the clear whose write is in flight, once the entry is to be appended. -/
def StopRecord.waits (robot : Robot) : Bool :=
  record.clearing.isSome && !record.decided robot

def StopRecord.change (robot : Robot) : RecordChange :=
  if (robot.stops.map RobotStop.id).contains record.entry.id then .unneeded
  else if maxRecordedStops ≤ robot.stops.length then .full
  else if record.removed then .unneeded
  else .append { robot with stops := robot.stops ++ [record.landing] }

def StopRecord.recordable : Bool :=
  record.entry.carrier.isSome || record.entry.scope = .reported || record.entry.scope = .endState

inductive StopEdit where
  | acknowledge (id : String) (time : Nat)
  | lift (id : String)
  | removeCleared
deriving DecidableEq, Repr

def changeFirst (id : String) (change : RobotStop → Option RobotStop) : List RobotStop → List RobotStop
  | [] => []
  | stop :: stops =>
    if stop.id = id then (change stop).toList ++ stops else stop :: changeFirst id change stops

def StopEdit.edited (edit : StopEdit) (stops : List RobotStop) : List RobotStop :=
  match edit with
  | .acknowledge id time =>
    changeFirst id
      (fun stop => some { stop with acknowledgedAt := stop.acknowledgedAt.or (some time) }) stops
  | .lift id => changeFirst id (fun stop => if stop.clearedAt.isSome then none else some stop) stops
  | .removeCleared => stops.filter fun stop => stop.clearedAt.isNone

def StopEdit.change (edit : StopEdit) (robot : Robot) : Option Robot :=
  if edit.edited robot.stops = robot.stops then none
  else some { robot with stops := edit.edited robot.stops }

inductive Answer where
  | served
  | failed
  | refused
deriving DecidableEq, Repr

inductive Recorder where
  /-- in the process's own state, and not handed to `recordStop` yet -/
  | tracked (id : String)
  | reading (id : String)
  | changing (id : String) (stored : Versioned Robot)
  | patching (id : String) (stored : Versioned Robot) (next : Robot)
  | answering (id : String)
  | editReading (edit : StopEdit) (untracks : Option String)
  | editPatching (edit : StopEdit) (untracks : Option String) (stored : Versioned Robot) (next : Robot)

inductive RecordAct where
  | start
  | read (answer : Answer)
  | change
  | patch (answer : Answer)
  | answer (finished : Bool)
deriving DecidableEq

def Shared.untrack (shared : Shared) : Option String → Shared
  | some id => shared.untrackInflight id
  | none => shared

def Recorder.step (shared : Shared) : Recorder → RecordAct → Option (Shared × Option Recorder × List Event)
  | .tracked id, .start =>
    match shared.records id with
    | none => none
    | some record =>
      if record.recordable then some (shared, some (.reading id), [])
      else some (shared.untrackInflight id, none, [])
  | .reading id, .read answer =>
    if !shared.leading then some (shared.untrackInflight id, none, [])
    else
      match answer with
      | .served => some (shared, some (.changing id shared.cell), [])
      | .failed => some (shared, some (.reading id), [])
      | .refused => some (shared.untrackInflight id, none, [])
  | .changing id stored, .change =>
    match shared.records id with
    | none => none
    | some record =>
      if record.waits stored.value then none
      else
        match record.change stored.value with
        | .unneeded => some (shared, some (.answering id), [])
        | .full => some (shared.untrackInflight id, none, [.recordFull id])
        | .append next => some (shared, some (.patching id stored next), [])
  | .patching id stored next, .patch answer =>
    match answer with
    | .served =>
      match shared.patch stored next with
      | some patched => some (patched, some (.answering id), [.recorded id])
      | none => some (shared, some (.reading id), [])
    | .failed => some (shared, some (.reading id), [])
    | .refused => some (shared.untrackInflight id, none, [])
  | .answering id, .answer finished =>
    match shared.records id with
    | none => none
    | some record =>
      if record.removed then some (shared.untrackInflight id, none, [])
      else
        match record.acked with
        | some time => some (shared, some (.editReading (.acknowledge id time) (some id)), [])
        | none => if finished then some (shared.untrackInflight id, none, []) else none
  | .editReading edit untracks, .read answer =>
    if !shared.leading then some (shared.untrack untracks, none, [])
    else
      match answer with
      | .served =>
        match edit.change shared.cell.value with
        | some next => some (shared, some (.editPatching edit untracks shared.cell next), [])
        | none => some (shared.untrack untracks, none, [])
      | .failed => some (shared, some (.editReading edit untracks), [])
      | .refused => some (shared.untrack untracks, none, [])
  | .editPatching edit untracks stored next, .patch answer =>
    match answer with
    | .served =>
      match shared.patch stored next with
      | some patched => some (patched.untrack untracks, none, [])
      | none => some (shared, some (.editReading edit untracks), [])
    | .failed => some (shared, some (.editReading edit untracks), [])
    | .refused => some (shared.untrack untracks, none, [])
  | _, _ => none

end Swarmada.Safety
