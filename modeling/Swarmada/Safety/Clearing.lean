import Swarmada.Safety.Shared

namespace Swarmada.Safety

open Api Transition

structure ClearCall where
  epoch : Nat
  ends : Ends

structure ClearWrite where
  stored : Versioned Robot
  next : Robot
  ended : List String
  unrecorded : List String
  clearedAt : Nat
  legacy : Bool

def ClearWrite.version (write : ClearWrite) : Nat := write.stored.version + 1

inductive Clearer where
  | reading (call : ClearCall) (attempt : Nat)
  | locking (call : ClearCall) (attempt : Nat) (stored : Versioned Robot)
  | guarding (call : ClearCall) (attempt : Nat) (stored : Versioned Robot)
  | marking (call : ClearCall) (attempt : Nat) (write : ClearWrite)
  | patching (call : ClearCall) (attempt : Nat) (write : ClearWrite)
  | closing (call : ClearCall) (attempt : Nat) (write : ClearWrite) (landed conflict : Bool)
  | ending (call : ClearCall) (write : ClearWrite)

inductive ClearAct where
  | read (served : Bool)
  | lock
  | guard (now : Nat)
  | mark
  | patch (refused : Bool)
  | close
  | finish
deriving DecidableEq

/-- What a clear whose write was answered leaves on the record of a stop it ended
before the record landed. -/
def StopRecord.closed (record : StopRecord) (landed : Bool) (clearedAt : Nat) (legacy : Bool) : StopRecord :=
  if landed then { record with clearing := none, clearedAt := some clearedAt, removed := legacy }
  else { record with clearing := none }

def Clearer.step (me : Nat) (shared : Shared) : Clearer → ClearAct → Option (Shared × Option Clearer × List Event)
  | .reading call attempt, .read served =>
    if served then some (shared, some (.locking call attempt shared.cell), [.read me])
    else some (shared, none, [])
  | .locking call attempt stored, .lock =>
    if shared.writer ≠ none then none
    else if shared.order.supersededByLaterStop call.epoch then some (shared, none, [])
    else some ({ shared with writer := some me }, some (.guarding call attempt stored), [])
  | .guarding call attempt stored, .guard now =>
    match clearOnce call.ends shared.path now shared.inflightOf stored.value with
    | .stands _ => some ({ shared with writer := none }, none, [])
    | .write next ended unrecorded =>
      some (shared, some (.marking call attempt
        { stored, next, ended, unrecorded, clearedAt := now, legacy := shared.path = .remove }), [])
  | .marking call attempt write, .mark =>
    some (shared.updateRecords write.unrecorded (fun record => { record with clearing := some me }),
      some (.patching call attempt write), [])
  | .patching call attempt write, .patch refused =>
    if refused then some (shared, some (.closing call attempt write false false), [])
    else
      match shared.patch write.stored write.next with
      | some patched =>
        some (patched, some (.closing call attempt write true false),
          [.wrote me .clear call.epoch .resuming, .ended write.version write.ended])
      | none => some (shared, some (.closing call attempt write false true), [])
  | .closing call attempt write landed conflict, .close =>
    let closed := shared.updateRecords write.unrecorded
      (fun record => record.closed landed write.clearedAt write.legacy)
    if landed then
      some ({ closed with order := { shared.order with stoppedBy := 0 } },
        some (.ending call write), [])
    else if conflict ∧ attempt ≠ 9 then
      some ({ closed with writer := none }, some (.reading call (attempt + 1)), [])
    else some ({ closed with writer := none }, none, [])
  | .ending call write, .finish =>
    -- unless a trigger was issued since this clear's epoch: its fence then stands
    if shared.order.lastStop < call.epoch then
      some ({ shared with writer := none, held := [] }, none, [.heldCleared write.version write.ended])
    else some ({ shared with writer := none }, none, [])
  | _, _ => none

end Swarmada.Safety
