import Swarmada.Safety.EstopState

namespace Swarmada.Safety

open Api

/-- What a clear ends beside the robot's own stop: the `estopHeldBy` records it
drops, and the recorded zone and namespace stops whose carrier has ended. -/
structure Ends where
  hold : Option (EstopHold → Bool) := none
  stop : Option (RobotStop → Bool) := none

def Ends.endsHold (ends : Ends) (hold : EstopHold) : Bool :=
  match ends.hold with
  | some drops => drops hold
  | none => false

def stopEnded (stop : RobotStop) (ends : Ends) : Bool :=
  match stop.carrier with
  | none => stop.scope = .robot
  | some carrier =>
    if carrier.kind = .robot then true
    else
      match ends.stop with
      | some ended => ended stop
      | none => false

inductive ClearPath where
  /-- no version known here: the entries are kept with their `clearedAt` -/
  | hold
  | remove
  | send
deriving DecidableEq, Repr

structure StopRecord where
  entry : RobotStop
  acked : Option Nat := none
  clearedAt : Option Nat := none
  removed : Bool := false
  clearing : Option Nat := none
deriving DecidableEq, Repr

inductive ClearPlan where
  | stands (state : RobotEstopState)
  | write (next : Robot) (ended unrecorded : List String)
deriving DecidableEq

def clearStops (path : ClearPath) (clearedAt : Nat) (stops : List RobotStop) : List RobotStop :=
  stops.filterMap fun stop =>
    if stop.clearedAt.isSome then some stop
    else if path = .remove then none
    else some { stop with clearedAt := some clearedAt }

def unrecordedOf (inflight : List StopRecord) (stored : Robot) : List StopRecord :=
  inflight.filter fun record =>
    !(stored.stops.map RobotStop.id).contains record.entry.id && record.clearedAt.isNone

def foundState (stored : Robot) : RobotEstopState :=
  if stored.estopState = .unset then .normal else stored.estopState

def clearStands (ends : Ends) (inflight : List StopRecord) (stored : Robot) : Bool :=
  -- nothing to clear
  (foundState stored = .normal && stored.estopHeldBy.isEmpty) ||
  -- the outcome of the stop is not known yet, or the robot is cleared already
  foundState stored = .stopping || foundState stored = .resuming ||
  stored.trigger.isSome ||
  stored.estopHeldBy.any (fun hold => !ends.endsHold hold) ||
  stored.stops.any (fun stop => stop.clearedAt.isNone && !stopEnded stop ends) ||
  (unrecordedOf inflight stored).any (fun record => !stopEnded record.entry ends)

def clearOnce (ends : Ends) (path : ClearPath) (clearedAt : Nat) (inflight : List StopRecord)
    (stored : Robot) : ClearPlan :=
  let unrecorded := (unrecordedOf inflight stored).map (fun record => record.entry.id)
  if clearStands ends inflight stored then .stands (foundState stored)
  else .write
    { stored with
      estopState := .resuming
      estopHeldBy := []
      stops := clearStops path clearedAt stored.stops }
    ((stored.unclearedStops ++ unrecorded).insertionSort (· ≤ ·))
    unrecorded

theorem mem_clearStops (member : stop ∈ clearStops path clearedAt stops) :
    stop.clearedAt.isSome ∧ ∃ before ∈ stops, before.id = stop.id := by
  obtain ⟨before, present, kept⟩ := List.mem_filterMap.mp member
  split at kept
  · cases kept
    exact ⟨‹_›, stop, present, rfl⟩
  split at kept <;> try contradiction
  cases kept
  exact ⟨rfl, before, present, rfl⟩

/-- A clear that writes ends every recorded stop that had no `clearedAt` and the
unrecorded stops it names, and each of them has ended. -/
theorem clearOnce_write (planned : clearOnce ends path clearedAt inflight stored = .write next ended unrecorded) :
    next.estopState = .resuming ∧ next.stops = clearStops path clearedAt stored.stops ∧
      (∀ id, id ∈ ended ↔ id ∈ stored.unclearedStops ∨ id ∈ unrecorded) ∧
      (∀ id ∈ unrecorded, ∃ record ∈ inflight, record.entry.id = id ∧ record.clearedAt = none) ∧
      (∀ id ∈ ended, ∃ stop, stop.id = id ∧ stopEnded stop ends = true) := by
  unfold clearOnce at planned
  split at planned <;> try contradiction
  rename_i open_
  cases planned
  simp only [clearStands, Bool.or_eq_true, not_or, List.any_eq_true, not_exists, Bool.and_eq_true,
    Bool.not_eq_true', not_and, Bool.not_eq_false] at open_
  obtain ⟨⟨-, recordedEnded⟩, unrecordedEnded⟩ := open_
  have inFlight : ∀ id ∈ (unrecordedOf inflight stored).map (fun record => record.entry.id),
      ∃ record ∈ unrecordedOf inflight stored, record.entry.id = id := by
    simp
  refine ⟨rfl, rfl, fun id => by simp [List.mem_insertionSort], fun id member => ?_,
    fun id member => ?_⟩
  · obtain ⟨record, present, same⟩ := inFlight id member
    simp only [unrecordedOf, List.mem_filter, Bool.and_eq_true, Option.isNone_iff_eq_none] at present
    exact ⟨record, present.1, same, present.2.2⟩
  rw [List.mem_insertionSort, List.mem_append] at member
  rcases member with recorded | sent
  · obtain ⟨stop, present, uncleared, same⟩ := Robot.mem_unclearedStops.mp recorded
    exact ⟨stop, same, recordedEnded stop present (by simp [uncleared])⟩
  · obtain ⟨record, present, same⟩ := inFlight id sent
    exact ⟨record.entry, same, unrecordedEnded record present⟩

end Swarmada.Safety
