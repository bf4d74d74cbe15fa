import Swarmada.Estopscope.Holder

/-! # Writing `status.estopState`

The decisions `writeEstopState` takes on the Robot it has read.  When each of
them runs, and under which lock, is the business of the machine that drives them.
-/

namespace Swarmada.Safety

open Api Estopscope

def isEstopRelease (state : RobotEstopState) : Bool :=
  state = .normal || state = .resuming

def activeCapabilities (stored derived : List CapabilityStatusEntry) : List String :=
  (((stored ++ derived).filter (fun entry => entry.status = .active)).map
    CapabilityStatusEntry.name).dedup.insertionSort (· ≤ ·)

/-- The stop in force on the Robot read for the release, or in the process's own
state: a stop sent and not recorded yet, or a stop in force for its AssignActions. -/
def stopInForce (unrecordedInForce : Bool) (heldStops : List String) (stored : Robot) : Option String :=
  match heldOnRecord stored with
  | some holder => some holder.describe
  | none =>
    match stored.stops.find? (fun stop => stop.clearedAt.isNone) with
    | some stop => some ("recorded stop " ++ stop.id)
    | none =>
      if unrecordedInForce then some "a stop sent and not yet recorded"
      else if heldStops = [] then none
      else some ("stops in force for its work " ++ ", ".intercalate heldStops)

/-- The record of Active capabilities a state write leaves: Normal removes it, the
first stop of an episode takes it, and every other write keeps what is there. -/
def nextBaseline (derive : Option (Robot → List CapabilityStatusEntry)) (now : Nat)
    (base : Robot) (state : RobotEstopState) : Option EstopBaseline :=
  if state = .normal then none
  else if !isEstopRelease state && base.estopBaseline.isNone &&
      (base.estopState = .unset || base.estopState = .normal) then
    let changed := { base with estopState := state }
    some {
      activeCapabilities := activeCapabilities base.capabilities
        (match derive with
          | some derive => derive changed
          | none => [])
      recordedAt := now }
  else base.estopBaseline

inductive EstopWrite where
  | stands
  | stored
  | patch (next : Robot)
deriving DecidableEq

def writeEstopStateOnce (derive : Option (Robot → List CapabilityStatusEntry)) (now : Nat)
    (inForce : Robot → Option String) (stored : Robot) (state : RobotEstopState) : EstopWrite :=
  -- Normal completes a clear: it is written only over Resuming
  if state = .normal ∧ stored.estopState ≠ .resuming then .stands
  -- and only while no stop is in force on the robot, read again here
  else if state = .normal ∧ (inForce stored).isSome then .stands
  else if stored.estopState = state then .stored
  else .patch { stored with
    estopState := state
    estopBaseline := nextBaseline derive now stored state }

theorem writeEstopStateOnce_patch {inForce : Robot → Option String}
    (planned : writeEstopStateOnce derive now inForce stored state = .patch next) :
    next.estopState = state ∧ next.stops = stored.stops ∧ next.estopHeldBy = stored.estopHeldBy ∧
      stored.estopState ≠ state ∧ (state = .normal → stored.estopState = .resuming ∧ inForce stored = none) := by
  unfold writeEstopStateOnce at planned
  split at planned <;> try contradiction
  split at planned <;> try contradiction
  split at planned <;> try contradiction
  rename_i leftResuming held differs
  cases planned
  refine ⟨rfl, rfl, rfl, differs, fun normal => ⟨?_, ?_⟩⟩
  · by_contra other
    exact leftResuming ⟨normal, other⟩
  · simpa [normal] using held

theorem stopInForce_of_uncleared (recorded : stored.unclearedStops ≠ []) :
    (stopInForce unrecordedInForce heldStops stored).isSome := by
  unfold stopInForce
  split
  · rfl
  split
  · rfl
  rename_i none_uncleared
  exfalso
  apply recorded
  simp only [Robot.unclearedStops, uncleared, List.map_eq_nil_iff, List.filter_eq_nil_iff]
  exact List.find?_eq_none.mp none_uncleared

end Swarmada.Safety
