import Swarmada.Api.Robot

namespace Swarmada.Command

open Api

def addHeld (held : List String) (id : String) : List String :=
  if id ∈ held then held else held ++ [id]

/-- The recorded stops a register takes into force: those with no `clearedAt`, while
the robot is in a stop state. -/
def recordedInForce (robot : Robot) : List String :=
  if robot.inStopState then robot.unclearedStops else []

def addRecorded (held : List String) (robot : Robot) : List String :=
  (recordedInForce robot).foldl addHeld held

def heldStops (held : List String) : List String := held.insertionSort (· ≤ ·)

theorem mem_addHeld {id other : String} : other ∈ addHeld held id ↔ other = id ∨ other ∈ held := by
  unfold addHeld
  split
  next present =>
    constructor
    · exact .inr
    rintro (rfl | member)
    · exact present
    · exact member
  · simp [or_comm]

theorem mem_foldl_addHeld {ids held : List String} : other ∈ ids.foldl addHeld held ↔ other ∈ ids ∨ other ∈ held := by
  induction ids generalizing held with
  | nil => simp
  | cons id ids ih =>
    rw [List.foldl_cons, ih, mem_addHeld, List.mem_cons]
    tauto

theorem mem_addRecorded {id : String} :
    id ∈ addRecorded held robot ↔ id ∈ recordedInForce robot ∨ id ∈ held :=
  mem_foldl_addHeld

theorem mem_recordedInForce {id : String} (member : id ∈ recordedInForce robot) :
    robot.inStopState = true ∧ id ∈ robot.unclearedStops := by
  unfold recordedInForce at member
  split at member <;> try contradiction
  exact ⟨‹_›, member⟩

end Swarmada.Command
