import Swarmada.Transition.Versioned

/-! # Objects that come and go

A store gives every write a revision of its own.  An object that is removed and created
again never has a revision it had before, so a copy that has the revision of the stored
object is that object.
-/

namespace Swarmada.Transition

universe u

/-- An object that may be absent, and the revision of the store's last write. -/
structure Revisions (α : Type u) where
  stored : Option (Versioned α) := none
  revision : Nat := 0
  bounded : ∀ present ∈ stored, present.version ≤ revision := by simp

namespace Revisions

variable {α : Type u} {cell after : Revisions α} {read : Versioned α} {next : α}

def start (object : Option α) : Revisions α where
  stored := object.map fun value => ⟨value, 0⟩
  bounded := by
    intro present found
    obtain ⟨value, -, rfl⟩ := Option.map_eq_some_iff.mp found
    exact Nat.le_refl 0

def put (cell : Revisions α) (next : α) : Revisions α where
  stored := some ⟨next, cell.revision + 1⟩
  revision := cell.revision + 1

def remove (cell : Revisions α) : Revisions α where
  revision := cell.revision

def swap (cell : Revisions α) (read : Versioned α) (next : α) : Option (Revisions α) :=
  match cell.stored with
  | some present => if read.version = present.version then some (cell.put next) else none
  | none => none

/-- A create where nothing was read, and a swap where something was. -/
def replace (cell : Revisions α) (read : Option (Versioned α)) (next : α) : Option (Revisions α) :=
  match read with
  | none => if cell.stored.isNone then some (cell.put next) else none
  | some copy => cell.swap copy next

/-- `read` is a copy of the object from this or an earlier moment. -/
structure Copy (read : Versioned α) (cell : Revisions α) : Prop where
  version_le : read.version ≤ cell.revision
  same : ∀ present, cell.stored = some present → read.version = present.version → read = present

theorem copy_stored (found : cell.stored = some read) : Copy read cell := by
  refine ⟨cell.bounded read found, fun present stored _ => ?_⟩
  rw [found] at stored
  exact Option.some.inj stored

theorem Copy.put (copy : Copy read cell) (next : α) : Copy read (cell.put next) := by
  have old := copy.version_le
  refine ⟨Nat.le_succ_of_le old, ?_⟩
  rintro _ ⟨rfl⟩ equal
  dsimp only at equal
  omega

theorem Copy.remove (copy : Copy read cell) : Copy read cell.remove :=
  ⟨copy.version_le, nofun⟩

theorem swap_eq_some (swapped : cell.swap read next = some after) :
    ∃ present, cell.stored = some present ∧ read.version = present.version ∧ after = cell.put next := by
  unfold swap at swapped
  split at swapped <;> try contradiction
  rename_i present stored
  split at swapped <;> try contradiction
  exact ⟨present, stored, ‹_›, (Option.some.inj swapped).symm⟩

/-- A write that lands replaces what was read. -/
theorem Copy.of_swap (copy : Copy read cell) (swapped : cell.swap read next = some after) :
    cell.stored = some read ∧ after = cell.put next := by
  obtain ⟨present, stored, equal, rfl⟩ := swap_eq_some swapped
  rw [copy.same present stored equal]
  exact ⟨stored, rfl⟩

theorem replace_eq_some {read : Option (Versioned α)} (copied : ∀ copy ∈ read, Copy copy cell)
    (replaced : cell.replace read next = some after) : read = cell.stored ∧ after = cell.put next := by
  cases read with
  | none =>
    simp only [replace] at replaced
    split at replaced <;> try contradiction
    rename_i absent
    exact ⟨(Option.isNone_iff_eq_none.mp absent).symm, (Option.some.inj replaced).symm⟩
  | some copy =>
    obtain ⟨stored, rfl⟩ := (copied copy rfl).of_swap replaced
    exact ⟨stored.symm, rfl⟩

/-- The object is as it was, gone, or written. -/
inductive Moves (cell : Revisions α) : Revisions α → Prop
  | same : Moves cell cell
  | removed : Moves cell cell.remove
  | written (next : α) : Moves cell (cell.put next)

theorem Copy.moves (copy : Copy read cell) (moves : Moves cell after) : Copy read after := by
  cases moves with
  | same => exact copy
  | removed => exact copy.remove
  | written next => exact copy.put next

end Revisions

end Swarmada.Transition
