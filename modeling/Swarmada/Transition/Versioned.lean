import Mathlib.Logic.Basic

/-! # Optimistic concurrency

A stored object carries the version its last write gave it.  A writer that read
the object replaces it only if nothing was written since, which the store decides
by comparing versions.  What makes that sound is that a copy read earlier is the
stored object as long as the versions agree.
-/

namespace Swarmada.Transition

universe u v

structure Versioned (α : Type u) where
  value : α
  version : Nat
deriving DecidableEq, Repr

namespace Versioned

variable {α : Type u} {β : Type v}

def write (cell : Versioned α) (next : α) : Versioned α :=
  { value := next, version := cell.version + 1 }

/-- Compare and swap: the write lands only over the version that was read. -/
def swap (cell read : Versioned α) (next : α) : Option (Versioned α) :=
  if read.version = cell.version then some (cell.write next) else none

/-- `read` is a copy of `cell` as it was at this or an earlier moment, and has not
been changed since in what `view` shows of it. -/
structure CopyOf (view : α → β) (read cell : Versioned α) : Prop where
  version_le : read.version ≤ cell.version
  same : read.version = cell.version → view read.value = view cell.value

@[simp] theorem write_version (cell : Versioned α) (next : α) : (cell.write next).version = cell.version + 1 := rfl

theorem CopyOf.refl (view : α → β) (cell : Versioned α) : CopyOf view cell cell :=
  ⟨Nat.le_refl _, fun _ => rfl⟩

theorem CopyOf.write {view : α → β} {read cell : Versioned α} (copy : CopyOf view read cell) (next : α) :
    CopyOf view read (cell.write next) := by
  refine ⟨Nat.le_succ_of_le copy.version_le, fun equal => ?_⟩
  have bound := copy.version_le
  rw [write_version] at equal
  omega

theorem swap_eq_some {read cell after : Versioned α} (swapped : swap cell read next = some after) :
    read.version = cell.version ∧ after = cell.write next := by
  unfold swap at swapped
  split at swapped <;> try contradiction
  exact ⟨‹_›, (Option.some.inj swapped).symm⟩

end Versioned

end Swarmada.Transition
