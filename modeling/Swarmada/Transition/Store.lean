import Swarmada.Transition.Versioned

/-! # A store whose objects come and go

Each write takes a fresh version from one counter, so a key that is deleted and created
again never repeats a version, and a copy read earlier is the stored object as long as
the versions agree.
-/

namespace Swarmada.Transition

universe u v

structure Store (κ : Type u) (α : Type v) where
  next : Nat
  objects : κ → Option (Versioned α)

namespace Store

variable {κ : Type u} {α : Type v}

def holds (store : Store κ α) (key : κ) (read : Versioned α) : Bool :=
  match store.objects key with
  | some stored => stored.version == read.version
  | none => false

def Issued (store : Store κ α) : Prop :=
  ∀ key stored, store.objects key = some stored → stored.version < store.next

/-- `read` was stored under `key` at this or an earlier moment. -/
structure CopyOf (store : Store κ α) (key : κ) (read : Versioned α) : Prop where
  issued : read.version < store.next
  same : ∀ stored, store.objects key = some stored → stored.version = read.version → stored = read

/-- Writes and deletions lead from the first store to the second. -/
structure Advances (before after : Store κ α) : Prop where
  next_le : before.next ≤ after.next
  fresh : ∀ key stored, after.objects key = some stored →
    before.objects key = some stored ∨ before.next ≤ stored.version

theorem Advances.refl (store : Store κ α) : Advances store store :=
  ⟨Nat.le_refl _, fun _ _ found => .inl found⟩

variable {store : Store κ α} {key : κ} {read : Versioned α}

theorem Issued.copyOf (issued : store.Issued) (found : store.objects key = some read) : store.CopyOf key read :=
  ⟨issued key read found, fun stored again _ => by simp_all⟩

theorem CopyOf.advances (step : Advances before after) (copy : before.CopyOf key read) : after.CopyOf key read := by
  refine ⟨Nat.lt_of_lt_of_le copy.issued step.next_le, fun stored found equal => ?_⟩
  rcases step.fresh key stored found with earlier | _
  · exact copy.same stored earlier equal
  · have bound := copy.issued
    omega

/-- A copy that is stored after a step was stored before it. -/
theorem CopyOf.earlier (step : Advances before after)
    (copy : before.CopyOf key read) (found : after.objects key = some read) : before.objects key = some read := by
  rcases step.fresh key read found with earlier | _
  · exact earlier
  · have bound := copy.issued
    omega

theorem CopyOf.stored (copy : store.CopyOf key read)
    (unchanged : store.holds key read = true) : store.objects key = some read := by
  unfold holds at unchanged
  split at unchanged <;> try contradiction
  rename_i stored found
  rw [found, copy.same stored found (by simpa using unchanged)]

variable [DecidableEq κ]

def put (store : Store κ α) (key : κ) (value : α) : Store κ α :=
  { next := store.next + 1
    objects := fun other => if other = key then some ⟨value, store.next⟩ else store.objects other }

def remove (store : Store κ α) (key : κ) : Store κ α :=
  { store with objects := fun other => if other = key then none else store.objects other }

@[simp] theorem put_objects (store : Store κ α) (key : κ) (value : α) :
    (store.put key value).objects key = some ⟨value, store.next⟩ := by
  simp [put]

@[simp] theorem remove_objects (store : Store κ α) (key : κ) : (store.remove key).objects key = none := by
  simp [remove]

theorem put_objects_ne (store : Store κ α) (value : α) (ne : other ≠ key) :
    (store.put key value).objects other = store.objects other := by
  simp [put, ne]

theorem remove_objects_ne (store : Store κ α) (ne : other ≠ key) :
    (store.remove key).objects other = store.objects other := by
  simp [remove, ne]

theorem advances_put (store : Store κ α) (key : κ) (value : α) : Advances store (store.put key value) := by
  refine ⟨Nat.le_succ _, fun other stored found => ?_⟩
  by_cases same : other = key
  · subst same
    rw [put_objects] at found
    cases found
    exact .inr (Nat.le_refl _)
  · rw [put_objects_ne _ _ same] at found
    exact .inl found

theorem advances_remove (store : Store κ α) (key : κ) : Advances store (store.remove key) := by
  refine ⟨Nat.le_refl _, fun other stored found => ?_⟩
  by_cases same : other = key
  · subst same
    simp at found
  · rw [remove_objects_ne _ same] at found
    exact .inl found

theorem Issued.put (issued : store.Issued) (key : κ) (value : α) : (store.put key value).Issued := by
  intro other stored found
  rcases (store.advances_put key value).fresh other stored found with earlier | _
  · exact Nat.lt_succ_of_lt (issued other stored earlier)
  by_cases same : other = key
  · subst same
    rw [put_objects] at found
    cases found
    exact Nat.lt_succ_self _
  · rw [put_objects_ne _ _ same] at found
    exact Nat.lt_succ_of_lt (issued other stored found)

theorem Issued.remove (issued : store.Issued) (key : κ) : (store.remove key).Issued := by
  intro other stored found
  by_cases same : other = key
  · subst same
    simp at found
  · rw [remove_objects_ne _ same] at found
    exact issued other stored found

end Store

end Swarmada.Transition
