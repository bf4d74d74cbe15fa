import Mathlib.Logic.Basic

/-! # Mutual exclusion

A lock is the number of the thread that holds it.  Whether a thread is inside the
locked section can be read off its own state, so one step of one thread is judged by
the lock and by that thread's two states alone.
-/

namespace Swarmada.Transition

variable {me other : Nat} {lock after : Option Nat} {before later theirs : Bool}

/-- A step leaves the lock and does not go inside, takes the free lock, or comes out
and frees it. -/
inductive LockStep (me : Nat) (lock after : Option Nat) (before later : Bool) : Prop
  | kept (same : after = lock) (inside : later = true → before = true)
  | taken (free : lock = none) (mine : after = some me)
  | released (free : after = none) (inside : before = true) (outside : later = false)

/-- A thread inside is the one that holds the lock. -/
def LockHeld (lock : Option Nat) (me : Nat) (inside : Bool) : Prop :=
  inside = true → lock = some me

theorem LockStep.own (step : LockStep me lock after before later) (held : LockHeld lock me before) :
    LockHeld after me later := by
  intro holds
  cases step with
  | kept same inside =>
    rw [same]
    exact held (inside holds)
  | taken _ mine => exact mine
  | released _ _ outside => simp [outside] at holds

theorem LockStep.others (step : LockStep me lock after before later) (mine : LockHeld lock me before)
    (held : LockHeld lock other theirs) (different : other ≠ me) : LockHeld after other theirs := by
  intro holds
  have holder := held holds
  cases step with
  | kept same => rw [same, holder]
  | taken free => simp [free] at holder
  | released _ inside =>
    have same : some other = some me := holder.symm.trans (mine inside)
    exact absurd (Option.some.inj same) different

/-- Two threads are never both inside. -/
theorem LockHeld.exclusive (mine : LockHeld lock me before) (held : LockHeld lock other theirs)
    (different : other ≠ me) (inside : before = true) : theirs = false := by
  cases theirs with
  | false => rfl
  | true =>
    have same : some other = some me := (held rfl).symm.trans (mine inside)
    exact absurd (Option.some.inj same) different

end Swarmada.Transition
