import Swarmada.Safety.Moves
import Swarmada.Transition.Mutex

namespace Swarmada.Safety

open Api Transition

variable {derive : Option (Robot → List CapabilityStatusEntry)} {me : Nat} {shared after : Shared}

def Writer.holdsLock : Writer → Bool
  | .reading .. | .deciding .. | .patching .. => true
  | .looking .. | .sent .. | .entering .. | .backoff .. => false

def Clearer.holdsLock : Clearer → Bool
  | .guarding .. | .marking .. | .patching .. | .closing .. | .ending .. => true
  | .reading .. | .locking .. => false

def Thread.holdsLock : Thread → Bool
  | .write writer => writer.holdsLock
  | .clear clearer => clearer.holdsLock
  | .idle | .record _ | .fence _ => false

theorem Call.returned_cases (call : Call) (state : RobotEstopState) : continueAs .write (call.returned state) = .idle ∨
      ∃ later, continueAs .write (call.returned state) = .write (.sent later) ∧
        later.kind = call.kind ∧ later.epoch = call.epoch ∧ later.copy = call.copy := by
  unfold Call.returned
  split
  · exact .inr ⟨_, rfl, rfl, rfl, rfl⟩
  split
  · exact .inr ⟨_, rfl, rfl, rfl, rfl⟩
  · exact .inl rfl

@[simp] theorem Call.returned_holdsLock (call : Call) (state : RobotEstopState) :
    (continueAs .write (call.returned state)).holdsLock = false := by
  rcases call.returned_cases state with finished | ⟨_, waiting, -⟩
  · rw [finished]
    rfl
  · rw [waiting]
    rfl

@[simp] theorem Shared.untrack_writer (untracks : Option String) :
    (shared.untrack untracks).writer = shared.writer := by
  cases untracks <;> rfl

@[simp] theorem Shared.untrack_order (untracks : Option String) : (shared.untrack untracks).order = shared.order := by
  cases untracks <;> rfl

theorem Move.lock (move : Move derive me shared thread act after next events) :
    LockStep me shared.writer after.writer thread.holdsLock next.holdsLock := by
  cases move with
  | write move =>
    cases move with
    | entered free | relocked free => exact .taken free rfl
    | finished => exact .kept rfl (by simp [Thread.holdsLock, continueAs])
    | looked | confirmed | outcome | read | planned => exact .kept rfl id
    | unwritten | refused => exact .kept rfl (by simp)
    | stood | found | landed | abandoned => exact .released rfl rfl (by simp)
    | conflicted => exact .released rfl rfl rfl
  | clear move =>
    cases move with
    | locked free => exact .taken free rfl
    | unread | superseded => exact .kept rfl (by simp [Thread.holdsLock, continueAs])
    | read | planned | marked | landed | unlanded | closed => exact .kept rfl id
    | stood | retried | failed | heldCleared | heldKept => exact .released rfl rfl rfl
  | record move => cases move <;> exact .kept (by simp) (by simp [Thread.holdsLock, continueAs])
  | clearing led => rcases led with rfl | rfl <;> exact .kept rfl id
  | @fence fencer => cases fencer <;> exact .kept rfl id
  | _ => exact .kept rfl id

def LockHeld (shared : Shared) (me : Nat) (thread : Thread) : Prop :=
  Transition.LockHeld shared.writer me thread.holdsLock

theorem Move.lockHeld (move : Move derive me shared thread act after next events) (mine : LockHeld shared me thread) :
    LockHeld after me next :=
  move.lock.own mine

theorem Move.lockHeld_other
    (move : Move derive me shared thread act after next events) (mine : LockHeld shared me thread) (held : LockHeld shared other theirs) (different : other ≠ me) :
    LockHeld after other theirs :=
  move.lock.others mine held different

end Swarmada.Safety
