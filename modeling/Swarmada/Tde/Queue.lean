import Mathlib.Data.List.Basic
import Mathlib.Data.List.Perm.Basic

namespace Swarmada.Tde

inductive ActionPriority where
  | unset | critical | high | normal | low
deriving DecidableEq, Repr

def priorityRank : ActionPriority → Nat
  | .critical => 1
  | .high => 2
  | .low => 4
  | .normal => 3
  | .unset => 3

inductive ReservationPolicy where
  | unset | fifo | priority | priorityWithDuration
deriving DecidableEq, Repr

structure ResourceHolder where
  robotID : String
  actionID : String
  priority : ActionPriority
  heldSince : Nat
deriving DecidableEq, Repr

structure WaitQueueEntry where
  robotID : String
  actionID : String
  priority : ActionPriority
  requestedAt : Nat
  estimatedDurationSeconds : Option Nat := none
deriving DecidableEq, Repr

structure SharedResourceQueue where
  resourceName : String := ""
  currentHolders : List ResourceHolder := []
  waitQueue : List WaitQueueEntry := []
deriving DecidableEq, Repr

def durationOrMax (duration : Option Nat) : Nat := duration.getD 2147483647

def orderBefore (a b : WaitQueueEntry) (policy : ReservationPolicy) : Bool :=
  if priorityRank a.priority ≠ priorityRank b.priority then priorityRank a.priority < priorityRank b.priority
  else if policy = .priorityWithDuration ∧
      durationOrMax a.estimatedDurationSeconds ≠ durationOrMax b.estimatedDurationSeconds then
    durationOrMax a.estimatedDurationSeconds < durationOrMax b.estimatedDurationSeconds
  else a.requestedAt < b.requestedAt

def insertByPolicy (queue : SharedResourceQueue) (entry : WaitQueueEntry) (policy : ReservationPolicy) :
    SharedResourceQueue :=
  if policy = .fifo ∨ policy = .unset then { queue with waitQueue := queue.waitQueue ++ [entry] }
  else
    let stays := fun waiting => !orderBefore entry waiting policy
    { queue with waitQueue := queue.waitQueue.takeWhile stays ++ entry :: queue.waitQueue.dropWhile stays }

def promote (now : Nat) (next : WaitQueueEntry) : ResourceHolder :=
  { robotID := next.robotID, actionID := next.actionID, priority := next.priority, heldSince := now }

def backfill (capacity now : Nat) : List ResourceHolder → List WaitQueueEntry → List ResourceHolder × List WaitQueueEntry
  | holders, [] => (holders, [])
  | holders, next :: rest =>
    if holders.length < capacity then backfill capacity now (holders ++ [promote now next]) rest
    else (holders, next :: rest)

def releaseHolder (capacity now : Nat) (actionID : String) (queue : SharedResourceQueue) : SharedResourceQueue :=
  let kept := queue.currentHolders.filter (fun holder => holder.actionID ≠ actionID)
  if queue.currentHolders.any (fun holder => holder.actionID = actionID) then
    let (holders, waiting) := backfill capacity now kept queue.waitQueue
    { queue with currentHolders := holders, waitQueue := waiting }
  else
    { queue with
      currentHolders := kept
      waitQueue := queue.waitQueue.filter (fun waiting => waiting.actionID ≠ actionID) }

def queueHasAction (queue : SharedResourceQueue) (actionID : String) : Bool :=
  queue.currentHolders.any (fun holder => holder.actionID = actionID) ||
    queue.waitQueue.any (fun waiting => waiting.actionID = actionID)

def queueActionIDs (queue : SharedResourceQueue) : List String :=
  queue.currentHolders.map ResourceHolder.actionID ++ queue.waitQueue.map WaitQueueEntry.actionID

def adapterEntryRobot (queue : SharedResourceQueue) (id : String) : Option String :=
  let robot : Option String :=
    match queue.currentHolders.find? (fun holder => holder.actionID = id) with
    | some holder => some holder.robotID
    | none => (queue.waitQueue.find? (fun waiting => waiting.actionID = id)).map WaitQueueEntry.robotID
  robot.filter (· = id)

namespace SharedResourceQueue

def holders (queue : SharedResourceQueue) : List String := queue.currentHolders.map ResourceHolder.robotID

def waiters (queue : SharedResourceQueue) : List String := queue.waitQueue.map WaitQueueEntry.robotID

end SharedResourceQueue

variable {capacity now : Nat} {queue : SharedResourceQueue} {id : String}

theorem waitQueue_insertByPolicy (queue : SharedResourceQueue) (entry : WaitQueueEntry) (policy : ReservationPolicy) :
    (insertByPolicy queue entry policy).waitQueue.Perm (entry :: queue.waitQueue) := by
  unfold insertByPolicy
  split
  · exact List.perm_append_singleton _ _
  · refine List.perm_middle.trans (List.Perm.cons _ ?_)
    rw [List.takeWhile_append_dropWhile]

theorem currentHolders_insertByPolicy (queue : SharedResourceQueue) (entry : WaitQueueEntry)
    (policy : ReservationPolicy) : (insertByPolicy queue entry policy).currentHolders = queue.currentHolders := by
  unfold insertByPolicy
  split <;> rfl

/-- The loop takes the head of the queue, as much as the capacity leaves room for. -/
theorem backfill_eq (holders : List ResourceHolder) (waiting : List WaitQueueEntry) :
    backfill capacity now holders waiting =
      (holders ++ (waiting.take (capacity - holders.length)).map (promote now), waiting.drop (capacity - holders.length)) := by
  induction waiting generalizing holders with
  | nil => simp [backfill]
  | cons next rest ih =>
    rw [backfill]
    split
    next room =>
      obtain ⟨left, same⟩ : ∃ left, capacity - holders.length = left + 1 := ⟨capacity - holders.length - 1, by omega⟩
      have fewer : capacity - (holders ++ [promote now next]).length = left := by simp; omega
      rw [ih, fewer, same]
      simp
    next full =>
      rw [Nat.sub_eq_zero_of_le (Nat.le_of_not_lt full)]
      simp

theorem backfill_robots (holders : List ResourceHolder) (waiting : List WaitQueueEntry) :
    (backfill capacity now holders waiting).1.map ResourceHolder.robotID ++
        (backfill capacity now holders waiting).2.map WaitQueueEntry.robotID =
      holders.map ResourceHolder.robotID ++ waiting.map WaitQueueEntry.robotID := by
  have robots : ResourceHolder.robotID ∘ promote now = WaitQueueEntry.robotID := rfl
  rw [backfill_eq, List.map_append, List.map_map, robots, List.append_assoc, ← List.map_append, List.take_append_drop]

theorem backfill_full {holders : List ResourceHolder} {waiting : List WaitQueueEntry} (within : holders.length ≤ capacity) :
    (backfill capacity now holders waiting).1.length ≤ capacity ∧
      ((backfill capacity now holders waiting).2 ≠ [] → (backfill capacity now holders waiting).1.length = capacity) := by
  simp only [backfill_eq, List.length_append, List.length_map, List.length_take, ne_eq, List.drop_eq_nil_iff]
  omega

end Swarmada.Tde
