import Swarmada.Tde.Queue
import Swarmada.Transition.Machine

namespace Swarmada.Tde

open Transition

inductive ResourceState where
  | unset | granted | queued | denied
deriving DecidableEq, Repr

structure ResourceOutcome where
  state : ResourceState := .unset
  queuePosition : Nat := 0
  message : String := ""
  released : Bool := false
  promotedRobotID : String := ""
deriving DecidableEq, Repr

structure Resource where
  name : String
  capacity : Nat
  policy : ReservationPolicy := .fifo
deriving DecidableEq, Repr

/-- `recovered` is whether the engine has rebuilt its state, `declared` whether a zone that
declares the resource was found. -/
def reserveResource (resource : Resource) (recovered declared : Bool) (now : Nat) (robotID : String)
    (queue : SharedResourceQueue) : SharedResourceQueue × ResourceOutcome :=
  if !recovered then (queue, { state := .denied, message := "TDE recovering" })
  else if !declared then (queue, { state := .denied, message := "unknown shared resource: " ++ resource.name })
  else if robotID ∈ queue.holders then (queue, { state := .granted })
  else if robotID ∈ queue.waiters then
    (queue, { state := .queued, queuePosition := queue.waiters.idxOf robotID + 1 })
  else if queue.currentHolders.length < resource.capacity then
    ({ queue with
       currentHolders := queue.currentHolders ++
         [{ robotID, actionID := robotID, priority := .normal, heldSince := now }] },
      { state := .granted })
  else
    let queued := insertByPolicy queue { robotID, actionID := robotID, priority := .normal, requestedAt := now }
      resource.policy
    (queued, { state := .queued, queuePosition := queued.waiters.idxOf robotID + 1 })

def releaseResource (resource : Resource) (declared : Bool) (now : Nat) (robotID : String)
    (queue : SharedResourceQueue) : SharedResourceQueue × ResourceOutcome :=
  if !declared then (queue, { state := .denied, message := "unknown shared resource: " ++ resource.name })
  else
    (releaseHolder resource.capacity now robotID queue,
      { released := robotID ∈ queue.holders || robotID ∈ queue.waiters
        promotedRobotID := if robotID ∈ queue.holders then queue.waiters.headD "" else "" })

/-- The pass over the ids queued when it began.  `lookup` is whether a robot exists, when
that could be read; the first that cannot ends the pass. -/
def releaseAbsent (capacity now : Nat) (lookup : String → Option Bool) :
    List String → SharedResourceQueue → SharedResourceQueue
  | [], queue => queue
  | id :: rest, queue =>
    match adapterEntryRobot queue id with
    | none => releaseAbsent capacity now lookup rest queue
    | some robotID =>
      match lookup robotID with
      | none => queue
      | some true => releaseAbsent capacity now lookup rest queue
      | some false => releaseAbsent capacity now lookup rest (releaseHolder capacity now id queue)

def releaseAbsentRobots (resource : Resource) (recovered : Bool) (now : Nat) (lookup : String → Option Bool)
    (queue : SharedResourceQueue) : SharedResourceQueue :=
  if !recovered then queue else releaseAbsent resource.capacity now lookup (queueActionIDs queue) queue

inductive ResourceCall where
  | reserve (robotID : String) (recovered declared : Bool) (now : Nat)
  | release (robotID : String) (declared : Bool) (now : Nat)
  | releaseAbsent (lookup : String → Option Bool) (recovered : Bool) (now : Nat)

/-- The queue of one resource under one call after the other. -/
def sharedResource (resource : Resource) : Machine SharedResourceQueue ResourceCall ResourceOutcome where
  step queue
    | .reserve robotID recovered declared now =>
      let (after, outcome) := reserveResource resource recovered declared now robotID queue
      some (after, [outcome])
    | .release robotID declared now =>
      let (after, outcome) := releaseResource resource declared now robotID queue
      some (after, [outcome])
    | .releaseAbsent lookup recovered now => some (releaseAbsentRobots resource recovered now lookup queue, [])

/-- The call takes the robot out: it releases the robot, or finds that the robot is gone. -/
def ResourceCall.Ends (call : ResourceCall) (robotID : String) : Prop :=
  match call with
  | .reserve _ _ _ _ => False
  | .release released _ _ => released = robotID
  | .releaseAbsent lookup _ _ => lookup robotID = some false

/-- At most `capacity` holders, waiters only at the capacity, every robot once, and every
entry a robot's own. -/
structure Fair (capacity : Nat) (queue : SharedResourceQueue) : Prop where
  within : queue.currentHolders.length ≤ capacity
  full : queue.waitQueue ≠ [] → queue.currentHolders.length = capacity
  once : (queue.holders ++ queue.waiters).Nodup
  held : ∀ holder ∈ queue.currentHolders, holder.actionID = holder.robotID
  waiting : ∀ waiting ∈ queue.waitQueue, waiting.actionID = waiting.robotID

def Promotes (before after : SharedResourceQueue) (exception : String → Prop) : Prop :=
  ∀ robotID ∈ before.waiters, ¬ exception robotID → robotID ∈ after.holders ∨ robotID ∈ after.waiters

variable {resource : Resource} {capacity now : Nat} {queue : SharedResourceQueue} {robotID : String}

theorem Fair.reserve (fair : Fair resource.capacity queue) (recovered declared : Bool) :
    Fair resource.capacity (reserveResource resource recovered declared now robotID queue).1 := by
  unfold reserveResource
  split
  · exact fair
  split
  · exact fair
  split
  · exact fair
  split
  · exact fair
  rename_i notHolding notWaiting
  have fresh : (robotID :: (queue.holders ++ queue.waiters)).Nodup := by
    refine List.nodup_cons.mpr ⟨?_, fair.once⟩
    rw [List.mem_append, not_or]
    exact ⟨notHolding, notWaiting⟩
  split
  next room =>
    have noWaiters : queue.waitQueue = [] := by
      by_contra some
      have full := fair.full some
      omega
    refine ⟨?_, fun some => absurd noWaiters some, ?_, ?_, fair.waiting⟩
    · rw [List.length_append, List.length_singleton]
      omega
    · apply fresh.perm
      simp only [SharedResourceQueue.holders, SharedResourceQueue.waiters, List.map_append, List.map_cons, List.map_nil,
        List.append_assoc, List.singleton_append]
      exact List.perm_middle.symm
    · intro holder member
      rcases List.mem_append.mp member with old | new
      · exact fair.held holder old
      · obtain rfl := List.mem_singleton.mp new
        rfl
  next atCapacity =>
    set entry : WaitQueueEntry := { robotID, actionID := robotID, priority := .normal, requestedAt := now } with made
    have queued := waitQueue_insertByPolicy queue entry resource.policy
    have same := currentHolders_insertByPolicy queue entry resource.policy
    refine ⟨same ▸ fair.within, fun _ => ?_, ?_, same ▸ fair.held, ?_⟩
    · rw [same]
      exact Nat.le_antisymm fair.within (Nat.le_of_not_lt atCapacity)
    · have holding : (insertByPolicy queue entry resource.policy).holders = queue.holders :=
        congrArg (List.map ResourceHolder.robotID) same
      apply fresh.perm
      rw [holding]
      exact List.perm_middle.symm.trans ((queued.symm.map WaitQueueEntry.robotID).append_left queue.holders)
    · intro waiting member
      rcases List.mem_cons.mp (queued.mem_iff.mp member) with rfl | old
      · rfl
      · exact fair.waiting waiting old

theorem promotes_reserve (recovered declared : Bool) :
    Promotes queue (reserveResource resource recovered declared now robotID queue).1 fun _ => False := by
  intro waiter member _
  unfold reserveResource
  split
  · exact .inr member
  split
  · exact .inr member
  split
  · exact .inr member
  split
  · exact .inr member
  split
  · exact .inr member
  refine .inr ?_
  rw [SharedResourceQueue.waiters, ((waitQueue_insertByPolicy _ _ _).map _).mem_iff]
  exact List.mem_cons_of_mem _ member

theorem filter_held {holders : List ResourceHolder} (own : ∀ holder ∈ holders, holder.actionID = holder.robotID) :
    (holders.filter (fun holder => holder.actionID ≠ robotID)).map ResourceHolder.robotID =
      (holders.map ResourceHolder.robotID).filter (· ≠ robotID) := by
  rw [List.filter_map]
  congr 1
  apply List.filter_congr
  intro holder member
  rw [own holder member]
  rfl

theorem filter_waiting {waiting : List WaitQueueEntry} (own : ∀ entry ∈ waiting, entry.actionID = entry.robotID) :
    (waiting.filter (fun entry => entry.actionID ≠ robotID)).map WaitQueueEntry.robotID =
      (waiting.map WaitQueueEntry.robotID).filter (· ≠ robotID) := by
  rw [List.filter_map]
  congr 1
  apply List.filter_congr
  intro entry member
  rw [own entry member]
  rfl

theorem Fair.robots_releaseHolder (fair : Fair capacity queue) :
    (releaseHolder capacity now robotID queue).holders ++ (releaseHolder capacity now robotID queue).waiters =
      (queue.holders ++ queue.waiters).filter (· ≠ robotID) := by
  unfold releaseHolder
  split
  next holds =>
    obtain ⟨holder, member, keyed⟩ := List.any_eq_true.mp holds
    have inHolders : robotID ∈ queue.holders := by
      refine List.mem_map.mpr ⟨holder, member, ?_⟩
      rw [← fair.held holder member]
      exact of_decide_eq_true keyed
    have notWaiting : queue.waiters.filter (· ≠ robotID) = queue.waiters := by
      rw [List.filter_eq_self]
      intro waiter waits
      have other := (List.nodup_append.mp fair.once).2.2 robotID inHolders waiter waits
      exact decide_eq_true other.symm
    rw [List.filter_append, notWaiting]
    refine (backfill_robots _ _).trans ?_
    rw [filter_held fair.held]
    rfl
  · rw [List.filter_append]
    simp only [SharedResourceQueue.holders, SharedResourceQueue.waiters, filter_held fair.held,
      filter_waiting fair.waiting]

theorem backfill_held {holders : List ResourceHolder} {waiting : List WaitQueueEntry}
    (held : ∀ holder ∈ holders, holder.actionID = holder.robotID)
    (own : ∀ entry ∈ waiting, entry.actionID = entry.robotID) :
    (∀ holder ∈ (backfill capacity now holders waiting).1, holder.actionID = holder.robotID) ∧
      ∀ entry ∈ (backfill capacity now holders waiting).2, entry.actionID = entry.robotID := by
  rw [backfill_eq]
  refine ⟨fun holder member => ?_, fun entry left => own entry (List.mem_of_mem_drop left)⟩
  rcases List.mem_append.mp member with old | new
  · exact held holder old
  · obtain ⟨entry, taken, rfl⟩ := List.mem_map.mp new
    exact own entry (List.mem_of_mem_take taken)

theorem Fair.releaseHolder (fair : Fair capacity queue) : Fair capacity (releaseHolder capacity now robotID queue) := by
  have once : ((Tde.releaseHolder capacity now robotID queue).holders ++
      (Tde.releaseHolder capacity now robotID queue).waiters).Nodup := by
    rw [fair.robots_releaseHolder]
    exact fair.once.filter _
  have keptHeld : ∀ holder ∈ queue.currentHolders.filter (fun holder => holder.actionID ≠ robotID),
      holder.actionID = holder.robotID :=
    fun holder member => fair.held holder (List.mem_of_mem_filter member)
  unfold Tde.releaseHolder at once ⊢
  split at once
  next holds =>
    rw [if_pos holds]
    have fewer : (queue.currentHolders.filter (fun holder => holder.actionID ≠ robotID)).length ≤ capacity :=
      Nat.le_trans (List.length_filter_le _ _) fair.within
    obtain ⟨within, full⟩ := @backfill_full capacity now _ queue.waitQueue fewer
    obtain ⟨held, waiting⟩ := @backfill_held capacity now _ _ keptHeld fair.waiting
    exact ⟨within, full, once, held, waiting⟩
  next free =>
    rw [if_neg free]
    have kept : queue.currentHolders.filter (fun holder => holder.actionID ≠ robotID) = queue.currentHolders := by
      rw [List.filter_eq_self]
      intro holder member
      by_contra keyed
      exact free (List.any_eq_true.mpr ⟨holder, member, by simpa using keyed⟩)
    refine ⟨?_, fun some => ?_, once, keptHeld, ?_⟩
    · dsimp only
      rw [kept]
      exact fair.within
    · dsimp only at some ⊢
      rw [kept]
      apply fair.full
      rintro none
      simp [none] at some
    · exact fun entry member => fair.waiting entry (List.mem_of_mem_filter member)

theorem Fair.promotes_release (fair : Fair capacity queue) :
    Promotes queue (Tde.releaseHolder capacity now robotID queue) (· = robotID) := by
  intro waiter member other
  rw [← List.mem_append, fair.robots_releaseHolder, List.mem_filter]
  exact ⟨List.mem_append_right _ member, decide_eq_true other⟩

theorem adapterEntryRobot_eq {id : String} (entry : adapterEntryRobot queue id = some robotID) : robotID = id := by
  have keyed := (Option.filter_eq_some_iff.mp entry).2
  exact of_decide_eq_true keyed

theorem Fair.releaseAbsent {lookup : String → Option Bool} {ids : List String} (fair : Fair capacity queue) :
    Fair capacity (releaseAbsent capacity now lookup ids queue) ∧
      ∀ robotID ∈ queue.holders ++ queue.waiters, lookup robotID ≠ some false →
        robotID ∈ (Tde.releaseAbsent capacity now lookup ids queue).holders ++
          (Tde.releaseAbsent capacity now lookup ids queue).waiters := by
  fun_induction Tde.releaseAbsent with
  | case1 | case3 _ _ _ robotID => exact ⟨fair, fun robotID member _ => member⟩
  | case2 queue id rest none ih | case4 queue id rest robotID entry exists_ ih => exact ih fair
  | case5 queue id rest robotID entry gone ih =>
    obtain ⟨kept, stays⟩ := ih fair.releaseHolder
    refine ⟨kept, fun other member present => stays other ?_ present⟩
    rw [fair.robots_releaseHolder, List.mem_filter]
    refine ⟨member, decide_eq_true ?_⟩
    rintro rfl
    obtain rfl := adapterEntryRobot_eq entry
    exact present gone

theorem Fair.step {call : ResourceCall} {after : SharedResourceQueue} {events : List ResourceOutcome}
    (fair : Fair resource.capacity queue) (taken : (sharedResource resource).step queue call = some (after, events)) :
    Fair resource.capacity after ∧ Promotes queue after call.Ends := by
  cases call with
  | reserve _ recovered declared =>
    cases taken
    exact ⟨fair.reserve recovered declared, promotes_reserve recovered declared⟩
  | release robotID declared now =>
    have same : (releaseResource resource declared now robotID queue).1 = after :=
      congrArg Prod.fst (Option.some.inj taken)
    rw [← same, releaseResource]
    split
    · exact ⟨fair, fun waiter member _ => .inr member⟩
    · refine ⟨fair.releaseHolder, fun waiter member other => ?_⟩
      exact fair.promotes_release waiter member (Ne.symm other)
  | releaseAbsent lookup _ now =>
    cases taken
    unfold releaseAbsentRobots
    split
    · exact ⟨fair, fun waiter member _ => .inr member⟩
    obtain ⟨kept, stays⟩ := @Fair.releaseAbsent _ now _ lookup (queueActionIDs queue) fair
    refine ⟨kept, fun waiter member present => ?_⟩
    exact List.mem_append.mp (stays waiter (List.mem_append_right _ member) present)

/-- At most `capacity` robots hold the resource, a robot waits only while that many do, none is there twice, and a
waiter leaves only as a holder, released, or gone from the fleet. -/
theorem shared_resource_fair {history : List ResourceOutcome}
    (reached : Machine.Reaches (sharedResource resource) Machine.unrestricted {} history queue) :
    queue.holders.length ≤ resource.capacity ∧
      (queue.waiters ≠ [] → queue.holders.length = resource.capacity) ∧
      (queue.holders ++ queue.waiters).Nodup ∧
      ∀ call after events, (sharedResource resource).step queue call = some (after, events) →
        ∀ robotID ∈ queue.waiters, robotID ∉ after.waiters → ¬ call.Ends robotID → robotID ∈ after.holders := by
  have fair : Fair resource.capacity queue := by
    refine reached.invariant (fun _ queue => Fair resource.capacity queue) ?_ ?_
    · exact ⟨Nat.zero_le _, fun some => absurd rfl some, .nil, by simp, by simp⟩
    · intro history queue call after events _ fair _ taken
      exact (fair.step taken).1
  have heldBy : queue.holders.length = queue.currentHolders.length := List.length_map _
  refine ⟨heldBy ▸ fair.within, fun some => ?_, fair.once, ?_⟩
  · rw [heldBy]
    apply fair.full
    rintro none
    simp [SharedResourceQueue.waiters, none] at some
  · intro call after events taken robotID waits left stays
    exact ((fair.step taken).2 robotID waits stays).resolve_right left

/-- A lift for one robot: the second waits until the first releases it. -/
theorem shared_resource_fair_lift :
    ∃ queue, Machine.Reaches (sharedResource { name := "lift", capacity := 1 }) Machine.unrestricted {}
        [{ released := true, promotedRobotID := "r2" }, { state := .queued, queuePosition := 1 }, { state := .granted }]
        queue ∧
      queue.holders.length ≤ 1 := by
  have ran : (sharedResource { name := "lift", capacity := 1 }).history {}
      [.reserve "r1" true true 0, .reserve "r2" true true 1, .release "r1" true 2] = some
        [{ released := true, promotedRobotID := "r2" }, { state := .queued, queuePosition := 1 },
          { state := .granted }] := by
    decide +kernel
  obtain ⟨queue, reached⟩ := Machine.history_reaches ran
  exact ⟨queue, reached, (shared_resource_fair reached).1⟩

end Swarmada.Tde
