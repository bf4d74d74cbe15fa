import Swarmada.ModelRollout.Outlines

namespace Swarmada.ModelRollout

open Transition

def rollbackAcked (robot : String) : List Event → Bool
  | [] | .started :: _ => false
  | .pushed name update acknowledged :: older =>
    (name == robot && update.rollback && acknowledged) || rollbackAcked robot older
  | _ :: older => rollbackAcked robot older

def RolledBack (robot : String) : List Event → Prop
  | [] => False
  | .written :: older => rollbackAcked robot older = true ∨ RolledBack robot older
  | _ :: older => RolledBack robot older

instance decidableRolledBack (robot : String) : (history : List Event) → Decidable (RolledBack robot history)
  | [] => isFalse id
  | .written :: older =>
    have := decidableRolledBack robot older
    inferInstanceAs (Decidable (_ ∨ _))
  | .started :: older | .pushed _ _ _ :: older | .marked _ :: older | .resumed :: older =>
    decidableRolledBack robot older

def LeftAlone (older : List Event) (event : Event) : Prop :=
  ∀ robot update acknowledged, event = .pushed robot update acknowledged → ¬ RolledBack robot older

/-- No revert of a robot that was rolled back is read as failed, and each of these robots is listed. -/
def revertsStand (status : Status) (robots : List Robot) : Bool :=
  (∀ name ∈ status.rolledBackRobots, name ∈ names robots) ∧
    ∀ rob ∈ robots, rob.name ∈ status.rolledBackRobots →
      versionOf status.rollbackVersions rob.name = "" ∨ rob.model.any (fun entry => entry.status == .failed) = false

def keepsReverts (w : World) : Op → Answer → Bool
  | .getRollout, .rollout copy => copy = w.rollout
  | .listRobots read, .listing robots => revertsStand read.value.status robots
  | _, _ => true

def KeepsReverts (_ : List Event) (s : System) (label : Label) : Prop := s.answers keepsReverts label = true

instance (history : List Event) (s : System) (label : Label) : Decidable (KeepsReverts history s label) :=
  inferInstanceAs (Decidable (_ = true))

variable {setup : Setup} {rob : Robot} {read : Status} {rollout : Rollout} {holds : String → String}

theorem classifyModel_failed
    (failed : classifyModel entry version = .failed) : entry.any (fun entry => entry.status == .failed) = true := by
  cases entry with
  | none => contradiction
  | some =>
    simp only [classifyModel] at failed
    split at failed
    · split at failed <;> try contradiction
      split at failed <;> contradiction
    · contradiction
    next status =>
      simp [status]
    · contradiction

theorem bucketOf_rolledBack (reverted : rob.name ∈ read.rolledBackRobots) :
    bucketOf read rollout holds rob = .rolledBack ∨ bucketOf read rollout holds rob = .reverting ∨
      bucketOf read rollout holds rob = .revertFailed := by
  unfold bucketOf
  rw [if_pos reverted]
  dsimp only
  split
  · exact .inl rfl
  split
  · exact .inr (.inr rfl)
  · exact .inr (.inl rfl)

theorem bucketOf_revertFailed (failed : bucketOf read rollout holds rob = .revertFailed) :
    versionOf read.rollbackVersions rob.name ≠ "" ∧ rob.model.any (fun entry => entry.status == .failed) = true := by
  unfold bucketOf at failed
  split at failed
  · dsimp only at failed
    split at failed <;> try contradiction
    rename_i outstanding
    split at failed <;> try contradiction
    rename_i classified
    exact ⟨fun absent => outstanding (.inl absent), classifyModel_failed classified⟩
  · split at failed <;> try contradiction
    split at failed
    all_goals first | contradiction | (split at failed <;> first | contradiction | (split at failed <;> contradiction))

theorem not_rolledBack_of_bucket (found : rob ∈ setup.bucket bucket)
    (pushed : bucket = .failed ∨ bucket = .eligible) : rob.name ∉ setup.read.value.status.rolledBackRobots := by
  intro reverted
  have placed := of_decide_eq_true (List.mem_filter.mp found).2
  rcases @bucketOf_rolledBack rob _ setup.rollout.value setup.holds reverted with other | other | other <;>
    rcases pushed with rfl | rfl <;> rw [other] at placed <;> contradiction

/-- Where no revert is read as failed, each robot that was rolled back is among the reverted or the
reverting. -/
theorem listed_of_revertsStand (stand : revertsStand setup.read.value.status setup.listing = true)
    (reverted : name ∈ setup.read.value.status.rolledBackRobots) :
    name ∈ names (setup.bucket .rolledBack) ∨ name ∈ names (setup.bucket .reverting) := by
  obtain ⟨listed, standing⟩ := of_decide_eq_true stand
  obtain ⟨rob, member, rfl⟩ := List.mem_map.mp (listed name reverted)
  have within : ∀ bucket, bucketOf setup.read.value.status setup.rollout.value setup.holds rob = bucket →
      rob.name ∈ names (setup.bucket bucket) := fun bucket placed =>
    List.mem_map_of_mem (List.mem_filter.mpr ⟨member, decide_eq_true placed⟩)
  rcases @bucketOf_rolledBack rob _ setup.rollout.value setup.holds reverted with placed | placed | placed
  · exact .inl (within _ placed)
  · exact .inr (within _ placed)
  obtain ⟨outstanding, failed⟩ := bucketOf_revertFailed placed
  rcases standing rob member reverted with absent | stands
  · exact absurd absent outstanding
  · rw [failed] at stands
    contradiction

/-- The status lists every robot that was rolled back, and none of them was pushed to since. -/
structure Recorded (s : Seen) : Prop where
  listed : ∀ robot, RolledBack robot s.history → robot ∈ s.world.rollout.value.status.rolledBackRobots
  alone : Always LeftAlone s.history

/-- Inside a pass: the status still lists what the pass read, and the robots whose rollback it got
acknowledged are among those it counts as reverting. -/
structure Reverting (setup : Setup) (reverting : List Robot) (s : Seen) : Prop where
  stored : s.world.rollout.value.status.rolledBackRobots = setup.read.value.status.rolledBackRobots
  acked : ∀ robot, rollbackAcked robot s.history = true → robot ∈ names reverting
  known : ∀ rob ∈ setup.bucket .reverting, rob ∈ reverting

abbrev aroundReverts : Surroundings Op Op.Reply Seen := surroundings Recorded keepsReverts

def Event.silent : Event → Bool
  | .marked _ | .resumed => true
  | _ => false

theorem rolledBack_silent (silent : ∀ event ∈ events, event.silent = true) :
    (RolledBack robot (events ++ history) ↔ RolledBack robot history) ∧
      rollbackAcked robot (events ++ history) = rollbackAcked robot history := by
  induction events with
  | nil => exact ⟨.rfl, rfl⟩
  | cons event events ih =>
    have rest := ih fun other member => silent other (List.mem_cons_of_mem _ member)
    have quiet := silent event List.mem_cons_self
    cases event with
    | marked | resumed => exact rest
    | started | pushed | written => contradiction

theorem Recorded.silent {history events : List Event} {world world' : World} (recorded : Recorded ⟨history, world⟩)
    (silent : ∀ event ∈ events, event.silent = true)
    (same : world'.rollout.value.status.rolledBackRobots = world.rollout.value.status.rolledBackRobots) :
    Recorded ⟨events ++ history, world'⟩ where
  listed := fun robot rolled => by
    rw [same]
    exact recorded.listed robot ((rolledBack_silent silent).1.mp rolled)
  alone := by
    refine .extend (fun event member older robot update acknowledged pushed => ?_) recorded.alone
    have quiet := silent event member
    rw [pushed] at quiet
    contradiction

def Op.silent : Op → Bool
  | .push _ _ | .patchStatus _ _ | .patchResume _ _ => false
  | _ => true

theorem perform_silent (silent : op.silent = true) (performed : perform w op given = some (world, reply, events)) :
    (∀ event ∈ events, event.silent = true) ∧ world.rollout.value.status = w.rollout.value.status := by
  cases op with
  | push | patchStatus | patchResume => contradiction
  | patchRobot =>
    cases given <;> simp only [perform, reduceCtorEq] at performed
    split at performed
    · cases performed
      exact ⟨List.forall_mem_singleton.mpr rfl, rfl⟩
    · cases performed
      exact ⟨List.forall_mem_nil _, rfl⟩
  | _ =>
    cases given <;> simp only [perform, reduceCtorEq] at performed <;> cases performed <;>
      exact ⟨List.forall_mem_nil _, rfl⟩

theorem act_rolledBackRobots (w : World) (move : Act) :
    (move.step w).rollout.value.status.rolledBackRobots = w.rollout.value.status.rolledBackRobots := by
  cases move <;> rfl

variable {reverting : List Robot} {reverts : Reverts} {filled : Filled}

theorem Reverting.stable : aroundReverts.Stable (Reverting setup reverting) := by
  rintro before _ _ ⟨move, rfl⟩ inside
  exact ⟨(act_rolledBackRobots before.world move).trans inside.stored, inside.acked, inside.known⟩

theorem keeps_reverting (silent : op.silent = true) : Keeps aroundReverts (Reverting setup reverting) op := by
  rintro _ _ _ recorded inside ⟨_, _, _, _, performed, rfl⟩
  obtain ⟨quiet, same⟩ := perform_silent silent performed
  have kept := congrArg Status.rolledBackRobots same
  refine ⟨recorded.silent quiet kept, kept.trans inside.stored, fun robot acked => ?_, inside.known⟩
  rw [(rolledBack_silent quiet).2] at acked
  exact inside.acked robot acked

theorem Reverting.grow {s : Seen} (inside : Reverting setup reverting s) (rob : Robot) :
    Reverting setup (reverting ++ [rob]) s where
  stored := inside.stored
  acked := fun robot acked => by
    rw [names, List.map_append]
    exact List.mem_append_left _ (inside.acked robot acked)
  known := fun other member => List.mem_append_left _ (inside.known other member)

theorem Recorded.push (recorded : Recorded ⟨history, world⟩)
    (free : robot ∉ world.rollout.value.status.rolledBackRobots) (update : ModelUpdate) (acknowledged : Bool) :
    Recorded ⟨.pushed robot update acknowledged :: history, world⟩ where
  listed := recorded.listed
  alone := by
    refine ⟨fun other _ _ same rolled => ?_, recorded.alone⟩
    cases same
    exact free (recorded.listed _ rolled)

theorem takes_rollback (failed : rob ∈ setup.bucket .failed) (prevVersion : String) :
    Takes aroundReverts (Reverting setup reverting) (.push rob.name (rollbackPayload setup.spec prevVersion))
      fun reply s => if reply.acknowledged then Reverting setup (reverting ++ [rob]) s else Reverting setup reverting s := by
  rintro ⟨_, _⟩ _ _ recorded inside ⟨given, _, _, _, performed, rfl⟩
  cases given <;> simp only [perform, reduceCtorEq] at performed
  cases performed
  have free := not_rolledBack_of_bucket failed (.inl rfl)
  rw [← inside.stored] at free
  refine ⟨recorded.push free _ _, ?_⟩
  dsimp only
  split
  · refine ⟨inside.stored, fun robot acked => ?_, (inside.grow rob).known⟩
    simp only [List.singleton_append, rollbackAcked, Bool.or_eq_true, Bool.and_eq_true, beq_iff_eq] at acked
    rcases acked with ⟨⟨rfl, _⟩, _⟩ | earlier
    · rw [names, List.map_append]
      exact List.mem_append_right _ List.mem_cons_self
    · exact (inside.grow rob).acked robot earlier
  next declined =>
    refine ⟨inside.stored, fun robot acked => inside.acked robot ?_, inside.known⟩
    simpa [rollbackAcked, declined] using acked

theorem keeps_update (eligible : rob ∈ setup.bucket .eligible) :
    Keeps aroundReverts (Reverting setup reverting) (.push rob.name (modelUpdatePayload rob setup.spec)) := by
  rintro ⟨_, _⟩ _ _ recorded inside ⟨given, _, _, _, performed, rfl⟩
  cases given <;> simp only [perform, reduceCtorEq] at performed
  cases performed
  have free := not_rolledBack_of_bucket eligible (.inr rfl)
  rw [← inside.stored] at free
  refine ⟨recorded.push free _ _, inside.stored, fun robot acked => inside.acked robot ?_, inside.known⟩
  simpa [rollbackAcked, modelUpdatePayload] using acked

theorem marks_reverting (robot : String) :
    Marks aroundReverts robot (Reverting setup reverting) (Reverting setup reverting) where
  stable := Reverting.stable
  stableAfter := Reverting.stable
  weaker := fun _ inside => inside
  reads := keeps_reverting rfl
  marks := fun read state reply state' invariant inside replied => by
    obtain ⟨invariant', inside'⟩ := keeps_reverting rfl state reply state' invariant inside replied
    refine ⟨invariant', ?_⟩
    dsimp only
    split <;> exact inside'

theorem outline_rollbackPass : aroundReverts.Outline (Reverting setup (setup.bucket .reverting)) (rollbackPass setup)
    fun reverts => Reverting setup reverts.reverting := by
  have rolls : RollsBackAll aroundReverts setup (setup.bucket .failed)
      fun _ reverts => Reverting setup reverts.reverting :=
    { stable := fun _ _ => Reverting.stable
      held := fun _ _ _ => keeps_reverting rfl
      skips := fun _ _ _ _ inside => inside
      reverts := fun rob failed _ _ reverts => ⟨Reverting setup (reverts.reverting ++ [rob]),
        { pushes := takes_rollback failed _
          unpushed := fun _ _ inside => inside.grow rob
          stableRefused := Reverting.stable
          marks := marks_reverting rob.name }⟩ }
  unfold rollbackPass
  split
  · exact rolls.outline _ (fun rob member => (List.mem_insertionSort _).mp member) { reverting := setup.bucket .reverting }
  · exact .pure fun _ _ inside => inside

theorem outline_batch : aroundReverts.Outline (Reverting setup reverts.reverting) (batchPass setup reverts)
    fun _ => Reverting setup reverts.reverting := by
  refine outline_batchPass Reverting.stable (keeps_reverting rfl) (fun _ inside => inside) fun _ => ?_
  refine @outline_fillBatch _ _ _ (setup.bucket .eligible) (fun _ => Reverting setup reverts.reverting) _
    (fun rob eligible slots _ => ?_) (fun _ _ inside => inside) _ (fun rob member => (List.mem_insertionSort _).mp member) _ _
  exact { held := keeps_reverting rfl, pushes := keeps_update eligible, marks := marks_reverting rob.name }

theorem mergeField_current [DecidableEq α] (new stored : α) : mergeField stored new stored = new := by
  unfold mergeField
  split
  next same =>
    exact same.symm
  · rfl

theorem takes_write (stand : revertsStand setup.read.value.status setup.listing = true)
    (same : setup.rollout.value.status.rolledBackRobots = setup.read.value.status.rolledBackRobots) (now : Nat) :
    Takes aroundReverts (Reverting setup reverts.reverting)
      (.patchStatus setup.rollout.value.status (newStatus setup reverts filled now)) fun _ _ => True := by
  rintro ⟨_, world⟩ _ _ recorded inside ⟨given, _, _, _, performed, rfl⟩
  cases given <;> simp only [perform, reduceCtorEq] at performed
  cases performed
  have written : (world.patchStatus setup.rollout.value.status (newStatus setup reverts filled now)).rollout.value.status.rolledBackRobots =
      sortNames (names (setup.bucket .rolledBack) ++ names reverts.reverting) := by
    change mergeField setup.rollout.value.status.rolledBackRobots _ world.rollout.value.status.rolledBackRobots = _
    rw [same, inside.stored, mergeField_current]
    rfl
  refine ⟨⟨fun robot rolled => ?_, ⟨fun _ _ _ pushed => (nomatch pushed), recorded.alone⟩⟩, trivial⟩
  rw [written, sortNames, List.mem_insertionSort, List.mem_append]
  rcases rolled with acked | earlier
  · exact .inr (inside.acked robot acked)
  have listed := recorded.listed robot earlier
  rw [inside.stored] at listed
  rcases listed_of_revertsStand stand listed with landed | outstanding
  · exact .inl landed
  · obtain ⟨rob, member, rfl⟩ := List.mem_map.mp outstanding
    exact .inr (List.mem_map_of_mem (inside.known rob member))

theorem outline_reconcileRobots (stand : revertsStand setup.read.value.status setup.listing = true)
    (same : setup.rollout.value.status.rolledBackRobots = setup.read.value.status.rolledBackRobots) :
    aroundReverts.Outline (Reverting setup (setup.bucket .reverting)) (reconcileRobots setup) fun _ _ => True := by
  refine outline_rollbackPass.bind fun reverts => outline_batch.bind fun result => ?_
  cases result with
  | none => exact .done
  | some =>
    refine (outline_projectGrants Reverting.stable (fun _ _ => keeps_reverting rfl) _).bind fun _ => ?_
    exact outline_writeStatus Reverting.stable (keeps_reverting rfl) (keeps_reverting rfl) (takes_write stand same)

structure Unpushed (read : Versioned Rollout) (s : Seen) : Prop where
  stored : s.world.rollout.value.status.rolledBackRobots = read.value.status.rolledBackRobots
  nothing : ∀ robot, rollbackAcked robot s.history = false

variable {read : Versioned Rollout}

theorem Unpushed.stable : aroundReverts.Stable (Unpushed read) := by
  rintro before _ _ ⟨move, rfl⟩ unpushed
  exact ⟨(act_rolledBackRobots before.world move).trans unpushed.stored, unpushed.nothing⟩

theorem keeps_unpushed (silent : op.silent = true) : Keeps aroundReverts (Unpushed read) op := by
  rintro _ _ _ recorded unpushed ⟨_, _, _, _, performed, rfl⟩
  obtain ⟨quiet, same⟩ := perform_silent silent performed
  have kept := congrArg Status.rolledBackRobots same
  refine ⟨recorded.silent quiet kept, kept.trans unpushed.stored, fun robot => ?_⟩
  rw [(rolledBack_silent quiet).2]
  exact unpushed.nothing robot

theorem takes_markProcessed (request : String) :
    Takes aroundReverts (Unpushed read) (.markProcessed request) fun stored s =>
      Unpushed read s ∧ stored.value.status.rolledBackRobots = read.value.status.rolledBackRobots := by
  rintro before reply after recorded unpushed replied
  obtain ⟨recorded', unpushed'⟩ := keeps_unpushed rfl before reply after recorded unpushed replied
  obtain ⟨given, _, _, _, performed, rfl⟩ := replied
  cases given <;> simp only [perform, reduceCtorEq] at performed
  cases performed
  exact ⟨recorded', unpushed', unpushed.stored⟩

theorem keeps_patchResume (status : Status) :
    Keeps aroundReverts (Unpushed read) (.patchResume status (resumedStatus status)) := by
  rintro ⟨_, world⟩ _ _ recorded unpushed ⟨given, _, _, _, performed, rfl⟩
  cases given <;> simp only [perform, reduceCtorEq] at performed
  cases performed
  have resumed : (resumedStatus status).rolledBackRobots = status.rolledBackRobots := by
    unfold resumedStatus
    split <;> rfl
  have kept : (world.patchStatus status (resumedStatus status)).rollout.value.status.rolledBackRobots =
      world.rollout.value.status.rolledBackRobots := if_pos resumed
  exact ⟨recorded.silent (List.forall_mem_singleton.mpr rfl) kept, kept.trans unpushed.stored, unpushed.nothing⟩

theorem outline_applyResume : aroundReverts.Outline (Unpushed read) (applyResume read) fun result s =>
    ∀ rollout, result = some rollout → Unpushed read s ∧
      rollout.value.status.rolledBackRobots = read.value.status.rolledBackRobots := by
  have processed : ∀ request, aroundReverts.Outline (Unpushed read) (call (.markProcessed request)) fun stored s =>
      Unpushed read s ∧ stored.value.status.rolledBackRobots = read.value.status.rolledBackRobots := fun request =>
    .perform (fun _ => Unpushed.stable.and (.const _)) (takes_markProcessed request)
  unfold applyResume
  split
  · refine .pure fun s _ unpushed rollout same => ?_
    cases same
    exact ⟨unpushed, rfl⟩
  rename_i request _
  dsimp only
  split
  · refine (processed request).bind fun stored => .pure fun s _ holds rollout same => ?_
    cases same
    exact holds
  · refine ((keeps_patchResume _).outline Unpushed.stable).bind fun _ => ?_
    exact (processed request).bind fun _ => .pure fun _ _ _ _ absent => (nomatch absent)

theorem outline_reconcile (pusher : Bool) :
    aroundReverts.Outline (fun s => ∀ robot, rollbackAcked robot s.history = false) (reconcile pusher) fun _ _ => True := by
  have opened : aroundReverts.Outline (fun s => ∀ robot, rollbackAcked robot s.history = false) (call .getRollout)
      fun read => Unpushed read := by
    refine .perform (fun _ => Unpushed.stable) ?_
    rintro ⟨_, world⟩ reply _ recorded nothing ⟨given, _, _, allowed, performed, rfl⟩
    cases given <;> simp only [perform, reduceCtorEq] at performed
    cases performed
    have current : reply = world.rollout := of_decide_eq_true allowed
    exact ⟨recorded, congrArg (fun copy => copy.value.status.rolledBackRobots) current.symm, nothing⟩
  refine opened.bind fun read => ?_
  split
  · exact .done
  have listed : aroundReverts.Outline (Unpushed read) (call (.listRobots read)) fun listing s =>
      Unpushed read s ∧ revertsStand read.value.status listing = true := by
    refine .perform (fun _ => Unpushed.stable.and (.const _)) ?_
    rintro _ _ _ recorded unpushed ⟨given, _, _, allowed, performed, rfl⟩
    cases given <;> simp only [perform, reduceCtorEq] at performed
    cases performed
    exact ⟨recorded, unpushed, allowed⟩
  refine listed.bind fun listing => .known fun stand => ?_
  refine (Keeps.outline (keeps_unpushed rfl) Unpushed.stable).bind fun holds => ?_
  refine outline_applyResume.bind fun result => ?_
  cases result with
  | none => exact .done
  | some rollout =>
    refine (Surroundings.Outline.known fun same => ?_).strengthen fun s _ holds => holds rollout rfl
    refine (@outline_reconcileRobots ⟨pusher, read, rollout, listing, holds⟩ stand same).strengthen fun s _ unpushed => ?_
    refine ⟨unpushed.stored, fun robot acked => ?_, fun _ member => member⟩
    rw [unpushed.nothing robot] at acked
    contradiction

theorem rolled_back_robot_is_left_alone {pusher : Bool} {start world : World} {pass : Pass Unit} {history : List Event}
    {robot : String} {update : ModelUpdate} {acknowledged : Bool}
    (run : (controller pusher).Reaches KeepsReverts { world := start }
      (.pushed robot update acknowledged :: history) ⟨world, pass⟩) :
    ¬ RolledBack robot history := by
  have recorded : Recorded ⟨.pushed robot update acknowledged :: history, world⟩ := by
    refine reaches_invariant (fun _ world move recorded => ?_) (fun history world recorded => ⟨?_, fun _ => rfl⟩) ?_
      (outline_reconcile pusher) ⟨fun _ never => never.elim, trivial⟩ run
    · exact @Recorded.silent _ [] _ _ recorded nofun (act_rolledBackRobots world move)
    · exact ⟨recorded.listed, ⟨fun _ _ _ pushed => (nomatch pushed), recorded.alone⟩⟩
    · rintro _ _ _ ⟨_, rfl⟩ nothing
      exact nothing
  exact recorded.alone.1 robot update acknowledged rfl

def bothFail : List Turn :=
  [.steps 11, .act (.report "arm" (failure "health check")), .steps 15,
    .act (.report "arm" { status := .active, runningVersion := "1.0.0" }),
    .act (.report "cart" (failure "health check")), .steps 6]

/-- The rollback of the cart is pushed after the arm was rolled back, and the arm is left alone. -/
theorem rolled_back_robot_is_left_alone_pair : ∃ world pass update history,
    (controller true).Reaches KeepsReverts { world := upgrade false pair } (.pushed "cart" update true :: history)
      ⟨world, pass⟩ ∧ RolledBack "arm" history ∧ ¬ RolledBack "cart" history := by
  have ran : ((controller true).run ({ world := upgrade false pair }, [])
      (System.turns true bothFail { world := upgrade false pair })).map
        (fun config => (config.2.head?, decide (RolledBack "arm" config.2.tail))) =
      some (some (.pushed "cart" (rollbackPayload (upgrade false pair).rollout.value.spec "1.0.0") true), true) := by
    decide +kernel
  have permitted : (controller true).Permitted KeepsReverts ({ world := upgrade false pair }, [])
      (System.turns true bothFail { world := upgrade false pair }) := by decide +kernel
  obtain ⟨⟨world, pass⟩, _, reached, read⟩ := Machine.run_reaches_reading permitted ran
  obtain ⟨newest, earlier⟩ := Prod.mk.inj read
  obtain ⟨older, rfl⟩ := List.head?_eq_some_iff.mp newest
  exact ⟨world, pass, _, older, reached, of_decide_eq_true earlier, rolled_back_robot_is_left_alone reached⟩

def single : Fleet := ⟨["arm"], by decide⟩

def revertFails : List Turn :=
  [.steps 11, .act (.report "arm" (failure "health check")), .steps 11,
    .act (.report "arm" (failure "retained model would not reactivate")), .steps 6, .steps 6]

/-- Every read is current: the pass that finds the revert failed drops the arm from the list, and the
next one pushes the rollback again. -/
theorem failed_revert_is_pushed_again : ∃ world pass update history,
    (controller true).Reaches Current { world := upgrade true single } (.pushed "arm" update true :: history)
      ⟨world, pass⟩ ∧ RolledBack "arm" history := by
  have ran : ((controller true).run ({ world := upgrade true single }, [])
      (System.turns true revertFails { world := upgrade true single })).map
        (fun config => (config.2.head?, decide (RolledBack "arm" config.2.tail))) =
      some (some (.pushed "arm" (rollbackPayload (upgrade true single).rollout.value.spec "1.0.0") true), true) := by
    decide +kernel
  have permitted : (controller true).Permitted Current ({ world := upgrade true single }, [])
      (System.turns true revertFails { world := upgrade true single }) := by decide +kernel
  obtain ⟨⟨world, pass⟩, _, reached, read⟩ := Machine.run_reaches_reading permitted ran
  obtain ⟨newest, earlier⟩ := Prod.mk.inj read
  obtain ⟨older, rfl⟩ := List.head?_eq_some_iff.mp newest
  exact ⟨world, pass, _, older, reached, of_decide_eq_true earlier⟩

end Swarmada.ModelRollout
