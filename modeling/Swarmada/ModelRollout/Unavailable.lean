import Swarmada.ModelRollout.Outlines

namespace Swarmada.ModelRollout

open Transition

def World.limit (w : World) : Int :=
  maxUnavailable w.rollout.value.spec.strategy.maxUnavailable w.fleet.names.length

variable (rollout : Rollout)

def placed (rob : Robot) : Bucket := bucketOf rollout.status rollout (fun _ => "") rob

def dueForRevert (rob : Robot) : Bool :=
  rollout.spec.rollbackPolicy = .auto ∧ placed rollout rob = .failed ∧
    versionOf rollout.status.rollbackVersions rob.name ≠ ""

def halting (rob : Robot) : Bool :=
  placed rollout rob = .failed ∨ placed rollout rob = .revertFailed ∨
    (placed rollout rob = .rolledBack ∨ placed rollout rob = .reverting) ∧ rob.name ∉ rollout.status.excludedRobots

/-- No robot enters the batch: an operator holds the rollout, or an error halts it. -/
def halted (robots : List Robot) : Bool :=
  rollout.spec.desiredState = .paused ∧ pendingResume rollout = none ∨
    rollout.spec.strategy.pausesOnError ∧ ∃ rob ∈ robots, halting rollout rob

/-- The reverts a pass makes fit, and a pass that lets robots enter makes none and counts every robot
that is out of service. -/
def fits (w : World) (rollout : Rollout) (robots : List Robot) : Bool :=
  (robots.filter (dueForRevert rollout) = [] ∨
      (w.unavailable.length : Int) + (robots.filter (dueForRevert rollout)).length ≤ w.limit) ∧
    (halted rollout robots ∨
      robots.filter (dueForRevert rollout) = [] ∧
        ∀ rob ∈ robots, w.outOfService rob.name → placed rollout rob = .updating)

def fitsReverts (w : World) (op : Op) (given : Answer) : Bool :=
  w.reads op given &&
    match op, given with
    | .listRobots read, .listing robots => fits w read.value robots
    | _, _ => true

/-- No stale reads, and each pass has room for what it reverts. -/
def FitsReverts (_ : List Event) (s : System) (label : Label) : Prop := s.answers fitsReverts label = true

instance (history : List Event) (s : System) (label : Label) : Decidable (FitsReverts history s label) :=
  inferInstanceAs (Decidable (_ = true))

theorem length_filter_mono {xs : List α} (implies : ∀ x ∈ xs, p x = true → q x = true) :
    (xs.filter p).length ≤ (xs.filter q).length := by
  rw [← List.countP_eq_length_filter, ← List.countP_eq_length_filter]
  exact List.countP_mono_left implies

theorem length_filter_insert {xs : List String} (distinct : xs.Nodup) (p : String → Bool) (name : String) :
    (xs.filter fun other => other == name || p other).length ≤ (xs.filter p).length + 1 := by
  induction xs with
  | nil => exact Nat.zero_le _
  | cons head rest ih =>
    obtain ⟨fresh, distinct⟩ := List.nodup_cons.mp distinct
    by_cases same : head = name
    · subst same
      have unchanged : (rest.filter fun other => other == head || p other) = rest.filter p :=
        List.filter_congr fun other member => by
          have differs : other ≠ head := fun equal => fresh (equal ▸ member)
          simp [differs]
      have grown : (rest.filter p).length ≤ ((head :: rest).filter p).length :=
        ((List.sublist_cons_self head rest).filter p).length_le
      rw [List.filter_cons_of_pos (by simp), unchanged, List.length_cons]
      omega
    · have counted := ih distinct
      have test : (head == name || p head) = p head := by simp [same]
      simp only [List.filter_cons, test]
      split
      · simpa using counted
      · exact counted

structure SameService (before after : World) : Prop where
  fleet : after.fleet = before.fleet
  strategy : after.rollout.value.spec.strategy = before.rollout.value.spec.strategy
  marked : after.marked = before.marked
  models : ∀ name, (after.robots name).value = (before.robots name).value

/-- At most `limit` robots are out of service; a robot that is marked is Updating. -/
structure Bounded (limit : Int) (w : World) : Prop where
  resolved : w.limit = limit
  bound : (w.unavailable.length : Int) ≤ limit
  updating : ∀ name, w.marked name = true → ((w.robots name).value.any fun entry => entry.status == .updating) = true

def Room (limit places : Int) (w : World) : Prop := (w.unavailable.length : Int) + places ≤ limit

variable {w after : World} {limit places : Int}

theorem SameService.unavailable (same : SameService w after) : after.unavailable = w.unavailable := by
  unfold World.unavailable
  rw [same.fleet]
  refine List.filter_congr fun name _ => ?_
  unfold World.outOfService
  rw [same.marked, same.models]

theorem SameService.bounded (same : SameService w after) (bounded : Bounded limit w) : Bounded limit after where
  resolved := by
    unfold World.limit
    rw [same.fleet, same.strategy]
    exact bounded.resolved
  bound := by
    rw [same.unavailable]
    exact bounded.bound
  updating := fun name marked => by
    rw [same.models]
    rw [same.marked] at marked
    exact bounded.updating name marked

theorem SameService.touch (w : World) (name : String) : SameService w (w.touch name) where
  fleet := rfl
  strategy := rfl
  marked := rfl
  models := fun other => by
    unfold World.touch
    by_cases same : other = name
    · subst same
      simp [Versioned.write]
    · simp [same]

def Op.unmarked : Op → Bool
  | .patchRobot _ _ => false
  | _ => true

theorem perform_sameService
    (unmarked : op.unmarked = true) (performed : perform w op given = some (after, reply, events)) :
    SameService w after := by
  cases op with
  | patchRobot => contradiction
  | patchGrant robot =>
    cases given <;> simp only [perform, reduceCtorEq] at performed
    cases performed
    exact .touch w robot
  | _ =>
    cases given <;> simp only [perform, reduceCtorEq] at performed <;> cases performed <;>
      exact ⟨rfl, rfl, rfl, fun _ => rfl⟩

theorem report_outOfService (bounded : Bounded limit w) (name : String) (entry : ModelEntry)
    (out : (w.report name entry).outOfService other = true) : w.outOfService other = true := by
  unfold World.report World.outOfService at out
  by_cases same : other = name
  · subst same
    simp only [Function.update_self, Bool.and_eq_true] at out
    have marked := out.1.1
    exact Bool.and_eq_true _ _ ▸ ⟨marked, bounded.updating _ marked⟩
  · simpa [same, World.outOfService] using out

theorem act_unavailable (bounded : Bounded limit w) (move : Act) :
    (move.step w).unavailable.length ≤ w.unavailable.length := by
  cases move with
  | report name entry => exact length_filter_mono fun other _ => report_outOfService bounded name entry
  | touch name => exact Nat.le_of_eq (congrArg List.length (SameService.touch w name).unavailable)
  | resume | desire | progress => exact Nat.le_refl _

theorem Bounded.act (bounded : Bounded limit w) (move : Act) : Bounded limit (move.step w) where
  resolved := by
    cases move with
    | report | touch | resume | desire | progress => exact bounded.resolved
  bound := by
    have fewer := act_unavailable bounded move
    have before := bounded.bound
    omega
  updating := by
    cases move with
    | report name =>
      intro other marked
      simp only [Act.step, World.report] at marked ⊢
      by_cases same : other = name
      · subst same
        simp only [Function.update_self, Bool.and_eq_true] at marked
        simpa [Versioned.write] using marked.2
      · simp only [Function.update_of_ne same] at marked ⊢
        exact bounded.updating other marked
    | touch name => exact ((SameService.touch w name).bounded bounded).updating
    | resume | desire | progress => exact bounded.updating

theorem mark_unavailable (w : World) (name : String) (read : Option ModelEntry) :
    (w.mark name read).unavailable.length ≤ w.unavailable.length + 1 := by
  refine Nat.le_trans (length_filter_mono fun other _ out => ?_) (length_filter_insert w.fleet.distinct w.outOfService name)
  by_cases same : other = name
  · simp [same]
  · simpa [World.mark, World.outOfService, same] using out

theorem Bounded.mark (bounded : Bounded limit w) (room : Room limit places w) (left : 1 ≤ places) (name : String)
    (read : Option ModelEntry) : Bounded limit (w.mark name read) ∧ Room limit (places - 1) (w.mark name read) := by
  unfold Room at room ⊢
  have one := mark_unavailable w name read
  refine ⟨⟨bounded.resolved, by omega, fun other marked => ?_⟩, by omega⟩
  by_cases equal : other = name
  · subst equal
    cases read <;> simp [World.mark, Versioned.write, markUpdating]
  · simp only [World.mark, Function.update_of_ne equal] at marked ⊢
    exact bounded.updating other marked

abbrev aroundUnavailable (limit : Int) : Surroundings Op Op.Reply Seen :=
  surroundings (fun s => Bounded limit s.world) fitsReverts

def Inside (limit places : Int) (known : Prop) (s : Seen) : Prop := Room limit places s.world ∧ known

variable {known learned : Prop} {setup : Setup} {rob : Robot} {reverts : Reverts}

theorem Inside.stable : (aroundUnavailable limit).Stable (Inside limit places known) := by
  rintro _ _ bounded ⟨move, rfl⟩ ⟨room, holds⟩
  have fewer := act_unavailable bounded move
  unfold Room at room
  exact ⟨by unfold Room; dsimp only; omega, holds⟩

theorem Inside.weaken (inside : Inside limit places known s) (le : fewer ≤ places)
    (learn : known → learned) : Inside limit fewer learned s := by
  obtain ⟨room, holds⟩ := inside
  unfold Room at room
  exact ⟨by unfold Room; omega, learn holds⟩

theorem keeps_inside (unmarked : op.unmarked = true) :
    Keeps (aroundUnavailable limit) (Inside limit places known) op := by
  rintro _ _ _ bounded ⟨room, holds⟩ ⟨_, _, _, _, performed, rfl⟩
  have same := perform_sameService unmarked performed
  refine ⟨same.bounded bounded, ?_, holds⟩
  unfold Room at room ⊢
  rw [same.unavailable]
  exact room

theorem keeps_bound (unmarked : op.unmarked = true) : Keeps (aroundUnavailable limit) (fun _ => True) op := by
  rintro _ _ _ bounded _ ⟨_, _, _, _, performed, rfl⟩
  exact ⟨(perform_sameService unmarked performed).bounded bounded, trivial⟩

theorem marks_inside (left : 1 ≤ places) (learn : known → learned) (robot : String) :
    Marks (aroundUnavailable limit) robot (Inside limit places known) (Inside limit (places - 1) learned) where
  stable := Inside.stable
  stableAfter := Inside.stable
  weaker := fun _ inside => inside.weaken (by omega) learn
  reads := keeps_inside rfl
  marks := by
    rintro read _ _ _ bounded ⟨room, holds⟩ ⟨given, _, _, _, performed, rfl⟩
    cases given <;> simp only [perform, reduceCtorEq] at performed
    split at performed
    · cases performed
      obtain ⟨bounded', room'⟩ := bounded.mark room left robot read.value
      exact ⟨bounded', room', learn holds⟩
    · cases performed
      exact ⟨bounded, room, holds⟩

def granted (limit : Int) (rollout : Rollout) (robots : List Robot) : Int :=
  if halted rollout robots then ((robots.filter (dueForRevert rollout)).length : Nat)
  else limit - (robots.filter fun rob => placed rollout rob = .updating).length

/-- What is left of the failed robots is still failed or reverting. -/
structure Kept (setup : Setup) (rest : List Robot) (reverts : Reverts) : Prop where
  failed : ∀ rob ∈ setup.bucket .failed, rob ∈ rest ∨ rob ∈ reverts.stillFailed ∨ rob ∈ reverts.reverting
  reverting : ∀ rob ∈ setup.bucket .reverting, rob ∈ reverts.reverting

theorem Kept.keep (kept : Kept setup (rob :: rest) reverts) : Kept setup rest (reverts.keep rob) where
  failed := fun other member => by
    rcases kept.failed other member with here | still | reverted
    · rcases List.mem_cons.mp here with rfl | later
      · exact .inr (.inl (List.mem_append_right _ List.mem_cons_self))
      · exact .inl later
    · exact .inr (.inl (List.mem_append_left _ still))
    · exact .inr (.inr reverted)
  reverting := kept.reverting

theorem Kept.revert (kept : Kept setup (rob :: rest) reverts) :
    Kept setup rest (reverts.revert rob) where
  failed := fun other member => by
    rcases kept.failed other member with here | still | reverted
    · rcases List.mem_cons.mp here with rfl | later
      · exact .inr (.inr (List.mem_append_right _ List.mem_cons_self))
      · exact .inl later
    · exact .inr (.inl still)
    · exact .inr (.inr (List.mem_append_left _ reverted))
  reverting := fun other member => List.mem_append_left _ (kept.reverting other member)

def dueCount (setup : Setup) (rest : List Robot) : Int :=
  ((rest.filter fun rob => setup.revertTarget rob.name ≠ "").length : Nat)

theorem dueCount_cons_le (setup : Setup) (rob : Robot) (rest : List Robot) :
    dueCount setup rest ≤ dueCount setup (rob :: rest) := by
  unfold dueCount
  exact_mod_cast ((List.sublist_cons_self rob rest).filter _).length_le

theorem dueCount_cons (target : setup.revertTarget rob.name ≠ "") (rest : List Robot) :
    dueCount setup (rob :: rest) = dueCount setup rest + 1 := by
  unfold dueCount
  rw [List.filter_cons_of_pos (by simpa using target), List.length_cons]
  push_cast
  rfl

theorem rollsBackAll {extra : Int} (enough : ∀ rob ∈ setup.bucket .failed, setup.revertTarget rob.name ≠ "" → 0 ≤ extra) :
    RollsBackAll (aroundUnavailable limit) setup (setup.bucket .failed) fun rest reverts =>
      Inside limit (dueCount setup rest + extra) (Kept setup rest reverts) where
  stable := fun _ _ => Inside.stable
  held := fun _ _ _ => keeps_inside rfl
  skips := fun rob rest _ _ inside => inside.weaken (by have := dueCount_cons_le setup rob rest; omega) Kept.keep
  reverts := fun rob failed target rest reverts => by
    have counted := dueCount_cons target rest
    have due : 0 ≤ dueCount setup rest := Int.natCast_nonneg _
    have spare := enough rob failed target
    refine ⟨Inside limit (dueCount setup (rob :: rest) + extra) (Kept setup (rob :: rest) reverts), ?_⟩
    refine
      { pushes := ?_
        unpushed := fun _ _ inside => inside
        stableRefused := Inside.stable
        marks := ?_ }
    · intro before reply after bounded inside replied
      obtain ⟨bounded', inside'⟩ := keeps_inside rfl before reply after bounded inside replied
      refine ⟨bounded', ?_⟩
      dsimp only
      split
      · exact inside'
      · exact inside'.weaken (by omega) Kept.keep
    · have taken := @marks_inside limit (dueCount setup (rob :: rest) + extra) _ (Kept setup rest (reverts.revert rob))
        (by omega) Kept.revert rob.name
      have places : dueCount setup (rob :: rest) + extra - 1 = dueCount setup rest + extra := by omega
      rw [places] at taken
      exact taken

theorem kept_start (setup : Setup) :
    Kept setup (sortRobots (setup.bucket .failed)) { reverting := setup.bucket .reverting } where
  failed := fun _ member => .inl ((List.mem_insertionSort _).mpr member)
  reverting := fun _ member => member

theorem room_rollbackPass
    (enough : setup.spec.rollbackPolicy = .auto → ∀ rob ∈ setup.bucket .failed, setup.revertTarget rob.name ≠ "" → 0 ≤ extra)
    (fit : setup.spec.rollbackPolicy = .auto → dueCount setup (sortRobots (setup.bucket .failed)) + extra ≤ places)
    (spare : extra ≤ places) :
    (aroundUnavailable limit).Outline (Inside limit places True) (rollbackPass setup) fun reverts =>
      Inside limit extra (Kept setup [] reverts) := by
  unfold rollbackPass
  split
  next auto =>
    have all := (@rollsBackAll limit setup extra (enough auto)).outline (sortRobots (setup.bucket .failed))
      (fun rob member => (List.mem_insertionSort _).mp member) { reverting := setup.bucket .reverting }
    refine (all.weaken fun reverts s inside => ?_).strengthen fun s _ inside =>
      inside.weaken (fit auto) fun _ => kept_start setup
    exact inside.weaken (by simp [dueCount]) id
  · refine .pure fun s _ inside => inside.weaken spare fun _ => ?_
    exact ⟨fun _ member => .inr (.inl member), fun _ member => member⟩

structure Agrees (read rollout : Rollout) : Prop where
  newVersion : rollout.spec.newVersion = read.spec.newVersion
  policy : rollout.spec.rollbackPolicy = read.spec.rollbackPolicy
  strategy : rollout.spec.strategy = read.spec.strategy
  failedRobots : rollout.status.failedRobots = read.status.failedRobots
  excludedRobots : rollout.status.excludedRobots = read.status.excludedRobots

theorem bucketOf_placed {read rollout : Rollout} (agrees : Agrees read rollout) (holds : String → String) (rob : Robot)
    (settled : bucket ≠ .eligible ∧ bucket ≠ .waiting) :
    bucketOf read.status rollout holds rob = bucket ↔ placed read rob = bucket := by
  unfold placed bucketOf
  rw [agrees.newVersion, agrees.failedRobots, agrees.excludedRobots]
  split
  · exact .rfl
  split
  · exact .rfl
  split
  any_goals exact .rfl
  split
  · exact .rfl
  · constructor <;> intro placed <;> split at placed <;> subst placed <;> exact absurd rfl (by first | exact settled.1 | exact settled.2)

theorem not_excluded_of_failed {rollout : Rollout} (failed : placed rollout rob = .failed) :
    rob.name ∉ rollout.status.excludedRobots := by
  intro excluded
  unfold placed bucketOf at failed
  split at failed <;> try contradiction
  dsimp only at failed
  split at failed <;> try contradiction
  split at failed <;> contradiction

structure Prepared (limit : Int) (setup : Setup) : Prop where
  agrees : Agrees setup.read.value setup.rollout.value
  same : pendingResume setup.read.value = none → setup.rollout = setup.read
  resolved : maxUnavailable setup.read.value.spec.strategy.maxUnavailable setup.listing.length = limit

variable (prepared : Prepared limit setup)

include prepared

theorem Prepared.mem_bucket {bucket : Bucket} (settled : bucket ≠ .eligible ∧ bucket ≠ .waiting) :
    rob ∈ setup.bucket bucket ↔ rob ∈ setup.listing ∧ placed setup.read.value rob = bucket := by
  unfold Setup.bucket
  rw [List.mem_filter, decide_eq_true_eq, bucketOf_placed prepared.agrees setup.holds rob settled]

theorem Prepared.paused_of_halting (kept : Kept setup [] reverts) (listed : rob ∈ setup.listing)
    (halts : halting setup.read.value rob = true) :
    failedAfter setup reverts ≠ [] ∨ unackedReverts setup reverts ≠ [] := by
  have failed : ∀ rob, rob ∈ reverts.stillFailed ++ setup.bucket .revertFailed → failedAfter setup reverts ≠ [] :=
    fun rob member => List.ne_nil_of_mem ((List.mem_insertionSort _).mpr member)
  have unacked : rob ∈ setup.bucket .rolledBack ++ reverts.reverting →
      rob.name ∉ setup.read.value.status.excludedRobots → unackedReverts setup reverts ≠ [] := fun member free => by
    refine List.ne_nil_of_mem (List.mem_filter.mpr ⟨member, ?_⟩)
    simpa [Setup.acknowledgedRevert, prepared.agrees.excludedRobots] using free
  rcases of_decide_eq_true halts with found | found | ⟨found | found, free⟩
  · have member := (prepared.mem_bucket (by decide)).mpr ⟨listed, found⟩
    rcases kept.failed rob member with _ | still | reverted
    · contradiction
    · exact .inl (failed rob (List.mem_append_left _ still))
    · exact .inr (unacked (List.mem_append_right _ reverted) (not_excluded_of_failed found))
  · exact .inl (failed rob (List.mem_append_right _ ((prepared.mem_bucket (by decide)).mpr ⟨listed, found⟩)))
  · exact .inr (unacked (List.mem_append_left _ ((prepared.mem_bucket (by decide)).mpr ⟨listed, found⟩)) free)
  · have member := (prepared.mem_bucket (by decide)).mpr ⟨listed, found⟩
    exact .inr (unacked (List.mem_append_right _ (kept.reverting rob member)) free)

theorem Prepared.paused_of_halted (kept : Kept setup [] reverts)
    (halted : halted setup.read.value setup.listing = true) : (filledBefore setup reverts).paused = true := by
  have strategy : setup.spec.strategy = setup.read.value.spec.strategy := prepared.agrees.strategy
  unfold filledBefore
  rw [Bool.or_eq_true]
  rcases of_decide_eq_true halted with ⟨operator, unresumed⟩ | ⟨pauses, _, listed, halts⟩
  · right
    unfold heldByOperator Setup.spec
    rw [prepared.same unresumed]
    exact decide_eq_true operator
  · left
    refine decide_eq_true ⟨prepared.paused_of_halting kept listed halts, ?_⟩
    rw [strategy]
    exact pauses

theorem Prepared.slotsOf : slotsOf setup = limit - (setup.bucket .updating).length := by
  have strategy : setup.spec.strategy = setup.read.value.spec.strategy := prepared.agrees.strategy
  unfold ModelRollout.slotsOf
  rw [strategy, prepared.resolved]

theorem Prepared.dueCount_le (auto : setup.spec.rollbackPolicy = .auto) :
    dueCount setup (sortRobots (setup.bucket .failed)) ≤
      ((setup.listing.filter (dueForRevert setup.read.value)).length : Nat) := by
  have policy : setup.read.value.spec.rollbackPolicy = .auto := prepared.agrees.policy ▸ auto
  unfold dueCount sortRobots
  rw [((List.perm_insertionSort _ _).filter _).length_eq, Setup.bucket, List.filter_filter]
  refine Int.ofNat_le.mpr (length_filter_mono fun rob _ found => ?_)
  simp only [Bool.and_eq_true, decide_eq_true_eq, ne_eq] at found
  obtain ⟨target, failed⟩ := found
  refine decide_eq_true ⟨policy, (bucketOf_placed prepared.agrees _ rob (by decide)).mp failed, fun absent => target ?_⟩
  unfold Setup.revertTarget
  split
  · rfl
  · exact absent

theorem Prepared.due_of_target (auto : setup.spec.rollbackPolicy = .auto) (failed : rob ∈ setup.bucket .failed)
    (target : setup.revertTarget rob.name ≠ "") : setup.listing.filter (dueForRevert setup.read.value) ≠ [] := by
  have counted := prepared.dueCount_le auto
  have present : rob ∈ (sortRobots (setup.bucket .failed)).filter fun rob => setup.revertTarget rob.name ≠ "" :=
    List.mem_filter.mpr ⟨(List.mem_insertionSort _).mpr failed, decide_eq_true target⟩
  have some_ := List.length_pos_of_mem present
  intro none_
  unfold dueCount at counted
  rw [none_] at counted
  simp only [List.length_nil] at counted
  omega

theorem Prepared.room_reconcileRobots {extra : Int}
    (enough : setup.spec.rollbackPolicy = .auto → ∀ rob ∈ setup.bucket .failed, setup.revertTarget rob.name ≠ "" → 0 ≤ extra)
    (fit : setup.spec.rollbackPolicy = .auto → dueCount setup (sortRobots (setup.bucket .failed)) + extra ≤ places)
    (spare : extra ≤ places)
    (free : halted setup.read.value setup.listing = true ∨ extra = ModelRollout.slotsOf setup) :
    (aroundUnavailable limit).Outline (Inside limit places True) (reconcileRobots setup) fun _ _ => True := by
  refine (room_rollbackPass enough fit spare).bind fun reverts => ?_
  have filled : (aroundUnavailable limit).Outline (fun s => Inside limit extra True s ∧ Kept setup [] reverts)
      (batchPass setup reverts) fun _ _ => True := by
    refine .known fun kept => ?_
    refine outline_batchPass Inside.stable (keeps_inside rfl) (fun _ _ => trivial) fun running => ?_
    rcases free with halts | rfl
    · rw [prepared.paused_of_halted kept halts] at running
      contradiction
    refine @outline_fillBatch _ _ _ (setup.bucket .eligible) (fun slots => Inside limit slots True) _
      (fun rob eligible slots open_ => ?_) (fun _ _ _ => trivial) _
      (fun rob member => (List.mem_insertionSort _).mp member) _ _
    exact { held := keeps_inside rfl, pushes := keeps_inside rfl, marks := marks_inside (by omega) id rob.name }
  refine (filled.strengthen fun s _ inside => ⟨inside.weaken (Int.le_refl _) fun _ => trivial, inside.2⟩).bind fun result => ?_
  cases result with
  | none => exact .done
  | some =>
    refine (outline_projectGrants (.const True) (fun _ _ => keeps_bound rfl) _).bind fun _ => ?_
    exact outline_writeStatus (.const True) (keeps_bound rfl) (keeps_bound rfl) fun _ => keeps_bound rfl

theorem Prepared.room_granted
    (entering : halted setup.read.value setup.listing = true ∨ setup.listing.filter (dueForRevert setup.read.value) = []) :
    (aroundUnavailable limit).Outline (Inside limit (granted limit setup.read.value setup.listing) True)
      (reconcileRobots setup) fun _ _ => True := by
  have updating : (setup.bucket .updating).length =
      (setup.listing.filter fun rob => placed setup.read.value rob = .updating).length := by
    refine congrArg List.length (List.filter_congr fun rob _ => decide_eq_decide.mpr ?_)
    exact bucketOf_placed prepared.agrees setup.holds rob (by decide)
  unfold granted
  split
  next halts =>
    exact @Prepared.room_reconcileRobots limit _ setup prepared 0 (fun _ _ _ _ => Int.le_refl _)
      (fun auto => by rw [Int.add_zero]; exact prepared.dueCount_le auto) (Int.natCast_nonneg _) (.inl halts)
  rename_i running
  have none_ : setup.listing.filter (dueForRevert setup.read.value) = [] := entering.resolve_left running
  refine prepared.room_reconcileRobots (fun auto rob failed target => ?_) (fun auto => ?_) (Int.le_refl _) (.inr ?_)
  · exact absurd none_ (prepared.due_of_target auto failed target)
  · have counted := prepared.dueCount_le auto
    rw [none_, List.length_nil] at counted
    omega
  · rw [prepared.slotsOf, updating]

omit prepared

structure Reading (limit places : Int) (read : Versioned Rollout) (s : Seen) : Prop where
  room : Room limit places s.world
  agrees : Agrees read.value s.world.rollout.value

variable {read : Versioned Rollout} {robots : List Robot}

theorem Agrees.act (agrees : Agrees read.value w.rollout.value) (move : Act) :
    Agrees read.value (move.step w).rollout.value := by
  cases move with
  | report | touch | resume | desire | progress =>
    exact ⟨agrees.newVersion, agrees.policy, agrees.strategy, agrees.failedRobots, agrees.excludedRobots⟩

theorem Reading.stable : (aroundUnavailable limit).Stable (Reading limit places read) := by
  rintro _ _ bounded ⟨move, rfl⟩ reading
  have fewer := act_unavailable bounded move
  have room := reading.room
  unfold Room at room
  exact ⟨by unfold Room; dsimp only; omega, reading.agrees.act move⟩

theorem room_applyResume : (aroundUnavailable limit).Outline (Reading limit places read) (applyResume read)
    fun result s => ∀ rollout, result = some rollout → Inside limit places True s ∧
      (Agrees read.value rollout.value ∧ (pendingResume read.value = none → rollout = read)) := by
  unfold applyResume
  split
  · refine .pure fun s _ reading rollout same => ?_
    cases same
    exact ⟨⟨reading.room, trivial⟩, ⟨rfl, rfl, rfl, rfl, rfl⟩, fun _ => rfl⟩
  rename_i request pending
  dsimp only
  split
  · have processed : (aroundUnavailable limit).Outline (Reading limit places read) (call (.markProcessed request))
        fun stored s => Inside limit places True s ∧ Agrees read.value stored.value := by
      refine .perform (fun _ => Inside.stable.and (.const _)) ?_
      rintro before reply after bounded reading replied
      obtain ⟨bounded', inside⟩ := keeps_inside rfl before reply after bounded ⟨reading.room, trivial⟩ replied
      obtain ⟨given, _, _, _, performed, rfl⟩ := replied
      cases given <;> simp only [perform, reduceCtorEq] at performed
      cases performed
      exact ⟨bounded', inside, ⟨reading.agrees.newVersion, reading.agrees.policy, reading.agrees.strategy,
        reading.agrees.failedRobots, reading.agrees.excludedRobots⟩⟩
    refine processed.bind fun stored => .pure fun s _ holds rollout same => ?_
    cases same
    exact ⟨holds.1, holds.2, fun none_ => by rw [none_] at pending; contradiction⟩
  · have resumed : (aroundUnavailable limit).Outline (Reading limit places read)
        (call (.patchResume read.value.status (resumedStatus read.value.status))) fun _ _ => True :=
      .perform (fun _ => .const True) fun before reply after bounded _ replied =>
        keeps_bound rfl before reply after bounded trivial replied
    refine resumed.bind fun _ => ((keeps_bound rfl).outline (.const True)).bind fun _ => ?_
    exact .pure fun _ _ _ _ absent => (nomatch absent)

theorem unavailable_le_updating {rollout : Rollout} (listed : names robots = w.fleet.names)
    (counted : ∀ rob ∈ robots, w.outOfService rob.name = true → placed rollout rob = .updating) :
    w.unavailable.length ≤ (robots.filter fun rob => placed rollout rob = .updating).length := by
  unfold World.unavailable
  rw [← listed, names, List.filter_map, List.length_map]
  exact length_filter_mono fun rob member out => decide_eq_true (counted rob member out)

theorem room_granted (bounded : Bounded limit w) (listed : names robots = w.fleet.names)
    (fit : fits w read.value robots = true) : Room limit (granted limit read.value robots) w := by
  obtain ⟨reverts, entering⟩ := of_decide_eq_true fit
  have bound := bounded.bound
  unfold Room granted
  split
  · rcases reverts with none_ | enough
    · rw [none_]
      simpa using bound
    · rw [bounded.resolved] at enough
      exact enough
  next running =>
    rcases entering with halts | ⟨_, counted⟩
    · exact absurd halts running
    · have fewer := unavailable_le_updating listed counted
      omega

theorem room_reconcile (pusher : Bool) :
    (aroundUnavailable limit).Outline (fun _ => True) (reconcile pusher) fun _ _ => True := by
  have opened : (aroundUnavailable limit).Outline (fun _ => True) (call .getRollout) fun read => Reading limit 0 read := by
    refine .perform (fun _ => Reading.stable) ?_
    rintro before reply _ bounded _ ⟨given, _, _, allowed, performed, rfl⟩
    cases given <;> simp only [perform, reduceCtorEq] at performed
    cases performed
    have current : reply = before.world.rollout := of_decide_eq_true ((Bool.and_eq_true _ _ ▸ allowed).1)
    have bound := bounded.bound
    refine ⟨bounded, ⟨by unfold Room; dsimp only; omega, ?_⟩⟩
    rw [current]
    exact ⟨rfl, rfl, rfl, rfl, rfl⟩
  refine opened.bind fun read => ?_
  split
  · exact .done
  have listed : (aroundUnavailable limit).Outline (Reading limit 0 read) (call (.listRobots read)) fun listing s =>
      Reading limit (granted limit read.value listing) read s ∧
        (maxUnavailable read.value.spec.strategy.maxUnavailable listing.length = limit ∧
          (halted read.value listing = true ∨ listing.filter (dueForRevert read.value) = [])) := by
    refine .perform (fun _ => Reading.stable.and (.const _)) ?_
    rintro before reply _ bounded reading ⟨given, _, _, allowed, performed, rfl⟩
    cases given <;> simp only [perform, reduceCtorEq] at performed
    cases performed
    obtain ⟨reads, fit⟩ := Bool.and_eq_true _ _ ▸ allowed
    obtain ⟨listed, _⟩ := of_decide_eq_true reads
    refine ⟨bounded, ⟨room_granted bounded listed fit, reading.agrees⟩, ?_, ?_⟩
    · have size : reply.length = before.world.fleet.names.length := by
        rw [← listed, names, List.length_map]
      rw [size, ← reading.agrees.strategy]
      exact bounded.resolved
    · exact (of_decide_eq_true fit).2.imp id And.left
  refine listed.bind fun listing => .known fun ⟨resolved, entering⟩ => ?_
  have held : (aroundUnavailable limit).Outline (Reading limit (granted limit read.value listing) read) (call .readHolds)
      fun _ => Reading limit (granted limit read.value listing) read := by
    refine .perform (fun _ => Reading.stable) ?_
    rintro _ _ _ bounded reading ⟨given, _, _, _, performed, rfl⟩
    cases given <;> simp only [perform, reduceCtorEq] at performed
    cases performed
    exact ⟨bounded, reading⟩
  refine held.bind fun holds => room_applyResume.bind fun result => ?_
  cases result with
  | none => exact .done
  | some rollout =>
    refine (Surroundings.Outline.known fun same => ?_).strengthen fun s _ holds => holds rollout rfl
    have prepared : Prepared limit ⟨pusher, read, rollout, listing, holds⟩ := ⟨same.1, same.2, resolved⟩
    exact prepared.room_granted entering

theorem one_le_maxUnavailable (spec : String) (total : Nat) : 1 ≤ maxUnavailable spec total := by
  have raised : ∀ n : Int, 1 ≤ if n < 1 then 1 else n := fun n => by split <;> omega
  unfold maxUnavailable
  dsimp only
  generalize (if spec = "" then "10%".toList else spec.toList) = text
  split
  · cases atoi text.dropLast with
    | none => exact Int.le_refl _
    | some =>
      dsimp only
      split
      · exact Int.le_refl _
      · exact raised _
  · cases atoi text with
    | none => exact Int.le_refl _
    | some n => exact raised n

theorem unavailable_le_maxUnavailable {pusher : Bool} {fleet : Fleet} {models : String → Versioned (Option ModelEntry)}
    {rollout : Versioned Rollout} {history : List Event} {world : World} {pass : Pass Unit}
    (run : (controller pusher).Reaches FitsReverts { world := { fleet := fleet, robots := models, rollout := rollout } }
      history ⟨world, pass⟩) :
    (world.unavailable.length : Int) ≤ world.limit := by
  have none_ : ({ fleet := fleet, robots := models, rollout := rollout } : World).unavailable = [] :=
    List.filter_eq_nil_iff.mpr fun _ _ => Bool.false_ne_true
  have initially : Bounded (maxUnavailable rollout.value.spec.strategy.maxUnavailable fleet.names.length)
      { fleet := fleet, robots := models, rollout := rollout } := by
    refine ⟨rfl, ?_, fun _ marked => absurd marked Bool.false_ne_true⟩
    have least := one_le_maxUnavailable rollout.value.spec.strategy.maxUnavailable fleet.names.length
    rw [none_, List.length_nil]
    omega
  have bounded := reaches_invariant (fun _ _ move bounded => bounded.act move)
    (fun _ _ bounded => ⟨bounded, trivial⟩) (.const True) (room_reconcile pusher) initially run
  rw [bounded.resolved]
  exact bounded.bound

def armReverted : List Turn := [.steps 11, .act (.report "arm" (failure "health check")), .steps 11]

/-- The arm alone is out of service, for the update and then for its revert. -/
theorem unavailable_le_maxUnavailable_reverted : ∃ history world pass,
    (controller true).Reaches FitsReverts { world := upgrade true pair } history ⟨world, pass⟩ ∧
      history.count (.marked "arm") = 2 ∧ world.unavailable = ["arm"] ∧
      (world.unavailable.length : Int) ≤ world.limit := by
  have ran : ((controller true).run ({ world := upgrade true pair }, [])
      (System.turns true armReverted { world := upgrade true pair })).map
        (fun config => (config.2.count (.marked "arm"), config.1.world.unavailable)) = some (2, ["arm"]) := by
    decide +kernel
  have permitted : (controller true).Permitted FitsReverts ({ world := upgrade true pair }, [])
      (System.turns true armReverted { world := upgrade true pair }) := by decide +kernel
  obtain ⟨⟨world, pass⟩, history, reached, read⟩ := Machine.run_reaches_reading permitted ran
  obtain ⟨twice, out⟩ := Prod.mk.inj read
  exact ⟨history, world, pass, reached, twice, out, unavailable_le_maxUnavailable reached⟩

/-- Without `pauseOnError` the pass that reverts the arm gives its place to the cart. -/
def cartEnters : List Turn := [.steps 11, .act (.report "arm" (failure "health check")), .steps 15]

/-- Every read is current, one robot may be unavailable, and two are. -/
theorem reverting_robot_not_counted : ∃ history world pass,
    (controller true).Reaches Current { world := upgrade false pair } history ⟨world, pass⟩ ∧
      world.limit < world.unavailable.length := by
  have ran : ((controller true).run ({ world := upgrade false pair }, [])
      (System.turns true cartEnters { world := upgrade false pair })).map
        (fun config => (config.1.world.limit, config.1.world.unavailable)) = some (1, ["arm", "cart"]) := by
    decide +kernel
  have permitted : (controller true).Permitted Current ({ world := upgrade false pair }, [])
      (System.turns true cartEnters { world := upgrade false pair }) := by decide +kernel
  obtain ⟨⟨world, pass⟩, history, reached, read⟩ := Machine.run_reaches_reading permitted ran
  obtain ⟨one, two⟩ := Prod.mk.inj read
  refine ⟨history, world, pass, reached, ?_⟩
  rw [one, two]
  decide

end Swarmada.ModelRollout
