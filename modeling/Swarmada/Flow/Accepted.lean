import Swarmada.Flow.Reads

namespace Swarmada.Flow

variable {ν : Type}

theorem bind_eq_ok {f : α → Except ε β} (done : (x >>= f) = .ok result) :
    ∃ value, x = .ok value ∧ f value = .ok result := by
  cases x with
  | error => cases done
  | ok value => exact ⟨value, rfl, done⟩

/-- The node passes the checks on its own fields. -/
def FlowNode.Passes (members : String → Bool) : FlowNode ν → Prop
  | .run member => members member = true
  | .parallel spec branches => validateParallel spec branches.length = .ok ()
  | .loop spec _ => validateLoop members spec = .ok ()
  | .select subject _ _ => validateSubject members subject = .ok ()
  | _ => True

variable {members : String → Bool} {depth walked total : Nat} {node inner : FlowNode ν}

theorem validateNodes_each {nodes : List (FlowNode ν)} (valid : validateNodes members nodes depth walked = .ok total) :
    ∀ node ∈ nodes, ∃ depth walked total, validateNode members node depth walked = .ok total := by
  induction nodes generalizing walked with
  | nil => exact nofun
  | cons node nodes ih =>
    obtain ⟨_, first, rest⟩ := bind_eq_ok valid
    exact List.forall_mem_cons.mpr ⟨⟨_, _, _, first⟩, ih rest⟩

theorem validateCases_each
    (valid : validateCases members cases i depth walked = .ok total) :
    ∀ case ∈ cases, ∃ depth walked total, validateNode members case.2 depth walked = .ok total := by
  induction cases generalizing walked i with
  | nil => exact nofun
  | cons case cases ih =>
    rw [validateCases] at valid
    split_ifs at valid
    obtain ⟨_, first, rest⟩ := bind_eq_ok valid
    exact List.forall_mem_cons.mpr ⟨⟨_, _, _, first⟩, ih rest⟩

theorem validateNode_subnodes (valid : validateNode members node depth walked = .ok total) (member : inner ∈ subnodes node) :
    inner.Passes members := by
  induction node using FlowNode.children_induction generalizing depth walked total with
  | empty =>
    cases List.mem_singleton.mp member
    trivial
  | run name =>
    cases List.mem_singleton.mp member
    rw [validateNode] at valid
    split_ifs at valid with _ _ named
    exact named
  | sequence nodes ih =>
    rw [validateNode] at valid
    split_ifs at valid
    rcases List.mem_cons.mp member with rfl | inside
    · trivial
    obtain ⟨node, nodeIn, below⟩ := List.mem_flatMap.mp (subnodesOf_eq nodes ▸ inside)
    obtain ⟨_, _, _, each⟩ := validateNodes_each valid node nodeIn
    exact ih node nodeIn each below
  | parallel spec branches ih =>
    rw [validateNode] at valid
    split_ifs at valid
    obtain ⟨_, own, branchesValid⟩ := bind_eq_ok valid
    rcases List.mem_cons.mp member with rfl | inside
    · exact own
    obtain ⟨node, nodeIn, below⟩ := List.mem_flatMap.mp (subnodesOf_eq branches ▸ inside)
    obtain ⟨_, _, _, each⟩ := validateNodes_each branchesValid node nodeIn
    exact ih node nodeIn each below
  | loop spec body ih =>
    rw [validateNode] at valid
    split_ifs at valid
    obtain ⟨_, own, bodyValid⟩ := bind_eq_ok valid
    rcases List.mem_cons.mp member with rfl | inside
    · exact own
    · exact ih bodyValid inside
  | select subject cases default ih fallback =>
    rw [validateNode] at valid
    split_ifs at valid
    obtain ⟨_, own, afterSubject⟩ := bind_eq_ok valid
    obtain ⟨_, casesValid, defaultValid⟩ := bind_eq_ok afterSubject
    rcases List.mem_cons.mp member with rfl | inside
    · exact own
    rcases List.mem_append.mp inside with here | below
    · obtain ⟨case, caseIn, below⟩ := List.mem_flatMap.mp (subnodesOfCases_eq cases ▸ here)
      obtain ⟨_, _, _, each⟩ := validateCases_each casesValid case caseIn
      exact ih case caseIn each below
    · exact fallback defaultValid below

theorem validateStructure_subnodes (valid : validateStructure members node = .ok ()) (member : inner ∈ subnodes node) :
    inner.Passes members := by
  unfold validateStructure at valid
  cases walked : validateNode members node 1 0 with
  | error =>
    rw [walked] at valid
    cases valid
  | ok => exact validateNode_subnodes walked member

theorem loop_subnodes (member : loop ∈ loops node) : .loop loop.1 loop.2 ∈ subnodes node := by
  induction node using FlowNode.children_induction with
  | empty | run => simp [loops] at member
  | sequence nodes ih =>
    rw [loops, loopsOfNodes_eq] at member
    obtain ⟨node, nodeIn, inside⟩ := List.mem_flatMap.mp member
    exact subnodes_sequence nodeIn (ih node nodeIn inside)
  | parallel spec branches ih =>
    rw [loops, loopsOfNodes_eq] at member
    obtain ⟨node, nodeIn, inside⟩ := List.mem_flatMap.mp member
    exact subnodes_parallel nodeIn (ih node nodeIn inside)
  | loop spec body ih =>
    rcases List.mem_append.mp member with inside | own
    · exact subnodes_loop (ih inside)
    · cases List.mem_singleton.mp own
      exact List.mem_cons_self
  | select subject cases default ih fallback =>
    rw [loops, loopsOfCases_eq] at member
    rcases List.mem_append.mp member with here | below
    · obtain ⟨case, caseIn, inside⟩ := List.mem_flatMap.mp here
      exact subnodes_case caseIn (ih case caseIn inside)
    · exact subnodes_default (fallback below)

theorem validateStructure_loops (valid : validateStructure members node = .ok ())
    (member : loop ∈ loops node) : validateLoop members loop.1 = .ok () :=
  validateStructure_subnodes valid (loop_subnodes member)

def UntilCondition.Armed (condition : UntilCondition) : Prop := condition.event.isSome ∨ condition.result.isSome

/-- Some clock, iteration and state of the children end the loop. -/
def LoopSpec.CanEnd (ν : Type) (spec : LoopSpec) : Prop :=
  ∃ (ctx : Context ν) (progress : LoopProgress), loopBoundSatisfied ctx spec progress = true

theorem UntilCondition.holds_iff {condition : UntilCondition} :
    (∃ (ctx : Context ν) (iteration : Nat), condition.holds ctx iteration = true) ↔ condition.Armed := by
  unfold UntilCondition.holds UntilCondition.Armed
  obtain ⟨event, result⟩ := condition
  constructor
  · rintro ⟨ctx, iteration, holds⟩
    cases event <;> cases result <;> simp at holds ⊢
  -- a child that has raised the event and given the result
  · intro armed
    let child : ChildState :=
      { exist := true, events := event.toList.map fun event => { type := event.type, seq := 0 },
        result := result.map fun result _ => some result.equals }
    refine ⟨{ now := 0, child := fun _ _ => child, loopProgress := fun _ => {}, parseFloat := fun _ => none }, 0, ?_⟩
    cases event with
    | some event => simp [resolveUntilEvent, ChildState.latestEvent, child]
    | none =>
      cases result with
      | some result => simp [resolveUntilResult, child]
      | none => simp at armed

theorem LoopSpec.canEnd_iff {spec : LoopSpec} : spec.CanEnd ν ↔
    spec.maxIterations.isSome ∨ spec.maxDurationSeconds.isSome ∨ ∃ condition ∈ spec.untilAnyOf.getD [], condition.Armed := by
  constructor
  · rintro ⟨ctx, progress, reached⟩
    unfold loopBoundSatisfied at reached
    simp only [Bool.or_eq_true, List.any_eq_true] at reached
    rcases reached with (⟨condition, member, holds⟩ | most) | late
    · exact .inr (.inr ⟨condition, member, UntilCondition.holds_iff.mp ⟨ctx, _, holds⟩⟩)
    · cases most? : spec.maxIterations <;> simp [most?] at most ⊢
    · cases seconds : spec.maxDurationSeconds <;> simp [seconds] at late ⊢
  · rintro (most | late | ⟨condition, member, armed⟩)
    · obtain ⟨most, bound⟩ := Option.isSome_iff_exists.mp most
      refine ⟨{ now := 0, child := fun _ _ => {}, loopProgress := fun _ => {}, parseFloat := fun _ => none },
        { iteration := most.toNat }, ?_⟩
      simp [loopBoundSatisfied, bound]
    · obtain ⟨seconds, bound⟩ := Option.isSome_iff_exists.mp late
      refine ⟨{ now := (seconds * 1000000000).toNat, child := fun _ _ => {}, loopProgress := fun _ => {},
                parseFloat := fun _ => none }, { startedAt := some 0 }, ?_⟩
      simp [loopBoundSatisfied, bound]
    · obtain ⟨ctx, iteration, holds⟩ := UntilCondition.holds_iff.mpr armed
      refine ⟨ctx, { iteration := iteration }, ?_⟩
      simp only [loopBoundSatisfied, Bool.or_eq_true, List.any_eq_true]
      exact .inl (.inl ⟨condition, member, holds⟩)

theorem validateLoop_forever (valid : validateLoop members spec = .ok ()) (forever : spec.mode = .forever) :
    spec.untilAnyOf.isSome ∨ spec.maxIterations.isSome ∨ spec.maxDurationSeconds.isSome := by
  by_contra unbounded
  simp only [not_or, Option.not_isSome_iff_eq_none] at unbounded
  simp only [validateLoop, forever, unbounded, and_self, if_true] at valid
  split_ifs at valid

/-- Every Forever loop of an accepted tree can end exactly when each that is bounded by its `until` alone
lists a condition with an event or a result. -/
theorem forever_loops_can_end_iff {root : FlowNode ν} (valid : validateStructure members root = .ok ()) :
    (∀ loop ∈ loops root, loop.1.mode = .forever → loop.1.CanEnd ν) ↔
      ∀ loop ∈ loops root, loop.1.mode = .forever → loop.1.maxIterations = none → loop.1.maxDurationSeconds = none →
        ∀ conditions, loop.1.untilAnyOf = some conditions → ∃ condition ∈ conditions, condition.Armed := by
  refine forall₃_congr fun loop member forever => ?_
  rw [LoopSpec.canEnd_iff]
  constructor
  · intro ends unlimited untimed conditions listed
    simpa [unlimited, untimed, listed] using ends
  · intro armed
    by_contra never
    simp only [not_or, Option.not_isSome_iff_eq_none] at never
    obtain ⟨unlimited, untimed, none⟩ := never
    rcases validateLoop_forever (validateStructure_loops valid member) forever with listed | bound | bound
    · obtain ⟨conditions, listed⟩ := Option.isSome_iff_exists.mp listed
      exact none (by simpa [listed] using armed unlimited untimed conditions listed)
    · simp [unlimited] at bound
    · simp [untimed] at bound

def patrolUntil (conditions : List UntilCondition) : FlowNode Nat :=
  .sequence [.loop { mode := .forever, untilAnyOf := some conditions } (.run "patrol")]

def alarm : UntilCondition := { event := some { type := "alarm", producer := "guard" } }

theorem forever_loops_can_end_alarm : validateStructure (fun _ => true) (patrolUntil [alarm]) = .ok () ∧
    ∀ loop ∈ loops (patrolUntil [alarm]), loop.1.mode = .forever → loop.1.CanEnd Nat := by
  refine ⟨rfl, (@forever_loops_can_end_iff _ (fun _ => true) (patrolUntil [alarm]) rfl).mpr ?_⟩
  simp [patrolUntil, loops, loopsOfNodes, UntilCondition.Armed, alarm]

/-- The only condition names neither an event nor a result: the tree is accepted and the patrol never ends. -/
theorem armless_until_never_ends : validateStructure (fun member => member = "patrol") (patrolUntil [{}]) = .ok () ∧
    ∃ loop ∈ loops (patrolUntil [{}]), loop.1.mode = .forever ∧ ¬ loop.1.CanEnd Nat := by
  refine ⟨rfl, _, List.mem_singleton.mpr rfl, rfl, ?_⟩
  rw [LoopSpec.canEnd_iff]
  simp [UntilCondition.Armed]

end Swarmada.Flow
