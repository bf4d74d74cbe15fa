import Swarmada.Flow.Reads

namespace Swarmada.Flow

variable {ν : Type}

def Uncancelled (ctx : Context ν) : Prop := ∀ member iteration, (ctx.child member iteration).outcome ≠ .cancelled

variable {spec : ParallelSpec} {outcomes : List Outcome}

theorem join_ne_cancelled (none : .cancelled ∉ outcomes) : join spec outcomes ≠ some .cancelled := by
  intro decided
  unfold join at decided
  split at decided
  · exact none (List.mem_of_find?_eq_some decided)
  all_goals
    dsimp only at decided
    split_ifs at decided
    all_goals cases decided

theorem joined_ne_cancelled (none : .cancelled ∉ outcomes) : joined spec outcomes ≠ .cancelled := by
  unfold joined
  split
  · intro same
    cases same
  rename_i outcome decided
  split_ifs
  · rintro rfl
    exact join_ne_cancelled none decided
  · intro same
    cases same

theorem succeeded_of_settled {outcome : Outcome} (settled : outcome.settled = true) (ran : outcome ≠ .failed)
    (running : outcome ≠ .cancelled) : outcome = .succeeded := by
  cases outcome with
  | inProgress => cases settled
  | succeeded => rfl
  | failed => exact absurd rfl ran
  | cancelled => exact absurd rfl running

theorem joined_all_succeeded (all : spec.mode = .all)
    (strict : spec.failsNode = true) (succeeded : joined spec outcomes = .succeeded) :
    ∀ outcome ∈ outcomes, outcome = .succeeded := by
  intro outcome member
  unfold joined join at succeeded
  simp only [all, strict, Bool.and_true] at succeeded
  by_cases broken : (outcomes.any fun outcome => decide (outcome = .failed) || decide (outcome = .cancelled)) = true
  · simp only [broken, if_true] at succeeded
    split_ifs at succeeded
  simp only [broken] at succeeded
  by_cases settled : outcomes.countP Outcome.settled = outcomes.length
  · have intact : ¬ (decide (outcome = .failed) || decide (outcome = .cancelled)) = true := fun bad =>
      broken (List.any_eq_true.mpr ⟨outcome, member, bad⟩)
    simp only [Bool.or_eq_true, decide_eq_true_eq, not_or] at intact
    exact succeeded_of_settled (List.countP_eq_length.mp settled outcome member) intact.1 intact.2
  · simp [settled] at succeeded

/-- Every way to success goes through the loop: it stands in a sequence, in a parallel that joins on
all of its branches, or in the body of a loop. -/
inductive Demands (loop : LoopSpec × FlowNode ν) : FlowNode ν → Prop
  | here : Demands loop (.loop loop.1 loop.2)
  | sequence {nodes : List (FlowNode ν)} {node : FlowNode ν} (member : node ∈ nodes) (demanded : Demands loop node) :
      Demands loop (.sequence nodes)
  | parallel {spec : ParallelSpec} (all : spec.mode = .all)
      (strict : spec.failsNode = true) (member : branch ∈ branches) (demanded : Demands loop branch) :
      Demands loop (.parallel spec branches)
  | loop {spec : LoopSpec} (demanded : Demands loop body) : Demands loop (.loop spec body)

variable {nodes : List (FlowNode ν)} {node : FlowNode ν}

theorem anchorOfNodes_ne (member : node ∈ nodes) (named : anchorMember node ≠ "") : anchorOfNodes nodes ≠ "" := by
  induction nodes with
  | nil => cases member
  | cons first nodes ih =>
    rw [anchorOfNodes]
    split_ifs with found
    · exact found
    rcases List.mem_cons.mp member with rfl | later
    · exact absurd named found
    · exact ih later

variable {loop : LoopSpec × FlowNode ν}

theorem Demands.anchor (demanded : Demands loop node) (named : anchorMember loop.2 ≠ "") : anchorMember node ≠ "" := by
  induction demanded with
  | here =>
    exact named
  | sequence member _ ih | parallel _ _ member _ ih =>
    exact anchorOfNodes_ne member ih
  | loop _ ih =>
    exact ih

mutual

/-- The member is run or read only in the loops it is the anchor of; `inside` says that the node is
in the body of one, without another loop between. -/
def confined (a : String) : Bool → FlowNode ν → Bool
  | _, .empty => true
  | inside, .run member => member ≠ a || inside
  | inside, .sequence nodes => confinedNodes a inside nodes
  | inside, .parallel _ branches => confinedNodes a inside branches
  | _, .loop _ body => confined a (anchorMember body = a) body
  | inside, .select subject cases default =>
    (subject.Producer ≠ a || inside) && confinedCases a inside cases && confined a inside default

def confinedNodes (a : String) : Bool → List (FlowNode ν) → Bool
  | _, [] => true
  | inside, node :: nodes => confined a inside node && confinedNodes a inside nodes

def confinedCases (a : String) : Bool → List (SelectCase ν × FlowNode ν) → Bool
  | _, [] => true
  | inside, (_, node) :: cases => confined a inside node && confinedCases a inside cases

end

def EnsuresCurrent (ctx : Context ν) (a : String) (effects : List Effect) : Prop :=
  ∀ iteration, .ensure ⟨a, iteration⟩ ∈ effects → iteration = (ctx.loopProgress a).iteration ∧ 0 < iteration

variable {a : String} {inside : Bool}

theorem confined_of_mem
    (confinedAll : confinedNodes a inside nodes = true) (member : node ∈ nodes) : confined a inside node = true := by
  induction nodes with
  | nil => cases member
  | cons other nodes ih =>
    rw [confinedNodes, Bool.and_eq_true] at confinedAll
    rcases List.mem_cons.mp member with rfl | later
    · exact confinedAll.1
    · exact ih confinedAll.2 later

theorem confined_of_case (confinedAll : confinedCases a inside cases = true) (member : case ∈ cases) :
    confined a inside case.2 = true := by
  induction cases with
  | nil => cases member
  | cons other cases ih =>
    rw [confinedCases, Bool.and_eq_true] at confinedAll
    rcases List.mem_cons.mp member with rfl | later
    · exact confinedAll.1
    · exact ih confinedAll.2 later

variable [LT ν] [LE ν] [DecidableRel fun a b : ν => a < b] [DecidableRel fun a b : ν => a ≤ b] {ctx : Context ν}

variable {iter : Nat}

theorem evalSequence_ne_cancelled
    (each : ∀ node ∈ nodes, (evalNode ctx node iter).1 ≠ .cancelled) : (evalSequence ctx nodes iter).1 ≠ .cancelled := by
  induction nodes with
  | nil => exact Outcome.noConfusion
  | cons node nodes ih =>
    rw [evalSequence]
    split_ifs
    · exact ih fun other member => each other (List.mem_cons_of_mem _ member)
    · exact each node List.mem_cons_self

theorem evalCases_ne_cancelled (each : ∀ case ∈ cases, (evalNode ctx case.2 iter).1 ≠ .cancelled)
    (chosen : evalCases ctx cases i field values iter = some result) : result.1 ≠ .cancelled := by
  rcases evalCases_mem ctx chosen with ⟨_, rfl⟩ | ⟨case, member, rfl⟩
  · exact Outcome.noConfusion
  · exact each case member

theorem evalNode_ne_cancelled (uncancelled : Uncancelled ctx) (node : FlowNode ν) (iter : Nat) :
    (evalNode ctx node iter).1 ≠ .cancelled := by
  induction node using FlowNode.children_induction generalizing iter with
  | empty =>
    exact Outcome.noConfusion
  | run member =>
    exact uncancelled member iter
  | sequence nodes ih =>
    exact evalSequence_ne_cancelled fun node member => ih node member iter
  | parallel spec branches ih =>
    rw [evalNode_parallel_fst, branchOutcomes_eq_map]
    apply joined_ne_cancelled
    rintro found
    obtain ⟨branch, member, same⟩ := List.mem_map.mp found
    exact ih branch member iter same
  | loop spec body ih =>
    have evaluated := evalNode_loop_cases ctx spec body iter
    generalize evalNode ctx (.loop spec body) iter = result at evaluated ⊢
    cases evaluated with
    | nameless | unstarted | running => exact Outcome.noConfusion
    | settled _ _ _ _ _ _ advance =>
      have advanced := loopNext_cases spec (anchorMember body) (ctx.loopProgress (anchorMember body)).iteration
        (loopBoundSatisfied ctx spec (ctx.loopProgress (anchorMember body)))
        (evalNode ctx body (ctx.loopProgress (anchorMember body)).iteration).1
      rw [advance] at advanced
      cases advanced with
      | fails | ends | again => exact Outcome.noConfusion
      | cancels stopped => exact absurd stopped (ih _)
  | select subject cases default ih fallback =>
    rw [evalNode]
    split
    next result waiting =>
      rcases selectValues_waiting ctx waiting with rfl | ⟨_, rfl⟩ | ⟨rfl, _⟩
      · exact Outcome.noConfusion
      · exact Outcome.noConfusion
      · exact uncancelled _ _
    · split
      next result chosen =>
        exact evalCases_ne_cancelled (fun case member => ih case member iter) chosen
      · exact fallback iter

theorem loop_succeeded (uncancelled : Uncancelled ctx) {spec : LoopSpec}
    (named : anchorMember body ≠ "") (succeeded : (evalNode ctx (.loop spec body) iter).1 = .succeeded) :
    0 < (ctx.loopProgress (anchorMember body)).iteration ∧
    (evalNode ctx body (ctx.loopProgress (anchorMember body)).iteration).1 = .succeeded ∧
    (spec.mode = .times → spec.times.getD 1 ≤ (ctx.loopProgress (anchorMember body)).iteration) := by
  have evaluated := evalNode_loop_cases ctx spec body iter
  generalize evalNode ctx (.loop spec body) iter = result at evaluated succeeded
  cases evaluated with
  | nameless anchor => exact absurd anchor named
  | unstarted | running => cases succeeded
  | settled _ started _ _ ended _ advance =>
    have advanced := loopNext_cases spec (anchorMember body) (ctx.loopProgress (anchorMember body)).iteration
      (loopBoundSatisfied ctx spec (ctx.loopProgress (anchorMember body)))
      (evalNode ctx body (ctx.loopProgress (anchorMember body)).iteration).1
    rw [advance] at advanced
    cases advanced with
    | fails | cancels | again => cases succeeded
    | ends ran reached =>
      exact ⟨Nat.pos_of_ne_zero started,
        succeeded_of_settled ended ran (evalNode_ne_cancelled uncancelled body _), reached⟩

theorem loopReport_start (uncancelled : Uncancelled ctx)
    (reported : .startIteration anchor iteration ∈ loopReport ctx loop) :
    anchorMember loop.2 = anchor ∧
    ((ctx.loopProgress anchor).iteration = 0 ∧ iteration = 1 ∨
      iteration = (ctx.loopProgress anchor).iteration + 1 ∧
      (evalNode ctx loop.2 (ctx.loopProgress anchor).iteration).1 = .succeeded ∧
      (loop.1.mode = .times → (ctx.loopProgress anchor).iteration < loop.1.times.getD 1)) := by
  unfold loopReport at reported
  dsimp only at reported
  split_ifs at reported with nameless unstarted running
  · cases reported
  · obtain ⟨rfl, rfl⟩ := Effect.startIteration.inj (List.mem_singleton.mp reported)
    exact ⟨rfl, .inl ⟨unstarted, rfl⟩⟩
  · cases reported
  rcases List.mem_cons.mp reported with same | later
  · cases same
  have advanced := loopNext_cases loop.1 (anchorMember loop.2) (ctx.loopProgress (anchorMember loop.2)).iteration
    (loopBoundSatisfied ctx loop.1 (ctx.loopProgress (anchorMember loop.2)))
    (evalNode ctx loop.2 (ctx.loopProgress (anchorMember loop.2)).iteration).1
  generalize loopNext loop.1 (anchorMember loop.2) (ctx.loopProgress (anchorMember loop.2)).iteration
    (loopBoundSatisfied ctx loop.1 (ctx.loopProgress (anchorMember loop.2)))
    (evalNode ctx loop.2 (ctx.loopProgress (anchorMember loop.2)).iteration).1 = next at advanced later
  cases advanced with
  | fails | cancels | ends => cases later
  | again ran short =>
    obtain ⟨rfl, rfl⟩ := Effect.startIteration.inj (List.mem_singleton.mp later)
    exact ⟨rfl, .inr ⟨rfl, succeeded_of_settled (by simpa using running) ran
      (evalNode_ne_cancelled uncancelled loop.2 _), short⟩⟩

theorem evalSequence_succeeded (succeeded : (evalSequence ctx nodes iter).1 = .succeeded) :
    ∀ node ∈ nodes, (evalNode ctx node iter).1 = .succeeded := by
  induction nodes with
  | nil => exact nofun
  | cons first nodes ih =>
    rw [evalSequence] at succeeded
    split_ifs at succeeded with done
    · intro node member
      rcases List.mem_cons.mp member with rfl | later
      · exact done
      · exact ih succeeded node later
    · exact absurd succeeded done

theorem Demands.succeeded (demanded : Demands loop node)
    (uncancelled : Uncancelled ctx) (named : anchorMember loop.2 ≠ "")
    (succeeded : (evalNode ctx node iter).1 = .succeeded) : (evalNode ctx (.loop loop.1 loop.2) 0).1 = .succeeded := by
  induction demanded generalizing iter with
  | here =>
    exact succeeded
  | sequence member _ ih =>
    exact ih (evalSequence_succeeded succeeded _ member)
  | parallel all strict member _ ih =>
    rw [evalNode_parallel_fst, branchOutcomes_eq_map] at succeeded
    exact ih (joined_all_succeeded all strict succeeded _ (List.mem_map_of_mem member))
  | loop demanded ih => exact ih (loop_succeeded uncancelled (demanded.anchor named) succeeded).2.1

/-- A confined member is read at the current iteration of its loop. -/
theorem Reads.current (reads : Reads ctx node iter ref) (confinedNode : confined a inside node = true)
    (here : inside = true → iter = (ctx.loopProgress a).iteration ∧ 0 < iter) (own : ref.member = a) :
    ref.iteration = (ctx.loopProgress a).iteration ∧ 0 < ref.iteration := by
  induction reads generalizing inside with
  | run =>
    rw [confined] at confinedNode
    subst own
    exact here (by simpa using confinedNode)
  | sequence earlier _ ih =>
    exact ih (confined_of_mem confinedNode (by simp)) here own
  | parallel member _ ih =>
    exact ih (confined_of_mem confinedNode member) here own
  | loop named started _ ih =>
    refine ih confinedNode (fun anchored => ?_) own
    have same := of_decide_eq_true anchored
    rw [same] at started ⊢
    exact ⟨rfl, Nat.pos_of_ne_zero started⟩
  | subject =>
    rw [confined, Bool.and_eq_true, Bool.and_eq_true] at confinedNode
    subst own
    exact here (by simpa using confinedNode.1.1)
  | case valued chosen evaluable _ ih =>
    rw [confined, Bool.and_eq_true, Bool.and_eq_true] at confinedNode
    exact ih (confined_of_case confinedNode.1.2 (List.mem_of_find?_eq_some chosen)) here own
  | default valued unmatched _ ih =>
    rw [confined, Bool.and_eq_true, Bool.and_eq_true] at confinedNode
    exact ih confinedNode.2 here own

theorem evalNode_ensures (confinedNode : confined a inside node = true)
    (here : inside = true → iter = (ctx.loopProgress a).iteration ∧ 0 < iter) :
    EnsuresCurrent ctx a (evalNode ctx node iter).2 :=
  fun _ asked => (reads_of_ensure asked).current confinedNode here rfl

end Swarmada.Flow
