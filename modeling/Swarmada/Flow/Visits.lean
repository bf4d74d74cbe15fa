import Swarmada.Flow.Join
import Swarmada.Flow.Reports

/-! # What an evaluation comes to

The nodes that the evaluation of a tree walks into, each with what it asks for itself.
-/

namespace Swarmada.Flow

variable {ν : Type}

/-- The member whose child the node reads itself. -/
def FlowNode.reads : FlowNode ν → Option String
  | .run member => some member
  | .select subject _ _ => some subject.Producer
  | _ => none

variable [LT ν] [LE ν] [DecidableRel fun a b : ν => a < b] [DecidableRel fun a b : ν => a ≤ b] (ctx : Context ν)

theorem evalNode_select (subject : SelectSubject) (cases : List (SelectCase ν × FlowNode ν)) (default : FlowNode ν)
    (iter : Nat) :
    ∃ text, evalNode ctx (.select subject cases default) iter =
      match selectValues ctx subject iter with
      | .inl result => result
      | .inr values =>
        match decidingCase ctx cases subject.field values with
        | some case => if case.1.when.isSome then (.failed, [.diagnostic text]) else evalNode ctx case.2 iter
        | none => evalNode ctx default iter := by
  rw [evalNode]
  cases selectValues ctx subject iter with
  | inl => exact ⟨"", rfl⟩
  | inr values =>
    obtain ⟨text, same⟩ := evalCases_eq ctx cases 0 subject.field values iter
    refine ⟨text, ?_⟩
    dsimp only
    rw [same]
    cases decidingCase ctx cases subject.field values <;> rfl

variable {nodes : List (FlowNode ν)} {iter : Nat} {effect : Effect}

theorem mem_evalSequence : effect ∈ (evalSequence ctx nodes iter).2 ↔ ∃ before node after,
    nodes = before ++ node :: after ∧ (∀ other ∈ before, (evalNode ctx other iter).1 = .succeeded) ∧
      effect ∈ (evalNode ctx node iter).2 := by
  induction nodes with
  | nil => simp [evalSequence]
  | cons first nodes ih =>
    have split : (∃ before node after, first :: nodes = before ++ node :: after ∧
        (∀ other ∈ before, (evalNode ctx other iter).1 = .succeeded) ∧ effect ∈ (evalNode ctx node iter).2) ↔
        effect ∈ (evalNode ctx first iter).2 ∨ (evalNode ctx first iter).1 = .succeeded ∧
          effect ∈ (evalSequence ctx nodes iter).2 := by
      rw [ih]
      constructor
      · rintro ⟨_ | ⟨other, before⟩, node, after, same, earlier, inside⟩
        · cases same
          exact .inl inside
        · cases same
          obtain ⟨done, earlier⟩ := List.forall_mem_cons.mp earlier
          exact .inr ⟨done, before, node, after, rfl, earlier, inside⟩
      · rintro (inside | ⟨done, before, node, after, rfl, earlier, inside⟩)
        · exact ⟨[], first, nodes, rfl, List.forall_mem_nil _, inside⟩
        · exact ⟨first :: before, node, after, rfl, List.forall_mem_cons.mpr ⟨done, earlier⟩, inside⟩
    rw [split, evalSequence]
    by_cases done : (evalNode ctx first iter).1 = .succeeded <;> simp [done]

theorem mem_evalBranches : effect ∈ (evalBranches ctx nodes iter).flatMap Prod.snd ↔
    ∃ branch ∈ nodes, effect ∈ (evalNode ctx branch iter).2 := by
  induction nodes with
  | nil => simp [evalBranches]
  | cons branch nodes ih => simp [evalBranches, ih]

/-- The evaluation of the node comes to the inner one, at its iteration. -/
inductive Visits : FlowNode ν → Nat → FlowNode ν → Nat → Prop
  | here {node : FlowNode ν} {iter : Nat} : Visits node iter node iter
  | sequence {before after : List (FlowNode ν)} {node inner : FlowNode ν} {iter turn : Nat}
      (earlier : ∀ other ∈ before, (evalNode ctx other iter).1 = .succeeded) (inside : Visits node iter inner turn) :
      Visits (.sequence (before ++ node :: after)) iter inner turn
  | parallel {spec : ParallelSpec} {branches : List (FlowNode ν)} {branch inner : FlowNode ν} {iter turn : Nat}
      (member : branch ∈ branches) (inside : Visits branch iter inner turn) : Visits (.parallel spec branches) iter inner turn
  | loop {spec : LoopSpec} {body inner : FlowNode ν} {iter turn : Nat} (named : anchorMember body ≠ "")
      (started : (ctx.loopProgress (anchorMember body)).iteration ≠ 0)
      (inside : Visits body (ctx.loopProgress (anchorMember body)).iteration inner turn) :
      Visits (.loop spec body) iter inner turn
  | case {subject : SelectSubject} {cases : List (SelectCase ν × FlowNode ν)} {default inner : FlowNode ν}
      {iter turn : Nat} {values : String → Option String} {case : SelectCase ν × FlowNode ν}
      (valued : selectValues ctx subject iter = .inr values)
      (chosen : decidingCase ctx cases subject.field values = some case) (evaluable : case.1.when.isSome = false)
      (inside : Visits case.2 iter inner turn) : Visits (.select subject cases default) iter inner turn
  | default {subject : SelectSubject} {cases : List (SelectCase ν × FlowNode ν)} {default inner : FlowNode ν}
      {iter turn : Nat} {values : String → Option String} (valued : selectValues ctx subject iter = .inr values)
      (unmatched : decidingCase ctx cases subject.field values = none) (inside : Visits default iter inner turn) :
      Visits (.select subject cases default) iter inner turn

/-- What the node asks for itself, apart from the nodes in it. -/
def asked : FlowNode ν → Nat → List Effect
  | .run member, iter => (evalRun ctx member iter).2
  | .parallel spec branches, iter =>
    let outcomes := branchOutcomes ctx branches iter
    if (join spec outcomes).isSome && spec.cancelsSiblings then cancelUnsettled ctx branches outcomes iter else []
  | .loop spec body, _ =>
    let progress := ctx.loopProgress (anchorMember body)
    (if anchorMember body ≠ "" ∧ progress.iteration ≠ 0 ∧ spec.interruptRunning ∧ loopBoundSatisfied ctx spec progress then
      collectCancel ctx body progress.iteration else []) ++ loopReport ctx (spec, body)
  | .select subject _ _, iter =>
    match selectValues ctx subject iter with
    | .inl result => result.2
    | .inr _ => []
  | _, _ => []

variable {ctx} {node inner : FlowNode ν} {turn : Nat}

theorem mem_evalLoop : effect ∈ (evalNode ctx (.loop spec body) iter).2 ↔
    effect ∈ asked ctx (.loop spec body) iter ∨ anchorMember body ≠ "" ∧
      (ctx.loopProgress (anchorMember body)).iteration ≠ 0 ∧
      effect ∈ (evalNode ctx body (ctx.loopProgress (anchorMember body)).iteration).2 := by
  rw [evalNode]
  unfold asked loopReport
  by_cases nameless : anchorMember body = ""
  · simp [nameless]
  by_cases unstarted : (ctx.loopProgress (anchorMember body)).iteration = 0
  · simp [nameless, unstarted]
  by_cases running : (evalNode ctx body (ctx.loopProgress (anchorMember body)).iteration).1.settled = false
  · simp [nameless, unstarted, running]
  · simp [nameless, unstarted, running]
    tauto

theorem visited_of_mem (found : effect ∈ (evalNode ctx node iter).2) :
    (∃ text, effect = .diagnostic text) ∨ ∃ inner turn, Visits ctx node iter inner turn ∧ effect ∈ asked ctx inner turn := by
  induction node using FlowNode.children_induction generalizing iter with
  | empty =>
    cases found
  | run member =>
    exact .inr ⟨_, _, .here, found⟩
  | sequence nodes ih =>
    rw [evalNode, mem_evalSequence] at found
    obtain ⟨before, node, after, rfl, earlier, inside⟩ := found
    refine (ih node (by simp) inside).imp_right ?_
    rintro ⟨inner, turn, visits, own⟩
    exact ⟨inner, turn, .sequence earlier visits, own⟩
  | parallel spec branches ih =>
    rcases List.mem_append.mp found with inside | cancelled
    · obtain ⟨branch, member, here⟩ := (mem_evalBranches ctx).mp inside
      refine (ih branch member here).imp_right ?_
      rintro ⟨inner, turn, visits, own⟩
      exact ⟨inner, turn, .parallel member visits, own⟩
    · exact .inr ⟨_, _, .here, cancelled⟩
  | loop spec body ih =>
    rcases mem_evalLoop.mp found with own | ⟨named, started, inside⟩
    · exact .inr ⟨_, _, .here, own⟩
    · refine (ih inside).imp_right ?_
      rintro ⟨inner, turn, visits, own⟩
      exact ⟨inner, turn, .loop named started visits, own⟩
  | select subject cases default ih fallback =>
    obtain ⟨_, same⟩ := evalNode_select ctx subject cases default iter
    rw [same] at found
    cases valued : selectValues ctx subject iter with
    | inl result =>
      rw [valued] at found
      refine .inr ⟨_, iter, .here, ?_⟩
      rwa [asked, valued]
    | inr values =>
      rw [valued] at found
      dsimp only at found
      cases chosen : decidingCase ctx cases subject.field values with
      | none =>
        rw [chosen] at found
        refine (fallback found).imp_right ?_
        rintro ⟨inner, turn, visits, own⟩
        exact ⟨inner, turn, .default valued chosen visits, own⟩
      | some case =>
        rw [chosen] at found
        dsimp only at found
        split_ifs at found with clause
        · exact .inl ⟨_, List.mem_singleton.mp found⟩
        · refine (ih case (List.mem_of_find?_eq_some chosen) found).imp_right ?_
          rintro ⟨inner, turn, visits, own⟩
          exact ⟨inner, turn, .case valued chosen (by simpa using clause) visits, own⟩

theorem Visits.mem_effects (visits : Visits ctx node iter inner turn) (own : effect ∈ asked ctx inner turn) :
    effect ∈ (evalNode ctx node iter).2 := by
  induction visits with
  | @here node iter =>
    cases node with
    | empty | sequence => cases own
    | run member =>
      exact own
    | parallel =>
      exact List.mem_append_right _ own
    | loop => exact mem_evalLoop.mpr (.inl own)
    | select subject cases default =>
      obtain ⟨_, same⟩ := evalNode_select ctx subject cases default iter
      rw [same]
      rw [asked] at own
      cases valued : selectValues ctx subject iter with
      | inl =>
        rw [valued] at own
        exact own
      | inr =>
        rw [valued] at own
        cases own
  | sequence earlier _ ih =>
    exact (mem_evalSequence ctx).mpr ⟨_, _, _, rfl, earlier, ih own⟩
  | parallel member _ ih =>
    exact List.mem_append_left _ ((mem_evalBranches ctx).mpr ⟨_, member, ih own⟩)
  | loop named started _ ih => exact mem_evalLoop.mpr (.inr ⟨named, started, ih own⟩)
  | @case subject cases default _ iter _ _ _ valued chosen evaluable _ ih =>
    obtain ⟨_, same⟩ := evalNode_select ctx subject cases default iter
    simp only [same, valued, chosen, evaluable]
    exact ih own
  | @default subject cases default _ iter _ _ valued unmatched _ ih =>
    obtain ⟨_, same⟩ := evalNode_select ctx subject cases default iter
    simp only [same, valued, unmatched]
    exact ih own

theorem ensure_not_mem (others : OnlyCancels effects ∨ reports effects = effects) : .ensure ref ∉ effects := by
  intro member
  rcases others with cancels | all
  · obtain ⟨_, same⟩ := cancels _ member
    cases same
  · rw [← all] at member
    cases (List.mem_filter.mp member).2

theorem asked_parallel (spec : ParallelSpec) (branches : List (FlowNode ν)) (iter : Nat) :
    OnlyCancels (asked ctx (.parallel spec branches) iter) := by
  unfold asked
  dsimp only
  split_ifs
  · exact cancelUnsettled_cancels ctx _ _ _
  · exact .nil

theorem loopReport_reports (loop : LoopSpec × FlowNode ν) : reports (loopReport ctx loop) = loopReport ctx loop := by
  rcases loopReport_cases ctx loop with same | ⟨_, same⟩ | ⟨_, _, _, _, same | same⟩ <;> rw [same] <;> rfl

theorem ensure_mem_asked : .ensure ref ∈ asked ctx node iter ↔
    node.reads = some ref.member ∧ ref.iteration = iter ∧ (ctx.child ref.member iter).exist = false := by
  obtain ⟨member, turn⟩ := ref
  cases node with
  | empty | sequence => simp [asked, FlowNode.reads]
  | run other =>
    cases absent : (ctx.child other iter).exist <;> simp [asked, evalRun, FlowNode.reads, absent] <;> grind
  | parallel spec branches => simp [FlowNode.reads, ensure_not_mem (.inl (asked_parallel spec branches iter))]
  | loop spec body =>
    simp only [FlowNode.reads, reduceCtorEq, false_and, iff_false, asked, List.mem_append, not_or]
    refine ⟨ensure_not_mem (.inl ?_), ensure_not_mem (.inr (loopReport_reports _))⟩
    split_ifs
    · exact collectCancel_cancels ctx body _
    · exact .nil
  | select subject =>
    simp only [asked, FlowNode.reads, Option.some.injEq, SelectSubject.Producer, selectValues]
    cases subject.event with
    | none =>
      by_cases absent : (ctx.child subject.member iter).exist = false
      · simp [absent]
        grind
      · by_cases done : (ctx.child subject.member iter).outcome = .succeeded <;> simp [absent, done] <;> grind
    | some type =>
      by_cases absent : (ctx.child subject.producer iter).exist = false
      · simp [absent]
        grind
      · cases (ctx.child subject.producer iter).latestEvent type with
        | none => by_cases running : (ctx.child subject.producer iter).outcome.settled = false <;> simp [absent, running] <;> grind
        | some => simp [absent]; grind

/-- Evaluate asks for a child exactly when a node it visits in that iteration reads it and it does not exist. -/
theorem ensured_iff_visited (ctx : Context ν) (root : FlowNode ν) (ref : Ref) : .ensure ref ∈ (evaluate ctx root).2 ↔
    ∃ inner, Visits ctx root 0 inner ref.iteration ∧ inner.reads = some ref.member ∧
      (ctx.child ref.member ref.iteration).exist = false := by
  constructor
  · intro found
    obtain ⟨_, ⟨⟩⟩ | ⟨inner, turn, visits, own⟩ := visited_of_mem found
    obtain ⟨named, rfl, absent⟩ := ensure_mem_asked.mp own
    exact ⟨inner, visits, named, absent⟩
  · rintro ⟨inner, visits, named, absent⟩
    exact visits.mem_effects (ensure_mem_asked.mpr ⟨named, rfl, absent⟩)

end Swarmada.Flow
