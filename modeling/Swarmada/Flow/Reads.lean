import Swarmada.Flow.Visits

namespace Swarmada.Flow

variable {ν : Type} [LT ν] [LE ν] [DecidableRel fun a b : ν => a < b] [DecidableRel fun a b : ν => a ≤ b]
  (ctx : Context ν)

inductive Reads : FlowNode ν → Nat → Ref → Prop
  | run (member : String) (iter : Nat) : Reads (.run member) iter ⟨member, iter⟩
  | sequence {before after : List (FlowNode ν)} {node : FlowNode ν} {iter : Nat} {ref : Ref}
      (earlier : ∀ other ∈ before, (evalNode ctx other iter).1 = .succeeded) (inside : Reads node iter ref) :
      Reads (.sequence (before ++ node :: after)) iter ref
  | parallel {spec : ParallelSpec} {branches : List (FlowNode ν)} {branch : FlowNode ν} {iter : Nat} {ref : Ref}
      (member : branch ∈ branches) (inside : Reads branch iter ref) : Reads (.parallel spec branches) iter ref
  | loop {spec : LoopSpec} {body : FlowNode ν} {iter : Nat} {ref : Ref} (named : anchorMember body ≠ "")
      (started : (ctx.loopProgress (anchorMember body)).iteration ≠ 0)
      (inside : Reads body (ctx.loopProgress (anchorMember body)).iteration ref) : Reads (.loop spec body) iter ref
  | subject {subject : SelectSubject} {cases : List (SelectCase ν × FlowNode ν)} {default : FlowNode ν} {iter : Nat} :
      Reads (.select subject cases default) iter ⟨subject.Producer, iter⟩
  | case {subject : SelectSubject} {cases : List (SelectCase ν × FlowNode ν)} {default : FlowNode ν} {iter : Nat}
      {ref : Ref} {values : String → Option String} {case : SelectCase ν × FlowNode ν}
      (valued : selectValues ctx subject iter = .inr values)
      (chosen : decidingCase ctx cases subject.field values = some case) (evaluable : case.1.when.isSome = false)
      (inside : Reads case.2 iter ref) : Reads (.select subject cases default) iter ref
  | default {subject : SelectSubject} {cases : List (SelectCase ν × FlowNode ν)} {default : FlowNode ν} {iter : Nat}
      {ref : Ref} {values : String → Option String} (valued : selectValues ctx subject iter = .inr values)
      (unmatched : decidingCase ctx cases subject.field values = none) (inside : Reads default iter ref) :
      Reads (.select subject cases default) iter ref

variable {ctx}

variable {node : FlowNode ν} {nodes : List (FlowNode ν)} {iter : Nat} {ref : Ref}

theorem Reads.tail
    (succeeded : (evalNode ctx node iter).1 = .succeeded) (reads : Reads ctx (.sequence nodes) iter ref) :
    Reads ctx (.sequence (node :: nodes)) iter ref := by
  cases reads with
  | @sequence before after other _ _ earlier inside =>
    exact @Reads.sequence _ _ _ _ _ ctx (node :: before) after other _ _
      (List.forall_mem_cons.mpr ⟨succeeded, earlier⟩) inside

theorem Visits.reads {inner : FlowNode ν} (visits : Visits ctx node iter inner turn)
    (reads : Reads ctx inner turn ref) : Reads ctx node iter ref := by
  induction visits with
  | here => exact reads
  | sequence earlier _ ih => exact .sequence earlier (ih reads)
  | parallel member _ ih => exact .parallel member (ih reads)
  | loop named started _ ih => exact .loop named started (ih reads)
  | case valued chosen evaluable _ ih => exact .case valued chosen evaluable (ih reads)
  | default valued unmatched _ ih => exact .default valued unmatched (ih reads)

theorem reads_of_ensure (found : .ensure ref ∈ (evalNode ctx node iter).2) : Reads ctx node iter ref := by
  rcases visited_of_mem found with ⟨_, same⟩ | ⟨inner, turn, visits, own⟩
  · cases same
  obtain ⟨member, iteration⟩ := ref
  obtain ⟨named, rfl, -⟩ := ensure_mem_asked.mp own
  refine visits.reads ?_
  cases inner with
  | run =>
    cases named
    exact .run _ _
  | select =>
    cases named
    exact .subject
  | _ => cases named

mutual

def subnodes : FlowNode ν → List (FlowNode ν)
  | .empty => [.empty]
  | .run member => [.run member]
  | .sequence nodes => .sequence nodes :: subnodesOf nodes
  | .parallel spec branches => .parallel spec branches :: subnodesOf branches
  | .loop spec body => .loop spec body :: subnodes body
  | .select subject cases default => .select subject cases default :: (subnodesOfCases cases ++ subnodes default)

def subnodesOf : List (FlowNode ν) → List (FlowNode ν)
  | [] => []
  | node :: nodes => subnodes node ++ subnodesOf nodes

def subnodesOfCases : List (SelectCase ν × FlowNode ν) → List (FlowNode ν)
  | [] => []
  | (_, node) :: cases => subnodes node ++ subnodesOfCases cases

end

def LoopSpec.counted (spec : LoopSpec) : Bool := spec.untilAnyOf.getD [] = [] ∧ spec.maxDurationSeconds = none

/-- The loops that other nodes of a sequence follow are counted. -/
def FlowNode.steady : FlowNode ν → Bool
  | .sequence nodes => nodes.dropLast.all fun node => (loops node).all fun loop => loop.1.counted
  | _ => true

/-- The event a select branches on is read from a producer that has ended. -/
def FlowNode.ReadsEnded (ctx : Context ν) : FlowNode ν → Prop
  | .select subject _ _ => ∀ type, subject.event = some type → ∀ iter,
      ((ctx.child subject.producer iter).latestEvent type).isSome = true →
        (ctx.child subject.producer iter).outcome.settled = true
  | _ => True

def Orderly (ctx : Context ν) (node : FlowNode ν) : Prop :=
  ∀ inner ∈ subnodes node, inner.steady = true ∧ inner.ReadsEnded ctx

section

omit [LT ν] [LE ν] [DecidableRel fun a b : ν => a < b] [DecidableRel fun a b : ν => a ≤ b]

theorem subnodesOf_eq (nodes : List (FlowNode ν)) : subnodesOf nodes = nodes.flatMap subnodes := by
  induction nodes with
  | nil => rfl
  | cons node nodes ih => rw [subnodesOf, ih, List.flatMap_cons]

theorem subnodesOfCases_eq (cases : List (SelectCase ν × FlowNode ν)) :
    subnodesOfCases cases = cases.flatMap fun case => subnodes case.2 := by
  induction cases with
  | nil => rfl
  | cons case cases ih => rw [subnodesOfCases, ih, List.flatMap_cons]

section
variable {node inner : FlowNode ν} {nodes : List (FlowNode ν)} {cases : List (SelectCase ν × FlowNode ν)}
  {subject : SelectSubject} {fallback : FlowNode ν}

theorem subnodes_sequence (member : node ∈ nodes) (inside : inner ∈ subnodes node) : inner ∈ subnodes (.sequence nodes) := by
  rw [subnodes, subnodesOf_eq]
  exact List.mem_cons_of_mem _ (List.mem_flatMap.mpr ⟨node, member, inside⟩)

theorem subnodes_parallel (member : node ∈ nodes) (inside : inner ∈ subnodes node) :
    inner ∈ subnodes (.parallel spec nodes) := by
  rw [subnodes, subnodesOf_eq]
  exact List.mem_cons_of_mem _ (List.mem_flatMap.mpr ⟨node, member, inside⟩)

theorem subnodes_loop (inside : inner ∈ subnodes node) : inner ∈ subnodes (.loop spec node) := by
  exact List.mem_cons_of_mem _ inside

theorem subnodes_case (member : case ∈ cases) (inside : inner ∈ subnodes case.2) :
    inner ∈ subnodes (.select subject cases fallback) := by
  rw [subnodes, subnodesOfCases_eq]
  exact List.mem_cons_of_mem _ (List.mem_append_left _ (List.mem_flatMap.mpr ⟨case, member, inside⟩))

theorem subnodes_default (inside : inner ∈ subnodes fallback) : inner ∈ subnodes (.select subject cases fallback) := by
  exact List.mem_cons_of_mem _ (List.mem_append_right _ inside)

end

theorem FlowNode.ReadsEnded.of_children
    (each : ∀ member iter, after.child member iter = before.child member iter ∨ (after.child member iter).events = [])
    (ended : node.ReadsEnded before) : node.ReadsEnded after := by
  cases node with
  | select subject cases =>
    intro type bound iter raised
    rcases each subject.producer iter with same | none
    · rw [same] at raised ⊢
      exact ended type bound iter raised
    unfold ChildState.latestEvent at raised
    rw [none] at raised
    cases raised
  | _ => trivial

namespace Orderly

variable {ctx : Context ν} {node : FlowNode ν} {nodes : List (FlowNode ν)} {cases : List (SelectCase ν × FlowNode ν)}
  {subject : SelectSubject} {fallback : FlowNode ν}

theorem sequence (orderly : Orderly ctx (.sequence nodes)) (member : node ∈ nodes) : Orderly ctx node :=
  fun inner inside => orderly inner (subnodes_sequence member inside)

theorem parallel (orderly : Orderly ctx (.parallel spec nodes)) (member : node ∈ nodes) : Orderly ctx node :=
  fun inner inside => orderly inner (subnodes_parallel member inside)

theorem loop {spec : LoopSpec} (orderly : Orderly ctx (.loop spec node)) : Orderly ctx node :=
  fun inner inside => orderly inner (subnodes_loop inside)

theorem case {case : SelectCase ν × FlowNode ν} (orderly : Orderly ctx (.select subject cases fallback))
    (member : case ∈ cases) : Orderly ctx case.2 :=
  fun inner inside => orderly inner (subnodes_case member inside)

theorem default (orderly : Orderly ctx (.select subject cases fallback)) : Orderly ctx fallback :=
  fun inner inside => orderly inner (subnodes_default inside)

end Orderly

theorem selectValues_settled {default : FlowNode ν}
    (orderly : Orderly ctx (.select subject cases default))
    (settled : ∀ result, selectValues ctx subject iter = .inl result → result.1.settled = true) :
    (ctx.child subject.Producer iter).outcome.settled = true := by
  have ended := (orderly _ (by rw [subnodes]; exact List.mem_cons_self)).2
  unfold selectValues at settled
  unfold SelectSubject.Producer
  cases bound : subject.event with
  | some type =>
    simp only [bound] at settled ⊢
    by_cases absent : (ctx.child subject.producer iter).exist = false
    · rw [if_pos absent] at settled
      cases settled _ rfl
    rw [if_neg absent] at settled
    cases raised : (ctx.child subject.producer iter).latestEvent type with
    | some => exact ended type bound iter (by rw [raised]; rfl)
    | none =>
      rw [raised] at settled
      by_contra running
      rw [Bool.not_eq_true] at running
      simp only [running, if_true] at settled
      cases settled _ rfl
  | none =>
    simp only [bound] at settled ⊢
    by_cases absent : (ctx.child subject.member iter).exist = false
    · rw [if_pos absent] at settled
      cases settled _ rfl
    rw [if_neg absent] at settled
    by_cases succeeded : (ctx.child subject.member iter).outcome = .succeeded
    · rw [succeeded]
      rfl
    · rw [if_pos succeeded] at settled
      exact settled _ rfl

theorem selectValues_congr
    (same : after.child subject.Producer iter = ctx.child subject.Producer iter) :
    selectValues after subject iter = selectValues ctx subject iter := by
  unfold SelectSubject.Producer at same
  unfold selectValues
  cases bound : subject.event with
  | some | none =>
    simp only [bound] at same
    simp only [same]

end

theorem evalSequence_skip (earlier : ∀ other ∈ before, (evalNode ctx other iter).1 = .succeeded) :
    (evalSequence ctx (before ++ rest) iter).1 = (evalSequence ctx rest iter).1 := by
  induction before with
  | nil => rfl
  | cons node before ih =>
    obtain ⟨here, later⟩ := List.forall_mem_cons.mp earlier
    rw [List.cons_append, evalSequence]
    rw [if_pos here]
    exact ih later

theorem settled_head
    (settled : (evalSequence ctx (node :: nodes) iter).1.settled = true) : (evalNode ctx node iter).1.settled = true := by
  rw [evalSequence] at settled
  split_ifs at settled with succeeded
  · rw [succeeded]
    rfl
  · exact settled

theorem settled_branch
    (settled : (evalNode ctx (.parallel spec branches) iter).1.settled = true) (member : branch ∈ branches) :
    (evalNode ctx branch iter).1.settled = true := by
  rw [evalNode_parallel_fst, branchOutcomes_eq_map] at settled
  unfold joined at settled
  split at settled
  · cases settled
  split_ifs at settled with all
  · exact List.all_eq_true.mp all _ (List.mem_map_of_mem member)
  · cases settled

theorem settled_body (named : anchorMember body ≠ "")
    (settled : (evalNode ctx (.loop spec body) iter).1.settled = true) :
    (evalNode ctx body (ctx.loopProgress (anchorMember body)).iteration).1.settled = true := by
  have evaluated := evalNode_loop_cases ctx spec body iter
  generalize evalNode ctx (.loop spec body) iter = result at evaluated settled
  cases evaluated with
  | nameless anchor => exact absurd anchor named
  | unstarted | running => cases settled
  | settled _ _ _ _ ended => exact ended

theorem Reads.settled (reads : Reads ctx node iter ref)
    (orderly : Orderly ctx node) (settled : (evalNode ctx node iter).1.settled = true) :
    (ctx.child ref.member ref.iteration).outcome.settled = true := by
  induction reads with
  | run =>
    exact settled
  | @sequence before after node iter ref earlier inside ih =>
    rw [evalNode, evalSequence_skip earlier] at settled
    exact ih (orderly.sequence (by simp)) (settled_head settled)
  | parallel member inside ih => exact ih (orderly.parallel member) (settled_branch settled member)
  | loop named started inside ih => exact ih orderly.loop (settled_body named settled)
  | @subject subject cases default iter =>
    refine selectValues_settled orderly fun result waiting => ?_
    obtain ⟨_, same⟩ := evalNode_select ctx subject cases default iter
    rw [same, waiting] at settled
    exact settled
  | @case subject cases default iter ref values case valued chosen evaluable inside ih =>
    obtain ⟨_, same⟩ := evalNode_select ctx subject cases default iter
    simp only [same, valued, chosen, evaluable, Bool.false_eq_true, if_false] at settled
    exact ih (orderly.case (List.mem_of_find?_eq_some chosen)) settled
  | @default subject cases default iter ref values valued unmatched inside ih =>
    obtain ⟨_, same⟩ := evalNode_select ctx subject cases default iter
    simp only [same, valued, unmatched] at settled
    exact ih orderly.default settled

theorem evalNode_loop_fst (spec : LoopSpec) (body : FlowNode ν) (iter : Nat) : (evalNode ctx (.loop spec body) iter).1 =
      if anchorMember body = "" then .succeeded
      else if (ctx.loopProgress (anchorMember body)).iteration = 0 then .inProgress
      else if (evalNode ctx body (ctx.loopProgress (anchorMember body)).iteration).1.settled = false then .inProgress
      else (loopNext spec (anchorMember body) (ctx.loopProgress (anchorMember body)).iteration
        (loopBoundSatisfied ctx spec (ctx.loopProgress (anchorMember body)))
        (evalNode ctx body (ctx.loopProgress (anchorMember body)).iteration).1).1 := by
  rw [evalNode]
  dsimp only
  split_ifs <;> rfl

/-- A loop starts an iteration before its first or when its body has settled, and has not settled. -/
theorem starting_cases (iter : Nat) (starts : .startIteration (anchorMember loop.2) next ∈ loopReport ctx loop) :
    (evalNode ctx (.loop loop.1 loop.2) iter).1 = .inProgress ∧
    ((ctx.loopProgress (anchorMember loop.2)).iteration = 0 ∨
      (evalNode ctx loop.2 (ctx.loopProgress (anchorMember loop.2)).iteration).1.settled = true) := by
  rw [evalNode_loop_fst]
  unfold loopReport at starts
  dsimp only at starts
  split_ifs at starts ⊢ with nameless unstarted running
  · cases starts
  · exact ⟨rfl, .inl unstarted⟩
  · cases starts
  rcases loopNext_effects loop.1 (anchorMember loop.2) (ctx.loopProgress (anchorMember loop.2)).iteration
    (loopBoundSatisfied ctx loop.1 (ctx.loopProgress (anchorMember loop.2)))
    (evalNode ctx loop.2 (ctx.loopProgress (anchorMember loop.2)).iteration).1 with ⟨nothing, _⟩ | again
  · rw [nothing] at starts
    cases List.mem_singleton.mp starts
  · exact ⟨by rw [again], .inr (by simpa using running)⟩

/-- What comes of a context: the terminal children that were read are as they were, and a loop has
moved on only where it asked to. -/
structure Later (before after : Context ν) (node : FlowNode ν) (iter : Nat) : Prop where
  parses : after.parseFloat = before.parseFloat
  kept : ∀ ref, Reads before node iter ref → (before.child ref.member ref.iteration).outcome.settled = true →
    after.child ref.member ref.iteration = before.child ref.member ref.iteration
  moved : ∀ loop ∈ loops node, anchorMember loop.2 ≠ "" →
    (after.loopProgress (anchorMember loop.2)).iteration = (before.loopProgress (anchorMember loop.2)).iteration ∨
      ∃ next, .startIteration (anchorMember loop.2) next ∈ loopReport before loop

variable {before after : Context ν}

namespace Later

variable {node : FlowNode ν} {nodes : List (FlowNode ν)} {cases : List (SelectCase ν × FlowNode ν)} {iter : Nat}
  {subject : SelectSubject} {fallback : FlowNode ν} {values : String → Option String}

theorem inside {inner : FlowNode ν} (later : Later before after node iter)
    (reads : ∀ ref, Reads before inner iter' ref → Reads before node iter ref)
    (below : ∀ loop ∈ loops inner, loop ∈ loops node) : Later before after inner iter' :=
  ⟨later.parses, fun ref read => later.kept ref (reads ref read), fun loop member => later.moved loop (below loop member)⟩

theorem sequence {earlier rest : List (FlowNode ν)} (later : Later before after (.sequence (earlier ++ node :: rest)) iter)
    (succeeded : ∀ other ∈ earlier, (evalNode before other iter).1 = .succeeded) : Later before after node iter := by
  refine later.inside (fun ref read => .sequence succeeded read) fun loop inside => ?_
  rw [loops, loopsOfNodes_eq]
  exact List.mem_flatMap.mpr ⟨node, by simp, inside⟩

theorem parallel (later : Later before after (.parallel spec nodes) iter) (member : node ∈ nodes) :
    Later before after node iter := by
  refine later.inside (fun ref read => .parallel member read) fun loop inside => ?_
  rw [loops, loopsOfNodes_eq]
  exact List.mem_flatMap.mpr ⟨node, member, inside⟩

theorem loop {spec : LoopSpec} (later : Later before after (.loop spec node) iter) (named : anchorMember node ≠ "")
    (started : (before.loopProgress (anchorMember node)).iteration ≠ 0) :
    Later before after node (before.loopProgress (anchorMember node)).iteration := by
  refine later.inside (fun ref read => .loop named started read) fun loop inside => ?_
  exact List.mem_append_left _ inside

theorem case {case : SelectCase ν × FlowNode ν} (later : Later before after (.select subject cases fallback) iter)
    (valued : selectValues before subject iter = .inr values)
    (chosen : decidingCase before cases subject.field values = some case) (evaluable : case.1.when.isSome = false) :
    Later before after case.2 iter := by
  refine later.inside (fun ref read => .case valued chosen evaluable read) fun loop inside => ?_
  rw [loops, loopsOfCases_eq]
  exact List.mem_append_left _ (List.mem_flatMap.mpr ⟨case, List.mem_of_find?_eq_some chosen, inside⟩)

theorem default (later : Later before after (.select subject cases fallback) iter)
    (valued : selectValues before subject iter = .inr values)
    (unmatched : decidingCase before cases subject.field values = none) : Later before after fallback iter := by
  refine later.inside (fun ref read => .default valued unmatched read) fun loop inside => ?_
  exact List.mem_append_right _ inside

/-- A loop that has settled, or reads a child that runs, has not moved on. -/
theorem still (later : Later before after (.loop spec node) iter) (named : anchorMember node ≠ "")
    (unmoved : (evalNode before (.loop spec node) iter).1 = .inProgress →
      (before.loopProgress (anchorMember node)).iteration ≠ 0 ∧
        (evalNode before node (before.loopProgress (anchorMember node)).iteration).1.settled = false) :
    (after.loopProgress (anchorMember node)).iteration = (before.loopProgress (anchorMember node)).iteration := by
  have own : (spec, node) ∈ loops (.loop spec node) := by
    exact List.mem_append_right _ List.mem_cons_self
  rcases later.moved _ own named with still | ⟨_, starts⟩
  · exact still
  obtain ⟨progress, moved⟩ := starting_cases iter starts
  obtain ⟨started, running⟩ := unmoved progress
  rcases moved with unstarted | ended
  · exact absurd unstarted started
  · rw [running] at ended
    cases ended

end Later

theorem decidingCase_congr (parses : after.parseFloat = before.parseFloat) (cases : List (SelectCase ν × FlowNode ν))
    (field : String) (values : String → Option String) :
    decidingCase after cases field values = decidingCase before cases field values := by
  unfold decidingCase caseMatches
  rw [parses]

omit [LT ν] [LE ν] [DecidableRel fun a b : ν => a < b] [DecidableRel fun a b : ν => a ≤ b] in
theorem bound_of_counted {spec : LoopSpec} {progress other : LoopProgress} (counted : spec.counted = true)
    (same : other.iteration = progress.iteration) :
    loopBoundSatisfied after spec other = loopBoundSatisfied before spec progress := by
  obtain ⟨noUntil, untimed⟩ : spec.untilAnyOf.getD [] = [] ∧ spec.maxDurationSeconds = none := by
    simpa [LoopSpec.counted] using counted
  unfold loopBoundSatisfied
  rw [noUntil, untimed, same]
  rfl

theorem evalSequence_later (later : Later before after (.sequence nodes) iter)
    (each : ∀ node ∈ nodes, Later before after node iter → (evalNode before node iter).1.settled = true →
      (evalNode after node iter).1 = (evalNode before node iter).1)
    (settled : (evalSequence before nodes iter).1.settled = true) :
    (evalSequence after nodes iter).1 = (evalSequence before nodes iter).1 := by
  induction nodes with
  | nil => rfl
  | cons node nodes ih =>
    have here := @Later.sequence _ _ _ _ _ before after node iter [] nodes later fun _ member =>
      absurd member List.not_mem_nil
    have same := each node List.mem_cons_self here (settled_head settled)
    rw [evalSequence] at settled
    rw [evalSequence, evalSequence]
    rw [same]
    split_ifs at settled ⊢ with succeeded
    · refine ih (later.inside (fun ref read => read.tail succeeded) fun loop member => ?_)
        (fun other member => each other (List.mem_cons_of_mem _ member)) settled
      exact List.mem_append_right _ member
    · exact same

/-- A node whose loops are counted stays settled as it is. -/
theorem outcome_later (orderly : Orderly before node)
    (counted : ∀ loop ∈ loops node, loop.1.counted = true) (later : Later before after node iter)
    (settled : (evalNode before node iter).1.settled = true) :
    (evalNode after node iter).1 = (evalNode before node iter).1 := by
  induction node using FlowNode.children_induction generalizing iter with
  | empty => rw [evalNode, evalNode]
  | run member =>
    exact congrArg ChildState.outcome (later.kept _ (.run member iter) settled)
  | sequence nodes ih =>
    rw [loops, loopsOfNodes_eq] at counted
    exact evalSequence_later later
      (fun node member => ih node member (orderly.sequence member)
        fun loop inside => counted loop (List.mem_flatMap.mpr ⟨node, member, inside⟩)) settled
  | parallel spec branches ih =>
    rw [loops, loopsOfNodes_eq] at counted
    have same : ∀ branch ∈ branches, (evalNode after branch iter).1 = (evalNode before branch iter).1 := by
      intro branch member
      exact ih branch member (orderly.parallel member)
        (fun loop inside => counted loop (List.mem_flatMap.mpr ⟨branch, member, inside⟩)) (later.parallel member)
        (settled_branch settled member)
    rw [evalNode_parallel_fst, evalNode_parallel_fst, branchOutcomes_eq_map, branchOutcomes_eq_map,
      List.map_congr_left same]
  | loop spec body ih =>
    by_cases named : anchorMember body = ""
    · rw [evalNode_loop_fst, evalNode_loop_fst, if_pos named, if_pos named]
    by_cases started : (before.loopProgress (anchorMember body)).iteration = 0
    · rw [evalNode_loop_fst, if_neg named, if_pos started] at settled
      cases settled
    have still := later.still named fun running => by
      rw [running] at settled
      cases settled
    have inner := ih orderly.loop (fun loop inside => counted loop (List.mem_append_left _ inside))
      (later.loop named started) (settled_body named settled)
    have bound := @bound_of_counted _ before after _ _ _ (counted _ (List.mem_append_right _ List.mem_cons_self)) still
    rw [evalNode_loop_fst, evalNode_loop_fst, bound, still, inner]
  | select subject cases default ih fallback =>
    rw [loops, loopsOfCases_eq] at counted
    obtain ⟨_, same⟩ := evalNode_select before subject cases default iter
    obtain ⟨_, sameAfter⟩ := evalNode_select after subject cases default iter
    have producer := selectValues_settled orderly fun result waiting => by
      rw [same, waiting] at settled
      exact settled
    rw [sameAfter, same, selectValues_congr (later.kept _ .subject producer)]
    rw [same] at settled
    cases valued : selectValues before subject iter with
    | inl => rfl
    | inr values =>
      rw [valued] at settled
      dsimp only at settled ⊢
      rw [decidingCase_congr later.parses]
      cases chosen : decidingCase before cases subject.field values with
      | none =>
        rw [chosen] at settled
        exact fallback orderly.default (fun loop inside => counted loop (List.mem_append_right _ inside))
          (later.default valued chosen) settled
      | some case =>
        rw [chosen] at settled
        dsimp only at settled ⊢
        have member := List.mem_of_find?_eq_some chosen
        split_ifs at settled ⊢ with clause
        · rfl
        exact ih case member (orderly.case member)
          (fun loop inside => counted loop (List.mem_append_left _ (List.mem_flatMap.mpr ⟨case, member, inside⟩)))
          (later.case valued chosen (by simpa using clause)) settled

theorem Reads.later (reads : Reads before node iter ref)
    (orderly : Orderly before node) (later : Later before after node iter)
    (running : (before.child ref.member ref.iteration).outcome.settled = false) : Reads after node iter ref := by
  induction reads with
  | run member iter => exact .run member iter
  | @sequence earlier rest node iter ref succeeded inside ih =>
    have steady : ∀ other ∈ earlier, ∀ loop ∈ loops other, loop.1.counted = true := by
      have here := (orderly (.sequence (earlier ++ node :: rest)) (by rw [subnodes]; exact List.mem_cons_self)).1
      simp only [FlowNode.steady, List.dropLast_append_cons, List.all_append, Bool.and_eq_true, List.all_eq_true] at here
      exact here.1
    refine .sequence (fun other member => ?_) (ih (orderly.sequence (by simp)) (later.sequence succeeded) running)
    have sound := orderly.sequence (List.mem_append_left (node :: rest) member)
    have ended := succeeded other member
    have counted := steady other member
    obtain ⟨_, _, rfl⟩ := List.append_of_mem member
    rw [List.append_assoc] at later
    have here := later.sequence fun other member => succeeded other (List.mem_append_left _ member)
    exact (outcome_later sound counted here (by rw [ended]; rfl)).trans ended
  | parallel member inside ih => exact .parallel member (ih (orderly.parallel member) (later.parallel member) running)
  | @loop spec body iter ref named started inside ih =>
    -- a body that has settled reads no child that runs
    have unsettled : (evalNode before body (before.loopProgress (anchorMember body)).iteration).1.settled = false := by
      by_contra ended
      rw [inside.settled orderly.loop (by simpa using ended)] at running
      cases running
    have still := later.still named fun _ => ⟨started, unsettled⟩
    refine .loop named (by rw [still]; exact started) ?_
    rw [still]
    exact ih orderly.loop (later.loop named started) running
  | subject => exact .subject
  | @case subject cases default iter ref values case valued chosen evaluable inside ih =>
    have producer := selectValues_settled orderly fun result waiting => by
      rw [valued] at waiting
      cases waiting
    exact .case ((selectValues_congr (later.kept _ .subject producer)).trans valued)
      ((decidingCase_congr later.parses _ _ _).trans chosen) evaluable
      (ih (orderly.case (List.mem_of_find?_eq_some chosen)) (later.case valued chosen evaluable) running)
  | @default subject cases default iter ref values valued unmatched inside ih =>
    have producer := selectValues_settled orderly fun result waiting => by
      rw [valued] at waiting
      cases waiting
    exact .default ((selectValues_congr (later.kept _ .subject producer)).trans valued)
      ((decidingCase_congr later.parses _ _ _).trans unmatched)
      (ih orderly.default (later.default valued unmatched) running)

end Swarmada.Flow
