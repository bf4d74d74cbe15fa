import Mathlib.Data.List.Basic
import Swarmada.Flow.Evaluator

namespace Swarmada.Flow

variable {ν : Type}

mutual

/-- The loops of a tree, each after those of its body. -/
def loops : FlowNode ν → List (LoopSpec × FlowNode ν)
  | .empty => []
  | .run _ => []
  | .sequence nodes => loopsOfNodes nodes
  | .parallel _ branches => loopsOfNodes branches
  | .loop spec body => loops body ++ [(spec, body)]
  | .select _ cases default => loopsOfCases cases ++ loops default

def loopsOfNodes : List (FlowNode ν) → List (LoopSpec × FlowNode ν)
  | [] => []
  | node :: nodes => loops node ++ loopsOfNodes nodes

def loopsOfCases : List (SelectCase ν × FlowNode ν) → List (LoopSpec × FlowNode ν)
  | [] => []
  | (_, node) :: cases => loops node ++ loopsOfCases cases

end

theorem loopsOfNodes_eq (nodes : List (FlowNode ν)) : loopsOfNodes nodes = nodes.flatMap loops := by
  induction nodes with
  | nil => rfl
  | cons node nodes ih => rw [loopsOfNodes, ih, List.flatMap_cons]

theorem loopsOfCases_eq (cases : List (SelectCase ν × FlowNode ν)) :
    loopsOfCases cases = cases.flatMap fun case => loops case.2 := by
  induction cases with
  | nil => rfl
  | cons case cases ih => rw [loopsOfCases, ih, List.flatMap_cons]

mutual

/-- No loop is followed by other work, runs beside it or is nested. -/
def loopsLast : FlowNode ν → Bool
  | .empty => true
  | .run _ => true
  | .sequence nodes => lastLoops nodes
  | .parallel _ branches => (loopsOfNodes branches).isEmpty
  | .loop _ body => (loops body).isEmpty
  | .select _ cases default => loopsLastInCases cases && loopsLast default

def lastLoops : List (FlowNode ν) → Bool
  | [] => true
  | node :: nodes => if nodes.isEmpty then loopsLast node else (loops node).isEmpty && lastLoops nodes

def loopsLastInCases : List (SelectCase ν × FlowNode ν) → Bool
  | [] => true
  | (_, node) :: cases => loopsLast node && loopsLastInCases cases

end

theorem loopsLastInCases_eq (cases : List (SelectCase ν × FlowNode ν)) :
    loopsLastInCases cases = cases.all fun case => loopsLast case.2 := by
  induction cases with
  | nil => rfl
  | cons case cases ih => rw [loopsLastInCases, ih, List.all_cons]

def Effect.isReport : Effect → Bool
  | .settled _ => true
  | .startIteration _ _ => true
  | _ => false

def reports (effects : List Effect) : List Effect := effects.filter Effect.isReport

@[simp] theorem reports_nil : reports [] = [] := rfl

@[simp] theorem reports_append (first second : List Effect) : reports (first ++ second) = reports first ++ reports second :=
  List.filter_append _ _

variable (ctx : Context ν)

def OnlyCancels (effects : List Effect) : Prop := ∀ effect ∈ effects, ∃ ref, effect = .cancel ref

theorem OnlyCancels.nil : OnlyCancels [] := nofun

theorem OnlyCancels.append (here : OnlyCancels first) (there : OnlyCancels second) : OnlyCancels (first ++ second) := by
  intro effect member
  rcases List.mem_append.mp member with early | late
  · exact here effect early
  · exact there effect late

variable {effects : List Effect}

theorem OnlyCancels.reports (cancels : OnlyCancels effects) : reports effects = [] := by
  refine List.filter_eq_nil_iff.mpr fun effect member => ?_
  obtain ⟨_, rfl⟩ := cancels effect member
  exact Bool.false_ne_true

variable {nodes : List (FlowNode ν)} {iter : Nat}

theorem collectCancels_cancels
    (each : ∀ node ∈ nodes, OnlyCancels (collectCancel ctx node iter)) : OnlyCancels (collectCancels ctx nodes iter) := by
  induction nodes with
  | nil => exact .nil
  | cons node nodes ih =>
    exact (each node List.mem_cons_self).append (ih fun other member => each other (List.mem_cons_of_mem _ member))

variable {cases : List (SelectCase ν × FlowNode ν)}

theorem collectCancelCases_cancels (each : ∀ case ∈ cases, OnlyCancels (collectCancel ctx case.2 iter)) :
    OnlyCancels (collectCancelCases ctx cases iter) := by
  induction cases with
  | nil => exact .nil
  | cons case cases ih =>
    exact (each case List.mem_cons_self).append (ih fun other member => each other (List.mem_cons_of_mem _ member))

theorem collectCancel_cancels (node : FlowNode ν) (iter : Nat) : OnlyCancels (collectCancel ctx node iter) := by
  induction node using FlowNode.children_induction generalizing iter with
  | empty =>
    exact .nil
  | run =>
    rw [collectCancel]
    split_ifs
    · exact fun effect found => ⟨_, List.mem_singleton.mp found⟩
    · exact .nil
  | sequence nodes ih | parallel spec branches ih =>
    exact collectCancels_cancels ctx fun node member => ih node member iter
  | loop spec body ih =>
    rw [collectCancel]
    dsimp only
    split_ifs
    · exact .nil
    · exact ih _
    · exact .nil
  | select subject cases default ih fallback =>
    exact (collectCancelCases_cancels ctx fun case member => ih case member iter).append (fallback iter)

theorem cancelUnsettled_cancels (branches : List (FlowNode ν)) (outcomes : List Outcome) (iter : Nat) :
    OnlyCancels (cancelUnsettled ctx branches outcomes iter) := by
  intro effect member
  obtain ⟨pair, _, found⟩ := List.mem_flatMap.mp member
  exact collectCancel_cancels ctx pair.1 iter effect found

variable {result : Outcome × List Effect}

theorem selectValues_waiting (waiting : selectValues ctx subject iter = .inl result) :
    result = (.inProgress, [.ensure ⟨subject.Producer, iter⟩]) ∨ (∃ text, result = (.failed, [.diagnostic text])) ∨
      result = ((ctx.child subject.Producer iter).outcome, []) ∧ result.1 ≠ .succeeded := by
  unfold SelectSubject.Producer
  unfold selectValues at waiting
  cases event : subject.event with
  | none =>
    simp only [event] at waiting ⊢
    by_cases absent : (ctx.child subject.member iter).exist = false
    · rw [if_pos absent] at waiting
      cases waiting
      exact .inl rfl
    rw [if_neg absent] at waiting
    by_cases other : (ctx.child subject.member iter).outcome ≠ .succeeded
    · rw [if_pos other] at waiting
      cases waiting
      exact .inr (.inr ⟨rfl, other⟩)
    · rw [if_neg other] at waiting
      cases waiting
  | some =>
    simp only [event] at waiting ⊢
    by_cases absent : (ctx.child subject.producer iter).exist = false
    · rw [if_pos absent] at waiting
      cases waiting
      exact .inl rfl
    rw [if_neg absent] at waiting
    split at waiting
    · cases waiting
    by_cases running : (ctx.child subject.producer iter).outcome.settled = false
    · rw [if_pos running] at waiting
      cases waiting
      have : (ctx.child subject.producer iter).outcome = .inProgress := by
        cases same : (ctx.child subject.producer iter).outcome <;> simp [same] at running ⊢
      exact .inr (.inr ⟨by rw [this], by simp⟩)
    · rw [if_neg running] at waiting
      cases waiting
      exact .inr (.inl ⟨_, rfl⟩)

theorem selectValues_reports (waiting : selectValues ctx subject iter = .inl result) : reports result.2 = [] := by
  rcases selectValues_waiting ctx waiting with rfl | ⟨_, rfl⟩ | ⟨rfl, _⟩ <;> rfl

inductive Advance (spec : LoopSpec) (anchor : String) (iteration : Nat) (body : Outcome) : Outcome × List Effect → Prop
  | fails : Advance spec anchor iteration body (.failed, [])
  | cancels (stopped : body = .cancelled) : Advance spec anchor iteration body (.cancelled, [])
  | ends (ran : body ≠ .failed) (reached : spec.mode = .times → spec.times.getD 1 ≤ iteration) :
      Advance spec anchor iteration body (.succeeded, [])
  | again (ran : body ≠ .failed) (short : spec.mode = .times → iteration < spec.times.getD 1) :
      Advance spec anchor iteration body (.inProgress, [.startIteration anchor (iteration + 1)])

variable (spec : LoopSpec)

theorem loopNext_cases (anchor : String) (iteration : Nat) (exitReady : Bool) (body : Outcome) :
    Advance spec anchor iteration body (loopNext spec anchor iteration exitReady body) := by
  unfold loopNext
  by_cases failed : body = .failed
  · rw [if_pos failed]
    exact .fails
  by_cases stopped : body = .cancelled ∧ exitReady = false
  · rw [if_neg failed, if_pos stopped]
    exact .cancels stopped.1
  rw [if_neg failed, if_neg stopped]
  cases mode : spec.mode with
  | once => exact .ends failed fun same => by simp [mode] at same
  | times =>
    by_cases reached : spec.times.getD 1 ≤ iteration
    · rw [if_pos reached]
      exact .ends failed fun _ => reached
    · rw [if_neg reached]
      exact .again failed fun _ => not_le.mp reached
  | forever =>
    cases exitReady with
    | true => exact .ends failed fun same => by simp [mode] at same
    | false => exact .again failed fun same => by simp [mode] at same
  | other => exact .fails

theorem loopNext_effects (anchor : String) (iteration : Nat) (exitReady : Bool) (body : Outcome) :
    ((loopNext spec anchor iteration exitReady body).2 = [] ∧
      (loopNext spec anchor iteration exitReady body).1.settled = true) ∨
    loopNext spec anchor iteration exitReady body = (.inProgress, [.startIteration anchor (iteration + 1)]) := by
  have advanced := loopNext_cases spec anchor iteration exitReady body
  generalize loopNext spec anchor iteration exitReady body = next at advanced ⊢
  cases advanced with
  | fails | cancels | ends => exact .inl ⟨rfl, rfl⟩
  | again => exact .inr rfl

theorem loopNext_reports (anchor : String) (iteration : Nat) (exitReady : Bool) (body : Outcome) :
    reports (loopNext spec anchor iteration exitReady body).2 = (loopNext spec anchor iteration exitReady body).2 := by
  rcases loopNext_effects spec anchor iteration exitReady body with ⟨nothing, _⟩ | next
  · rw [nothing, reports_nil]
  · rw [next]
    rfl

variable [LT ν] [LE ν] [DecidableRel fun a b : ν => a < b] [DecidableRel fun a b : ν => a ≤ b]

def loopReport (loop : LoopSpec × FlowNode ν) : List Effect :=
  let anchor := anchorMember loop.2
  if anchor = "" then []
  else
    let progress := ctx.loopProgress anchor
    if progress.iteration = 0 then [.startIteration anchor 1]
    else
      let body := (evalNode ctx loop.2 progress.iteration).1
      if body.settled = false then []
      else
        .settled ⟨anchor, progress.iteration, body⟩ ::
          (loopNext loop.1 anchor progress.iteration (loopBoundSatisfied ctx loop.1 progress) body).2

theorem loopReport_cases (loop : LoopSpec × FlowNode ν) : loopReport ctx loop = [] ∨
    ((ctx.loopProgress (anchorMember loop.2)).iteration = 0 ∧
      loopReport ctx loop = [.startIteration (anchorMember loop.2) 1]) ∨
    ∃ iteration outcome, (ctx.loopProgress (anchorMember loop.2)).iteration = iteration ∧ 0 < iteration ∧
      (loopReport ctx loop = [.settled ⟨anchorMember loop.2, iteration, outcome⟩] ∨
        loopReport ctx loop = [.settled ⟨anchorMember loop.2, iteration, outcome⟩,
          .startIteration (anchorMember loop.2) (iteration + 1)]) := by
  unfold loopReport
  dsimp only
  split_ifs with nameless unstarted running
  · exact .inl rfl
  · exact .inr (.inl ⟨unstarted, rfl⟩)
  · exact .inl rfl
  refine .inr (.inr ⟨_, (evalNode ctx loop.2 (ctx.loopProgress (anchorMember loop.2)).iteration).1, rfl,
    Nat.pos_of_ne_zero unstarted, ?_⟩)
  rcases loopNext_effects loop.1 (anchorMember loop.2) (ctx.loopProgress (anchorMember loop.2)).iteration
    (loopBoundSatisfied ctx loop.1 (ctx.loopProgress (anchorMember loop.2)))
    (evalNode ctx loop.2 (ctx.loopProgress (anchorMember loop.2)).iteration).1 with ⟨nothing, _⟩ | next
  · exact .inl (by rw [nothing])
  · exact .inr (by rw [next])

inductive LoopCases (spec : LoopSpec) (body : FlowNode ν) : Outcome × List Effect → Prop
  | nameless (anchor : anchorMember body = "") : LoopCases spec body (.succeeded, [])
  | unstarted (named : anchorMember body ≠ "") (zero : (ctx.loopProgress (anchorMember body)).iteration = 0) :
      LoopCases spec body (.inProgress, [.startIteration (anchorMember body) 1])
  | running (named : anchorMember body ≠ "") (started : (ctx.loopProgress (anchorMember body)).iteration ≠ 0)
      (interrupts : List Effect)
      (quiet : OnlyCancels interrupts)
      (unsettled : (evalNode ctx body (ctx.loopProgress (anchorMember body)).iteration).1.settled = false) :
      LoopCases spec body
        (.inProgress, interrupts ++ (evalNode ctx body (ctx.loopProgress (anchorMember body)).iteration).2)
  | settled (named : anchorMember body ≠ "") (started : (ctx.loopProgress (anchorMember body)).iteration ≠ 0)
      (interrupts : List Effect)
      (quiet : OnlyCancels interrupts)
      (ended : (evalNode ctx body (ctx.loopProgress (anchorMember body)).iteration).1.settled = true)
      (next : Outcome × List Effect)
      (advance : loopNext spec (anchorMember body) (ctx.loopProgress (anchorMember body)).iteration
        (loopBoundSatisfied ctx spec (ctx.loopProgress (anchorMember body)))
        (evalNode ctx body (ctx.loopProgress (anchorMember body)).iteration).1 = next) :
      LoopCases spec body
        (next.1, interrupts ++ (evalNode ctx body (ctx.loopProgress (anchorMember body)).iteration).2 ++
          [.settled ⟨anchorMember body, (ctx.loopProgress (anchorMember body)).iteration,
            (evalNode ctx body (ctx.loopProgress (anchorMember body)).iteration).1⟩] ++ next.2)

theorem evalNode_loop_cases (body : FlowNode ν) (iter : Nat) :
    LoopCases ctx spec body (evalNode ctx (.loop spec body) iter) := by
  have quiet (condition : Bool) (iter : Nat) :
      OnlyCancels (if condition = true then collectCancel ctx body iter else []) := by
    cases condition with
    | true => exact collectCancel_cancels ctx body iter
    | false => exact .nil
  rw [evalNode]
  by_cases nameless : anchorMember body = ""
  · rw [if_pos nameless]
    exact .nameless nameless
  rw [if_neg nameless]
  by_cases unstarted : (ctx.loopProgress (anchorMember body)).iteration = 0
  · rw [if_pos unstarted]
    exact .unstarted nameless unstarted
  rw [if_neg unstarted]
  by_cases running : (evalNode ctx body (ctx.loopProgress (anchorMember body)).iteration).1.settled = false
  · rw [if_pos running]
    exact .running nameless unstarted _ (quiet _ _) running
  · rw [if_neg running]
    exact .settled nameless unstarted _ (quiet _ _) (by simpa using running) _ rfl

theorem evalNode_loop_reports (body : FlowNode ν) (iter : Nat) :
    (reports (evalNode ctx (.loop spec body) iter).2 = loopReport ctx (spec, body)) ∨
    reports (evalNode ctx (.loop spec body) iter).2 =
      reports (evalNode ctx body (ctx.loopProgress (anchorMember body)).iteration).2 ++ loopReport ctx (spec, body) := by
  unfold loopReport
  have evaluated := evalNode_loop_cases ctx spec body iter
  generalize evalNode ctx (.loop spec body) iter = result at evaluated ⊢
  cases evaluated with
  | nameless anchor =>
    rw [if_pos anchor]
    exact .inl rfl
  | unstarted named zero =>
    rw [if_neg named, if_pos zero]
    exact .inl rfl
  | running named started _ quiet unsettled =>
    rw [if_neg named, if_neg started, if_pos unsettled, reports_append, quiet.reports]
    exact .inr (List.append_nil _).symm
  | settled named started _ quiet ended _ advance =>
    subst advance
    rw [if_neg named, if_neg started, if_neg (by simp [ended])]
    simp only [reports_append, quiet.reports, List.nil_append, loopNext_reports, List.append_assoc]
    exact .inr rfl

def ReportsOf (loops : List (LoopSpec × FlowNode ν)) (effects : List Effect) : Prop :=
  ∃ visited : List (LoopSpec × FlowNode ν), visited.Sublist loops ∧ reports effects = visited.flatMap (loopReport ctx)

theorem ReportsOf.mono
    (reported : ReportsOf ctx fewer effects) (included : fewer.Sublist more) : ReportsOf ctx more effects := by
  obtain ⟨visited, sub, same⟩ := reported
  exact ⟨visited, sub.trans included, same⟩

theorem ReportsOf.of_nil {loops : List (LoopSpec × FlowNode ν)} (silent : reports effects = []) :
    ReportsOf ctx loops effects :=
  ⟨[], List.nil_sublist _, silent⟩

theorem ReportsOf.append (earlier : ReportsOf ctx first before) (later : ReportsOf ctx second after) :
    ReportsOf ctx (first ++ second) (before ++ after) := by
  obtain ⟨visited, sub, same⟩ := earlier
  obtain ⟨others, subs, sames⟩ := later
  exact ⟨visited ++ others, sub.append subs, by rw [reports_append, same, sames, List.flatMap_append]⟩

def decidingCase (cases : List (SelectCase ν × FlowNode ν)) (field : String) (values : String → Option String) :
    Option (SelectCase ν × FlowNode ν) :=
  cases.find? fun case => case.1.when.isSome || caseMatches ctx case.1 field values

theorem evalCases_eq (cases : List (SelectCase ν × FlowNode ν)) (i : Nat) (field : String)
    (values : String → Option String) (iter : Nat) :
    ∃ text, evalCases ctx cases i field values iter = (decidingCase ctx cases field values).map fun case =>
      if case.1.when.isSome then (.failed, [.diagnostic text]) else evalNode ctx case.2 iter := by
  induction cases generalizing i with
  | nil => exact ⟨"", rfl⟩
  | cons case cases ih =>
    obtain ⟨text, later⟩ := ih (i + 1)
    rw [evalCases, decidingCase, List.find?_cons]
    cases clause : case.1.when with
    | some when => exact ⟨unevaluableWhenDiagnostic i when, by simp [clause]⟩
    | none =>
      refine ⟨text, ?_⟩
      cases matched : caseMatches ctx case.1 field values with
      | true => simp [clause]
      | false =>
        unfold decidingCase at later
        simpa using later

variable {field : String} {values : String → Option String}

theorem evalCases_mem (chosen : evalCases ctx cases i field values iter = some result) :
    (∃ text, result = (.failed, [.diagnostic text])) ∨ ∃ case ∈ cases, result = evalNode ctx case.2 iter := by
  obtain ⟨text, same⟩ := evalCases_eq ctx cases i field values iter
  obtain ⟨case, decided, rfl⟩ := Option.map_eq_some_iff.mp (same.symm.trans chosen)
  split_ifs
  · exact .inl ⟨text, rfl⟩
  · exact .inr ⟨case, List.mem_of_find?_eq_some decided, rfl⟩

theorem evalSequence_reports (each : ∀ node ∈ nodes, ReportsOf ctx (loops node) (evalNode ctx node iter).2) :
    ReportsOf ctx (loopsOfNodes nodes) (evalSequence ctx nodes iter).2 := by
  induction nodes with
  | nil => exact .of_nil ctx rfl
  | cons node nodes ih =>
    have first := each node List.mem_cons_self
    have rest := ih fun other member => each other (List.mem_cons_of_mem _ member)
    rw [evalSequence, loopsOfNodes]
    split_ifs
    · exact first.append ctx rest
    · exact first.mono ctx (List.sublist_append_left _ _)

theorem evalBranches_reports {branches : List (FlowNode ν)}
    (each : ∀ branch ∈ branches, ReportsOf ctx (loops branch) (evalNode ctx branch iter).2) :
    ReportsOf ctx (loopsOfNodes branches) ((evalBranches ctx branches iter).flatMap Prod.snd) := by
  induction branches with
  | nil => exact .of_nil ctx rfl
  | cons branch branches ih =>
    exact (each branch List.mem_cons_self).append ctx (ih fun other member => each other (List.mem_cons_of_mem _ member))

theorem evalCases_reports {i : Nat} (each : ∀ case ∈ cases, ReportsOf ctx (loops case.2) (evalNode ctx case.2 iter).2)
    (chosen : evalCases ctx cases i field values iter = some result) : ReportsOf ctx (loopsOfCases cases) result.2 := by
  rcases evalCases_mem ctx chosen with ⟨_, rfl⟩ | ⟨case, member, rfl⟩
  · exact .of_nil ctx rfl
  refine (each case member).mono ctx ?_
  rw [loopsOfCases_eq]
  exact List.sublist_flatten_of_mem (List.mem_map_of_mem member)

theorem evalNode_reports (node : FlowNode ν) (iter : Nat) : ReportsOf ctx (loops node) (evalNode ctx node iter).2 := by
  induction node using FlowNode.children_induction generalizing iter with
  | empty => exact .of_nil ctx (by rw [evalNode]; rfl)
  | run =>
    refine .of_nil ctx ?_
    rw [evalNode]
    unfold evalRun
    dsimp only
    split_ifs <;> rfl
  | sequence nodes ih =>
    exact evalSequence_reports ctx fun node member => ih node member iter
  | parallel spec branches ih =>
    have branchReports := evalBranches_reports ctx fun branch member => ih branch member iter
    rw [evalNode, loops]
    obtain ⟨visited, sub, same⟩ := branchReports
    refine ⟨visited, sub, ?_⟩
    rw [reports_append, same]
    split_ifs
    · rw [(cancelUnsettled_cancels ctx _ _ _).reports, List.append_nil]
    · rw [reports_nil, List.append_nil]
  | loop spec body ih =>
    rcases evalNode_loop_reports ctx spec body iter with own | both
    · exact ⟨[(spec, body)], List.sublist_append_right _ _, by rw [own, List.flatMap_singleton]⟩
    obtain ⟨visited, sub, same⟩ := ih (ctx.loopProgress (anchorMember body)).iteration
    refine ⟨visited ++ [(spec, body)], sub.append (.refl _), ?_⟩
    rw [both, same, List.flatMap_append, List.flatMap_singleton]
  | select subject cases default ih fallback =>
    rw [evalNode, loops]
    split
    next result waiting =>
      exact .of_nil ctx (selectValues_reports ctx waiting)
    split
    next result chosen =>
      exact (evalCases_reports ctx (fun case member => ih case member iter) chosen).mono ctx
        (List.sublist_append_left _ _)
    · exact (fallback iter).mono ctx (List.sublist_append_right _ _)

def LastReport (result : Outcome × List Effect) : Prop :=
  reports result.2 = [] ∨
    ∃ loop, reports result.2 = loopReport ctx loop ∧ result.1 = (evalNode ctx (.loop loop.1 loop.2) 0).1

theorem reports_eq_nil_of_loopless (loopless : (loops node).isEmpty = true) (iter : Nat) :
    reports (evalNode ctx node iter).2 = [] := by
  obtain ⟨_, sub, same⟩ := evalNode_reports ctx node iter
  rw [List.isEmpty_iff.mp loopless] at sub
  rw [same, List.sublist_nil.mp sub]
  rfl

theorem evalSequence_last (last : lastLoops nodes = true)
    (each : ∀ node ∈ nodes, loopsLast node = true → LastReport ctx (evalNode ctx node iter)) :
    LastReport ctx (evalSequence ctx nodes iter) := by
  induction nodes with
  | nil => exact .inl rfl
  | cons node nodes ih =>
    rw [lastLoops] at last
    rw [evalSequence]
    cases nodes with
    | nil =>
      have here := each node List.mem_cons_self last
      dsimp only
      split_ifs with succeeded
      · rw [evalSequence, List.append_nil]
        unfold LastReport at here ⊢
        rw [succeeded] at here
        exact here
      · exact here
    | cons =>
      simp only [List.isEmpty_cons, Bool.false_eq_true, if_false, Bool.and_eq_true] at last
      have silent := reports_eq_nil_of_loopless ctx last.1 iter
      split_ifs
      · have later := ih last.2 fun other member => each other (List.mem_cons_of_mem _ member)
        unfold LastReport at later ⊢
        rw [reports_append, silent, List.nil_append]
        exact later
      · exact .inl silent

theorem evalCases_last (last : loopsLastInCases cases = true)
    (each : ∀ case ∈ cases, loopsLast case.2 = true → LastReport ctx (evalNode ctx case.2 iter))
    (chosen : evalCases ctx cases i field values iter = some result) : LastReport ctx result := by
  rcases evalCases_mem ctx chosen with ⟨_, rfl⟩ | ⟨case, member, rfl⟩
  · exact .inl rfl
  · rw [loopsLastInCases_eq] at last
    exact each case member (List.all_eq_true.mp last case member)

theorem evalNode_last (last : loopsLast node = true) (iter : Nat) : LastReport ctx (evalNode ctx node iter) := by
  induction node using FlowNode.children_induction generalizing iter with
  | empty | run => exact .inl (reports_eq_nil_of_loopless ctx rfl iter)
  | sequence nodes ih =>
    exact evalSequence_last ctx last fun node member nodeLast => ih node member nodeLast iter
  | parallel spec branches ih =>
    exact .inl (reports_eq_nil_of_loopless ctx (by rw [loops]; exact last) iter)
  | loop spec body ih =>
    refine .inr ⟨(spec, body), ?_, by simp only [evalNode]⟩
    rcases evalNode_loop_reports ctx spec body iter with own | both
    · exact own
    · rw [both, reports_eq_nil_of_loopless ctx last, List.nil_append]
  | select subject cases default ih fallback =>
    rw [loopsLast, Bool.and_eq_true] at last
    rw [evalNode]
    split
    next result waiting =>
      exact .inl (selectValues_reports ctx waiting)
    split
    next result chosen =>
      exact evalCases_last ctx last.1 (fun case member caseLast => ih case member caseLast iter) chosen
    · exact fallback last.2 iter

theorem settled_of_loopReport (iter : Nat)
    (report : loopReport ctx loop = [.settled settlement]) : (evalNode ctx (.loop loop.1 loop.2) iter).1.settled = true := by
  unfold loopReport at report
  have evaluated := evalNode_loop_cases ctx loop.1 loop.2 iter
  generalize evalNode ctx (.loop loop.1 loop.2) iter = result at evaluated ⊢
  cases evaluated with
  | nameless => rfl
  | unstarted named zero =>
    rw [if_neg named, if_pos zero] at report
    cases report
  | running named started _ _ unsettled =>
    rw [if_neg named, if_neg started, if_pos unsettled] at report
    cases report
  | settled named started _ _ ended next advance =>
    rw [if_neg named, if_neg started, if_neg (by simp [ended])] at report
    have noStart := (List.cons.inj report).2
    subst advance
    rcases loopNext_effects loop.1 (anchorMember loop.2) (ctx.loopProgress (anchorMember loop.2)).iteration
      (loopBoundSatisfied ctx loop.1 (ctx.loopProgress (anchorMember loop.2)))
      (evalNode ctx loop.2 (ctx.loopProgress (anchorMember loop.2)).iteration).1 with ⟨_, settled⟩ | next
    · exact settled
    · rw [next] at noStart
      cases noStart

end Swarmada.Flow
