import Swarmada.TaskController.Passes

namespace Swarmada.TaskController

open Api Flow Transition

def countedOf (anchor : String) (history : List Event) : List Nat :=
  history.filterMap fun
    | .counted settlement => if settlement.anchorMember = anchor then some settlement.iteration else none
    | _ => none

def startedOf (anchor : String) (history : List Event) : List Nat :=
  history.filterMap fun
    | .started name iteration => if name = anchor then some iteration else none
    | _ => none

def countdown : Nat → List Nat
  | 0 => []
  | n + 1 => (n + 1) :: countdown n

theorem countedOf_append (anchor : String) (later earlier : List Event) :
    countedOf anchor (later ++ earlier) = countedOf anchor later ++ countedOf anchor earlier := by
  unfold countedOf
  rw [List.filterMap_append]

theorem startedOf_append (anchor : String) (later earlier : List Event) :
    startedOf anchor (later ++ earlier) = startedOf anchor later ++ startedOf anchor earlier := by
  unfold startedOf
  rw [List.filterMap_append]

theorem countedOf_created (anchor : String) (created : List Ref) : countedOf anchor (created.map .created) = [] := by
  induction created with
  | nil => rfl
  | cons ref created ih => exact ih

theorem startedOf_created (anchor : String) (created : List Ref) : startedOf anchor (created.map .created) = [] := by
  induction created with
  | nil => rfl
  | cons ref created ih => exact ih

theorem countedOf_started (anchor : String) (starts : List (String × Nat)) :
    countedOf anchor (starts.map fun (a, n) => Event.started a n).reverse = [] := by
  rw [countedOf, List.filterMap_reverse, List.filterMap_map]
  simp

theorem startedOf_counted (anchor : String) (settled : List IterationSettlement) :
    startedOf anchor (settled.map Event.counted).reverse = [] := by
  rw [startedOf, List.filterMap_reverse, List.filterMap_map]
  simp

theorem countedOf_counted (anchor : String) (effects : List Effect) :
    countedOf anchor ((settlements effects).map Event.counted).reverse =
      ((settlementsAt anchor effects).map IterationSettlement.iteration).reverse := by
  rw [countedOf, List.filterMap_reverse, List.filterMap_map, settlementsAt, ← List.filterMap_eq_map, List.filterMap_filter]
  congr 2
  funext settlement
  by_cases same : settlement.anchorMember = anchor <;> simp [same]

theorem startedOf_started (anchor : String) (effects : List Effect) :
    startedOf anchor ((starts effects).map fun (a, n) => Event.started a n).reverse =
      ((startsAt anchor effects).map Prod.snd).reverse := by
  rw [startedOf, List.filterMap_reverse, List.filterMap_map, startsAt, ← List.filterMap_eq_map, List.filterMap_filter]
  congr 2
  funext start
  by_cases same : start.1 = anchor <;> simp [same]

/-- Exactly the iterations up to the recorded total have been counted, each once, and that is all
started ones but perhaps the current one. -/
structure Exact (history : List Event) (status : FleetTaskActionStatus) (anchor : String) : Prop where
  counted : countedOf anchor history = countdown status.iterationsCompleted
  started : startedOf anchor history = countdown status.iteration
  reached : status.iterationsCompleted ≤ status.iteration
  behind : status.iteration ≤ status.iterationsCompleted + 1

variable {history : List Event} {anchor : String}

theorem Exact.of_quiet
    (exact : Exact history status anchor) (counted : countedOf anchor later = []) (started : startedOf anchor later = []) :
    Exact (later ++ history) status anchor where
  counted := by rw [countedOf_append, counted, List.nil_append, exact.counted]
  started := by rw [startedOf_append, started, List.nil_append, exact.started]
  reached := exact.reached
  behind := exact.behind

theorem Exact.written (exact : Exact history before anchor) (step : MemberStep anchor effects before after)
    (uncounted : 0 < before.iteration → settlementsAt anchor effects ≠ [] → before.iterationsCompleted < before.iteration)
    (counted : countedOf anchor later = ((settlementsAt anchor effects).map IterationSettlement.iteration).reverse)
    (started : startedOf anchor later = ((startsAt anchor effects).map Prod.snd).reverse) :
    Exact (later ++ history) after anchor := by
  have reached := exact.reached
  have behind := exact.behind
  cases step with
  | silent noStart unsettled iteration completed =>
    rw [noStart] at started
    rw [unsettled] at counted
    exact
      { counted := by rw [countedOf_append, counted, exact.counted, completed]; rfl
        started := by rw [startedOf_append, started, exact.started, iteration]; rfl
        reached := by omega
        behind := by omega }
  | first unstarted start unsettled iteration completed =>
    rw [start] at started
    rw [unsettled] at counted
    exact
      { counted := by rw [countedOf_append, counted, exact.counted, completed]; rfl
        started := by rw [startedOf_append, started, exact.started, unstarted, iteration]; rfl
        reached := by omega
        behind := by omega }
  | ends _ running noStart settled iteration completed =>
    have pending := uncounted running (by rw [settled]; exact List.cons_ne_nil _ _)
    have current : before.iteration = before.iterationsCompleted + 1 := by omega
    rw [noStart] at started
    rw [settled] at counted
    exact
      { counted := by rw [countedOf_append, counted, exact.counted, completed, current]; rfl
        started := by rw [startedOf_append, started, exact.started, iteration]; rfl
        reached := by omega
        behind := by omega }
  | next _ running start settled iteration completed =>
    have pending := uncounted running (by rw [settled]; exact List.cons_ne_nil _ _)
    have current : before.iteration = before.iterationsCompleted + 1 := by omega
    rw [start] at started
    rw [settled] at counted
    exact
      { counted := by rw [countedOf_append, counted, exact.counted, completed, current]; rfl
        started := by rw [startedOf_append, started, exact.started, iteration]; rfl
        reached := by omega
        behind := by omega }

variable {ν : Type}

/-- No two loops of the tree count on the same member. -/
def DistinctAnchors (flow : FlowNode ν) : Prop := OneEach (loops flow)

/-- The current iteration of every loop that has started is yet to be counted. -/
def Uncounted (task : FleetTask ν) : Prop :=
  ∀ loop ∈ loops task.flow, 0 < (task.actions (anchorMember loop.2)).iteration →
    (task.actions (anchorMember loop.2)).iterationsCompleted < (task.actions (anchorMember loop.2)).iteration

/-- Either every loop stands last, or each pass finds no loop whose current iteration was counted. -/
def Countable (_ : List Event) (state : State ν) : Label → Prop
  | .child _ _ => True
  | .pass _ => loopsLast state.task.flow = true ∨ (DistinctAnchors state.task.flow ∧ Uncounted state.task)

variable [LT ν] [LE ν] [DecidableRel fun a b : ν => a < b] [DecidableRel fun a b : ν => a ≤ b]

theorem anchor_of_settled {visited : List (LoopSpec × FlowNode ν)}
    (reported : reports effects = visited.flatMap (loopReport ctx))
    (settled : settlementsAt anchor effects ≠ []) : ∃ loop ∈ visited, anchorMember loop.2 = anchor := by
  by_contra absent
  have : anchor ∉ visited.map fun loop => anchorMember loop.2 := by
    rintro member
    obtain ⟨loop, inside, same⟩ := List.mem_map.mp member
    exact absent ⟨loop, inside, same⟩
  apply settled
  rw [settlementsAt, ← settlements_reports, reported]
  exact (startsAt_flatMap_of_absent ctx this).2

/-- What the passes keep.  In a tree whose loops stand last, a loop without an iteration to count
has ended the task. -/
structure Counted (flow : FlowNode ν) (history : List Event) (state : State ν) : Prop where
  tree : state.task.flow = flow
  exact : ∀ anchor, Exact history (state.task.actions anchor) anchor
  ended : loopsLast flow = true → ∀ anchor,
    (state.task.actions anchor).iterationsCompleted = (state.task.actions anchor).iteration →
    (state.task.actions anchor).iteration = 0 ∨ isGroupTerminal state.task.phase = true

theorem isGroupTerminal_phaseOf (settled : outcome.settled = true) : isGroupTerminal (phaseOf outcome) = true := by
  cases outcome with
  | inProgress => cases settled
  | succeeded | failed | cancelled => rfl

theorem settled_of_ends {ctx : Context ν} (last : LastReport ctx result) (noStart : startsAt anchor result.2 = [])
    (settled : settlementsAt anchor result.2 ≠ []) : result.1.settled = true := by
  have noStart' : startsAt anchor (reports result.2) = [] := by rw [startsAt, starts_reports]; exact noStart
  have settled' : settlementsAt anchor (reports result.2) ≠ [] := by
    rw [settlementsAt, settlements_reports]
    exact settled
  rcases last with silent | ⟨loop, same, outcome⟩
  · rw [silent] at settled'
    exact absurd rfl settled'
  rw [same] at noStart' settled'
  rw [outcome]
  have here : anchorMember loop.2 = anchor := by
    by_contra other
    exact settled' (loopReport_elsewhere ctx other).2
  rcases loopReport_cases ctx loop with silent | ⟨_, first⟩ | ⟨_, _, _, _, ended | again⟩
  · rw [silent] at settled'
    exact absurd rfl settled'
  · rw [first] at settled'
    exact absurd rfl settled'
  · exact settled_of_loopReport ctx 0 ended
  · rw [again] at noStart'
    simp [startsAt, starts, here] at noStart'

variable {parseFloat : String → Option ν} {flow : FlowNode ν}

variable {state : State ν}

theorem Counted.visited (parseFloat : String → Option ν)
    (counted : Counted flow history state) (running : isGroupTerminal state.task.phase = false)
    (countable : Countable history state (.pass answers)) :
    ∃ visited : List (LoopSpec × FlowNode ν), OneEach visited ∧
      reports (evaluate (state.context parseFloat answers.now) state.task.flow).2 =
        visited.flatMap (loopReport (state.context parseFloat answers.now)) ∧
      ∀ loop ∈ visited, 0 < (state.task.actions (anchorMember loop.2)).iteration →
        (state.task.actions (anchorMember loop.2)).iterationsCompleted <
          (state.task.actions (anchorMember loop.2)).iteration := by
  rcases countable with last | ⟨distinct, uncounted⟩
  · have pending (anchor : String) (started : 0 < (state.task.actions anchor).iteration) :
        (state.task.actions anchor).iterationsCompleted < (state.task.actions anchor).iteration := by
      refine lt_of_le_of_ne (counted.exact anchor).reached fun level => ?_
      rcases counted.ended (counted.tree ▸ last) anchor level with _ | terminal
      · omega
      · rw [running] at terminal
        cases terminal
    rcases evalNode_last (state.context parseFloat answers.now) last 0 with silent | ⟨loop, same, _⟩
    · exact ⟨[], fun _ _ => Nat.zero_le _, silent, nofun⟩
    · exact ⟨[loop], fun _ _ => List.count_le_length, same.trans (List.flatMap_singleton _ _).symm,
        fun other _ => pending (anchorMember other.2)⟩
  · obtain ⟨visited, sub, same⟩ := evalNode_reports (state.context parseFloat answers.now) state.task.flow 0
    exact ⟨visited, distinct.of_sublist sub, same, fun loop member => uncounted loop (sub.subset member)⟩

theorem Counted.pass {events : List Event}
    (counted : Counted flow history state) (running : isGroupTerminal state.task.phase = false)
    (countable : Countable history state (.pass answers)) (taken : PassCases parseFloat answers state after events) :
    Counted flow (events ++ history) after := by
  have level (last : loopsLast flow = true) (anchor : String)
      (same : (state.task.actions anchor).iterationsCompleted = (state.task.actions anchor).iteration) :
      (state.task.actions anchor).iteration = 0 := by
    rcases counted.ended last anchor same with zero | terminal
    · exact zero
    · rw [running] at terminal
      cases terminal
  cases taken with
  | refused sameFlow _ actions _ _ emitted =>
    subst emitted
    refine ⟨sameFlow.trans counted.tree, fun anchor => ?_, fun last anchor same => ?_⟩
    · rw [actions]
      exact counted.exact anchor
    · rw [actions] at same ⊢
      exact .inl (level last anchor same)
  | unwritten task _ emitted =>
    subst emitted
    rw [← task] at level
    refine ⟨task ▸ counted.tree, fun anchor => ?_, fun last anchor same => .inl (level last anchor same)⟩
    rw [task]
    exact (counted.exact anchor).of_quiet (countedOf_created anchor _) (startedOf_created anchor _)
  | written read sameFlow _ actions _ phase emitted =>
    subst emitted
    obtain ⟨_, each, reported, pending⟩ := counted.visited parseFloat running countable
    have step (anchor : String) : MemberStep anchor (evaluate (state.context parseFloat answers.now) state.task.flow).2
        (state.task.actions anchor) (after.task.actions anchor) := by
      rw [actions]
      exact memberStep_of_report (oneReport_of_reports reported each anchor)
        (written_advanced state.task read answers.now state.task.actions _ anchor)
    have uncounted (anchor : String) (started : 0 < (state.task.actions anchor).iteration)
        (settled : settlementsAt anchor (evaluate (state.context parseFloat answers.now) state.task.flow).2 ≠ []) :
        (state.task.actions anchor).iterationsCompleted < (state.task.actions anchor).iteration := by
      obtain ⟨loop, inside, rfl⟩ := anchor_of_settled reported settled
      exact pending loop inside started
    refine ⟨sameFlow.trans counted.tree, fun anchor => ?_, fun last anchor same => ?_⟩
    · refine (counted.exact anchor).written (step anchor) (uncounted anchor) ?_ ?_
      · rw [countedOf_append, countedOf_append, countedOf_created, countedOf_started, countedOf_counted,
          List.append_nil, List.append_nil]
      · rw [startedOf_append, startedOf_append, startedOf_created, startedOf_counted, startedOf_started,
          List.append_nil, List.nil_append]
    have reached := (counted.exact anchor).reached
    cases step anchor with
    | silent =>
      have zero := level last anchor (by omega)
      exact .inl (by omega)
    | first => omega
    | ends _ _ noStart settled =>
      have lastReport := evalNode_last (state.context parseFloat answers.now) (counted.tree ▸ last) 0
      have settled := settled_of_ends lastReport noStart (by rw [evaluate] at settled; rw [settled]; exact List.cons_ne_nil _ _)
      exact .inr (phase ▸ isGroupTerminal_phaseOf settled)
    | next _ started _ settled =>
      have pending := uncounted anchor started (by rw [settled]; exact List.cons_ne_nil _ _)
      omega

theorem counted_of_reaches
    (run : (flowRuns parseFloat).Reaches Countable (fresh members flow) history state) : Counted flow history state := by
  refine flowRuns_invariant (Counted flow) ?_ ?_ ?_ run
  · exact ⟨rfl, fun _ => ⟨rfl, rfl, Nat.le_refl _, Nat.zero_le _⟩, fun _ _ _ => .inl rfl⟩
  · intro history state ref next child counted _ _ _
    refine ⟨counted.tree, fun anchor => (counted.exact anchor).of_quiet ?_ ?_, counted.ended⟩
    · split_ifs <;> rfl
    · split_ifs <;> rfl
  · intro history state answers after events counted countable running taken
    exact counted.pass running countable taken

/-- Every run whose passes all meet the condition has counted the iterations up to the recorded total of each loop,
each once: all the started ones but perhaps the current one. -/
theorem iterations_counted_once {members : List String} {history : List Event} {state : State ν}
    (run : (flowRuns parseFloat).Reaches Countable (fresh members flow) history state) (anchor : String) :
    countedOf anchor history = countdown (state.task.actions anchor).iterationsCompleted ∧
    startedOf anchor history = countdown (state.task.actions anchor).iteration ∧
    (state.task.actions anchor).iterationsCompleted ≤ (state.task.actions anchor).iteration ∧
    (state.task.actions anchor).iteration ≤ (state.task.actions anchor).iterationsCompleted + 1 := by
  obtain ⟨counted, started, reached, behind⟩ := (counted_of_reaches run).exact anchor
  exact ⟨counted, started, reached, behind⟩

theorem reaches_countable_of_loopsLast (last : loopsLast flow = true)
    (run : (flowRuns parseFloat).Reaches Machine.unrestricted (fresh members flow) history state) :
    (flowRuns parseFloat).Reaches Countable (fresh members flow) history state := by
  induction run with
  | start => exact .start
  | @step _ _ _ label _ _ _ taken before =>
    refine .step before ?_ taken
    cases label with
    | child => trivial
    | pass =>
      refine .inl ?_
      rw [(counted_of_reaches before).tree]
      exact last

def patrol : FlowNode Nat := .loop { mode := .times, times := some 2 } (.run "a")

def undisturbed : Label := .pass { now := 0 }

def succeeds (member : String) (iteration : Nat) : Label := .child ⟨member, iteration⟩ { phase := .succeeded }

def reading (config : State Nat × List Event) : List Event × Nat × Nat × FleetTaskPhase :=
  (config.2, (config.1.task.actions "a").iteration, (config.1.task.actions "a").iterationsCompleted, config.1.task.phase)

theorem iterations_counted_once_patrol :
    ∃ state history, (flowRuns fun _ => none).Reaches Countable (fresh ["a"] patrol) history state ∧
      reading (state, history) =
        ([.counted ⟨"a", 2, .succeeded⟩, .finished ⟨"a", 2⟩ .succeeded, .created ⟨"a", 2⟩,
          .counted ⟨"a", 1, .succeeded⟩, .started "a" 2, .finished ⟨"a", 1⟩ .succeeded, .created ⟨"a", 1⟩, .started "a" 1],
          2, 2, .succeeded) ∧
      countedOf "a" history = countdown (state.task.actions "a").iterationsCompleted := by
  have ran : ((flowRuns fun _ => (none : Option Nat)).run (fresh ["a"] patrol, [])
      [undisturbed, undisturbed, succeeds "a" 1, undisturbed, undisturbed, succeeds "a" 2, undisturbed,
        undisturbed]).map reading =
      some ([.counted ⟨"a", 2, .succeeded⟩, .finished ⟨"a", 2⟩ .succeeded, .created ⟨"a", 2⟩,
        .counted ⟨"a", 1, .succeeded⟩, .started "a" 2, .finished ⟨"a", 1⟩ .succeeded, .created ⟨"a", 1⟩, .started "a" 1],
        2, 2, .succeeded) := by decide +kernel
  obtain ⟨state, history, run, read⟩ := Machine.run_reaches_reading (Machine.permitted_unrestricted _ _ _) ran
  have countable := reaches_countable_of_loopsLast rfl run
  exact ⟨state, history, countable, read, (iterations_counted_once countable "a").1⟩

/-- A loop of one round with other work behind it.  One record is kept, so that the API server takes
the status in which the iteration is counted again. -/
def roundThenRest : FlowNode Nat :=
  .sequence [.loop { mode := .once, retention := some { keepIterationRecords := 1 } } (.run "a"), .run "b"]

/-- While b runs, each pass counts the one iteration of a again. -/
theorem ended_loop_is_counted_again :
    validateStructure (fun member => ["a", "b"].contains member) roundThenRest = .ok () ∧
    ∃ state history, (flowRuns fun _ => none).Reaches Machine.unrestricted (fresh ["a", "b"] roundThenRest) history state ∧
      reading (state, history) =
        ([.counted ⟨"a", 1, .succeeded⟩, .counted ⟨"a", 1, .succeeded⟩, .created ⟨"b", 0⟩,
          .finished ⟨"a", 1⟩ .succeeded, .created ⟨"a", 1⟩, .started "a" 1], 1, 2, .running) := by
  have ran : ((flowRuns fun _ => (none : Option Nat)).run (fresh ["a", "b"] roundThenRest, [])
      [undisturbed, undisturbed, succeeds "a" 1, undisturbed, undisturbed]).map reading =
      some ([.counted ⟨"a", 1, .succeeded⟩, .counted ⟨"a", 1, .succeeded⟩, .created ⟨"b", 0⟩,
        .finished ⟨"a", 1⟩ .succeeded, .created ⟨"a", 1⟩, .started "a" 1], 1, 2, .running) := by decide +kernel
  exact ⟨rfl, Machine.run_reaches_reading (Machine.permitted_unrestricted _ _ _) ran⟩

end Swarmada.TaskController
