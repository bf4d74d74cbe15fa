import Swarmada.Flow.Reports
import Swarmada.TaskController.Flow

namespace Swarmada.TaskController

open Api Flow Transition

theorem foldl_update_apply {κ α β : Type} [DecidableEq κ] (key : α → κ) (change : β → α → β) (entries : List α)
    (values : κ → β) (k : κ) :
    entries.foldl (fun values entry => Function.update values (key entry) (change (values (key entry)) entry)) values k =
      (entries.filter fun entry => key entry = k).foldl change (values k) := by
  induction entries generalizing values with
  | nil => rfl
  | cons entry entries ih =>
    rw [List.foldl_cons, ih]
    by_cases same : key entry = k
    · subst same
      rw [List.filter_cons_of_pos (by simp), List.foldl_cons, Function.update_self]
    · rw [List.filter_cons_of_neg (by simpa using same), Function.update_of_ne (Ne.symm same)]

def startsAt (anchor : String) (effects : List Effect) : List (String × Nat) :=
  (starts effects).filter fun start => start.1 = anchor

def settlementsAt (anchor : String) (effects : List Effect) : List IterationSettlement :=
  (settlements effects).filter fun settlement => settlement.anchorMember = anchor

theorem starts_reports (effects : List Effect) : starts (reports effects) = starts effects := by
  unfold starts reports
  rw [List.filterMap_filter]
  congr
  funext effect
  cases effect <;> rfl

theorem settlements_reports (effects : List Effect) : settlements (reports effects) = settlements effects := by
  unfold settlements reports
  rw [List.filterMap_filter]
  congr
  funext effect
  cases effect <;> rfl

theorem startsAt_append (anchor : String) (first second : List Effect) :
    startsAt anchor (first ++ second) = startsAt anchor first ++ startsAt anchor second := by
  simp only [startsAt, starts, List.filterMap_append, List.filter_append]

theorem settlementsAt_append (anchor : String) (first second : List Effect) :
    settlementsAt anchor (first ++ second) = settlementsAt anchor first ++ settlementsAt anchor second := by
  simp only [settlementsAt, settlements, List.filterMap_append, List.filter_append]

/-- At most one iteration of the anchor settles, the current one, and at most one starts: the next
one, when the current one has settled or there is none. -/
inductive OneReport (anchor : String) (current : Nat) (effects : List Effect) : Prop
  | silent (noStart : startsAt anchor effects = []) (unsettled : settlementsAt anchor effects = [])
  | first (unstarted : current = 0) (start : startsAt anchor effects = [(anchor, 1)])
      (unsettled : settlementsAt anchor effects = [])
  | ends (outcome : Outcome) (started : 0 < current) (noStart : startsAt anchor effects = [])
      (settled : settlementsAt anchor effects = [⟨anchor, current, outcome⟩])
  | next (outcome : Outcome) (started : 0 < current) (start : startsAt anchor effects = [(anchor, current + 1)])
      (settled : settlementsAt anchor effects = [⟨anchor, current, outcome⟩])

variable {ν : Type}

def OneEach (visited : List (LoopSpec × FlowNode ν)) : Prop :=
  ∀ anchor, anchor ≠ "" → (visited.map fun loop => anchorMember loop.2).count anchor ≤ 1

variable {visited : List (LoopSpec × FlowNode ν)}

theorem OneEach.of_sublist (each : OneEach all) (sub : visited.Sublist all) : OneEach visited :=
  fun anchor named => ((sub.map _).count_le anchor).trans (each anchor named)

variable [LT ν] [LE ν] [DecidableRel fun a b : ν => a < b] [DecidableRel fun a b : ν => a ≤ b]

variable {anchor : String}

theorem loopReport_elsewhere (ctx : Context ν) (other : anchorMember loop.2 ≠ anchor) :
    startsAt anchor (loopReport ctx loop) = [] ∧ settlementsAt anchor (loopReport ctx loop) = [] := by
  rcases loopReport_cases ctx loop with silent | ⟨_, first⟩ | ⟨_, _, _, _, ended | again⟩
  · rw [silent]
    exact ⟨rfl, rfl⟩
  · rw [first]
    simp [startsAt, settlementsAt, starts, settlements, other]
  · rw [ended]
    simp [startsAt, settlementsAt, starts, settlements, other]
  · rw [again]
    simp [startsAt, settlementsAt, starts, settlements, other]

theorem loopReport_here (ctx : Context ν) (loop : LoopSpec × FlowNode ν) :
    OneReport (anchorMember loop.2) (ctx.loopProgress (anchorMember loop.2)).iteration (loopReport ctx loop) := by
  rcases loopReport_cases ctx loop with silent | ⟨unstarted, first⟩ | ⟨_, outcome, same, started, ended | again⟩
  · rw [silent]
    exact .silent rfl rfl
  · rw [first]
    exact .first unstarted (by simp [startsAt, starts]) rfl
  · rw [ended, same]
    exact .ends outcome started rfl (by simp [settlementsAt, settlements])
  · rw [again, same]
    exact .next outcome started (by simp [startsAt, starts]) (by simp [settlementsAt, settlements])

theorem startsAt_flatMap_of_absent (ctx : Context ν) (absent : anchor ∉ visited.map fun loop => anchorMember loop.2) :
    startsAt anchor (visited.flatMap (loopReport ctx)) = [] ∧
      settlementsAt anchor (visited.flatMap (loopReport ctx)) = [] := by
  induction visited with
  | nil => exact ⟨rfl, rfl⟩
  | cons loop visited ih =>
    rw [List.map_cons, List.mem_cons, not_or] at absent
    have here := loopReport_elsewhere ctx (Ne.symm absent.1)
    have rest := ih absent.2
    rw [List.flatMap_cons, startsAt_append, settlementsAt_append, here.1, here.2, rest.1, rest.2]
    exact ⟨rfl, rfl⟩

variable {effects : List Effect}

theorem OneReport.congr
    (report : OneReport anchor current effects) (sameStarts : startsAt anchor others = startsAt anchor effects)
    (sameSettled : settlementsAt anchor others = settlementsAt anchor effects) : OneReport anchor current others := by
  cases report with
  | silent noStart unsettled => exact .silent (sameStarts.trans noStart) (sameSettled.trans unsettled)
  | first unstarted start unsettled => exact .first unstarted (sameStarts.trans start) (sameSettled.trans unsettled)
  | ends outcome started noStart settled =>
    exact .ends outcome started (sameStarts.trans noStart) (sameSettled.trans settled)
  | next outcome started start settled => exact .next outcome started (sameStarts.trans start) (sameSettled.trans settled)

theorem oneReport_of_visited (each : OneEach visited) (anchor : String) :
    OneReport anchor (ctx.loopProgress anchor).iteration (visited.flatMap (loopReport ctx)) := by
  induction visited with
  | nil => exact .silent rfl rfl
  | cons loop visited ih =>
    have fewer : OneEach visited := each.of_sublist (List.sublist_cons_self _ _)
    rw [List.flatMap_cons]
    by_cases here : anchorMember loop.2 = anchor
    · subst here
      by_cases named : anchorMember loop.2 = ""
      · -- a loop without an anchor reports nothing
        have silent : loopReport ctx loop = [] := by
          exact if_pos named
        rw [silent, List.nil_append]
        exact ih fewer
      have absent : anchorMember loop.2 ∉ visited.map fun loop => anchorMember loop.2 := by
        intro again
        have twice := each _ named
        rw [List.map_cons, List.count_cons_self] at twice
        have := List.count_pos_iff.mpr again
        omega
      obtain ⟨noStarts, noSettled⟩ := startsAt_flatMap_of_absent ctx absent
      refine (loopReport_here ctx loop).congr ?_ ?_
      · rw [startsAt_append, noStarts, List.append_nil]
      · rw [settlementsAt_append, noSettled, List.append_nil]
    · obtain ⟨noStarts, noSettled⟩ := loopReport_elsewhere ctx here
      refine (ih fewer).congr ?_ ?_
      · rw [startsAt_append, noStarts, List.nil_append]
      · rw [settlementsAt_append, noSettled, List.nil_append]

theorem oneReport_of_reports
    (reported : reports effects = visited.flatMap (loopReport ctx)) (each : OneEach visited) (anchor : String) :
    OneReport anchor (ctx.loopProgress anchor).iteration effects := by
  refine (oneReport_of_visited each anchor).congr ?_ ?_
  · rw [startsAt, ← starts_reports, reported, startsAt]
  · rw [settlementsAt, ← settlements_reports, reported, settlementsAt]

theorem startIterations_apply (now : Nat) (actions : String → FleetTaskActionStatus) (effects : List Effect)
    (anchor : String) :
    startIterations now actions (starts effects) anchor =
      (startsAt anchor effects).foldl (fun status start => status.start start.2 now) (actions anchor) := by
  exact foldl_update_apply Prod.fst
    (fun (status : FleetTaskActionStatus) (start : String × Nat) => status.start start.2 now) _ _ _

variable {answers : Answers} (task : FleetTask ν) (read : Children)

omit [LT ν] [LE ν] [DecidableRel fun a b : ν => a < b] [DecidableRel fun a b : ν => a ≤ b] in
theorem settleIterations_some
    (done : settleIterations task answers read settled actions children = (some after, pruned)) :
    after = settled.foldl (task.settleStatus read) actions := by
  induction settled generalizing actions children with
  | nil =>
    cases done
    rfl
  | cons settlement rest ih =>
    unfold settleIterations at done
    split_ifs at done
    · exact ih done
    · cases done

structure Advanced (before after : FleetTaskActionStatus) (starts : List (String × Nat)) (settled : Nat) : Prop where
  iteration : after.iteration = (starts.getLast?.map Prod.snd).getD before.iteration
  completed : after.iterationsCompleted = before.iterationsCompleted + settled

theorem start_advanced (now : Nat) (starts : List (String × Nat)) (status : FleetTaskActionStatus) :
    Advanced status (starts.foldl (fun status start => status.start start.2 now) status) starts 0 := by
  induction starts generalizing status with
  | nil => exact ⟨rfl, rfl⟩
  | cons start starts ih =>
    obtain ⟨iteration, completed⟩ := ih (status.start start.2 now)
    refine ⟨?_, completed⟩
    rw [List.foldl_cons, iteration]
    cases starts with
    | nil => rfl
    | cons other rest => rw [List.getLast?_cons_cons, List.getLast?_eq_some_getLast (List.cons_ne_nil other rest)]; rfl

theorem settle_advanced (settled : List IterationSettlement) (completedAt : IterationSettlement → Option Nat)
    (keep : IterationSettlement → Nat) (status : FleetTaskActionStatus) :
    Advanced status (settled.foldl (fun status settlement => status.settle settlement (completedAt settlement)
      (keep settlement)) status) [] settled.length := by
  induction settled generalizing status with
  | nil => exact ⟨rfl, rfl⟩
  | cons settlement settled ih =>
    obtain ⟨iteration, completed⟩ := ih (status.settle settlement (completedAt settlement) (keep settlement))
    refine ⟨iteration, ?_⟩
    rw [List.foldl_cons, completed, List.length_cons]
    simp only [FleetTaskActionStatus.settle]
    omega

omit [LT ν] [LE ν] [DecidableRel fun a b : ν => a < b] [DecidableRel fun a b : ν => a ≤ b] in
theorem written_advanced (now : Nat) (actions : String → FleetTaskActionStatus) (effects : List Effect) (anchor : String) :
    Advanced (actions anchor)
      ((settlements effects).foldl (task.settleStatus read) (startIterations now actions (starts effects)) anchor)
      (startsAt anchor effects) (settlementsAt anchor effects).length := by
  have started := start_advanced now (startsAt anchor effects) (actions anchor)
  rw [← startIterations_apply now actions effects anchor] at started
  have settled := settle_advanced (settlementsAt anchor effects)
    (fun settlement => (read.get ⟨settlement.anchorMember, settlement.iteration⟩).bind Child.completionTime)
    (fun settlement => (effectiveRetention (findLoopNode task.flow settlement.anchorMember)).keepIterationRecords.toNat)
    (startIterations now actions (starts effects) anchor)
  have folded : (settlements effects).foldl (task.settleStatus read) (startIterations now actions (starts effects)) anchor =
      (settlementsAt anchor effects).foldl (fun status settlement => status.settle settlement
        ((read.get ⟨settlement.anchorMember, settlement.iteration⟩).bind Child.completionTime)
        (effectiveRetention (findLoopNode task.flow settlement.anchorMember)).keepIterationRecords.toNat)
        (startIterations now actions (starts effects) anchor) :=
    foldl_update_apply IterationSettlement.anchorMember
      (fun (status : FleetTaskActionStatus) (settlement : IterationSettlement) => status.settle settlement
        ((read.get ⟨settlement.anchorMember, settlement.iteration⟩).bind Child.completionTime)
        (effectiveRetention (findLoopNode task.flow settlement.anchorMember)).keepIterationRecords.toNat) _ _ _
  rw [folded]
  exact ⟨settled.iteration.trans started.iteration, by rw [settled.completed, started.completed]; rfl⟩

inductive MemberStep (anchor : String) (effects : List Effect) (before after : FleetTaskActionStatus) : Prop
  | silent (noStart : startsAt anchor effects = []) (unsettled : settlementsAt anchor effects = [])
      (iteration : after.iteration = before.iteration)
      (completed : after.iterationsCompleted = before.iterationsCompleted)
  | first (unstarted : before.iteration = 0) (start : startsAt anchor effects = [(anchor, 1)])
      (unsettled : settlementsAt anchor effects = []) (iteration : after.iteration = 1)
      (completed : after.iterationsCompleted = before.iterationsCompleted)
  | ends (outcome : Outcome) (started : 0 < before.iteration) (noStart : startsAt anchor effects = [])
      (settled : settlementsAt anchor effects = [⟨anchor, before.iteration, outcome⟩])
      (iteration : after.iteration = before.iteration)
      (completed : after.iterationsCompleted = before.iterationsCompleted + 1)
  | next (outcome : Outcome) (started : 0 < before.iteration)
      (start : startsAt anchor effects = [(anchor, before.iteration + 1)])
      (settled : settlementsAt anchor effects = [⟨anchor, before.iteration, outcome⟩])
      (iteration : after.iteration = before.iteration + 1)
      (completed : after.iterationsCompleted = before.iterationsCompleted + 1)

theorem memberStep_of_report (report : OneReport anchor before.iteration effects)
    (advanced : Advanced before after (startsAt anchor effects) (settlementsAt anchor effects).length) :
    MemberStep anchor effects before after := by
  obtain ⟨iteration, completed⟩ := advanced
  cases report with
  | silent noStart unsettled =>
    rw [noStart] at iteration
    rw [unsettled] at completed
    exact .silent noStart unsettled iteration completed
  | first unstarted start unsettled =>
    rw [start] at iteration
    rw [unsettled] at completed
    exact .first unstarted start unsettled iteration completed
  | ends outcome started noStart settled =>
    rw [noStart] at iteration
    rw [settled] at completed
    exact .ends outcome started noStart settled iteration completed
  | next outcome started start settled =>
    rw [start] at iteration
    rw [settled] at completed
    exact .next outcome started start settled iteration completed

def phaseOf : Outcome → FleetTaskPhase
  | .succeeded => .succeeded
  | .failed => .failed
  | .cancelled => .cancelled
  | .inProgress => .running

/-- The children after some cancellations and some prunes for settled iterations. -/
inductive Reworked (task : FleetTask ν) (settled : List IterationSettlement) (children : Children) : Children → Prop
  | refl : Reworked task settled children children
  | cancel {after : Children} (ref : Ref) (before : Reworked task settled children after) :
      Reworked task settled children (after.modify ref fun child => { child with desiredState := some .cancelled })
  | prune {after : Children} (settlement : IterationSettlement) (member : settlement ∈ settled)
      (before : Reworked task settled children after) : Reworked task settled children (task.prune after settlement)

/-- The children the pass has when it has created those it could. -/
def passEnsured (parseFloat : String → Option ν) (answers : Answers) (state : State ν) : Ensured :=
  ensureChildren state.task answers (ensures (evaluate (state.context parseFloat answers.now) state.task.flow).2)
    state.children []

inductive PassCases (parseFloat : String → Option ν) (answers : Answers) (state after : State ν) (events : List Event) :
    Prop
  | refused (flow : after.task.flow = state.task.flow) (members : after.task.members = state.task.members)
      (actions : after.task.actions = state.task.actions) (children : after.children = state.children)
      (phase : after.task.phase = state.task.phase ∨ isGroupTerminal after.task.phase = true) (emitted : events = [])
  | unwritten (task : after.task = state.task)
      (children : Reworked state.task (settlements (evaluate (state.context parseFloat answers.now) state.task.flow).2)
        (passEnsured parseFloat answers state).children after.children)
      (emitted : events = (passEnsured parseFloat answers state).created.map .created)
  | written (read : Children) (flow : after.task.flow = state.task.flow) (members : after.task.members = state.task.members)
      (actions : after.task.actions =
        (settlements (evaluate (state.context parseFloat answers.now) state.task.flow).2).foldl (state.task.settleStatus read)
          (startIterations answers.now state.task.actions
            (starts (evaluate (state.context parseFloat answers.now) state.task.flow).2)))
      (children : Reworked state.task (settlements (evaluate (state.context parseFloat answers.now) state.task.flow).2)
        (passEnsured parseFloat answers state).children after.children)
      (phase : after.task.phase = phaseOf (evaluate (state.context parseFloat answers.now) state.task.flow).1)
      (emitted : events =
        ((settlements (evaluate (state.context parseFloat answers.now) state.task.flow).2).map Event.counted).reverse ++
          ((starts (evaluate (state.context parseFloat answers.now) state.task.flow).2).map
            fun (a, n) => .started a n).reverse ++ (passEnsured parseFloat answers state).created.map .created)

section

omit [LT ν] [LE ν] [DecidableRel fun a b : ν => a < b] [DecidableRel fun a b : ν => a ≤ b]

theorem cancelChildren_reworked (refs : List Ref) (before : Reworked task settled base children) :
    Reworked task settled base (cancelChildren answers refs children).2 := by
  induction refs generalizing children with
  | nil => exact before
  | cons ref refs ih =>
    rw [cancelChildren]
    split
    · exact ih before
    split_ifs
    · exact ih before
    · exact ih (before.cancel ref)
    · exact before

theorem settleIterations_reworked (within : ∀ settlement ∈ settled, settlement ∈ all)
    (before : Reworked task all base children) :
    Reworked task all base (settleIterations task answers read settled actions children).2 := by
  induction settled generalizing actions children with
  | nil => exact before
  | cons settlement rest ih =>
    rw [settleIterations]
    split_ifs
    · exact ih (fun other member => within other (List.mem_cons_of_mem _ member))
        (before.prune settlement (within settlement List.mem_cons_self))
    · exact before

variable (outcome : Outcome)

theorem conclude_actions (effects : List Effect) : (task.conclude outcome effects).actions = task.actions := by
  cases outcome <;> rfl

theorem conclude_flow (effects : List Effect) : (task.conclude outcome effects).flow = task.flow := by
  cases outcome <;> rfl

theorem conclude_members (effects : List Effect) : (task.conclude outcome effects).members = task.members := by
  cases outcome <;> rfl

theorem conclude_phase (effects : List Effect) : (task.conclude outcome effects).phase = phaseOf outcome := by
  cases outcome <;> rfl

theorem writeStatus_cases (answers : Answers) (outcome : Outcome) (effects : List Effect) (state : State ν) :
    (∃ children,
      (settleIterations state.task answers state.children (settlements effects)
        (startIterations answers.now state.task.actions (starts effects)) state.children).2 = children ∧
      writeStatus answers outcome effects state = ({ state with children := children }, [])) ∨
    ∃ actions children,
      settleIterations state.task answers state.children (settlements effects)
        (startIterations answers.now state.task.actions (starts effects)) state.children = (some actions, children) ∧
      writeStatus answers outcome effects state =
        (⟨{ state.task with actions := actions }.conclude outcome effects, children⟩,
          ((settlements effects).map Event.counted).reverse ++
            ((starts effects).map fun (a, n) => .started a n).reverse) := by
  unfold writeStatus
  dsimp only
  rcases settleIterations state.task answers state.children (settlements effects)
    (startIterations answers.now state.task.actions (starts effects)) state.children with ⟨_ | actions, children⟩
  · exact .inl ⟨children, rfl, rfl⟩
  dsimp only
  split_ifs
  · exact .inr ⟨actions, children, rfl, rfl⟩
  · exact .inl ⟨children, rfl, rfl⟩

end

theorem reconcileFlow_cases (parseFloat : String → Option ν) (answers : Answers) (state : State ν) :
    PassCases parseFloat answers state (reconcileFlow parseFloat answers state).1
      (reconcileFlow parseFloat answers state).2 := by
  unfold reconcileFlow
  rcases validateStructure (fun member => state.task.members.contains member) state.task.flow with _ | ⟨⟩
  · dsimp only
    split_ifs
    · exact .refused rfl rfl rfl rfl (.inr rfl) rfl
    · exact .refused rfl rfl rfl rfl (.inl rfl) rfl
  dsimp only
  have cancelled : Reworked state.task
      (settlements (evaluate (state.context parseFloat answers.now) state.task.flow).2)
      (passEnsured parseFloat answers state).children
      (cancelChildren answers (cancels (evaluate (state.context parseFloat answers.now) state.task.flow).2)
        (passEnsured parseFloat answers state).children).2 := cancelChildren_reworked _ _ .refl
  split_ifs
  · exact .unwritten rfl .refl rfl
  · exact .unwritten rfl cancelled rfl
  rcases writeStatus_cases answers (evaluate (state.context parseFloat answers.now) state.task.flow).1
    (evaluate (state.context parseFloat answers.now) state.task.flow).2 _ with
    ⟨children, pruned, same⟩ | ⟨actions, children, settled, same⟩
  · rw [same]
    exact .unwritten rfl (pruned ▸ settleIterations_reworked _ _ (fun _ member => member) cancelled) rfl
  have pruned := congrArg Prod.snd settled
  rw [same]
  refine .written _ (conclude_flow _ _ _) (conclude_members _ _ _)
    ((conclude_actions _ _ _).trans (settleIterations_some _ _ settled)) ?_ (conclude_phase _ _ _) rfl
  dsimp only at pruned ⊢
  rw [← pruned]
  exact settleIterations_reworked state.task _ (fun _ member => member) cancelled

/-- What holds of a fresh task and is kept by each report of a child that runs and each pass over a task
that does holds after every run. -/
theorem flowRuns_invariant (holds : List Event → State ν → Prop) (initially : holds [] start)
    (child : ∀ {history state ref next child}, holds history state → allowed history state (.child ref next) →
      state.children.get ref = some child → isTerminal child.phase = false →
      holds ((if isTerminal next.phase then [.finished ref next.phase] else []) ++ history)
        { state with children := state.children.modify ref fun child => { next with desiredState := child.desiredState } })
    (pass : ∀ {history state answers after events}, holds history state → allowed history state (.pass answers) →
      isGroupTerminal state.task.phase = false → PassCases parseFloat answers state after events →
      holds (events ++ history) after)
    (run : (flowRuns parseFloat).Reaches allowed start history state) : holds history state := by
  refine run.invariant holds initially ?_
  intro history state label after events _ held permitted taken
  cases label with
  | child =>
    simp only [flowRuns, step] at taken
    split at taken
    · cases taken
    rename_i one found
    by_cases running : isTerminal one.phase = true
    · rw [if_pos running] at taken
      cases taken
    rw [if_neg running] at taken
    obtain ⟨rfl, rfl⟩ := Prod.mk.inj (Option.some.inj taken)
    exact child held permitted found (by simpa using running)
  | pass answers =>
    simp only [flowRuns, step, Option.some.injEq] at taken
    split_ifs at taken with terminal
    · cases taken
      exact held
    have cases := reconcileFlow_cases parseFloat answers state
    rw [taken] at cases
    exact pass held permitted (by simpa using terminal) cases

end Swarmada.TaskController
