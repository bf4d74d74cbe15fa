import Swarmada.TaskController.Children
import Swarmada.TaskController.Counted

namespace Swarmada.TaskController

open Api Flow Transition

variable {ν : Type}

theorem mem_settlements : settlement ∈ settlements effects ↔ .settled settlement ∈ effects := by
  unfold settlements
  rw [List.mem_filterMap]
  constructor
  · rintro ⟨effect, member, same⟩
    cases effect <;> simp at same
    exact same ▸ member
  · exact fun member => ⟨_, member, rfl⟩

theorem mem_of_startsAt (found : (anchor, next) ∈ startsAt anchor effects) : .startIteration anchor next ∈ effects := by
  obtain ⟨effect, member, same⟩ := List.mem_filterMap.mp (List.mem_filter.mp found).1
  cases effect <;> simp at same
  obtain ⟨rfl, rfl⟩ := same
  exact member

def running (child : ChildState) : Bool := child.exist && !child.outcome.settled

theorem running_some (child : Child) : running (childStateOf (some child)) = !isTerminal child.phase := by
  rw [running, childStateOf_settled]
  rfl

theorem unsettled_of_running (runs : running child = true) : child.outcome.settled = false := by
  simp only [running, Bool.and_eq_true, Bool.not_eq_true'] at runs
  exact runs.2

/-- Each loop has an anchor of its own, which is run and selected on nowhere else, and a loop with
other nodes behind it in a sequence ends on its count alone. -/
structure Untangled (flow : FlowNode ν) : Prop where
  distinct : DistinctAnchors flow
  own : ∀ loop ∈ loops flow, anchorMember loop.2 ≠ "" → confined (anchorMember loop.2) false flow = true
  steady : ∀ node ∈ subnodes flow, node.steady = true

/-- A producer raises the event that the select waits for when it ends. -/
def raisedAtEnd (ref : Ref) (next : Child) : FlowNode ν → Bool
  | .select subject _ _ => subject.event.all fun type =>
    ref.member ≠ subject.producer || ((childStateOf (some next)).latestEvent type).isNone || isTerminal next.phase
  | _ => true

def RaisedAtEnd (_ : List Event) (state : State ν) : Label → Prop
  | .child ref next => ∀ node ∈ subnodes state.task.flow, raisedAtEnd ref next node = true
  | .pass _ => True

instance (history : List Event) (state : State ν) (label : Label) : Decidable (RaisedAtEnd history state label) :=
  match label with
  | .child ref next => inferInstanceAs (Decidable (∀ node ∈ subnodes state.task.flow, raisedAtEnd ref next node = true))
  | .pass _ => inferInstanceAs (Decidable True)

theorem OneEach.eq_of_anchor {all : List (LoopSpec × FlowNode ν)} (each : OneEach all)
    (one : first ∈ all) (other : second ∈ all) (named : anchorMember first.2 ≠ "")
    (same : anchorMember second.2 = anchorMember first.2) : first = second := by
  induction all with
  | nil => cases one
  | cons loop all ih =>
    have most := each _ named
    have absent {third : LoopSpec × FlowNode ν} (inside : third ∈ all) (equal : anchorMember third.2 = anchorMember first.2)
        (here : anchorMember loop.2 = anchorMember first.2) : False := by
      rw [List.map_cons, here, List.count_cons_self] at most
      have again : anchorMember first.2 ∈ all.map fun loop => anchorMember loop.2 :=
        List.mem_map.mpr ⟨third, inside, equal⟩
      have := List.count_pos_iff.mpr again
      omega
    rcases List.mem_cons.mp one with rfl | early
    · rcases List.mem_cons.mp other with rfl | late
      · rfl
      · exact (absent late same rfl).elim
    · rcases List.mem_cons.mp other with rfl | late
      · exact (absent early rfl same).elim
      · exact ih (each.of_sublist (List.sublist_cons_self _ _)) early late

variable [LT ν] [LE ν] [DecidableRel fun a b : ν => a < b] [DecidableRel fun a b : ν => a ≤ b]

theorem loopReport_anchor {ctx : Context ν} (member : effect ∈ loopReport ctx loop) :
    anchorMember loop.2 ≠ "" ∧
    (∀ settlement, effect = .settled settlement → settlement.anchorMember = anchorMember loop.2) ∧
    ∀ anchor next, effect = .startIteration anchor next → anchor = anchorMember loop.2 := by
  refine ⟨fun nameless => ?_, ?_⟩
  · unfold loopReport at member
    rw [if_pos nameless] at member
    cases member
  rcases loopReport_cases ctx loop with silent | ⟨_, first⟩ | ⟨_, _, _, _, ended | again⟩
  · rw [silent] at member
    cases member
  · rw [first] at member
    cases List.mem_singleton.mp member
    exact ⟨fun _ same => (by cases same), fun _ _ same => (Effect.startIteration.inj same).1.symm⟩
  · rw [ended] at member
    cases List.mem_singleton.mp member
    exact ⟨fun _ same => (by cases same; rfl), fun _ _ same => (by cases same)⟩
  · rw [again] at member
    rcases List.mem_cons.mp member with rfl | next
    · exact ⟨fun _ same => (by cases same; rfl), fun _ _ same => (by cases same)⟩
    · cases List.mem_singleton.mp next
      exact ⟨fun _ same => (by cases same), fun _ _ same => (Effect.startIteration.inj same).1.symm⟩

theorem exists_loopReport {ctx : Context ν}
    (found : effect ∈ (evalNode ctx node iter).2) (isReport : effect.isReport = true) :
    ∃ loop ∈ loops node, effect ∈ loopReport ctx loop := by
  obtain ⟨_, sub, reported⟩ := evalNode_reports ctx node iter
  have inside : effect ∈ reports (evalNode ctx node iter).2 := List.mem_filter.mpr ⟨found, isReport⟩
  rw [reported] at inside
  obtain ⟨loop, member, here⟩ := List.mem_flatMap.mp inside
  exact ⟨loop, sub.subset member, here⟩

variable (parseFloat : String → Option ν)

/-- Every child that runs is one the evaluation reads, and every child that was created runs or was
seen to end. -/
structure Attended (members : List String) (flow : FlowNode ν) (history : List Event) (state : State ν) : Prop where
  names : state.task.members = members
  tree : state.task.flow = flow
  lineage : ∀ loop ∈ loops flow, anchorMember loop.2 ≠ "" →
    Lineage (anchorMember loop.2) (state.task.actions (anchorMember loop.2)).iteration state.children
  ended : ∀ now, ∀ node ∈ subnodes flow, node.ReadsEnded (state.context parseFloat now)
  read : ∀ now ref, running (childStateOf (state.children.get ref)) = true → Reads (state.context parseFloat now) flow 0 ref
  made : ∀ ref, .created ref ∈ history →
    (∃ phase, isTerminal phase = true ∧ .finished ref phase ∈ history) ∨ running (childStateOf (state.children.get ref)) = true

variable {parseFloat} {members : List String} {flow : FlowNode ν} {history : List Event} {state after : State ν}

namespace Attended

variable (attended : Attended parseFloat members flow history state) (untangled : Untangled flow) {answers : Answers} {ref : Ref}

include attended

/-- The children that a pass adds are asked for, and nothing is known of them but that they exist. -/
theorem grew (ref : Ref) : (passEnsured parseFloat answers state).children.get ref = state.children.get ref ∧
      ref ∉ (passEnsured parseFloat answers state).created ∨
    state.children.get ref = none ∧ .ensure ref ∈ (evaluate (state.context parseFloat answers.now) flow).2 ∧
      childStateOf ((passEnsured parseFloat answers state).children.get ref) = { exist := true } := by
  refine ensureChildren_invariant (fun children created => ∀ ref,
    children.get ref = state.children.get ref ∧ ref ∉ created ∨
    state.children.get ref = none ∧ .ensure ref ∈ (evaluate (state.context parseFloat answers.now) flow).2 ∧
      childStateOf (children.get ref) = { exist := true }) (fun _ => .inl ⟨rfl, List.not_mem_nil⟩) ?_ ref
  intro added member children created absent before ref
  rw [get_cons]
  split_ifs with same
  · subst same
    refine .inr ⟨?_, attended.tree ▸ mem_ensures.mp member, rfl⟩
    rcases before added with ⟨unchanged, _⟩ | ⟨none, _⟩
    · exact unchanged ▸ absent
    · exact none
  · refine (before ref).imp_left (.imp_right fun earlier added => ?_)
    rcases List.mem_cons.mp added with rfl | inside
    · exact same rfl
    · exact earlier inside

theorem anchored {settlement : IterationSettlement}
    (member : settlement ∈ settlements (evaluate (state.context parseFloat answers.now) state.task.flow).2) :
    ∃ loop ∈ loops flow, anchorMember loop.2 ≠ "" ∧ settlement.anchorMember = anchorMember loop.2 := by
  rw [attended.tree] at member
  obtain ⟨loop, inside, reported⟩ := exists_loopReport (mem_settlements.mp member) rfl
  obtain ⟨named, settles, _⟩ := loopReport_anchor reported
  exact ⟨loop, inside, named, settles settlement rfl⟩

include untangled

theorem orderly (now : Nat) : Orderly (state.context parseFloat now) flow :=
  fun node inside => ⟨untangled.steady node inside, attended.ended now node inside⟩

theorem child {next child : Child} (found : state.children.get ref = some child)
    (unended : isTerminal child.phase = false) (raised : ∀ node ∈ subnodes flow, raisedAtEnd ref next node = true) :
    Attended parseFloat members flow ((if isTerminal next.phase then [.finished ref next.phase] else []) ++ history)
      { state with
        children := state.children.modify ref fun child => { next with desiredState := child.desiredState } } := by
  have runs : running (childStateOf (state.children.get ref)) = true := by
    rw [found, running_some, unended]
    rfl
  refine ⟨attended.names, attended.tree, fun loop inside named => ?_, fun now node inside => ?_,
    fun now other still => ?_, fun other created => ?_⟩
  · exact (attended.lineage loop inside named).modify ref fun child => { next with desiredState := child.desiredState }
  · have before := attended.ended now node inside
    have here := raised node inside
    cases node with
    | select _ cases =>
      intro type bound iter isRaised
      simp only [State.context, get_modify] at isRaised ⊢
      split_ifs at isRaised ⊢ with same
      · subst same
        rw [found] at isRaised ⊢
        simp only [raisedAtEnd, bound, Option.all_some, ne_eq, not_true_eq_false, decide_false, Bool.false_or,
          Bool.or_eq_true, Option.isNone_iff_eq_none] at here
        rcases here with silent | terminal
        · change ((childStateOf (some next)).latestEvent type).isSome = true at isRaised
          rw [silent] at isRaised
          cases isRaised
        · exact (childStateOf_settled _).trans terminal
      · exact before type bound iter isRaised
    | _ => trivial
  · have ran : running (childStateOf (state.children.get other)) = true := by
      rw [get_modify] at still
      split_ifs at still with same
      · exact same ▸ runs
      · exact still
    refine (attended.read now other ran).later (attended.orderly untangled now)
      ⟨rfl, fun third _ settled => ?_, fun _ _ _ => .inl rfl⟩ (unsettled_of_running ran)
    simp only [State.context, get_modify] at settled ⊢
    split_ifs with same
    · rw [same, unsettled_of_running runs] at settled
      cases settled
    · rfl
  · rcases List.mem_append.mp created with new | old
    · split_ifs at new <;> simp at new
    rcases attended.made other old with ⟨phase, terminal, seen⟩ | ran
    · exact .inl ⟨phase, terminal, List.mem_append_right _ seen⟩
    rw [get_modify]
    by_cases same : other = ref
    · subst same
      rw [if_pos rfl, found]
      cases ended : isTerminal next.phase with
      | true => exact .inl ⟨next.phase, ended, List.mem_cons_self⟩
      | false => exact .inr ((running_some _).trans (by rw [ended]; rfl))
    · rw [if_neg same]
      exact .inr ran

theorem ensured (inside : loop ∈ loops flow) (named : anchorMember loop.2 ≠ "") :
    Lineage (anchorMember loop.2) (state.task.actions (anchorMember loop.2)).iteration
      (passEnsured parseFloat answers state).children :=
  ensureChildren_invariant (fun children _ => Lineage _ _ children) (attended.lineage loop inside named)
    fun _ member _ _ absent lineage =>
      lineage.cons absent (ensures_current (attended.tree ▸ untangled.own loop inside named) member)

variable (valid : validateStructure (fun member => members.contains member) flow = .ok ())
  (children : Reworked state.task (settlements (evaluate (state.context parseFloat answers.now) state.task.flow).2)
    (passEnsured parseFloat answers state).children after.children)

include valid children

theorem changed (ref : Ref) :
    childStateOf (after.children.get ref) = childStateOf ((passEnsured parseFloat answers state).children.get ref) ∨
    after.children.get ref = none ∧ (∃ settlement ∈ settlements
        (evaluate (state.context parseFloat answers.now) state.task.flow).2, settlement.anchorMember = ref.member) ∧
      ref.iteration ≠ (state.task.actions ref.member).iteration ∧
      (childStateOf ((passEnsured parseFloat answers state).children.get ref)).outcome.settled = true := by
  refine @Reworked.get _ _ _ _ _ (fun anchor => (state.task.actions anchor).iteration) (fun settlement member => ?_)
    (keepsChildren (by rw [attended.names, attended.tree]; exact valid)) children ref
  obtain ⟨_, inside, named, same⟩ := attended.anchored member
  rw [same]
  exact attended.ensured untangled inside named

variable (moved : ∀ loop ∈ loops flow, anchorMember loop.2 ≠ "" →
  (after.task.actions (anchorMember loop.2)).iteration = (state.task.actions (anchorMember loop.2)).iteration ∨
  (state.task.actions (anchorMember loop.2)).iteration < (after.task.actions (anchorMember loop.2)).iteration ∧
    ∃ next, .startIteration (anchorMember loop.2) next ∈ loopReport (state.context parseFloat answers.now) loop)

include moved

theorem later (now : Nat) : Later (state.context parseFloat answers.now) (after.context parseFloat now) flow 0 := by
  refine ⟨rfl, fun other reads settled => ?_, fun loop inside named => (moved loop inside named).imp id And.right⟩
  dsimp only [State.context] at settled ⊢
  rcases @grew _ _ _ _ _ _ _ _ _ _ attended answers other with ⟨old, _⟩ | ⟨none, _⟩
  · rw [← old]
    rcases attended.changed untangled valid children other with same | ⟨_, ⟨settlement, member, anchored⟩, apart, _⟩
    · exact same
    -- only children of other iterations are pruned, and those are not read
    obtain ⟨loop, inside, named, equal⟩ := attended.anchored member
    have own := anchored.symm.trans equal
    have current := (reads.current (untangled.own loop inside named) (fun outside => by cases outside) own).1
    rw [own] at apart
    exact absurd current apart
  · rw [none] at settled
    cases settled

/-- The children as a pass leaves them, and loops that have moved on only where they asked to. -/
theorem reworked (names : after.task.members = state.task.members) (tree : after.task.flow = state.task.flow)
    (emitted : ∀ ref, .created ref ∈ events → ref ∈ (passEnsured parseFloat answers state).created) :
    Attended parseFloat members flow (events ++ history) after := by
  have grew := @grew _ _ _ _ _ _ _ _ _ _ attended answers
  have changed := attended.changed untangled valid children
  refine ⟨names.trans attended.names, tree.trans attended.tree, fun loop inside named => ?_, fun now node inside => ?_,
    fun now ref runs => ?_, fun ref created => ?_⟩
  · refine ((attended.ensured untangled inside named).reworked children).mono ?_
    rcases moved loop inside named with same | ⟨more, _⟩
    · exact same.ge
    · exact more.le
  · -- what is new or gone has raised no event
    refine FlowNode.ReadsEnded.of_children (fun member iter => ?_) (attended.ended answers.now node inside)
    dsimp only [State.context]
    rcases changed ⟨member, iter⟩ with same | ⟨gone, _⟩
    · rw [same]
      rcases grew ⟨member, iter⟩ with ⟨old, _⟩ | ⟨_, _, fresh⟩
      · exact .inl (congrArg childStateOf old)
      · exact .inr (by rw [fresh])
    · rw [gone]
      exact .inr rfl
  · have later := attended.later untangled valid children moved now
    rcases changed ref with same | ⟨gone, _⟩
    · rw [same] at runs
      rcases grew ref with ⟨old, _⟩ | ⟨none, asked, _⟩
      · rw [old] at runs
        exact (attended.read answers.now ref runs).later (attended.orderly untangled answers.now) later
          (unsettled_of_running runs)
      refine (reads_of_ensure asked).later (attended.orderly untangled answers.now) later ?_
      dsimp only [State.context]
      rw [none]
      rfl
    · rw [gone] at runs
      cases runs
  · have stays (ran : running (childStateOf ((passEnsured parseFloat answers state).children.get ref)) = true) :
        running (childStateOf (after.children.get ref)) = true := by
      rcases changed ref with same | ⟨_, _, _, ended⟩
      · rw [same]
        exact ran
      · rw [unsettled_of_running ran] at ended
        cases ended
    rcases grew ref with ⟨old, absent⟩ | ⟨_, _, fresh⟩
    · have earlier := (List.mem_append.mp created).resolve_left fun new => absent (emitted ref new)
      rcases attended.made ref earlier with ⟨phase, terminal, seen⟩ | ran
      · exact .inl ⟨phase, terminal, List.mem_append_right _ seen⟩
      · exact .inr (stays (old ▸ ran))
    · exact .inr (stays (by rw [fresh]; rfl))

omit children moved

theorem pass {events : List Event} (taken : PassCases parseFloat answers state after events) :
    Attended parseFloat members flow (events ++ history) after := by
  cases taken with
  | refused tree names actions children _ emitted =>
    subst emitted
    have same (now : Nat) : after.context parseFloat now = state.context parseFloat now := by
      unfold State.context
      rw [actions, children]
    refine ⟨names.trans attended.names, tree.trans attended.tree, ?_, ?_, ?_, ?_⟩
    · rw [actions, children]
      exact attended.lineage
    · simp only [same]
      exact attended.ended
    · simp only [same, children]
      exact attended.read
    · rw [children]
      exact attended.made
  | unwritten task children emitted =>
    exact attended.reworked untangled valid children (fun _ _ _ => .inl (by rw [task])) (by rw [task]) (by rw [task])
      fun ref created => by simpa [emitted] using created
  | written read tree names actions children _ emitted =>
    refine attended.reworked untangled valid children (fun loop inside named => ?_) names tree
      fun ref created => by simpa [emitted] using created
    obtain ⟨visited, sub, reported⟩ := evalNode_reports (state.context parseFloat answers.now) state.task.flow 0
    have each : OneEach visited := untangled.distinct.of_sublist (attended.tree ▸ sub)
    have stepped := memberStep_of_report (oneReport_of_reports reported each (anchorMember loop.2))
      (written_advanced state.task read answers.now state.task.actions _ (anchorMember loop.2))
    rw [evaluate] at actions
    rw [← actions] at stepped
    have starts {next : Nat} (start : startsAt (anchorMember loop.2)
          (evalNode (state.context parseFloat answers.now) state.task.flow 0).2 = [(anchorMember loop.2, next)]) :
        ∃ next, .startIteration (anchorMember loop.2) next ∈ loopReport (state.context parseFloat answers.now) loop := by
      have asked := mem_of_startsAt (start ▸ List.mem_cons_self)
      rw [attended.tree] at asked
      obtain ⟨_, within, report⟩ := exists_loopReport asked rfl
      have anchored := (loopReport_anchor report).2.2 _ _ rfl
      obtain rfl := untangled.distinct.eq_of_anchor inside within named anchored.symm
      exact ⟨next, report⟩
    cases stepped with
    | silent _ _ iteration _ | ends _ _ _ _ iteration _ => exact .inl iteration
    | first _ start | next _ _ start => exact .inr ⟨by omega, starts start⟩

end Attended

theorem attended_of_reaches (untangled : Untangled flow)
    (valid : validateStructure (fun member => members.contains member) flow = .ok ())
    (run : (flowRuns parseFloat).Reaches RaisedAtEnd (fresh members flow) history state) :
    Attended parseFloat members flow history state := by
  refine flowRuns_invariant (Attended parseFloat members flow) ?_ ?_ ?_ run
  · refine ⟨rfl, rfl, fun _ _ _ => ⟨.nil, nofun⟩, fun now node _ => ?_,
      fun _ _ runs => (by cases runs), nofun⟩
    cases node with
    | select _ cases => exact fun _ _ _ raised => by cases raised
    | _ => trivial
  · intro history state ref next child attended permitted found running
    exact attended.child untangled found running (attended.tree ▸ permitted)
  · intro history state answers after events attended _ _ taken
    exact attended.pass untangled valid taken

def left (config : State Nat × List Event) : FleetTaskPhase × Outcome × List Ref :=
  (config.1.task.phase, (evaluate (config.1.context (fun _ => none) 0) config.1.task.flow).1,
    (config.1.children.filter fun entry => !isTerminal entry.2.phase).map Prod.fst)

def sees (phase : ActionPhase) : Label := .child ⟨"watch", 0⟩ { phase := phase, events := [{ type := "Seen", seq := 1 }] }

def lookout : FlowNode Nat := .select { event := some "Seen", producer := "watch", field := "zone" } [] (.run "b")

/-- Two rounds of a beside c, all in one loop.  Both loops count on a. -/
def tangled : FlowNode Nat :=
  .loop { mode := .once, retention := some { keepIterationRecords := 1 } } (.parallel {} [patrol, .run "c"])

end Swarmada.TaskController
