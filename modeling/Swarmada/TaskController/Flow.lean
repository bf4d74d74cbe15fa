import Swarmada.Flow.Evaluator
import Swarmada.Transition.Machine

/-! # Reconciling a task with a flow

One pass evaluates the tree against the children and the recorded progress, creates and cancels
children, and writes the iterations it started and counted in one status patch.  Children are held
newest first, by member and iteration.
-/

namespace Swarmada.TaskController

open Api Flow Transition

structure IterationRecord where
  iteration : Nat
  actionRef : Ref
  phase : ActionPhase
  completedAt : Option Nat
deriving DecidableEq, Repr

structure FleetTaskActionStatus where
  iteration : Nat := 0
  iterationsCompleted : Nat := 0
  iterationsFailed : Nat := 0
  loopStartedAt : Option Nat := none
  recentIterations : List IterationRecord := []
deriving DecidableEq, Repr

inductive FleetTaskPhase where
  | unset | draft | pending | running | succeeded | failed | compensating | compensated | cancelled
deriving DecidableEq, Repr

def isGroupTerminal : FleetTaskPhase → Bool
  | .succeeded | .failed | .compensated | .cancelled => true
  | _ => false

def isTerminal : ActionPhase → Bool
  | .succeeded | .failed | .cancelled => true
  | _ => false

structure FleetTask (ν : Type) where
  members : List String
  flow : FlowNode ν
  desiredState : Option DesiredState := none
  phase : FleetTaskPhase := .unset
  actions : String → FleetTaskActionStatus := fun _ => {}
  invalidFlow : Option String := none
  notEvaluable : Option String := none

structure Child where
  phase : ActionPhase := .unset
  result : Option (String → Option String) := none
  events : List ActionEvent := []
  eventsDropped : Nat := 0
  completionTime : Option Nat := none
  desiredState : Option DesiredState := none

abbrev Children := List (Ref × Child)

def Children.get (children : Children) (ref : Ref) : Option Child :=
  (children.find? fun entry => entry.1 = ref).map Prod.snd

def Children.modify (children : Children) (ref : Ref) (change : Child → Child) : Children :=
  children.map fun entry => if entry.1 = ref then (entry.1, change entry.2) else entry

def childStateOf : Option Child → ChildState
  | none => {}
  | some child =>
    { exist := true, phase := child.phase, result := child.result, events := child.events,
      eventsDropped := child.eventsDropped }

variable {ν : Type}

structure State (ν : Type) where
  task : FleetTask ν
  children : Children := []

def State.context (parseFloat : String → Option ν) (state : State ν) (now : Nat) : Context ν where
  now := now
  child member iteration := childStateOf (state.children.get ⟨member, iteration⟩)
  loopProgress anchor := ⟨(state.task.actions anchor).iteration, (state.task.actions anchor).loopStartedAt⟩
  parseFloat := parseFloat

/-- `unrecorded` is a child that was created, after which recording its parameters failed. -/
inductive CreateAnswer where
  | created | alreadyExists | refused | failed | unrecorded
deriving DecidableEq, Repr

structure Answers where
  now : Nat
  taken : Ref → Bool := fun _ => false
  otherTaken : Bool := false
  create : Ref → CreateAnswer := fun _ => .created
  cancel : Ref → Bool := fun _ => true
  prune : IterationSettlement → Bool := fun _ => true
  patch : Bool := true

variable (task : FleetTask ν) (effects : List Effect)

def ensures : List Ref :=
  effects.filterMap fun
    | .ensure ref => some ref
    | _ => none

def cancels : List Ref :=
  effects.filterMap fun
    | .cancel ref => some ref
    | _ => none

def settlements : List IterationSettlement :=
  effects.filterMap fun
    | .settled settlement => some settlement
    | _ => none

def starts : List (String × Nat) :=
  effects.filterMap fun
    | .startIteration anchor iteration => some (anchor, iteration)
    | _ => none

def diagnostic : Option String :=
  (effects.filterMap fun
    | .diagnostic text => some text
    | _ => none).getLast?

inductive Progress where
  | done | refused | failed
deriving DecidableEq, Repr

structure Ensured where
  progress : Progress
  children : Children
  created : List Ref

/-- A refused create stops further creates but not the pass. -/
def ensureChildren (task : FleetTask ν) (answers : Answers) : List Ref → Children → List Ref → Ensured
  | [], children, created => ⟨.done, children, created⟩
  | ref :: refs, children, created =>
    if (children.get ref).isSome || answers.taken ref || !task.members.contains ref.member then
      ensureChildren task answers refs children created
    else
      match answers.create ref with
      | .created =>
        ensureChildren task answers refs ((ref, { desiredState := task.desiredState }) :: children) (ref :: created)
      | .alreadyExists => ensureChildren task answers refs children created
      | .refused => ⟨.refused, children, created⟩
      | .failed => ⟨.failed, children, created⟩
      | .unrecorded => ⟨.failed, (ref, { desiredState := task.desiredState }) :: children, ref :: created⟩

def cancelChildren (answers : Answers) : List Ref → Children → Bool × Children
  | [], children => (true, children)
  | ref :: refs, children =>
    match children.get ref with
    | none => cancelChildren answers refs children
    | some child =>
      if isTerminal child.phase || child.desiredState = some .cancelled then cancelChildren answers refs children
      else if answers.cancel ref then
        cancelChildren answers refs (children.modify ref fun child => { child with desiredState := some .cancelled })
      else (false, children)

def FleetTaskActionStatus.start (status : FleetTaskActionStatus) (iteration now : Nat) : FleetTaskActionStatus :=
  { status with iteration := iteration, loopStartedAt := status.loopStartedAt.or (some now) }

def startIterations (now : Nat) (actions : String → FleetTaskActionStatus) (starts : List (String × Nat)) :
    String → FleetTaskActionStatus :=
  starts.foldl (fun actions start => Function.update actions start.1 ((actions start.1).start start.2 now)) actions

def defaultRetention : FlowRetention := { keepIterationRecords := 10, keepChildren := 20, keepFailedChildren := 5 }

def effectiveRetention : Option LoopSpec → FlowRetention
  | none => defaultRetention
  | some spec =>
    match spec.retention with
    | none => defaultRetention
    | some retention =>
      let orDefault (value fallback : Int) : Int := if value = 0 then fallback else value
      { keepIterationRecords := orDefault retention.keepIterationRecords defaultRetention.keepIterationRecords
        keepChildren := orDefault retention.keepChildren defaultRetention.keepChildren
        keepFailedChildren := orDefault retention.keepFailedChildren defaultRetention.keepFailedChildren }

mutual

/-- The first loop in pre-order whose body has the anchor. -/
def findLoopNode : FlowNode ν → String → Option LoopSpec
  | .empty, _ => none
  | .run _, _ => none
  | .sequence nodes, anchor => findLoopNodeIn nodes anchor
  | .parallel _ branches, anchor => findLoopNodeIn branches anchor
  | .loop spec body, anchor => if anchorMember body = anchor then some spec else findLoopNode body anchor
  | .select _ cases default, anchor => (findLoopNodeInCases cases anchor).or (findLoopNode default anchor)

def findLoopNodeIn : List (FlowNode ν) → String → Option LoopSpec
  | [], _ => none
  | node :: nodes, anchor => (findLoopNode node anchor).or (findLoopNodeIn nodes anchor)

def findLoopNodeInCases : List (SelectCase ν × FlowNode ν) → String → Option LoopSpec
  | [], _ => none
  | (_, node) :: cases, anchor => (findLoopNode node anchor).or (findLoopNodeInCases cases anchor)

end

def outcomePhase : Outcome → ActionPhase
  | .succeeded => .succeeded
  | .failed => .failed
  | .cancelled => .cancelled
  | .inProgress => .unset

def trimmed (keep : Nat) (records : List IterationRecord) : List IterationRecord := records.drop (records.length - keep)

def FleetTaskActionStatus.settle (status : FleetTaskActionStatus) (settlement : IterationSettlement)
    (completedAt : Option Nat) (keep : Nat) : FleetTaskActionStatus :=
  let record : IterationRecord :=
    { iteration := settlement.iteration, actionRef := ⟨settlement.anchorMember, settlement.iteration⟩
      phase := outcomePhase settlement.outcome, completedAt := completedAt }
  { status with
    iterationsCompleted := status.iterationsCompleted + 1
    iterationsFailed := if settlement.outcome = .failed then status.iterationsFailed + 1 else status.iterationsFailed
    recentIterations := trimmed keep (status.recentIterations ++ [record]) }

/-- Delete the oldest terminal children of a member, failed ones and others apart.  No child that
still runs is deleted. -/
def pruneIterationChildren (member : String) : Nat → Nat → Children → Children
  | _, _, [] => []
  | keepFailed, keep, (ref, child) :: rest =>
    if ref.member ≠ member ∨ isTerminal child.phase = false then
      (ref, child) :: pruneIterationChildren member keepFailed keep rest
    else if child.phase = .failed then
      match keepFailed with
      | 0 => pruneIterationChildren member 0 keep rest
      | keepFailed + 1 => (ref, child) :: pruneIterationChildren member keepFailed keep rest
    else
      match keep with
      | 0 => pruneIterationChildren member keepFailed 0 rest
      | keep + 1 => (ref, child) :: pruneIterationChildren member keepFailed keep rest

def FleetTask.settleStatus (read : Children) (actions : String → FleetTaskActionStatus)
    (settlement : IterationSettlement) : String → FleetTaskActionStatus :=
  Function.update actions settlement.anchorMember
    ((actions settlement.anchorMember).settle settlement
      ((read.get ⟨settlement.anchorMember, settlement.iteration⟩).bind Child.completionTime)
      (effectiveRetention (findLoopNode task.flow settlement.anchorMember)).keepIterationRecords.toNat)

def FleetTask.prune (children : Children) (settlement : IterationSettlement) : Children :=
  let retention := effectiveRetention (findLoopNode task.flow settlement.anchorMember)
  pruneIterationChildren settlement.anchorMember retention.keepFailedChildren.toNat retention.keepChildren.toNat children

/-- Count the settled iterations; a failing prune ends the pass without a status write. -/
def settleIterations (task : FleetTask ν) (answers : Answers) (read : Children) :
    List IterationSettlement → (String → FleetTaskActionStatus) → Children →
      Option (String → FleetTaskActionStatus) × Children
  | [], actions, children => (some actions, children)
  | settlement :: rest, actions, children =>
    if answers.prune settlement then
      settleIterations task answers read rest (task.settleStatus read actions settlement) (task.prune children settlement)
    else (none, children)

inductive Event where
  | created (ref : Ref)
  | finished (ref : Ref) (phase : ActionPhase)
  | started (anchor : String) (iteration : Nat)
  | counted (settlement : IterationSettlement)
deriving DecidableEq, Repr

/-- `recentIterations` is a list map keyed by iteration: the API server refuses a status in which
one of them has two records of an iteration. -/
def FleetTask.wellKeyed : Bool :=
  task.members.all fun member => decide ((task.actions member).recentIterations.map IterationRecord.iteration).Nodup

def FleetTask.conclude (outcome : Outcome) (effects : List Effect) : FleetTask ν :=
  match outcome with
  | .succeeded => { task with phase := .succeeded }
  | .failed => { task with phase := .failed, notEvaluable := (diagnostic effects).or task.notEvaluable }
  | .cancelled => { task with phase := .cancelled }
  | .inProgress => { task with phase := .running }

variable [LT ν] [LE ν] [DecidableRel fun a b : ν => a < b] [DecidableRel fun a b : ν => a ≤ b]
  (parseFloat : String → Option ν)

def writeStatus (answers : Answers) (outcome : Outcome) (effects : List Effect) (state : State ν) : State ν × List Event :=
  let started := startIterations answers.now state.task.actions (starts effects)
  match settleIterations state.task answers state.children (settlements effects) started state.children with
  | (none, children) => ({ state with children := children }, [])
  | (some actions, children) =>
    let task := { state.task with actions := actions }.conclude outcome effects
    if answers.patch && task.wellKeyed then
      ({ task := task, children := children },
        ((settlements effects).map Event.counted).reverse ++ ((starts effects).map fun (a, n) => .started a n).reverse)
    else ({ state with children := children }, [])

def reconcileFlow (answers : Answers) (state : State ν) : State ν × List Event :=
  match validateStructure (fun member => state.task.members.contains member) state.task.flow with
  | .error message =>
    if answers.patch then ({ state with task := { state.task with phase := .failed, invalidFlow := some message } }, [])
    else (state, [])
  | .ok () =>
    let (outcome, effects) := evaluate (state.context parseFloat answers.now) state.task.flow
    let ensured := ensureChildren state.task answers (ensures effects) state.children []
    let created := ensured.created.map Event.created
    if ensured.progress = .failed then ({ state with children := ensured.children }, created)
    else
      let (asked, children) := cancelChildren answers (cancels effects) ensured.children
      let conflict := (ensures effects).any answers.taken || answers.otherTaken
      if !asked || ensured.progress = .refused || conflict then ({ state with children := children }, created)
      else
        let (after, events) := writeStatus answers outcome effects { state with children := children }
        (after, events ++ created)

inductive Label where
  | child (ref : Ref) (next : Child)
  | pass (answers : Answers)

def step (state : State ν) : Label → Option (State ν × List Event)
  | .child ref next =>
    match state.children.get ref with
    | none => none
    | some child =>
      if isTerminal child.phase then none
      else
        some ({ state with
                children := state.children.modify ref fun child => { next with desiredState := child.desiredState } },
          if isTerminal next.phase then [.finished ref next.phase] else [])
  | .pass answers => some (if isGroupTerminal state.task.phase then (state, []) else reconcileFlow parseFloat answers state)

def flowRuns : Machine (State ν) Label Event := ⟨step parseFloat⟩

def fresh (members : List String) (flow : FlowNode ν) : State ν := { task := { members := members, flow := flow } }

end Swarmada.TaskController
