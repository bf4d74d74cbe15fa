import Swarmada.Estopscope.Holder

/-! # Flow trees

The tree of a task's `spec.flow` and the check of its structure.  A node has at most one kind, so
a node with several, which the check refuses, is not a value here.
-/

namespace Swarmada.Flow

open Estopscope

inductive JoinMode where
  | unset | all | any | quorum | first
  | other (text : String)
deriving DecidableEq, Repr

structure JoinSpec where
  mode : JoinMode := .unset
  quorum : Option Int := none
deriving DecidableEq, Repr

inductive OnJoin where
  | unset | cancelSiblings | letRunToCompletion
  | other (text : String)
deriving DecidableEq, Repr

inductive OnBranchFailure where
  | unset | failNode | ignore
  | other (text : String)
deriving DecidableEq, Repr

structure ParallelSpec where
  join : Option JoinSpec := none
  onJoin : OnJoin := .unset
  onBranchFailure : OnBranchFailure := .unset
deriving DecidableEq, Repr

inductive LoopMode where
  | once | times | forever
  | other (text : String)
deriving DecidableEq, Repr

structure UntilEvent where
  type : String
  producer : String
deriving DecidableEq, Repr

structure UntilResult where
  member : String
  field : String
  equals : String
deriving DecidableEq, Repr

structure UntilCondition where
  event : Option UntilEvent := none
  result : Option UntilResult := none
deriving DecidableEq, Repr

structure FlowRetention where
  keepIterationRecords : Int := 0
  keepChildren : Int := 0
  keepFailedChildren : Int := 0
deriving DecidableEq, Repr

structure LoopSpec where
  mode : LoopMode
  times : Option Int := none
  untilAnyOf : Option (List UntilCondition) := none
  interruptRunning : Bool := false
  maxIterations : Option Int := none
  maxDurationSeconds : Option Int := none
  retention : Option FlowRetention := none
deriving DecidableEq, Repr

structure SelectSubject where
  member : String := ""
  event : Option String := none
  producer : String := ""
  field : String
deriving DecidableEq, Repr

def SelectSubject.Producer (subject : SelectSubject) : String :=
  match subject.event with
  | some _ => subject.producer
  | none => subject.member

structure SelectRange (ν : Type) where
  field : String := ""
  lt : Option ν := none
  lte : Option ν := none
  gt : Option ν := none
  gte : Option ν := none
deriving DecidableEq, Repr

structure SelectCase (ν : Type) where
  equals : Option String := none
  inSet : List String := []
  range : Option (SelectRange ν) := none
  present : Option Bool := none
  when : Option String := none
deriving DecidableEq, Repr

/-- `ν` is the type of the numbers that a range compares. -/
inductive FlowNode (ν : Type) where
  | empty
  | run (member : String)
  | sequence (nodes : List (FlowNode ν))
  | parallel (spec : ParallelSpec) (branches : List (FlowNode ν))
  | loop (spec : LoopSpec) (body : FlowNode ν)
  | select (subject : SelectSubject) (cases : List (SelectCase ν × FlowNode ν)) (default : FlowNode ν)

variable {ν : Type}

theorem FlowNode.children_induction {motive : FlowNode ν → Prop} (empty : motive .empty)
    (run : ∀ member, motive (.run member)) (sequence : ∀ nodes, (∀ node ∈ nodes, motive node) → motive (.sequence nodes))
    (parallel : ∀ spec branches, (∀ branch ∈ branches, motive branch) → motive (.parallel spec branches))
    (loop : ∀ spec body, motive body → motive (.loop spec body))
    (select : ∀ subject cases default, (∀ case ∈ cases, motive case.2) → motive default → motive (.select subject cases default)) :
    ∀ node, motive node
  | .empty => empty
  | .run member => run member
  | .sequence nodes => sequence nodes fun node member =>
    have := List.sizeOf_lt_of_mem member
    children_induction empty run sequence parallel loop select node
  | .parallel spec branches => parallel spec branches fun branch member =>
    children_induction empty run sequence parallel loop select branch
  | .loop spec body => loop spec body (children_induction empty run sequence parallel loop select body)
  | .select subject cases default => select subject cases default
      (fun case member =>
        have : sizeOf case.2 < sizeOf cases := by
          have := List.sizeOf_lt_of_mem member
          cases case
          simp only [Prod.mk.sizeOf_spec] at this ⊢
          omega
        children_induction empty run sequence parallel loop select case.2)
      (children_induction empty run sequence parallel loop select default)

mutual

def anchorMember : FlowNode ν → String
  | .empty => ""
  | .run member => member
  | .sequence nodes => anchorOfNodes nodes
  | .parallel _ branches => anchorOfNodes branches
  | .loop _ body => anchorMember body
  | .select _ cases default =>
    let found := anchorOfCases cases
    if found ≠ "" then found else anchorMember default

def anchorOfNodes : List (FlowNode ν) → String
  | [] => ""
  | node :: nodes =>
    let found := anchorMember node
    if found ≠ "" then found else anchorOfNodes nodes

def anchorOfCases : List (SelectCase ν × FlowNode ν) → String
  | [] => ""
  | (_, node) :: cases =>
    let found := anchorMember node
    if found ≠ "" then found else anchorOfCases cases

end

def maxDepth : Nat := 32

def maxNodes : Nat := 1024

def validateRetention : Option FlowRetention → Except String Unit
  | none => .ok ()
  | some retention =>
    if retention.keepIterationRecords < 0 ∨ 100 < retention.keepIterationRecords then
      .error "loop.retention.keepIterationRecords must be between 1 and 100 (0 takes the default of 10)"
    else if retention.keepChildren < 0 then
      .error "loop.retention.keepChildren must be at least 1 (0 takes the default of 20)"
    else if retention.keepFailedChildren < 0 then
      .error "loop.retention.keepFailedChildren must be at least 1 (0 takes the default of 5)"
    else .ok ()

def validateParallel (spec : ParallelSpec) (branches : Nat) : Except String Unit :=
  if branches = 0 then .error "parallel.branches must have at least one entry"
  else
    match spec.onJoin with
    | .other text => .error ("parallel.onJoin must be CancelSiblings or LetRunToCompletion (got " ++ quote text ++ ")")
    | _ =>
      match spec.onBranchFailure with
      | .other text => .error ("parallel.onBranchFailure must be FailNode or Ignore (got " ++ quote text ++ ")")
      | _ =>
        match spec.join with
        | none => .ok ()
        | some join =>
          match join.mode, join.quorum with
          | .other text, _ =>
            .error ("parallel.join.mode must be one of All, Any, Quorum or First (got " ++ quote text ++ ")")
          | .quorum, none => .error "parallel.join.quorum is required when mode is Quorum"
          | _, some quorum => if quorum < 1 then .error "parallel.join.quorum must be at least 1" else .ok ()
          | _, none => .ok ()

/-- The first condition that names a member which does not exist, with its place in the list. -/
def validateUntil (members : String → Bool) : Nat → List UntilCondition → Except String Unit
  | _, [] => .ok ()
  | i, condition :: conditions =>
    let dangling (arm member : String) : String :=
      "loop.until.anyOf[" ++ toString i ++ "]." ++ arm ++ " names member " ++ quote member ++ " which is not in spec.actions"
    match condition.result.filter fun result => ¬ members result.member with
    | some result => .error (dangling "result" result.member)
    | none =>
      match condition.event.filter fun event => ¬ members event.producer with
      | some event => .error (dangling "event" event.producer)
      | none => validateUntil members (i + 1) conditions

def belowOne (value : Option Int) : Bool :=
  match value with
  | some value => value < 1
  | none => false

variable (members : String → Bool)

def validateLoop (spec : LoopSpec) : Except String Unit :=
  match spec.mode with
  | .other text => .error ("loop.mode is required and must be one of Once, Times or Forever (got " ++ quote text ++ ")")
  | mode =>
    if mode = .times ∧ spec.times = none then .error "loop.times is required when mode is Times"
    else if belowOne spec.times then .error "loop.times must be at least 1"
    else if mode = .forever ∧ spec.untilAnyOf = none ∧ spec.maxIterations = none ∧ spec.maxDurationSeconds = none then
      .error "loop mode: Forever requires until, maxIterations or maxDurationSeconds — an unbounded loop is not admitted"
    else if belowOne spec.maxIterations then .error "loop.maxIterations must be at least 1"
    else if belowOne spec.maxDurationSeconds then .error "loop.maxDurationSeconds must be at least 1"
    else
      match validateRetention spec.retention with
      | .error error => .error error
      | .ok () => validateUntil members 0 (spec.untilAnyOf.getD [])

def validateSubject (subject : SelectSubject) : Except String Unit :=
  if subject.Producer = "" then
    .error ("select.subject must name a producer: `member` for a result binding (App contract) or `from` with `event` " ++
      "for an event binding (Service contract)")
  else if members subject.Producer then .ok ()
  else .error ("select.subject names member " ++ quote subject.Producer ++ " which is not in spec.actions")

def SelectCase.predicates (case : SelectCase ν) : Nat :=
  (if case.equals.isSome then 1 else 0) + (if case.inSet ≠ [] then 1 else 0) + (if case.range.isSome then 1 else 0) +
    (if case.present.isSome then 1 else 0) + (if case.when.isSome then 1 else 0)

mutual

/-- The number of nodes walked so far, with this one. -/
def validateNode (members : String → Bool) : FlowNode ν → Nat → Nat → Except String Nat
  | node, depth, walked =>
    if maxDepth < depth then .error ("flow nests deeper than the maximum depth of " ++ toString maxDepth)
    else if maxNodes < walked + 1 then .error ("flow has more than the maximum of " ++ toString maxNodes ++ " nodes")
    else
      match node with
      | .empty => .ok (walked + 1)
      | .run member =>
        if members member then .ok (walked + 1)
        else .error ("flow references member " ++ quote member ++ " which is not in spec.actions")
      | .sequence nodes => validateNodes members nodes (depth + 1) (walked + 1)
      | .parallel spec branches => do
          validateParallel spec branches.length
          validateNodes members branches (depth + 1) (walked + 1)
      | .loop spec body => do
          validateLoop members spec
          validateNode members body (depth + 1) (walked + 1)
      | .select subject cases default => do
          validateSubject members subject
          let walked ← validateCases members cases 0 (depth + 1) (walked + 1)
          validateNode members default (depth + 1) walked

def validateNodes (members : String → Bool) : List (FlowNode ν) → Nat → Nat → Except String Nat
  | [], _, walked => .ok walked
  | node :: nodes, depth, walked => do
      let walked ← validateNode members node depth walked
      validateNodes members nodes depth walked

def validateCases (members : String → Bool) : List (SelectCase ν × FlowNode ν) → Nat → Nat → Nat → Except String Nat
  | [], _, _, walked => .ok walked
  | (case, node) :: cases, i, depth, walked =>
    if case.predicates ≠ 1 then
      .error ("select.cases[" ++ toString i ++ "] must have exactly one of equals/in/range/present/when")
    else do
      let walked ← validateNode members node depth walked
      validateCases members cases (i + 1) depth walked

end

def validateStructure (node : FlowNode ν) : Except String Unit :=
  (validateNode members node 1 0).map fun _ => ()

end Swarmada.Flow
