import Swarmada.Api.FleetAction
import Swarmada.Flow.Tree

/-! # Evaluating a flow

The evaluator reads the state of the children and the iteration of each loop, and says what the
tree has come to and what has to be done.  What it asks for is a list of effects, in order.
-/

namespace Swarmada.Flow

open Api Estopscope

inductive Outcome where
  | inProgress | succeeded | failed | cancelled
deriving DecidableEq, Repr

def Outcome.settled : Outcome → Bool
  | .inProgress => false
  | _ => true

@[simp] theorem settled_inProgress : Outcome.inProgress.settled = false := rfl

@[simp] theorem settled_succeeded : Outcome.succeeded.settled = true := rfl

@[simp] theorem settled_failed : Outcome.failed.settled = true := rfl

@[simp] theorem settled_cancelled : Outcome.cancelled.settled = true := rfl

def Outcome.text : Outcome → String
  | .inProgress => "InProgress"
  | .succeeded => "Succeeded"
  | .failed => "Failed"
  | .cancelled => "Cancelled"

/-- A member at an iteration; 0 is not under a loop. -/
structure Ref where
  member : String
  iteration : Nat
deriving DecidableEq, Repr

structure ActionEvent where
  type : String
  seq : Nat
  payload : String → Option String := fun _ => none

structure ChildState where
  exist : Bool := false
  phase : ActionPhase := .unset
  result : Option (String → Option String) := none
  events : List ActionEvent := []
  eventsDropped : Nat := 0

def ChildState.latestEvent (child : ChildState) (type : String) : Option ActionEvent :=
  child.events.foldl (fun best event =>
    if event.type ≠ type then best
    else
      match best with
      | none => some event
      | some other => if other.seq < event.seq then some event else best) none

def ChildState.eventAbsenceNote (child : ChildState) : String :=
  if 0 < child.eventsDropped then
    "; " ++ toString child.eventsDropped ++ " event(s) have already been evicted from this producer's bounded " ++
      "status.events[] window, so the one awaited may have been raised and dropped before it was read — " ++
      "StreamStatus.since_seq resumes from the high-water mark and never replays an evicted event"
  else "; no event has been evicted from this producer's status.events[], so none of this type has ever been raised"

def ChildState.outcome (child : ChildState) : Outcome :=
  if child.exist then
    match child.phase with
    | .succeeded => .succeeded
    | .failed => .failed
    | .cancelled => .cancelled
    | _ => .inProgress
  else .inProgress

def ChildState.nonTerminal (child : ChildState) : Bool := child.exist && !child.outcome.settled

structure LoopProgress where
  iteration : Nat := 0
  startedAt : Option Nat := none
deriving DecidableEq, Repr

/-- Times are in nanoseconds. -/
structure Context (ν : Type) where
  now : Nat
  child : String → Nat → ChildState
  loopProgress : String → LoopProgress
  parseFloat : String → Option ν

structure IterationSettlement where
  anchorMember : String
  iteration : Nat
  outcome : Outcome
deriving DecidableEq, Repr

inductive Effect where
  | ensure (ref : Ref)
  | cancel (ref : Ref)
  | settled (settlement : IterationSettlement)
  | startIteration (anchor : String) (iteration : Nat)
  | diagnostic (text : String)
deriving DecidableEq, Repr

variable {ν : Type} (ctx : Context ν)

def evalRun (member : String) (iter : Nat) : Outcome × List Effect :=
  let child := ctx.child member iter
  (child.outcome, if child.exist then [] else [.ensure ⟨member, iter⟩])

variable (spec : ParallelSpec)

def ParallelSpec.mode : JoinMode :=
  match spec.join with
  | some join => if join.mode = .unset then .all else join.mode
  | none => .all

def ParallelSpec.quorum (branches : Nat) : Int :=
  match spec.join with
  | some join => join.quorum.getD branches
  | none => branches

def ParallelSpec.failsNode : Bool :=
  spec.onBranchFailure = .unset ∨ spec.onBranchFailure = .failNode

def ParallelSpec.cancelsSiblings : Bool :=
  spec.onJoin = .unset ∨ spec.onJoin = .cancelSiblings

def join (outcomes : List Outcome) : Option Outcome :=
  let succeeded := outcomes.countP (· = .succeeded)
  let settled := outcomes.countP Outcome.settled
  let total := outcomes.length
  match spec.mode with
  | .first => outcomes.find? Outcome.settled
  | .any =>
    if 1 ≤ succeeded then some .succeeded
    else if settled = total then some .failed
    else none
  | .quorum =>
    if spec.quorum total ≤ succeeded then some .succeeded
    else if ((succeeded + (total - settled) : Nat) : Int) < spec.quorum total then some .failed
    else none
  | _ =>
    if outcomes.any fun outcome => (outcome = .failed && spec.failsNode) || outcome = .cancelled then some .failed
    else if settled = total then some .succeeded
    else none

def joined (outcomes : List Outcome) : Outcome :=
  match join spec outcomes with
  | none => .inProgress
  | some outcome => if outcomes.all Outcome.settled then outcome else .inProgress

mutual

def collectCancel : FlowNode ν → Nat → List Effect
  | .empty, _ => []
  | .run member, iter => if (ctx.child member iter).nonTerminal then [.cancel ⟨member, iter⟩] else []
  | .sequence nodes, iter => collectCancels nodes iter
  | .parallel _ branches, iter => collectCancels branches iter
  | .loop _ body, _ =>
    if anchorMember body = "" then []
    else
      let progress := ctx.loopProgress (anchorMember body)
      if 0 < progress.iteration then collectCancel body progress.iteration else []
  | .select _ cases default, iter => collectCancelCases cases iter ++ collectCancel default iter

def collectCancels : List (FlowNode ν) → Nat → List Effect
  | [], _ => []
  | node :: nodes, iter => collectCancel node iter ++ collectCancels nodes iter

def collectCancelCases : List (SelectCase ν × FlowNode ν) → Nat → List Effect
  | [], _ => []
  | (_, node) :: cases, iter => collectCancel node iter ++ collectCancelCases cases iter

end

def cancelUnsettled (branches : List (FlowNode ν)) (outcomes : List Outcome) (iter : Nat) : List Effect :=
  ((branches.zip outcomes).filter fun (_, outcome) => !outcome.settled).flatMap fun (branch, _) =>
    collectCancel ctx branch iter

def resolveUntilEvent (event : UntilEvent) (iteration : Nat) : Bool :=
  let raised (iteration : Nat) : Bool :=
    let child := ctx.child event.producer iteration
    child.exist && (child.latestEvent event.type).isSome
  raised iteration || (iteration ≠ 0 && raised 0)

def resolveUntilResult (condition : UntilResult) (iteration : Nat) : Option String :=
  let value (iteration : Nat) : Option String :=
    let child := ctx.child condition.member iteration
    if child.exist then child.result.bind fun values => values condition.field else none
  (value iteration).or (value 0)

def UntilCondition.holds (condition : UntilCondition) (iteration : Nat) : Bool :=
  match condition.event, condition.result with
  | some event, _ => resolveUntilEvent ctx event iteration
  | none, some result => resolveUntilResult ctx result iteration = some result.equals
  | none, none => false

def loopBoundSatisfied (spec : LoopSpec) (progress : LoopProgress) : Bool :=
  (spec.untilAnyOf.getD []).any (fun condition => condition.holds ctx progress.iteration) ||
    (match spec.maxIterations with
      | some most => most ≤ progress.iteration
      | none => false) ||
    match spec.maxDurationSeconds, progress.startedAt with
    | some seconds, some started => (started : Int) + seconds * 1000000000 ≤ ctx.now
    | _, _ => false

/-- What a loop does with a body that has settled. -/
def loopNext (spec : LoopSpec) (anchor : String) (iteration : Nat) (exitReady : Bool) (body : Outcome) :
    Outcome × List Effect :=
  let again : Outcome × List Effect := (.inProgress, [.startIteration anchor (iteration + 1)])
  if body = .failed then (.failed, [])
  else if body = .cancelled ∧ exitReady = false then (.cancelled, [])
  else
    match spec.mode with
    | .once => (.succeeded, [])
    | .times => if spec.times.getD 1 ≤ iteration then (.succeeded, []) else again
    | .forever => if exitReady then (.succeeded, []) else again
    | .other _ => (.failed, [])

def selectValues (subject : SelectSubject) (iter : Nat) : (Outcome × List Effect) ⊕ (String → Option String) :=
  match subject.event with
  | some type =>
    let child := ctx.child subject.producer iter
    if child.exist = false then .inl (.inProgress, [.ensure ⟨subject.producer, iter⟩])
    else
      match child.latestEvent type with
      | some event => .inr event.payload
      | none =>
        if child.outcome.settled = false then .inl (.inProgress, [])
        else
          .inl (.failed, [.diagnostic ("select.subject binds to event " ++ quote type ++ " from member " ++
            quote subject.producer ++ ", which reached " ++ child.outcome.text ++ " without that event being " ++
            "readable. The node fails rather than taking select.default, because no value was read and 'none of " ++
            "your cases matched' would be a claim about a value that does not exist" ++ child.eventAbsenceNote)])
  | none =>
    let child := ctx.child subject.member iter
    if child.exist = false then .inl (.inProgress, [.ensure ⟨subject.member, iter⟩])
    else if child.outcome ≠ .succeeded then .inl (child.outcome, [])
    else .inr (child.result.getD fun _ => none)

variable [LT ν] [LE ν] [DecidableRel fun a b : ν => a < b] [DecidableRel fun a b : ν => a ≤ b]

def SelectRange.holds (range : SelectRange ν) (value : ν) : Bool :=
  (range.lt.all fun bound => value < bound) && (range.lte.all fun bound => value ≤ bound) &&
    (range.gt.all fun bound => bound < value) && (range.gte.all fun bound => bound ≤ value)

def caseMatches (case : SelectCase ν) (subjectField : String) (values : String → Option String) : Bool :=
  match case.present, case.equals with
  | some present, _ => (values subjectField).isSome = present
  | none, some equals => values subjectField = some equals
  | none, none =>
    if case.inSet ≠ [] then (values subjectField).any fun value => case.inSet.contains value
    else
      match case.range with
      | none => false
      | some range =>
        let field := if range.field ≠ "" then range.field else subjectField
        ((values field).bind ctx.parseFloat).any range.holds

def unevaluableWhenDiagnostic (i : Nat) (when : String) : String :=
  "select.cases[" ++ toString i ++ "] uses `when: " ++ quote when ++ "`, which is not evaluable at v0.4: no CEL " ++
    "environment is wired into the flow evaluator. The node fails rather than falling through to the next case, " ++
    "because falling through would run a branch this case was written to pre-empt and nothing would say so"

mutual

def evalNode : FlowNode ν → Nat → Outcome × List Effect
  | .empty, _ => (.succeeded, [])
  | .run member, iter => evalRun ctx member iter
  | .sequence nodes, iter => evalSequence nodes iter
  | .parallel spec branches, iter =>
    let results := evalBranches branches iter
    let outcomes := results.map Prod.fst
    let cancels :=
      if (join spec outcomes).isSome && spec.cancelsSiblings then cancelUnsettled ctx branches outcomes iter else []
    (joined spec outcomes, results.flatMap Prod.snd ++ cancels)
  | .loop spec body, _ =>
    let anchor := anchorMember body
    if anchor = "" then (.succeeded, [])
    else
      let progress := ctx.loopProgress anchor
      if progress.iteration = 0 then (.inProgress, [.startIteration anchor 1])
      else
        let exitReady := loopBoundSatisfied ctx spec progress
        let interrupts :=
          if spec.interruptRunning && exitReady then collectCancel ctx body progress.iteration else []
        let result := evalNode body progress.iteration
        if result.1.settled = false then (.inProgress, interrupts ++ result.2)
        else
          let next := loopNext spec anchor progress.iteration exitReady result.1
          (next.1, interrupts ++ result.2 ++ [.settled ⟨anchor, progress.iteration, result.1⟩] ++ next.2)
  | .select subject cases default, iter =>
    match selectValues ctx subject iter with
    | .inl result => result
    | .inr values =>
      match evalCases cases 0 subject.field values iter with
      | some result => result
      | none => evalNode default iter

def evalSequence : List (FlowNode ν) → Nat → Outcome × List Effect
  | [], _ => (.succeeded, [])
  | node :: nodes, iter =>
    let first := evalNode node iter
    if first.1 = .succeeded then
      let rest := evalSequence nodes iter
      (rest.1, first.2 ++ rest.2)
    else first

def evalBranches : List (FlowNode ν) → Nat → List (Outcome × List Effect)
  | [], _ => []
  | branch :: branches, iter => evalNode branch iter :: evalBranches branches iter

def evalCases : List (SelectCase ν × FlowNode ν) → Nat → String → (String → Option String) → Nat →
    Option (Outcome × List Effect)
  | [], _, _, _, _ => none
  | (case, node) :: cases, i, field, values, iter =>
    match case.when with
    | some when => some (.failed, [.diagnostic (unevaluableWhenDiagnostic i when)])
    | none =>
      if caseMatches ctx case field values then some (evalNode node iter)
      else evalCases cases (i + 1) field values iter

end

def evaluate (root : FlowNode ν) : Outcome × List Effect := evalNode ctx root 0

end Swarmada.Flow
