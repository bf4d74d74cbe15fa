import Swarmada.Flow.Reports

namespace Swarmada.Flow

variable {ν : Type} [LT ν] [LE ν] [DecidableRel fun a b : ν => a < b] [DecidableRel fun a b : ν => a ≤ b]
  (ctx : Context ν) {spec : LoopSpec} {body : FlowNode ν}

/-- The evaluation asks for the cancellation of what runs in the body. -/
def Interrupts (spec : LoopSpec) (body : FlowNode ν) : Prop :=
  spec.interruptRunning = true ∧ loopBoundSatisfied ctx spec (ctx.loopProgress (anchorMember body)) = true

/-- One of the earlier evaluations asked for it in the iteration that is still the current one. -/
def Interrupted (earlier : List (Context ν)) (spec : LoopSpec) (body : FlowNode ν) : Prop :=
  ∃ before ∈ earlier, (before.loopProgress (anchorMember body)).iteration = (ctx.loopProgress (anchorMember body)).iteration ∧
    Interrupts before spec body

variable {ctx} {iter : Nat}

theorem loopNext_cancelled :
    (loopNext spec anchor iteration exitReady .cancelled).1 = .cancelled ↔ exitReady = false := by
  cases exitReady with
  | false => simp [loopNext]
  | true =>
    simp only [loopNext, reduceCtorEq, if_false, Bool.true_eq_false, and_false, iff_false, if_true]
    cases spec.mode with
    | times => dsimp only; split <;> exact Outcome.noConfusion
    | _ => exact Outcome.noConfusion

theorem evalNode_loop_cancelled (named : anchorMember body ≠ "")
    (started : (ctx.loopProgress (anchorMember body)).iteration ≠ 0)
    (cancelled : (evalNode ctx body (ctx.loopProgress (anchorMember body)).iteration).1 = .cancelled) :
    (evalNode ctx (.loop spec body) iter).1 = .cancelled ↔
      loopBoundSatisfied ctx spec (ctx.loopProgress (anchorMember body)) = false := by
  have evaluated := evalNode_loop_cases ctx spec body iter
  generalize evalNode ctx (.loop spec body) iter = result at evaluated ⊢
  cases evaluated with
  | nameless anchor => exact absurd anchor named
  | unstarted _ zero => exact absurd zero started
  | running _ _ _ _ unsettled =>
    rw [cancelled] at unsettled
    cases unsettled
  | settled _ _ _ _ _ _ advance =>
    rw [← advance, cancelled]
    exact loopNext_cancelled

def patrolled : Context Nat where
  now := 0
  child := fun _ iteration => { exist := true, phase := if iteration = 2 then .cancelled else .succeeded }
  loopProgress := fun _ => { iteration := 2 }
  parseFloat := fun _ => none

def patrol (times : Int) : LoopSpec := { mode := .forever, maxIterations := some times }

end Swarmada.Flow
