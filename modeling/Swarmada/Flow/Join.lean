import Mathlib.Data.List.Forall2
import Swarmada.Flow.Evaluator

namespace Swarmada.Flow

open Api

/-- A branch that has settled keeps its outcome. -/
def Kept (before after : List Outcome) : Prop :=
  List.Forall₂ (fun earlier later => earlier.settled = true → later = earlier) before after

namespace Kept

variable {before after : List Outcome}

variable (kept : Kept before after)
include kept

theorem countP_le (carried : ∀ a b, (a.settled = true → b = a) → earlier a = true → later b = true) :
    before.countP earlier ≤ after.countP later := by
  induction kept with
  | nil => simp
  | @cons a b _ _ same _ ih =>
    simp only [List.countP_cons]
    split_ifs <;> grind

theorem countP_ge (carried : ∀ a b, (a.settled = true → b = a) → later b = true → earlier a = true) :
    after.countP later ≤ before.countP earlier := by
  induction kept with
  | nil => simp
  | @cons a b _ _ same _ ih =>
    simp only [List.countP_cons]
    split_ifs <;> grind

theorem eq_of_settled (settled : before.all Outcome.settled = true) : after = before := by
  induction kept with
  | nil => rfl
  | cons same _ ih =>
    simp only [List.all_cons, Bool.and_eq_true] at settled
    rw [same settled.1, ih settled.2]

theorem any_of_settled (terminal : ∀ a, p a = true → a.settled = true)
    (found : before.any p = true) : after.any p = true := by
  induction kept with
  | nil => exact found
  | @cons a b _ _ same _ ih =>
    simp only [List.any_cons, Bool.or_eq_true] at found ⊢
    rcases found with here | there
    · exact .inl (same (terminal a here) ▸ here)
    · exact .inr (ih there)

end Kept

theorem countP_settled_eq_length {outcomes : List Outcome} :
    outcomes.countP Outcome.settled = outcomes.length ↔ outcomes.all Outcome.settled = true := by
  rw [List.countP_eq_length, List.all_eq_true]

theorem remaining_possible (outcomes : List Outcome) :
    outcomes.countP (· = .succeeded) + (outcomes.length - outcomes.countP Outcome.settled) =
      outcomes.countP fun outcome => outcome = .succeeded || !outcome.settled := by
  have bound := List.countP_le_length (p := Outcome.settled) (l := outcomes)
  suffices outcomes.countP (· = .succeeded) + outcomes.length =
      (outcomes.countP fun outcome => outcome = .succeeded || !outcome.settled) + outcomes.countP Outcome.settled by omega
  clear bound
  induction outcomes with
  | nil => rfl
  | cons outcome outcomes ih =>
    simp only [List.countP_cons, List.length_cons]
    cases outcome <;> simp <;> omega

variable {spec : ParallelSpec} {before after : List Outcome} {outcome : Outcome}

theorem settled_of_breaks (spec : ParallelSpec) (outcome : Outcome)
    (breaks : ((outcome = .failed && spec.failsNode) || outcome = .cancelled) = true) : outcome.settled = true := by
  cases outcome <;> simp at breaks ⊢

theorem join_kept (notFirst : spec.mode ≠ .first) (kept : Kept before after) (satisfied : join spec before = some outcome) :
    join spec after = some outcome := by
  have lengths : before.length = after.length := kept.length_eq
  have more : before.countP (· = .succeeded) ≤ after.countP (· = .succeeded) :=
    kept.countP_le fun a b same yes => by
      have : a = .succeeded := by simpa using yes
      subst this
      simpa using same rfl
  have unchanged : before.countP Outcome.settled = before.length → after = before :=
    fun all => kept.eq_of_settled (countP_settled_eq_length.mp all)
  unfold join at satisfied ⊢
  rcases mode : spec.mode with _ | _ | _ | _ | _ | _
  case first => exact absurd mode notFirst
  case any =>
    simp only [mode] at satisfied ⊢
    split_ifs at satisfied with one all
    · rw [if_pos (one.trans more)]
      exact satisfied
    · rw [unchanged all, if_neg one, if_pos all]
      exact satisfied
  case quorum =>
    have fewer : after.countP (fun outcome => outcome = .succeeded || !outcome.settled) ≤
        before.countP fun outcome => outcome = .succeeded || !outcome.settled :=
      kept.countP_ge fun a b same yes => by
        cases a <;> simp_all
    simp only [mode, remaining_possible] at satisfied ⊢
    rw [← lengths]
    have possible : after.countP (· = .succeeded) ≤
        after.countP fun outcome => outcome = .succeeded || !outcome.settled :=
      List.countP_mono_left fun _ _ yes => by simp_all
    split_ifs at satisfied with enough never
    · rw [if_pos (by omega)]
      exact satisfied
    · rw [if_neg (by omega), if_pos (by omega)]
      exact satisfied
  all_goals
      simp only [mode] at satisfied ⊢
      split_ifs at satisfied with broken all
      · rw [if_pos (kept.any_of_settled (settled_of_breaks spec) broken)]
        exact satisfied
      · rw [unchanged all, if_neg broken, if_pos all]
        exact satisfied

theorem join_first_of_settled (first : spec.mode = .first) (kept : Kept before after)
    (lead : ∃ o ∈ before.head?, o.settled = true) (satisfied : join spec before = some outcome) :
    join spec after = some outcome := by
  obtain ⟨o, head, settled⟩ := lead
  cases kept with
  | nil => cases head
  | cons same _ =>
    cases Option.mem_some.mp head
    have kept := same settled
    subst kept
    simp only [join, first, List.find?_cons, settled] at satisfied ⊢
    exact satisfied

theorem joined_eq_of_join (satisfied : join spec after = some outcome) (settled : (joined spec after).settled = true) :
    joined spec after = outcome := by
  unfold joined at settled ⊢
  rw [satisfied] at settled ⊢
  split_ifs at settled ⊢ with all
  · rfl
  · cases settled

variable {ν : Type} [LT ν] [LE ν] [DecidableRel fun a b : ν => a < b] [DecidableRel fun a b : ν => a ≤ b]

def branchOutcomes (ctx : Context ν) (branches : List (FlowNode ν)) (iter : Nat) : List Outcome :=
  (evalBranches ctx branches iter).map Prod.fst

theorem branchOutcomes_eq_map (ctx : Context ν) (branches : List (FlowNode ν)) (iter : Nat) :
    branchOutcomes ctx branches iter = branches.map fun branch => (evalNode ctx branch iter).1 := by
  induction branches with
  | nil => rfl
  | cons branch branches ih =>
    rw [List.map_cons, ← ih]
    rfl

theorem evalNode_parallel_fst (ctx : Context ν) (spec : ParallelSpec) (branches : List (FlowNode ν)) (iter : Nat) :
    (evalNode ctx (.parallel spec branches) iter).1 = joined spec (branchOutcomes ctx branches iter) := by
  rfl

def Outcome.phase : Outcome → ActionPhase
  | .inProgress => .inProgress
  | .succeeded => .succeeded
  | .failed => .failed
  | .cancelled => .cancelled

theorem outcome_phase (outcome : Outcome) : ChildState.outcome { exist := true, phase := outcome.phase } = outcome := by
  cases outcome <;> rfl

/-- Members are told apart by the length of their names. -/
def leaves (ν : Type) (count : Nat) : List (FlowNode ν) :=
  (List.range count).map fun i => .run (String.ofList (List.replicate i 'm'))

def leafContext (ν : Type) (outcomes : List Outcome) : Context ν where
  now := 0
  child member _ := { exist := true, phase := (outcomes.getD member.length .inProgress).phase }
  loopProgress _ := {}
  parseFloat _ := none

theorem branchOutcomes_leaves (outcomes : List Outcome) (iter : Nat) :
    branchOutcomes (leafContext ν outcomes) (leaves ν outcomes.length) iter = outcomes := by
  rw [branchOutcomes_eq_map, leaves, List.map_map]
  refine List.ext_getElem (by simp) fun i _ inside => ?_
  simp [evalNode, evalRun, leafContext, outcome_phase, inside]

def overtaken (outcome : Outcome) : List Outcome → List Outcome
  | [] => []
  | _ :: rest =>
    (if outcome = .succeeded then .failed else .succeeded) ::
      rest.map fun o => if o.settled then o else .succeeded

theorem kept_overtaken : Kept (.inProgress :: rest) (overtaken outcome (.inProgress :: rest)) := by
  refine .cons (fun settled => by cases settled) ?_
  induction rest with
  | nil => exact .nil
  | cons o rest ih => exact .cons (fun settled => if_pos settled) ih

theorem joined_overtaken (first : spec.mode = .first) (rest : List Outcome) :
    joined spec (overtaken outcome (.inProgress :: rest)) = if outcome = .succeeded then .failed else .succeeded := by
  have all : (overtaken outcome (.inProgress :: rest)).all Outcome.settled = true := by
    simp only [overtaken, List.all_cons, List.all_map, Bool.and_eq_true, List.all_eq_true, Function.comp_apply]
    constructor
    · split_ifs <;> rfl
    intro o _
    split_ifs with settled
    · exact settled
    · rfl
  have lead : Outcome.settled (if outcome = .succeeded then .failed else .succeeded) = true := by split_ifs <;> rfl
  have found : join spec (overtaken outcome (.inProgress :: rest)) =
      some (if outcome = .succeeded then .failed else .succeeded) := by
    simp only [join, first, overtaken, List.find?_cons, lead]
  rw [joined, found]
  exact if_pos all

/-- Join decisions are final for every mode but First, and for First once the first branch has settled. -/
theorem parallel_outcome_final (spec : ParallelSpec) (outcomes : List Outcome) (outcome : Outcome)
    (satisfied : join spec outcomes = some outcome) :
    (∀ (branches : List (FlowNode ν)) (iter : Nat) (before after : Context ν),
      branchOutcomes before branches iter = outcomes → Kept outcomes (branchOutcomes after branches iter) →
      (evalNode after (.parallel spec branches) iter).1.settled = true →
      (evalNode after (.parallel spec branches) iter).1 = outcome) ↔
    (spec.mode = .first → ∃ lead ∈ outcomes.head?, lead.settled = true) := by
  constructor
  · intro final first
    rcases outcomes with _ | ⟨lead, rest⟩
    · simp [join, first] at satisfied
    refine ⟨lead, rfl, ?_⟩
    by_contra unsettled
    -- The first branch is still running: let it settle otherwise than the branch that decided.
    have running : lead = .inProgress := by cases lead <;> simp_all
    subst running
    have lengths : (overtaken outcome (.inProgress :: rest)).length = (Outcome.inProgress :: rest).length := by
      simp [overtaken]
    have later : branchOutcomes (leafContext ν (overtaken outcome (.inProgress :: rest)))
        (leaves ν (Outcome.inProgress :: rest).length) 0 = overtaken outcome (.inProgress :: rest) := by
      rw [← lengths]
      exact branchOutcomes_leaves _ 0
    have same := final (leaves ν (Outcome.inProgress :: rest).length) 0 (leafContext ν (.inProgress :: rest))
      (leafContext ν (overtaken outcome (.inProgress :: rest))) (branchOutcomes_leaves _ 0)
      (later.symm ▸ kept_overtaken)
    rw [evalNode_parallel_fst, later, joined_overtaken first] at same
    cases outcome <;> simp at same
  · intro leads branches iter before after _ kept settled
    by_cases first : spec.mode = .first
    · exact joined_eq_of_join (join_first_of_settled first kept (leads first) satisfied) settled
    · exact joined_eq_of_join (join_kept first kept satisfied) settled

theorem parallel_outcome_final_quorum :
    join { join := some { mode := .quorum, quorum := some 2 } } [.succeeded, .inProgress, .succeeded] = some .succeeded ∧
    ∀ (branches : List (FlowNode Nat)) (iter : Nat) (before after : Context Nat),
      branchOutcomes before branches iter = [.succeeded, .inProgress, .succeeded] →
      Kept [.succeeded, .inProgress, .succeeded] (branchOutcomes after branches iter) →
      (evalNode after (.parallel { join := some { mode := .quorum, quorum := some 2 } } branches) iter).1.settled = true →
      (evalNode after (.parallel { join := some { mode := .quorum, quorum := some 2 } } branches) iter).1 = .succeeded := by
  have satisfied : join { join := some { mode := .quorum, quorum := some 2 } } [.succeeded, .inProgress, .succeeded] =
      some .succeeded := by decide
  exact ⟨satisfied, (parallel_outcome_final _ _ _ satisfied).mpr (by decide)⟩

def race : FlowNode Nat := .parallel { join := some { mode := .first } } [.run "a", .run "b"]

def raceContext (a b : ActionPhase) : Context Nat where
  now := 0
  child member _ := { exist := true, phase := if member = "a" then a else b }
  loopProgress _ := {}
  parseFloat _ := none

/-- Member b fails first and the join asks for the cancellation of a; once a confirms, the node
reports the outcome of a. -/
theorem race_is_overtaken : validateStructure (fun member => member = "a" ∨ member = "b") race = .ok () ∧
    join { join := some { mode := .first } } (branchOutcomes (raceContext .inProgress .failed) [.run "a", .run "b"] 0) =
      some .failed ∧
    evaluate (raceContext .inProgress .failed) race = (.inProgress, [.cancel ⟨"a", 0⟩]) ∧
    Kept (branchOutcomes (raceContext .inProgress .failed) [.run "a", .run "b"] 0)
      (branchOutcomes (raceContext .cancelled .failed) [.run "a", .run "b"] 0) ∧
    evaluate (raceContext .cancelled .failed) race = (.cancelled, []) := by
  refine ⟨rfl, by decide, by decide, ?_, by decide⟩
  exact .cons (fun settled => by revert settled; decide) (.cons (fun _ => rfl) .nil)

end Swarmada.Flow
