import Swarmada.Controller.Lease
import Swarmada.Graph.Cycles
import Swarmada.TaskController.Flow
import Swarmada.TaskController.Names

/-! # The members of a task without a flow

Members wait for one another through `dependsOn`.  A pass reads the children by member, and what
it decides from them is here: which members may start, which can never start, and which undo may
run once the task compensates.
-/

namespace Swarmada.Saga

open Api Controller Estopscope Graph
open TaskController (isTerminal)

inductive TriggerMode where
  | auto | onEvent
deriving DecidableEq, Repr

structure FleetTaskAction where
  name : String
  action : ActionSpec := {}
  type : String := ""
  dependsOn : List String := []
  startCondition : ActionPhase := .succeeded
  trigger : TriggerMode := .auto
  compensation : Option ActionSpec := none
deriving DecidableEq, Repr

abbrev Children := String → Option FleetAction

def startRank : ActionPhase → Nat
  | .assigned => 1
  | .inProgress => 2
  | .succeeded => 3
  | _ => 0

def terminallyUnsatisfiable : ActionPhase → Bool
  | .failed | .cancelled => true
  | _ => false

/-- The rank each predecessor has to reach; Succeeded is the default. -/
def FleetTaskAction.need (a : FleetTaskAction) : Nat :=
  if startRank a.startCondition = 0 then startRank .succeeded else startRank a.startCondition

def dependenciesMet (a : FleetTaskAction) (children : Children) : Bool :=
  a.dependsOn.all fun dep =>
    match children dep with
    | none => false
    | some pred => !decide (startRank pred.phase < a.need)

def edges (actions : List FleetTaskAction) (name : String) : List String :=
  actions.flatMap fun a => if a.name = name then a.dependsOn else []

def unknownDependency (actions : List FleetTaskAction) : Option (String × String) :=
  (actions.flatMap fun a => a.dependsOn.map fun dep => (a.name, dep)).find? fun edge =>
    edge.2 ∉ actions.map FleetTaskAction.name

def cycleFrom (actions : List FleetTaskAction) : List String → List String → Option String
  | [], _ => none
  | name :: rest, black =>
    if name ∈ black then cycleFrom actions rest black
    else
      match explore (edges actions) (actions.length + 1) [] black name with
      | none => some name
      | some black => cycleFrom actions rest black

def validateGraph (actions : List FleetTaskAction) : Option String :=
  match unknownDependency actions with
  | some (name, dep) => some ("action " ++ quote name ++ " dependsOn unknown action " ++ quote dep)
  | none => (cycleFrom actions (actions.map FleetTaskAction.name) []).map fun name =>
    "dependency cycle detected involving " ++ quote name

/-- Whether `a` can never start, and the members the walk has seen: as many steps as there are members always suffice.
-/
def blockedForever (actions : List FleetTaskAction) (children : Children) :
    Nat → List String → FleetTaskAction → Bool × List String
  | 0, seen, _ => (false, seen)
  | left + 1, seen, a =>
    if a.name ∈ seen then (false, seen)
    else
      a.dependsOn.foldl
        (fun (blocked, seen) dep =>
          if blocked then (true, seen)
          else
            match children dep with
            | some pred => (terminallyUnsatisfiable pred.phase, seen)
            | none =>
              match actions.find? fun b => b.name = dep with
              | some predSpec => blockedForever actions children left seen predSpec
              | none => (false, seen))
        (false, a.name :: seen)

def dependencyPermanentlyFailed (actions : List FleetTaskAction) (children : Children) (a : FleetTaskAction) : Bool :=
  (blockedForever actions children (actions.length + 1) [] a).1

inductive CompensationPhase where
  | none | pending | inProgress | succeeded | failed
deriving DecidableEq, Repr

def needsCompensation (a : FleetTaskAction) (children : Children) : Bool :=
  a.compensation.isSome &&
    match children a.name with
    | none => false
    | some child => child.phase == .succeeded

/-- Every action that depends on `name` is terminal, and its own undo is done when it needs one. -/
def compensationEligible (actions : List FleetTaskAction) (name : String) (children : Children)
    (compPhase : String → CompensationPhase) : Bool :=
  actions.all fun b =>
    if name ∈ b.dependsOn then
      match children b.name with
      | none => false
      | some child => isTerminal child.phase && !(needsCompensation b children && compPhase b.name != .succeeded)
    else true

variable {actions : List FleetTaskAction} {a b : FleetTaskAction} {children : Children} {name dep : String}
  {compPhase : String → CompensationPhase}

theorem mem_edges : dep ∈ edges actions name ↔ ∃ a ∈ actions, a.name = name ∧ dep ∈ a.dependsOn := by
  simp only [edges, List.mem_flatMap]
  refine exists_congr fun a => and_congr_right fun _ => ?_
  by_cases same : a.name = name <;> simp [same]

theorem dependenciesMet_iff : dependenciesMet a children = true ↔
    ∀ dep ∈ a.dependsOn, ∃ pred, children dep = some pred ∧ a.need ≤ startRank pred.phase := by
  simp only [dependenciesMet, List.all_eq_true]
  refine forall₂_congr fun dep _ => ?_
  cases children dep <;> simp

theorem need_pos (a : FleetTaskAction) : 0 < a.need := by
  unfold FleetTaskAction.need
  split
  · decide
  · omega

theorem needsCompensation_iff : needsCompensation a children = true ↔
    a.compensation.isSome = true ∧ ∃ child, children a.name = some child ∧ child.phase = .succeeded := by
  rw [needsCompensation, Bool.and_eq_true]
  refine and_congr_right fun _ => ?_
  cases children a.name <;> simp

theorem compensationEligible_iff : compensationEligible actions name children compPhase = true ↔
    ∀ b ∈ actions, name ∈ b.dependsOn → ∃ child, children b.name = some child ∧ isTerminal child.phase = true ∧
      (needsCompensation b children = true → compPhase b.name = .succeeded) := by
  simp only [compensationEligible, List.all_eq_true]
  refine forall₂_congr fun b _ => ?_
  by_cases depends : name ∈ b.dependsOn
  · cases children b.name with
    | none => simp [depends]
    | some => cases needsCompensation b children <;> simp [depends]
  · simp [depends]

theorem unknownDependency_eq_none : unknownDependency actions = none ↔
    ∀ a ∈ actions, ∀ dep ∈ a.dependsOn, dep ∈ actions.map FleetTaskAction.name := by
  simp only [unknownDependency, List.find?_eq_none, List.mem_flatMap, List.mem_map, decide_eq_true_eq, not_not]
  constructor
  · intro known a member dep depends
    exact known (a.name, dep) ⟨a, member, dep, depends, rfl⟩
  · rintro known _ ⟨a, member, dep, depends, rfl⟩
    exact known a member dep depends

theorem cycleFrom_eq_none : cycleFrom actions names black = none ↔
    (names.foldlM (fun black name => if name ∈ black then some black else
      explore (edges actions) (actions.length + 1) [] black name) black).isSome := by
  induction names generalizing black with
  | nil => simp [cycleFrom]
  | cons name rest ih =>
    rw [cycleFrom, List.foldlM_cons]
    split
    · exact ih
    cases explore (edges actions) (actions.length + 1) [] black name with
    | none => simp
    | some => exact ih

theorem validateGraph_eq_none_iff : validateGraph actions = none ↔
    (∀ a ∈ actions, ∀ dep ∈ a.dependsOn, dep ∈ actions.map FleetTaskAction.name) ∧ Acyclic (edges actions) := by
  rw [← unknownDependency_eq_none]
  cases known : unknownDependency actions with
  | some => simp [validateGraph, known]
  | none =>
    have complete := unknownDependency_eq_none.mp known
    have closed : ∀ name ∈ actions.map FleetTaskAction.name, ∀ next ∈ edges actions name,
        next ∈ actions.map FleetTaskAction.name := by
      intro name _ next edge
      obtain ⟨a, member, _, depends⟩ := mem_edges.mp edge
      exact complete a member next depends
    have outside : ∀ name, name ∉ actions.map FleetTaskAction.name → edges actions name = [] := by
      intro name absent
      refine List.eq_nil_iff_forall_not_mem.mpr fun next edge => ?_
      obtain ⟨a, member, rfl, _⟩ := mem_edges.mp edge
      exact absent (List.mem_map_of_mem member)
    rw [validateGraph, known]
    simp only [Option.map_eq_none_iff, true_and, cycleFrom_eq_none]
    rw [Option.isSome_iff_ne_none, ← not_iff_not, not_not, ← exploreAll_eq_none_iff closed outside, exploreAll,
      List.length_map]

end Swarmada.Saga
