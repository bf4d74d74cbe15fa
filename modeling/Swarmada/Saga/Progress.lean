import Swarmada.Saga.Passes

namespace Swarmada.Saga

open Api Graph Transition
open TaskController (isTerminal)

def State.children (state : State) : Children := childrenOf state.task state.objects

def State.compPhase (state : State) : String → CompensationPhase := compPhases state.task state.objects state.children

def Owes (state : State) (a : FleetTaskAction) : Prop :=
  needsCompensation a state.children = true ∧ state.compPhase a.name ≠ .succeeded

def Eligible (state : State) (a : FleetTaskAction) : Prop :=
  state.compPhase a.name = .pending ∧ compensationEligible state.task.actions a.name state.children state.compPhase = true

/-- The task compensates, every child is terminal and no undo is under way or failed. -/
structure Quiet (state : State) : Prop where
  policy : state.task.failurePolicy = .compensate
  compensating : state.task.status.phase = .compensating
  terminal : ∀ a ∈ state.task.actions, (state.children a.name).all (isTerminal ·.phase) = true
  idle : ∀ a ∈ state.task.actions, state.compPhase a.name ≠ .inProgress ∧ state.compPhase a.name ≠ .failed

/-- No other member that owes its undo depends on this one. -/
def Outermost (state : State) (a : FleetTaskAction) : Prop :=
  Owes state a ∧ ∀ b ∈ state.task.actions, a.name ∈ b.dependsOn → ¬ Owes state b

instance (state : State) (a : FleetTaskAction) : Decidable (Owes state a) := inferInstanceAs (Decidable (_ ∧ _))

instance (state : State) (a : FleetTaskAction) : Decidable (Eligible state a) := inferInstanceAs (Decidable (_ ∧ _))

instance (state : State) (a : FleetTaskAction) : Decidable (Outermost state a) := inferInstanceAs (Decidable (_ ∧ _))

instance (state : State) : Decidable (Quiet state) :=
  decidable_of_iff (state.task.failurePolicy = .compensate ∧ state.task.status.phase = .compensating ∧
      (∀ a ∈ state.task.actions, (state.children a.name).all (isTerminal ·.phase) = true) ∧
      ∀ a ∈ state.task.actions, state.compPhase a.name ≠ .inProgress ∧ state.compPhase a.name ≠ .failed)
    ⟨fun ⟨policy, compensating, terminal, idle⟩ => ⟨policy, compensating, terminal, idle⟩,
      fun quiet => ⟨quiet.policy, quiet.compensating, quiet.terminal, quiet.idle⟩⟩

variable {state start : State} {history : List Event} {a : FleetTaskAction}

theorem Quiet.compPhase_of_owes (quiet : Quiet state) (distinct : (state.task.actions.map FleetTaskAction.name).Nodup)
    (listed : a ∈ state.task.actions) (owes : Owes state a) : state.compPhase a.name = .pending := by
  obtain ⟨running, failed⟩ := quiet.idle a listed
  have owed : state.compPhase a.name ≠ .none := by
    rw [State.compPhase, compPhases_named distinct listed, compPhaseOf, if_pos owes.1]
    split
    · simp
    split
    · simp
    · split <;> simp
  have undone := owes.2
  generalize state.compPhase a.name = phase at running failed owed undone
  cases phase <;> first | rfl | contradiction

theorem owes_of_pending (distinct : (state.task.actions.map FleetTaskAction.name).Nodup) (listed : a ∈ state.task.actions)
    (pending : state.compPhase a.name = .pending) : Owes state a := by
  refine ⟨?_, by simp [pending]⟩
  rw [State.compPhase, compPhases_named distinct listed] at pending
  exact needsCompensation_of_pending pending

theorem Quiet.eligible_iff (quiet : Quiet state) (distinct : (state.task.actions.map FleetTaskAction.name).Nodup)
    (listed : a ∈ state.task.actions) : Eligible state a ↔
      Outermost state a ∧ ∀ b ∈ state.task.actions, a.name ∈ b.dependsOn → (state.children b.name).isSome = true := by
  constructor
  · rintro ⟨pending, may⟩
    have dependents := compensationEligible_iff.mp may
    refine ⟨⟨owes_of_pending distinct listed pending, fun b member depends owes => ?_⟩, fun b member depends => ?_⟩
    · obtain ⟨_, _, _, undone⟩ := dependents b member depends
      exact owes.2 (undone owes.1)
    obtain ⟨_, read, _⟩ := dependents b member depends
    rw [read]
    rfl
  · rintro ⟨⟨owes, outer⟩, generated⟩
    refine ⟨quiet.compPhase_of_owes distinct listed owes, compensationEligible_iff.mpr fun b member depends => ?_⟩
    obtain ⟨child, read⟩ := Option.isSome_iff_exists.mp (generated b member depends)
    have terminal := quiet.terminal b member
    rw [read] at terminal
    refine ⟨child, read, terminal, fun needs => ?_⟩
    by_contra undone
    exact outer b member depends ⟨needs, undone⟩

theorem exists_outermost (acyclic : Acyclic (edges state.task.actions)) (owed : ∃ a ∈ state.task.actions, Owes state a) :
    ∃ a ∈ state.task.actions, Outermost state a := by
  obtain ⟨some, listed, owes⟩ := owed
  have nonempty : (state.task.actions.filter fun a => Owes state a).map FleetTaskAction.name ≠ [] := by
    intro empty
    have member : some.name ∈ (state.task.actions.filter fun a => Owes state a).map FleetTaskAction.name :=
      List.mem_map_of_mem (List.mem_filter.mpr ⟨listed, decide_eq_true owes⟩)
    rw [empty] at member
    contradiction
  obtain ⟨_, member, first⟩ := acyclic.exists_first nonempty
  obtain ⟨a, among, rfl⟩ := List.mem_map.mp member
  obtain ⟨aIn, aOwes⟩ := List.mem_filter.mp among
  refine ⟨a, aIn, of_decide_eq_true aOwes, fun b bIn depends bOwes => ?_⟩
  exact first b.name (List.mem_map_of_mem (List.mem_filter.mpr ⟨bIn, decide_eq_true bOwes⟩))
    (mem_edges.mpr ⟨b, bIn, rfl, depends⟩)

def joinTask : FleetTask where
  name := "t"
  uid := "u"
  actions := [{ name := "lift", compensation := some {} }, { name := "scan" },
    { name := "dock", dependsOn := ["lift", "scan"], compensation := some {} }, { name := "other" }]
  failurePolicy := .compensate

def join : State := { task := joinTask, objects := fun _ => none }

theorem join_fresh : Fresh join := ⟨by decide, rfl, fun _ _ absent => nomatch absent⟩

theorem join_acyclic (actions : state.task.actions = joinTask.actions) : Acyclic (edges state.task.actions) := by
  rw [actions]
  exact (validateGraph_eq_none_iff.mp (by decide +kernel)).2

def ends (name : String) (phase : ActionPhase) : Label := .report name { name := "", created := 0, phase := phase }

/-- When `scan` succeeds, `dock` is generated, succeeds and is undone; `other` fails in any case. -/
def joinRun (scan : ActionPhase) : List Label :=
  [.pass {}, ends "t-lift" .succeeded, ends "t-scan" scan, .pass {}, ends "t-other" .failed] ++
    if scan = .succeeded then [ends "t-dock" .succeeded, .pass {}, ends "t-dock-comp" .succeeded] else []

def JoinEnds (started : Bool) (config : State × List Event) : Prop :=
  Quiet config.1 ∧ config.1.task.actions = joinTask.actions ∧ (∃ a ∈ config.1.task.actions, Owes config.1 a) ∧
    (decide (∃ a ∈ config.1.task.actions, Eligible config.1 a) = started)

instance (started : Bool) (config : State × List Event) : Decidable (JoinEnds started config) :=
  inferInstanceAs (Decidable (_ ∧ _ ∧ _ ∧ _))

end Swarmada.Saga
