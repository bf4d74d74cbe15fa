import Mathlib.Data.List.Induction
import Mathlib.Data.String.Basic
import Swarmada.Controller.Lease
import Swarmada.Tde.Queue

namespace Swarmada.Scheduling

open Api Controller Tde

structure CapabilityEntry (ν : Type) extends CapabilityStatusEntry where
  resolvedParameters : List (String × ν) := []
  degradedSchedulable : Bool := false

/-- A robot as the scheduler reads it; `entries` is `status.capabilities`. -/
structure Candidate (ν : Type) extends FleetRobot where
  entries : List (CapabilityEntry ν) := []
  manufacturer : String := ""
  batteryPercent : Option Int := none

structure Work (ν : Type) where
  executor : Option String := none
  robotSelector : String := ""
  requiredCapabilities : List String := []
  constraints : List (String × ν) := []
  acceptDegradedCapabilities : Option Bool := none
  preferredManufacturer : String := ""
  preferredRobot : String := ""

/-- The filter that eliminated a robot, with what its reason names. -/
inductive Exclusion (ν : Type) where
  | external
  | robotSelector (selector : String)
  | requiredCapability (missing : List String)
  | parametricConstraint (param : String) (least : ν)
  | terminating
  | phaseIdle (phase : RobotPhase)

variable {ν : Type} (action : Work ν)

def schedulableCapabilities (robot : Candidate ν) (acceptDegraded : Bool) : List String :=
  (robot.entries.filter fun entry => entry.status = .active || acceptDegraded && entry.status = .degraded).map (·.name)

def missing (robot : Candidate ν) (acceptDegraded : Bool) : List String :=
  action.requiredCapabilities.filter (· ∉ schedulableCapabilities robot acceptDegraded)

theorem missing_nil {action : Work ν} {robot : Candidate ν} (active : missing action robot false = []) : missing action robot true = [] := by
  simp only [missing, schedulableCapabilities, List.filter_eq_nil_iff, decide_eq_true_eq, not_not, List.mem_map] at active ⊢
  intro name required
  obtain ⟨entry, _, named⟩ := active name required
  exact ⟨entry, by simp_all, named⟩

variable [LE ν] [DecidableRel fun a b : ν => a ≤ b]

def robotMeetsConstraint (robot : Candidate ν) (param : String) (least : ν) : Bool :=
  robot.entries.any fun entry =>
    (entry.status = .active || entry.status = .degraded && entry.degradedSchedulable) &&
      (entry.resolvedParameters.lookup param).any (least ≤ ·)

def excludedBy (robot : Candidate ν) (acceptDegraded : Bool) : Option (Exclusion ν) :=
  if action.executor.isSome then some .external
  else if action.robotSelector ≠ "" then
    if robot.name ≠ action.robotSelector then some (.robotSelector action.robotSelector) else none
  else if missing action robot acceptDegraded ≠ [] then
    some (.requiredCapability ((missing action robot acceptDegraded).insertionSort (· ≤ ·)))
  else
    ((action.constraints.insertionSort (·.1 ≤ ·.1)).find? fun (param, least) => !robotMeetsConstraint robot param least).map
      fun (param, least) => .parametricConstraint param least

def excludedByForAssignment (robot : Candidate ν) (acceptDegraded : Bool) : Option (Exclusion ν) :=
  if robot.deleting then some .terminating
  else if robot.phase ≠ .idle then some (.phaseIdle robot.phase)
  else excludedBy action robot acceptDegraded

/-- `robot` sorts before `other` among the eligible. -/
def ranksBefore (preferSameManufacturer honorPreferredRobot : Bool) (robot other : Candidate ν) : Bool :=
  let named (candidate : Candidate ν) : Bool := candidate.name = action.preferredRobot
  let made (candidate : Candidate ν) : Bool := candidate.manufacturer = action.preferredManufacturer
  if (honorPreferredRobot && action.preferredRobot ≠ "") = true ∧ named robot ≠ named other then named robot
  else if (preferSameManufacturer && action.preferredManufacturer ≠ "") = true ∧ made robot ≠ made other then made robot
  else other.batteryPercent.getD 0 < robot.batteryPercent.getD 0

def selectRobot (candidates : List (Candidate ν))
    (acceptDegraded preferSameManufacturer honorPreferredRobot : Bool) : Option (Candidate ν) :=
  if action.executor.isSome then none
  else
    ((candidates.filter fun robot => (excludedByForAssignment action robot acceptDegraded).isNone).mergeSort
      fun robot other => !ranksBefore action preferSameManufacturer honorPreferredRobot other robot).head?

def acceptDegradedOf : Bool := action.acceptDegradedCapabilities.getD false

/-- `config` is the namespace's `defaultAcceptDegradedCapabilities`, when its configuration can be read. -/
def acceptDegraded (config : Option Bool) : Bool := action.acceptDegradedCapabilities.getD (config.getD false)

def robotMatchesAction (robot : Candidate ν) : Bool := (excludedBy action robot (acceptDegradedOf action)).isNone

structure Victim where
  name : String
  priority : ActionPriority
deriving DecidableEq, Repr

def isPreemptible (priority : ActionPriority) : Bool := priority = .normal || priority = .low

variable (lookup : String → Option Victim) (mayDisplace : Victim → Bool)

/-- The action the robot would be freed from. -/
def displaced (robot : Candidate ν) : Option Victim :=
  if robot.assignedAction = "" then none
  else if robot.phase ≠ .inProgress ∧ robot.phase ≠ .assigned then none
  else if robotUnderEstop robot.toRobot then none
  else if !robotMatchesAction action robot then none
  else (lookup robot.assignedAction).filter fun victim => isPreemptible victim.priority && mayDisplace victim

def findPreemptionCandidate (robots : List (Candidate ν)) : Option (Candidate ν × Victim) :=
  if action.executor.isSome then none
  else
    robots.foldl (fun chosen robot =>
      match displaced action lookup mayDisplace robot, chosen with
      | none, _ => chosen
      | some victim, none => some (robot, victim)
      | some victim, some (best, least) =>
        if priorityRank least.priority < priorityRank victim.priority ∨
            priorityRank victim.priority = priorityRank least.priority ∧ robot.name < best.name then
          some (robot, victim)
        else chosen) none

/-- The robot is busy, under no stop and accepted, and runs an action that may be displaced. -/
structure Displaces (robot : Candidate ν) (victim : Victim) : Prop where
  busy : robot.assignedAction ≠ "" ∧ (robot.phase = .inProgress ∨ robot.phase = .assigned)
  unstopped : robotUnderEstop robot.toRobot = false
  accepted : robotMatchesAction action robot = true
  runs : lookup robot.assignedAction = some victim
  preemptible : isPreemptible victim.priority = true ∧ mayDisplace victim = true

/-- The choice among the robots: the lowest band, and in it the least name. -/
def Chosen (robots : List (Candidate ν)) : Option (Candidate ν × Victim) → Prop
  | none => ∀ robot ∈ robots, ∀ victim, ¬ Displaces action lookup mayDisplace robot victim
  | some (robot, victim) => robot ∈ robots ∧ Displaces action lookup mayDisplace robot victim ∧
      ∀ other ∈ robots, ∀ lesser, Displaces action lookup mayDisplace other lesser →
        priorityRank lesser.priority < priorityRank victim.priority ∨
          priorityRank lesser.priority = priorityRank victim.priority ∧ robot.name ≤ other.name

/-- Only the namespace's default lets the robot do the work: one of its capabilities is degraded. -/
structure OnDefault (config : Option Bool) (robot : Candidate ν) : Prop where
  unset : action.acceptDegradedCapabilities = none
  default : config = some true
  unpinned : action.robotSelector = ""
  degraded : missing action robot true = [] ∧ missing action robot false ≠ []
  met : ∀ constraint ∈ action.constraints, robotMeetsConstraint robot constraint.1 constraint.2 = true

variable {action lookup mayDisplace} {robot : Candidate ν} {robots : List (Candidate ν)}

theorem displaced_eq_some :
    displaced action lookup mayDisplace robot = some victim ↔ Displaces action lookup mayDisplace robot victim := by
  unfold displaced
  constructor
  · intro found
    split at found <;> try contradiction
    split at found <;> try contradiction
    split at found <;> try contradiction
    split at found <;> try contradiction
    next busy working free accepted =>
    obtain ⟨runs, may⟩ := Option.filter_eq_some_iff.mp found
    refine ⟨⟨busy, ?_⟩, by simpa using free, by simpa using accepted, runs, by simpa using may⟩
    tauto
  · rintro ⟨⟨busy, _⟩, free, accepted, runs, may⟩
    rw [if_neg busy, if_neg (by tauto), if_neg (by simp [free]), if_neg (by simp [accepted])]
    exact Option.filter_eq_some_iff.mpr ⟨runs, by simpa using may⟩

theorem findPreemptionCandidate_chosen (inside : action.executor = none) :
    Chosen action lookup mayDisplace robots (findPreemptionCandidate action lookup mayDisplace robots) := by
  unfold findPreemptionCandidate
  rw [if_neg (by simp [inside])]
  induction robots using List.reverseRecOn with
  | nil => exact nofun
  | append_singleton robots robot ih =>
    rw [List.foldl_append, List.foldl_cons, List.foldl_nil]
    generalize List.foldl _ none robots = chosen at ih ⊢
    cases here : displaced action lookup mayDisplace robot with
    | none =>
      have idle : ∀ victim, ¬ Displaces action lookup mayDisplace robot victim := by
        intro victim displaces
        rw [displaced_eq_some.mpr displaces] at here
        cases here
      cases chosen <;> simp only [Chosen, List.mem_append, List.mem_singleton] at ih ⊢ <;> grind
    | some victim =>
      have displaces := displaced_eq_some.mp here
      have only : ∀ lesser, Displaces action lookup mayDisplace robot lesser → lesser = victim := fun _ other =>
        Option.some.inj (other.runs.symm.trans displaces.runs)
      cases chosen with
      | none =>
        refine ⟨by simp, displaces, fun other member lesser lower => ?_⟩
        rcases List.mem_append.mp member with old | new
        · exact absurd lower (ih other old lesser)
        cases List.mem_singleton.mp new
        rw [only lesser lower]
        exact .inr ⟨rfl, le_rfl⟩
      | some =>
        dsimp only
        split <;> simp only [Chosen, List.mem_append, List.mem_singleton] at ih ⊢
        next => grind
        next => grind

theorem excludedBy_isNone (inside : action.executor = none) :
    (excludedBy action robot degraded).isNone = true ↔
      if action.robotSelector ≠ "" then robot.name = action.robotSelector
      else missing action robot degraded = [] ∧
        ∀ constraint ∈ action.constraints, robotMeetsConstraint robot constraint.1 constraint.2 = true := by
  unfold excludedBy
  rw [if_neg (by simp [inside])]
  split
  · split <;> simp_all
  · split <;> simp_all [List.find?_eq_none]

theorem selectRobot_alone (inside : action.executor = none) :
    (selectRobot action [{ robot with phase := .idle, deleting := false }] degraded prefer honor).isSome =
      (excludedBy action robot degraded).isNone := by
  have same : excludedByForAssignment action { robot with phase := .idle, deleting := false } degraded =
      excludedBy action robot degraded := rfl
  unfold selectRobot
  rw [if_neg (by simp [inside]), List.filter_singleton, same]
  cases (excludedBy action robot degraded).isNone <;> simp

/-- The search accepts whom the selection would, but for the robots that only the namespace's default lets
do the work, and takes the robot of the least name in the lowest band. -/
theorem preemption_agrees_iff (inside : action.executor = none) (config : Option Bool) (robot : Candidate ν)
    (prefer honor : Bool) (robots : List (Candidate ν)) :
    (robotMatchesAction action robot =
        (selectRobot action [{ robot with phase := .idle, deleting := false }] (acceptDegraded action config) prefer
          honor).isSome ↔ ¬ OnDefault action config robot) ∧
      Chosen action lookup mayDisplace robots (findPreemptionCandidate action lookup mayDisplace robots) := by
  refine ⟨?_, findPreemptionCandidate_chosen inside⟩
  rw [selectRobot_alone inside, robotMatchesAction, Bool.eq_iff_iff, excludedBy_isNone inside, excludedBy_isNone inside]
  by_cases default : action.acceptDegradedCapabilities = none ∧ config = some true
  · obtain ⟨unset, rfl⟩ := default
    have fewer := @missing_nil _ action robot
    have on : OnDefault action (some true) robot ↔ action.robotSelector = "" ∧
        (missing action robot true = [] ∧ missing action robot false ≠ []) ∧
        ∀ constraint ∈ action.constraints, robotMeetsConstraint robot constraint.1 constraint.2 = true :=
      ⟨fun on => ⟨on.unpinned, on.degraded, on.met⟩, fun ⟨unpinned, degraded, met⟩ => ⟨unset, rfl, unpinned, degraded, met⟩⟩
    rw [on, show acceptDegradedOf action = false by simp [acceptDegradedOf, unset],
      show acceptDegraded action (some true) = true by simp [acceptDegraded, unset]]
    split <;> tauto
  · have same : acceptDegradedOf action = acceptDegraded action config := by
      unfold acceptDegradedOf acceptDegraded
      cases accepts : action.acceptDegradedCapabilities with
      | some choice => rfl
      | none =>
        match config with
        | none | some false => rfl
        | some true => exact absurd ⟨accepts, rfl⟩ default
    rw [same]
    exact iff_of_true Iff.rfl fun on => default ⟨on.unset, on.default⟩

/-- Two robots carry the load, one with its arm degraded. -/
def welders : List (Candidate Nat) :=
  [{ ns := "plant", name := "r2", phase := .inProgress, assignedAction := "a2"
     entries := [{ name := "weld", status := .active }] },
   { ns := "plant", name := "r1", phase := .inProgress, assignedAction := "a1"
     entries := [{ name := "weld", status := .degraded }] }]

def running (name : String) : Option Victim := some { name, priority := .low }

/-- With the default off both ways of choosing leave out the degraded robot. -/
theorem preemption_agrees_iff_active : ¬ OnDefault { requiredCapabilities := ["weld"] } (some false) welders[1] ∧
      (findPreemptionCandidate { requiredCapabilities := ["weld"] } running (fun _ => true) welders).map (·.1.name) =
        some "r2" := by
  have agrees := @preemption_agrees_iff Nat { requiredCapabilities := ["weld"] } _ _ running (fun _ => true) rfl (some false)
    welders[1] true true welders
  exact ⟨agrees.1.mp (by decide +kernel), by decide +kernel⟩

/-- The namespace accepts degraded capabilities: the selection takes the robot, and the search does not see it. -/
theorem degraded_robot_not_preempted :
    (selectRobot { requiredCapabilities := ["weld"] } [{ welders[1] with phase := .idle, deleting := false }]
        (acceptDegraded ({ requiredCapabilities := ["weld"] } : Work Nat) (some true)) true true).isSome = true ∧
      robotMatchesAction { requiredCapabilities := ["weld"] } welders[1] = false := by
  decide +kernel

end Swarmada.Scheduling
