import Swarmada.Controller.System

/-! # Who may still run the action

A robot that was given the action may run it until its adapter says that it does not, or
until its lease, as last written, has been dead for the skew margin.
-/

namespace Swarmada.Controller

open Api Executorguard Transition

def horizonOf (robot : String) : List Event → Option Nat
  | [] => none
  | .assigned given horizon :: older | .leased given horizon :: older =>
    if given = robot then some horizon else horizonOf robot older
  | _ :: older => horizonOf robot older

def clockOf : List Event → Nat
  | [] => 0
  | .clock now :: _ => now
  | _ :: older => clockOf older

def lapsed (skew : Nat) (robot : String) (history : List Event) : Bool :=
  (horizonOf robot history).any fun horizon => decide (horizon + skew ≤ clockOf history)

def Event.frees (robot : String) : Event → Bool
  | .acknowledged teller | .refused teller | .ended teller => teller == robot
  | _ => false

def toldOff (robot : String) : List Event → Bool
  | [] => true
  | event :: older => event.frees robot || (event != .recorded robot && toldOff robot older)

/-- Since its last record the robot's adapter said that it is off the action, or its lease
was dead for the skew margin. -/
def off (skew : Nat) (robot : String) : List Event → Bool
  | [] => true
  | event :: older =>
    event.frees robot || lapsed skew robot (event :: older) || (event != .recorded robot && off skew robot older)

def Event.gives : Event → Option String
  | .assigned robot _ | .recorded robot => some robot
  | _ => none

/-- Whenever a robot is given the action, every other robot is off it. -/
def SingleExecutor (skew : Nat) : List Event → Prop :=
  Always fun older event => ∀ robot, event.gives = some robot → ∀ other, other ≠ robot → off skew other older = true

/-! ## What the controller has to see

The steps that are taken on a copy: the guard's list, the release of a record, and the
moves of the passes over other actions.
-/

def runs : ActionPhase → Bool
  | .assigned | .inProgress | .paused | .revoking => true
  | _ => false

variable (settings : Settings)

def Cluster.recordsTask (c : Cluster) (robot : String) : Bool :=
  (c.robots.objects robot).any (·.value.assignedAction == settings.task)

def Cluster.recordsCached (c : Cluster) : Bool :=
  c.names.all fun robot =>
    !c.recordsTask settings robot || (c.cachedRobots robot).any (·.value.assignedAction == settings.task)

/-- The guard lists robots whose records the cache shows.  A record is released on the
action as the API server holds it, or on the robot's own word, and the alert is written on
the action as the API server holds it. -/
def Op.founded (history : List Event) (c : Cluster) : Op → Bool
  | .listRobots => c.recordsCached settings
  | .patchRobot (some basis) _ robot =>
    robot.assignedAction == settings.task || toldOff robot.name history || decide (c.action = some basis)
  | .mergeRobot basis robot => toldOff robot history || decide (c.action = some basis)
  | .setAlerted basis true => decide (c.action = some basis)
  | _ => true

/-- An action whose robot may have lost its record to another action is deleted only with
its lease dead.  Another action takes a robot that records this one only when this one is
bound elsewhere or no longer runs there.  A completed cancel is the bound robot's word. -/
def Act.founded (c : Cluster) : Act → Bool
  | .delete =>
    match c.action with
    | none => true
    | some action =>
      !(action.value.phase == .preempted || action.value.phase == .failed) ||
        c.recordsTask settings action.value.assignedRobot ||
        leaseProvablyDead action.value.leaseExpiresAt c.now settings.skew ||
        action.value.assignedRobot == "" ||
        action.value.phase == .failed && action.value.failureReason != reasonStopUnconfirmed
  | .take robot _ =>
    !c.recordsTask settings robot ||
      match c.action with
      | none => false
      | some action =>
        action.value.assignedRobot != "" && (action.value.assignedRobot != robot || !runs action.value.phase)
  | .preemptCompleted robot => c.action.all (·.value.assignedRobot == robot)
  | _ => true

def founded (history : List Event) (s : System) : Label → Prop
  | .answer _ =>
    match s.pass with
    | .done _ => True
    | .call op _ => op.founded settings history s.cluster = true
  | .act move => move.founded settings s.cluster = true
  | _ => True

instance (settings : Settings) : ∀ history s label, Decidable (founded settings history s label)
  | history, s, .answer _ =>
    match pass : s.pass with
    | .done _ => isTrue (by simp only [founded, pass])
    | .call op _ =>
      decidable_of_iff (op.founded settings history s.cluster = true) (by simp only [founded, pass])
  | _, s, .act move => inferInstanceAs (Decidable (move.founded settings s.cluster = true))
  | _, _, .start | _, _, .abort | _, _, .restart => isTrue trivial

variable {skew : Nat} {robot : String} {history : List Event}

theorem off_of_lapsed (dead : lapsed skew robot history = true) : off skew robot history = true := by
  cases history with
  | nil => rfl
  | cons => simp [off, dead]

theorem off_of_toldOff (told : toldOff robot history = true) : off skew robot history = true := by
  induction history with
  | nil => rfl
  | cons event older ih =>
    simp only [toldOff, Bool.or_eq_true, Bool.and_eq_true] at told
    simp only [off, Bool.or_eq_true, Bool.and_eq_true]
    rcases told with word | ⟨other, earlier⟩
    · exact .inl (.inl word)
    · exact .inr ⟨other, ih earlier⟩

theorem off_of_frees (history : List Event)
    (word : event.frees robot = true) : off skew robot (event :: history) = true := by
  simp [off, word]

theorem off_cons (other : event ≠ .recorded robot) (earlier : off skew robot history = true) :
    off skew robot (event :: history) = true := by
  simp [off, other, earlier]

variable {events : List Event}

theorem off_append (other : ∀ event ∈ events, event ≠ .recorded robot) (earlier : off skew robot history = true) :
    off skew robot (events ++ history) = true := by
  induction events with
  | nil => exact earlier
  | cons event events ih =>
    refine off_cons (other event List.mem_cons_self) (ih fun e member => ?_)
    exact other e (List.mem_cons_of_mem _ member)

theorem lapsed_of_le (written : horizonOf robot history = some horizon) (passed : horizon + skew ≤ now)
    (clock : now ≤ clockOf history) : lapsed skew robot history = true := by
  have dead : horizon + skew ≤ clockOf history := Nat.le_trans passed clock
  simp [lapsed, written, dead]

def Event.quiet : Event → Bool
  | .assigned _ _ | .leased _ _ | .recorded _ => false
  | _ => true

theorem horizonOf_quiet (quiet : ∀ event ∈ events, event.quiet = true)
    (robot : String) : horizonOf robot (events ++ history) = horizonOf robot history := by
  induction events with
  | nil => rfl
  | cons event events ih =>
    cases event <;> simp_all [horizonOf, Event.quiet]

theorem singleExecutor_quiet (quiet : ∀ event ∈ events, event.quiet = true) (single : SingleExecutor skew history) :
    SingleExecutor skew (events ++ history) := by
  refine single.extend fun event member older robot gives => ?_
  have first := quiet event member
  cases event <;> simp_all [Event.gives, Event.quiet]

theorem clockOf_leaseEvents (original action : FleetAction) (history : List Event) :
    clockOf (leaseEvents original action ++ history) = clockOf history := by
  unfold leaseEvents
  repeat' split
  all_goals rfl

end Swarmada.Controller
