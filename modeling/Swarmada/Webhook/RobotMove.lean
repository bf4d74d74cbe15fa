import Swarmada.Estopscope.Moves
import Swarmada.Webhook.EstopOnly

namespace Swarmada.Webhook

open Api Estopscope

structure RobotWrite where
  annotations : List (String × String)
  finalizers : List String
  adapter : String
  zone : String
deriving DecidableEq, Repr

def RobotWrite.apply (write : RobotWrite) (robot : Robot) : Robot :=
  { robot with
    annotations := write.annotations, finalizers := write.finalizers, adapter := write.adapter, zone := write.zone }

/-- Stamped on every write by the defaulter; no invariant reads them. -/
def defaulterStampedAnnotationKeys : List String :=
  ["swarmada.io/length-unit", "swarmada.io/angle-unit", "swarmada.io/ground-floor", "swarmada.io/robot-source"]

def withoutStatus (robot : Robot) : Robot :=
  { ns := robot.ns, name := robot.name, uid := robot.uid, annotations := robot.annotations,
    finalizers := robot.finalizers, deleting := robot.deleting, adapter := robot.adapter, zone := robot.zone }

def onlyMetadataChanged (old new : Robot) : Bool :=
  { new with annotations := old.annotations, finalizers := old.finalizers } = old

def withoutEstopAnnotations (robot : Robot) : Robot :=
  { withoutStatus robot with
    annotations := withoutKeys (estopAnnotationKeys ++ defaulterStampedAnnotationKeys) robot.annotations
    finalizers := withoutStopFinalizer robot.finalizers }

def onlyEstopAnnotationsChanged (old new : Robot) : Bool :=
  estopAnnotationsChanged old.annotations new.annotations && withoutEstopAnnotations old = withoutEstopAnnotations new

def withoutFinalizers (robot : Robot) : Robot :=
  { withoutStatus robot with
    annotations := withoutKeys ( robotIDAnnotation :: defaulterStampedAnnotationKeys) robot.annotations
    finalizers := [] }

def onlyFinalizersChangedWhileDeleting (old new : Robot) : Bool :=
  old.deleting && old.finalizers ≠ new.finalizers && withoutFinalizers old = withoutFinalizers new

def quoteAll (names : List String) : String := ", ".intercalate (names.map quote)

def pendingStopRefusal (what : String) (stops : List String) : String :=
  what ++ " would take it out from under zone " ++ quoteAll stops ++
    ", whose emergency stop is issued and not yet applied " ++
    "(it carries swarmada.io/estop-triggered and no swarmada.io/estop-processed): the stop would then " ++
    "never reach the robots it covers. Retry once the stop is applied; the zone then carries " ++
    "swarmada.io/estop-processed, and the stop holds those robots wherever they go"

def unreachedStopRefusal (what : String) (stops : List String) : String :=
  what ++ " would take it out from under zone " ++ quoteAll stops ++
    ", whose emergency stop is in force and has not yet reached the robot: " ++
    "the stop reaches a robot where it stands, and the robot would leave before it does. Retry once the robot " ++
    "records the stop (status.estopHeldBy); the stop then holds it wherever it goes"

def tooDeepText (error : TooDeepError) : String :=
  "the parentZone chain above zone " ++ quote error.zone ++ " is deeper than " ++ toString maxAncestors ++
    " zones; it cannot be checked for a stop"

/-- Refuse a change of `spec.zone` that takes the robot out of a stop it does not record. -/
def refuseMoveOutOfPendingStop (read : Except String World) (old new : Robot) : Except String Unit :=
  if old.zone = new.zone ∨ old.zone = "" then .ok ()
  else
    match read with
    | .error error => .error error
    | .ok world =>
      match moveLoses world.tree world.configs old { old with zone := new.zone } with
      | .error error => .error (tooDeepText error)
      | .ok lostStops =>
        let pending := (lostStops.filter Holder.pending).map Holder.name
        let inForce := (lostStops.filter (fun stop => !stop.pending)).map Holder.name
        let what := "moving robot " ++ quote new.name ++ " from zone " ++ quote old.zone ++ " to " ++ quote new.zone
        if 0 < pending.length then .error (pendingStopRefusal what pending)
        else if 0 < inForce.length then .error (unreachedStopRefusal what inForce)
        else .ok ()

/-- The checks of the update that read other objects or the writer's rights.  They refuse or
pass, and decide nothing else. -/
structure UpdateChecks where
  /-- the robot-id, the last finalizer of a held robot, the estop verbs, the marker and the actor -/
  unconditional : Robot → Robot → Except String Unit
  firmware : Robot → Robot → Except String Unit
  invariants : Robot → Robot → Except String Unit

def validateUpdate (checks : UpdateChecks) (byControlPlane : Bool) (read : Except String World) (old new : Robot) :
    Except String Unit := do
  checks.unconditional old new
  if byControlPlane && onlyMetadataChanged old new then return
  checks.firmware old new
  if onlyEstopAnnotationsChanged old new then return
  if onlyFinalizersChangedWhileDeleting old new then return
  refuseMoveOutOfPendingStop read old new
  checks.invariants old new

variable {checks : UpdateChecks} {byControlPlane : Bool} {read : Except String World} {old new : Robot}

theorem zone_of_onlyMetadataChanged (only : onlyMetadataChanged old new = true) : new.zone = old.zone := by
  rw [onlyMetadataChanged, decide_eq_true_eq] at only
  have same := congrArg Robot.zone only
  exact same

theorem zone_of_onlyEstopAnnotationsChanged (only : onlyEstopAnnotationsChanged old new = true) :
    new.zone = old.zone := by
  have same := of_decide_eq_true (Bool.and_eq_true_iff.mp only).2
  exact (congrArg Robot.zone same).symm

theorem zone_of_onlyFinalizersChanged (only : onlyFinalizersChangedWhileDeleting old new = true) :
    new.zone = old.zone := by
  have same := of_decide_eq_true (Bool.and_eq_true_iff.mp only).2
  exact (congrArg Robot.zone same).symm

theorem validateUpdate_cases (admitted : validateUpdate checks byControlPlane read old new = .ok ()) :
    new.zone = old.zone ∨ refuseMoveOutOfPendingStop read old new = .ok () := by
  simp only [validateUpdate, bind, Except.bind, pure, Except.pure] at admitted
  split at admitted <;> try contradiction
  split at admitted
  next exempt =>
    exact .inl (zone_of_onlyMetadataChanged (Bool.and_eq_true_iff.mp exempt).2)
  split at admitted <;> try contradiction
  split at admitted
  next exempt =>
    exact .inl (zone_of_onlyEstopAnnotationsChanged exempt)
  split at admitted
  next exempt =>
    exact .inl (zone_of_onlyFinalizersChanged exempt)
  split at admitted <;> try contradiction
  rename_i passed
  exact .inr passed

theorem refuseMove_ok (passed : refuseMoveOutOfPendingStop read old new = .ok ()) :
    new.zone = old.zone ∨ old.zone = "" ∨
      ∃ world, read = .ok world ∧ moveLoses world.tree world.configs old { old with zone := new.zone } = .ok [] := by
  unfold refuseMoveOutOfPendingStop at passed
  dsimp only at passed
  split at passed
  next skipped =>
    exact skipped.imp Eq.symm .inl
  split at passed <;> try contradiction
  rename_i world
  split at passed <;> try contradiction
  rename_i stops judged
  split at passed <;> try contradiction
  rename_i nonePending
  split at passed <;> try contradiction
  rename_i noneInForce
  simp only [List.length_map, List.length_pos_iff, ne_eq, not_not, List.filter_eq_nil_iff,
    Bool.not_eq_true, Bool.not_eq_false'] at nonePending noneInForce
  cases stops with
  | nil => exact .inr (.inr ⟨world, rfl, judged⟩)
  | cons stop =>
    have pending := noneInForce stop List.mem_cons_self
    simp [nonePending stop List.mem_cons_self] at pending

end Swarmada.Webhook
