import Swarmada.Webhook.RobotMove

/-! # Admission of zones

The FleetZone validator over the zones it reads.  Its checks that read rights, polygons,
restrictions or compositions only refuse or pass; a request carries what they answer.
-/

namespace Swarmada.Webhook

open Api Estopscope

structure FieldError where
  field : String
  value : String := ""
  detail : String
deriving DecidableEq, Repr

inductive Refusal where
  | invalid (errors : List FieldError)
  | forbidden (text : String)
  | failed (text : String)
deriving DecidableEq, Repr

structure Requester where
  controlPlane : Bool := false
  mayClear : Bool := false
deriving DecidableEq, Repr

structure OtherChecks where
  early : Option Refusal := none
  fields : List FieldError := []
  late : Option Refusal := none
deriving DecidableEq, Repr

def pass : Option Refusal → Except Refusal Unit
  | none => .ok ()
  | some refusal => .error refusal

def tooDeepMessage (zone : String) (depth : Nat) : String :=
  "zone " ++ quote zone ++ " would have " ++ toString depth ++ " ancestors; the zone hierarchy admits a zone and " ++
    toString maxAncestors ++ " ancestors, the depth a zone's emergency stop reaches"

def joinPath (names : List String) : String := " → ".intercalate names

/-- The walk from `current` up.  It returns the zones met and what is wrong with the chain. -/
def walkFrom (tree : Tree) (start : String) : Nat → List String → List String → String → List FleetZone × Option String
  | left, visited, path, current =>
    if current = "" then ([], none)
    else
      match left with
      | 0 => ([], some (tooDeepMessage start (maxAncestors + 1)))
      | left + 1 =>
        if current ∈ visited then
          ([], some ("parentZone chain forms a cycle: " ++ joinPath (path ++ [current])))
        else
          match tree.zone current with
          | none => ([], none)
          | some parent =>
            let (above, problem) := walkFrom tree start left (current :: visited) (path ++ [current]) parent.parentZone
            (parent :: above, problem)

def walkAncestors (tree : Tree) (zone : FleetZone) : List FleetZone × Option String :=
  walkFrom tree zone.name maxAncestors [zone.name] [zone.name] zone.parentZone

def parentErrors (ns : String) (tree : Tree) (zone : FleetZone) : List FieldError :=
  let wrong (detail : String) : List FieldError := [⟨"spec.parentZone", zone.parentZone, detail⟩]
  if zone.parentZone = "" then []
  else if zone.parentZone = zone.name then wrong "a FleetZone cannot be its own parentZone"
  else
    match tree.zone zone.parentZone with
    | none => wrong ("parentZone " ++ quote zone.parentZone ++ " not found in namespace " ++ quote ns)
    | some _ =>
      match (walkAncestors tree zone).2 with
      | some problem => wrong problem
      | none => []

def validate (ns : String) (tree : Tree) (others : OtherChecks) (zone : FleetZone) : Except Refusal Unit :=
  let errors := parentErrors ns tree zone ++ others.fields
  if errors = [] then .ok () else .error (.invalid errors)

def validateCreate (ns : String) (tree : Tree) (others : OtherChecks) (zone : FleetZone) : Except Refusal Unit := do
  pass others.early
  validate ns tree others zone

/-- The stop finalizer of a carrier leaves it only by the control plane's hand, or by that
of a holder of estop-clear. -/
def refuseStopFinalizerRemoval (ns : String) (requester : Requester) (old new : FleetZone) : Except Refusal Unit :=
  if stopFinalizer ∉ old.finalizers ∨ stopFinalizer ∈ new.finalizers then .ok ()
  else if !old.carries then .ok ()
  else if requester.controlPlane || requester.mayClear then .ok ()
  else
    .error (.forbidden ("fleetzones " ++ quote new.name ++ " in namespace " ++ quote ns ++
      " carries a stop, and its stop finalizer (" ++ stopFinalizer ++ ") is held until the stop's clear " ++
      "has been applied. Only the control plane, or a holder of \"estop-clear\" on it, removes it before then. " ++
      "Clear the stop, and the control plane releases the finalizer once the clear is applied " ++
      "(RFC-0001 #safety-estop-scopes)."))

def onlyMetadataChangedOn (old new : FleetZone) : Bool :=
  { new with annotations := old.annotations, finalizers := old.finalizers } = old

def zoneWithoutEstopAnnotations (zone : FleetZone) : FleetZone :=
  { zone with
    annotations := withoutKeys estopAnnotationKeys zone.annotations
    finalizers := withoutStopFinalizer zone.finalizers }

def onlyZoneEstopAnnotationsChanged (old new : FleetZone) : Bool :=
  estopAnnotationsChanged old.annotations new.annotations &&
    zoneWithoutEstopAnnotations old = zoneWithoutEstopAnnotations new

def refusePropagateChangeUnderPendingStop (tree : Tree) (old new : FleetZone) : Except Refusal Unit :=
  if propagatesDown old = propagatesDown new then .ok ()
  else
    match tree.stopsOver new.name true FleetZone.pending with
    | .error text => .error (.failed text)
    | .ok [] => .ok ()
    | .ok (first :: rest) =>
      let change := "changing spec.estopPolicy.propagateToChildren of zone " ++ quote new.name ++ " from " ++
        toString (propagatesDown old) ++ " to " ++ toString (propagatesDown new)
      if first ≠ new.name then
        .error (.forbidden (change ++ " is refused while the emergency stop of zone " ++ quoteAll (first :: rest) ++
          ", which reaches it, is issued and not yet applied (it carries " ++
          "swarmada.io/estop-triggered and no swarmada.io/estop-processed). That stop's fan-out reads only " ++
          "the stopped zone's own propagateToChildren, so this change does not alter which robots it " ++
          "reaches. Retry once the stop is applied; the stopped zone then carries swarmada.io/estop-processed"))
      else
        .error (.forbidden (change ++ " would change which robots the emergency stop of zone " ++ quote new.name ++
          " reaches, and that stop is issued and not yet applied (it carries " ++
          "swarmada.io/estop-triggered and no swarmada.io/estop-processed): the stop would then reach other " ++
          "robots than the ones it was issued over. Retry once the stop is applied; the zone then carries " ++
          "swarmada.io/estop-processed, and the stop holds the robots it reached wherever they go"))

def deepest (tree : Tree) : List String → Int × String → Except TooDeepError (Int × String)
  | [], best => .ok best
  | zone :: rest, best =>
    match tree.ancestors zone with
    | .error error => .error error
    | .ok above => deepest tree rest (if best.1 < above.length then (above.length, zone) else best)

def deepestBelow (tree : Tree) (root : String) : Except TooDeepError (Int × String) :=
  match tree.subtree root with
  | .error error => .error error
  | .ok below => deepest tree below (-1, root)

def refuseDepthBeyondTheBound (after : Tree) (zone : FleetZone) : Except Refusal Unit :=
  match deepestBelow after zone.name with
  | .error error => .error (.invalid [⟨"spec.parentZone", zone.parentZone, tooDeepText error⟩])
  | .ok (depth, name) =>
    if depth > maxAncestors then
      .error (.invalid [⟨"spec.parentZone", zone.parentZone, tooDeepMessage name depth.toNat⟩])
    else .ok ()

def refuseNarrowing (ns what : String) : List String → Except Refusal Unit
  | [] => .ok ()
  | first :: rest =>
    .error (.forbidden (what ++ " would take zones out of the reach of the emergency stop of zone " ++
      quoteAll (first :: rest) ++ ", which is in force: a robot " ++
      "that later enters them would not be stopped, which would end the stop there without a clear. A " ++
      "stop is released only through its clear: clear it first, which the estop-clear verb authorizes " ++
      "(swarmctl estop-clear " ++ first ++ " --reason <text> -n " ++ ns ++
      "), and retry once the clear is applied"))

def stopCarrier (tree : Tree) : Option String :=
  tree.names.find? fun name =>
    match tree.zone name with
    | none => false
    | some zone => zone.carries

def refuseEditThatUncoversAZone (ns : String) (before : Tree) (old new : FleetZone) : Except Refusal Unit := do
  let reparented : Bool := old.parentZone ≠ new.parentZone
  let narrowed : Bool := propagatesDown old ≠ propagatesDown new
  if !reparented && !narrowed then return
  -- the stored stop annotations are the estop verbs' and the marker guard's to admit
  let stored := (before.zone old.name).getD old
  let edited := { new with annotations := stored.annotations }
  if reparented then refuseDepthBeyondTheBound (before.withZone edited) edited
  let what :=
    if reparented then
      "re-parenting zone " ++ quote new.name ++ " from " ++ quote stored.parentZone ++ " to " ++ quote new.parentZone
    else
      "setting spec.estopPolicy.propagateToChildren of zone " ++ quote new.name ++ " to " ++
        toString (propagatesDown new)
  match editUncovers before edited with
  | .error error => if (stopCarrier before).isNone then return else .error (.failed (tooDeepText error))
  | .ok loss =>
    if 0 < loss.pending.length then .error (.forbidden (pendingStopRefusal what loss.pending))
    else refuseNarrowing ns what loss.inForce

def validateZoneUpdate (ns : String) (tree : Tree) (requester : Requester) (others : OtherChecks) (old new : FleetZone) :
    Except Refusal Unit := do
  refuseStopFinalizerRemoval ns requester old new
  pass others.early
  if onlyZoneEstopAnnotationsChanged old new || (requester.controlPlane && onlyMetadataChangedOn old new) then return
  validate ns tree others new
  refusePropagateChangeUnderPendingStop tree old new
  refuseEditThatUncoversAZone ns tree old new
  pass others.late

def goList (names : List String) : String := "[" ++ " ".intercalate names ++ "]"

def maxNamedReferences : Nat := 10

def namedReferences (names : List String) : String :=
  let sorted := names.insertionSort (· ≤ ·)
  if sorted.length ≤ maxNamedReferences then goList sorted
  else goList (sorted.take maxNamedReferences) ++ " and " ++ toString (sorted.length - maxNamedReferences) ++ " more"

def refuseDeleteOfAStoppedZone (ns : String) (tree : Tree) (zone : FleetZone) : Except Refusal Unit :=
  match tree.stopsOver zone.parentZone false FleetZone.carries with
  | .error text => .error (.failed text)
  | .ok above =>
    match refuseNarrowing ns ("deleting zone " ++ quote zone.name) above with
    | .error refusal => .error refusal
    | .ok () =>
      if !zone.carries then .ok ()
      else
        let triggered := (zone.annotations.lookup triggerAnnotation).isSome
        let why :=
          if triggered then "it carries an emergency stop (" ++ triggerAnnotation ++ ")"
          else "its emergency stop's clear has not been applied yet (it carries " ++ processedAnnotation ++ ")"
        let next :=
          if triggered then
            "clear it first, which the estop-clear verb authorizes: swarmctl estop-clear " ++ zone.name ++
              " --reason <text> -n " ++ ns ++
              "; its robots then move to Resuming and wait for swarmctl estop resume"
          else
            "its clear was issued and the control plane is applying it; retry once the zone carries neither " ++
              triggerAnnotation ++ " nor " ++ processedAnnotation
        .error (.forbidden ("FleetZone " ++ quote zone.name ++ " in namespace " ++ quote ns ++
          " cannot be deleted while " ++ why ++ ": a delete would end the stop without a clear " ++
          "and without an audit entry, and a zone created again under the same name would not stop the robots " ++
          "that enter it. A stop is released only through its clear: " ++ next ++
          ". A delete is admitted while the namespace itself is being deleted (RFC-0001 #safety-estop-scopes)"))

/-- The references that hold the zone, one error for each kind.  `targeted` are the actions
that can still run in it. -/
def zoneReferences (tree : Tree) (robots : List Robot) (targeted : List String) (name : String) : List FieldError :=
  let held (names : List String) (detail : String) : List FieldError :=
    if names = [] then [] else [{ field := "metadata.name", detail }]
  let children := tree.children name
  let declared := (robots.filter (fun robot => robot.zone = name)).map Robot.name
  let present := (robots.filter (fun robot => robot.currentZone = name)).map Robot.name
  held children ("FleetZone " ++ quote name ++ " has child zones " ++ goList children ++
      " (spec.parentZone); delete or re-parent them first") ++
    held declared ("FleetZone " ++ quote name ++ " is declared by robots " ++ namedReferences declared ++
      " (spec.zone); re-home or delete them first") ++
    held present ("FleetZone " ++ quote name ++ " has robots present in it " ++ namedReferences present ++
      " (status.currentZone); move them out of the zone or delete them first") ++
    held targeted ("FleetZone " ++ quote name ++ " is targeted by FleetActions that can still run " ++
      namedReferences targeted ++ " (spec.zone); cancel them or let them finish first")

def validateDelete (ns : String) (tree : Tree) (robots : List Robot) (targeted : List String) (zone : FleetZone) :
    Except Refusal Unit := do
  refuseDeleteOfAStoppedZone ns tree zone
  let references := zoneReferences tree robots targeted zone.name
  if references = [] then return else .error (.invalid references)

variable {ns : String} {tree : Tree} {requester : Requester} {others : OtherChecks} {old new zone : FleetZone}

theorem validate_ok (passed : validate ns tree others zone = .ok ()) : parentErrors ns tree zone = [] := by
  unfold validate at passed
  dsimp only at passed
  split at passed <;> try contradiction
  rename_i none
  exact (List.append_eq_nil_iff.mp none).1

theorem validateCreate_ok (admitted : validateCreate ns tree others zone = .ok ()) :
    parentErrors ns tree zone = [] := by
  simp only [validateCreate, bind, Except.bind] at admitted
  split at admitted <;> try contradiction
  exact validate_ok admitted

theorem parentErrors_nil (none : parentErrors ns tree zone = []) (child : zone.parentZone ≠ "") :
    zone.parentZone ≠ zone.name ∧ (∃ parent, tree.zone zone.parentZone = some parent) ∧
      (walkAncestors tree zone).2 = .none := by
  unfold parentErrors at none
  simp only [child, if_false] at none
  split at none <;> try contradiction
  rename_i other
  split at none <;> try contradiction
  rename_i parent found
  split at none <;> try contradiction
  rename_i fine
  exact ⟨other, ⟨parent, found⟩, fine⟩

theorem parentZone_of_onlyEstop (only : onlyZoneEstopAnnotationsChanged old new = true) :
    new.parentZone = old.parentZone := by
  have same := of_decide_eq_true (Bool.and_eq_true_iff.mp only).2
  exact (congrArg FleetZone.parentZone same).symm

theorem parentZone_of_onlyMetadata (only : onlyMetadataChangedOn old new = true) : new.parentZone = old.parentZone := by
  rw [onlyMetadataChangedOn, decide_eq_true_eq] at only
  have same := congrArg FleetZone.parentZone only
  exact same

theorem deepest_ok (measured : deepest tree zones best = .ok found) (member : name ∈ zones) : ∃ above, tree.ancestors name = .ok above := by
  induction zones generalizing best with
  | nil => contradiction
  | cons first rest ih =>
    rw [deepest] at measured
    split at measured <;> try contradiction
    rename_i above climbed
    rcases List.mem_cons.mp member with rfl | later
    · exact ⟨above, climbed⟩
    · exact ih measured later

theorem refuseDepth_ok (passed : refuseDepthBeyondTheBound tree zone = .ok ()) :
    ∃ below, tree.subtree zone.name = .ok below ∧ ∀ name ∈ below, ∃ above, tree.ancestors name = .ok above := by
  unfold refuseDepthBeyondTheBound deepestBelow at passed
  split at passed <;> try contradiction
  rename_i depth name measured
  split at measured <;> try contradiction
  rename_i below listed
  exact ⟨below, listed, fun name member => deepest_ok measured member⟩

theorem refuseEdit_ok (passed : refuseEditThatUncoversAZone ns tree old new = .ok ())
    (reparented : old.parentZone ≠ new.parentZone) :
    ∃ annotations, refuseDepthBeyondTheBound (tree.withZone { new with annotations }) { new with annotations } = .ok () := by
  unfold refuseEditThatUncoversAZone at passed
  simp only [reparented, bind, Except.bind, pure, Except.pure, ne_eq, not_false_eq_true, decide_true, Bool.not_true,
    Bool.false_and, Bool.false_eq_true, if_false, if_true] at passed
  split at passed <;> try contradiction
  rename_i within
  exact ⟨_, within⟩

/-- An admitted update leaves the parent as it was, or passed the checks of the parent and
of the depth below the zone. -/
theorem validateZoneUpdate_cases (admitted : validateZoneUpdate ns tree requester others old new = .ok ()) :
    new.parentZone = old.parentZone ∨ parentErrors ns tree new = [] ∧
      ∃ annotations, refuseDepthBeyondTheBound (tree.withZone { new with annotations }) { new with annotations } = .ok () := by
  by_cases reparented : old.parentZone = new.parentZone
  · exact .inl reparented.symm
  simp only [validateZoneUpdate, bind, Except.bind, pure, Except.pure] at admitted
  split at admitted <;> try contradiction
  split at admitted <;> try contradiction
  split at admitted
  next exempt =>
    rcases Bool.or_eq_true_iff.mp exempt with estop | metadata
    · exact .inl (parentZone_of_onlyEstop estop)
    · exact .inl (parentZone_of_onlyMetadata (Bool.and_eq_true_iff.mp metadata).2)
  split at admitted <;> try contradiction
  rename_i valid
  split at admitted <;> try contradiction
  split at admitted <;> try contradiction
  rename_i kept
  exact .inr ⟨validate_ok valid, refuseEdit_ok kept reparented⟩

theorem validateDelete_ok
    (admitted : validateDelete ns tree robots targeted zone = .ok ()) : tree.children zone.name = [] := by
  simp only [validateDelete, bind, Except.bind, pure, Except.pure] at admitted
  split at admitted <;> try contradiction
  split at admitted <;> try contradiction
  rename_i none
  simp only [zoneReferences, List.append_eq_nil_iff] at none
  by_contra some
  simp [some] at none

end Swarmada.Webhook
