import Swarmada.Saga.Members

/-! # Reconciling a task without a flow

A pass loads the children by name, creates those whose dependencies are met, writes the desired
state to all of them, judges the task and, while it compensates, drives the saga.  Every part may
end the pass, and what it wrote before stays.
-/

namespace Swarmada.Saga

open Api Controller Estopscope Transition
open TaskController (FleetTaskPhase isTerminal isGroupTerminal childName compChildName)

inductive CompletionPolicy where
  | all | any | quorum
deriving DecidableEq, Repr

inductive FailurePolicy where
  | failFast | continueOthers | compensate
deriving DecidableEq, Repr

structure Condition where
  status : Bool
  reason : String
  message : String
deriving DecidableEq, Repr

structure FleetTaskActionStatus where
  name : String
  dependenciesMet : Bool
  actionRef : String := ""
  phase : ActionPhase := .unset
  assignedRobot : String := ""
  compensationPhase : CompensationPhase := .none
deriving DecidableEq, Repr

structure FleetTaskStatus where
  phase : FleetTaskPhase := .unset
  actions : List FleetTaskActionStatus := []
  actionSummary : String := ""
  dependencyGraphValid : Option Condition := none
  completionPolicyValid : Option Condition := none
  compensationComplete : Option Condition := none
  childrenAdmitted : Option Condition := none
  awaitingActivation : Option Condition := none
  completionTime : Option Nat := none
deriving DecidableEq, Repr

/-- `actions` is `spec.actions`. -/
structure FleetTask where
  name : String
  uid : String
  draft : Bool := false
  actions : List FleetTaskAction
  completionPolicy : CompletionPolicy := .all
  quorum : Option Int := none
  failurePolicy : FailurePolicy := .failFast
  desiredState : DesiredState := .running
  status : FleetTaskStatus := {}

structure Object where
  controller : String
  action : FleetAction

abbrev Objects := String → Option Object

structure State where
  task : FleetTask
  objects : Objects

inductive CreateAnswer where
  | admitted
  | refused (message : String)
  | failed
deriving DecidableEq, Repr

/-- How the API server answers a pass. `unseen` are objects its cache does not show yet; the writes made before one
fails may be any of them. -/
structure Answers where
  now : Nat := 0
  unseen : String → Bool := fun _ => false
  get : String → Bool := fun _ => true
  create : String → CreateAnswer := fun _ => .admitted
  propagate : String → Bool := fun _ => true
  cancel : String → Bool := fun _ => true
  activate : Bool := true
  patch : Bool := true

inductive Event where
  | started (member : String)
  | undone (member : String)
  | wrote (phase : FleetTaskPhase)
deriving DecidableEq, Repr

def Answers.shown (answers : Answers) (objects : Objects) : Objects := fun name =>
  if answers.unseen name then none else objects name

variable (task : FleetTask) (objects : Objects)

def childrenOf : Children := fun member =>
  if member ∈ task.actions.map FleetTaskAction.name then
    ((objects (childName task.name member)).filter fun object => object.controller = task.uid).map Object.action
  else none

/-- An object the task does not control has the name. -/
def taken (name : String) : Bool :=
  (objects name).any fun object => object.controller ≠ task.uid

variable (children : Children) (a : FleetTaskAction)

def eligible : Bool :=
  (childrenOf task objects a.name).isNone && !taken task objects (childName task.name a.name) &&
    a.trigger != .onEvent && dependenciesMet a (childrenOf task objects)

def toCreate : List FleetTaskAction :=
  (task.actions.filter (eligible task objects)).insertionSort fun a b => a.name ≤ b.name

def newChild (now : Nat) (a : FleetTaskAction) : FleetAction :=
  { name := childName task.name a.name, created := now, spec := { a.action with desiredState := task.desiredState } }

inductive Progress where
  | done
  | refused (member : FleetTaskAction) (message : String)
  | failed
deriving DecidableEq, Repr

structure Made where
  objects : Objects
  children : Children
  events : List Event := []

def Made.start (made : Made) (task : FleetTask) (now : Nat) (a : FleetTaskAction) : Made where
  objects := Function.update made.objects (childName task.name a.name) (some ⟨task.uid, newChild task now a⟩)
  children := Function.update made.children a.name (some (newChild task now a))
  events := .started a.name :: made.events

/-- A refused create stops further creates but not the pass. -/
def createChildren (task : FleetTask) (answers : Answers) : List FleetTaskAction → Made → Progress × Made
  | [], made => (.done, made)
  | a :: rest, made =>
    if (made.objects (childName task.name a.name)).isSome then createChildren task answers rest made
    else
      match answers.create (childName task.name a.name) with
      | .admitted => createChildren task answers rest (made.start task answers.now a)
      | .refused message => (.refused a message, made)
      | .failed => (.failed, made)

/-- A Failed child that awaits its retry takes the write too, unless its stop is unconfirmed. -/
def takesWrite (child : FleetAction) : Bool :=
  !isTerminal child.phase || (awaitsRetry child && child.failureReason != reasonStopUnconfirmed)

def withDesired (desired : DesiredState) (child : FleetAction) : FleetAction :=
  { child with spec := { child.spec with desiredState := desired } }

def behind (desired : DesiredState) (children : Children) (member : String) : Bool :=
  (children member).any fun child => takesWrite child && child.spec.desiredState != desired

def writtenChildren (reached : String → Bool) (desired : DesiredState) (children : Children) : Children := fun member =>
  if behind desired children member && reached member then (children member).map (withDesired desired)
  else children member

def writtenObjects (reached : String → Bool) (desired : DesiredState) (children : Children)
    (objects : Objects) : Objects :=
  task.actions.foldl
    (fun objects a =>
      if behind desired children a.name && reached a.name then
        Function.update objects (childName task.name a.name)
          ((objects (childName task.name a.name)).map fun object => { object with action := withDesired desired object.action })
      else objects)
    objects

def propagate (reached : String → Bool) (desired : DesiredState) (made : Made) : Bool × Made :=
  (task.actions.all fun a => !behind desired made.children a.name || reached a.name,
    { made with
      children := writtenChildren reached desired made.children
      objects := writtenObjects task reached desired made.children made.objects })

def rebuildActionStatus : List FleetTaskActionStatus :=
  task.actions.map fun a =>
    match children a.name with
    | some child =>
      { name := a.name, dependenciesMet := dependenciesMet a children, actionRef := child.name, phase := child.phase
        assignedRobot := child.assignedRobot }
    | none => { name := a.name, dependenciesMet := dependenciesMet a children }

inductive Fate where
  | succeeded | failedOrBlocked | nonTerminal
deriving DecidableEq, Repr

def fate : Fate :=
  match (children a.name).map FleetAction.phase with
  | some .succeeded => .succeeded
  | some .failed => .failedOrBlocked
  | some .cancelled => .failedOrBlocked
  | _ => if dependencyPermanentlyFailed task.actions children a then .failedOrBlocked else .nonTerminal

def meets (count : Nat) : Bool :=
  match task.completionPolicy with
  | .any => decide (1 ≤ count)
  | .quorum => decide (task.quorum.getD 0 ≤ count)
  | .all => count == task.actions.length

variable (status : FleetTaskStatus)

def aggregate : FleetTaskStatus × Bool :=
  if status.phase = .compensating ∨ status.phase = .compensated then (status, false)
  else
    let fates := task.actions.map (fate task children)
    let succeeded := fates.count .succeeded
    let nonTerminal := fates.count .nonTerminal
    let status := { status with actionSummary := toString succeeded ++ "/" ++ toString task.actions.length ++ " Succeeded" }
    if task.completionPolicy = .quorum ∧ task.quorum = none then
      ({ status with
          completionPolicyValid := some ⟨false, "QuorumUnset",
            "completionPolicy: Quorum requires spec.quorum; with no threshold the task can never be judged complete, so " ++
            "it is failed rather than reported Succeeded against a threshold of 0"⟩ }, true)
    else
      let status := { status with completionPolicyValid := some ⟨true, "Valid", "completionPolicy is complete"⟩ }
      -- A cancelled task is not a failed one, unless its succeeded members have to be undone.
      let cancelled := task.desiredState = .cancelled ∧ task.failurePolicy ≠ .compensate
      if meets task succeeded then ({ status with phase := .succeeded }, false)
      else if nonTerminal = 0 then
        if cancelled then ({ status with phase := .cancelled }, false) else (status, true)
      else if meets task (succeeded + nonTerminal) then ({ status with phase := .running }, false)
      else if cancelled ∨ task.failurePolicy = .continueOthers then ({ status with phase := .running }, false)
      else (status, true)

def failurePhase : FleetTaskPhase :=
  if task.failurePolicy = .compensate then .compensating else .failed

def compPhaseOf : CompensationPhase :=
  if needsCompensation a children then
    match objects (compChildName task.name a.name) with
    | none => .pending
    | some object =>
      if object.controller ≠ task.uid then .pending
      else
        match object.action.phase with
        | .succeeded => .succeeded
        | .failed => .failed
        | .cancelled => .failed
        | _ => .inProgress
  else .none

def compPhases : String → CompensationPhase := fun name =>
  match task.actions.find? fun a => a.name = name with
  | none => .none
  | some a => compPhaseOf task objects children a

def undoTaken : Bool :=
  needsCompensation a children && taken task objects (compChildName task.name a.name)

/-- A compensation always runs to completion. -/
def newUndo (now : Nat) (a : FleetTaskAction) : FleetAction :=
  { name := compChildName task.name a.name, created := now
    spec := { a.compensation.getD {} with desiredState := .running } }

structure Undoing where
  objects : Objects
  compPhase : String → CompensationPhase
  events : List Event

def Undoing.undo (undoing : Undoing) (task : FleetTask) (now : Nat) (a : FleetTaskAction) : Undoing where
  objects := Function.update undoing.objects (compChildName task.name a.name) (some ⟨task.uid, newUndo task now a⟩)
  compPhase := Function.update undoing.compPhase a.name .inProgress
  events := .undone a.name :: undoing.events

def createUndos (task : FleetTask) (answers : Answers) (children : Children) (held : FleetTaskAction → Bool) :
    List FleetTaskAction → Undoing → Bool × Undoing
  | [], undoing => (true, undoing)
  | a :: rest, undoing =>
    if undoing.compPhase a.name ≠ .pending ∨ held a then createUndos task answers children held rest undoing
    else if compensationEligible task.actions a.name children undoing.compPhase = false then
      createUndos task answers children held rest undoing
    else if (undoing.objects (compChildName task.name a.name)).isSome then
      createUndos task answers children held rest
        { undoing with compPhase := Function.update undoing.compPhase a.name .inProgress }
    else if answers.create (compChildName task.name a.name) = .admitted then
      createUndos task answers children held rest (undoing.undo task answers.now a)
    else (false, undoing)

def compensationComplete (actions : List FleetTaskActionStatus) : Bool :=
  actions.all fun entry =>
    match entry.compensationPhase with
    | .pending | .inProgress | .failed => false
    | _ => true

def project (compPhase : String → CompensationPhase) (actions : List FleetTaskActionStatus) : List FleetTaskActionStatus :=
  actions.map fun entry => if compPhase entry.name = .none then entry else { entry with compensationPhase := compPhase entry.name }

def resolve (failedClosed : Bool) (status : FleetTaskStatus) : FleetTaskStatus :=
  if failedClosed then
    { status with
      compensationComplete := some ⟨false, "CompensationFailed",
        "a compensation action failed; the task fails closed and requires operator intervention"⟩
      phase := .failed }
  else if compensationComplete status.actions then
    { status with
      compensationComplete := some ⟨true, "Compensated", "all required compensations succeeded"⟩
      phase := .compensated }
  else { status with phase := .compensating }

def childNameConflictMessage (member name : String) : String :=
  "a FleetAction named " ++ quote name ++ " already exists and this task does not own it, so action " ++ quote member ++
    " cannot start; the task leaves that FleetAction unchanged. Delete or rename it to let the action start"

/-- A condition that already says so is kept as stored. -/
def holdConflict (stored : Option Condition) (member name : String) : Option Condition :=
  let message := childNameConflictMessage member name
  match stored with
  | some condition =>
    if condition.status = false ∧ condition.message = message then stored else some ⟨false, "NameConflict", message⟩
  | none => some ⟨false, "NameConflict", message⟩

/-- The members in the order their undos are created; a failed undo halts the saga. -/
def undoOrder (failedClosed : Bool) : List FleetTaskAction :=
  if failedClosed then [] else task.actions.insertionSort fun a b => a.name ≤ b.name

/-- The status with the undos projected, and with the first undo whose name is taken.  `stored` is
the condition the pass read. -/
def reportUndos (stored : Option Condition) (failedClosed : Bool) (held : FleetTaskAction → Bool)
    (compPhase : String → CompensationPhase) (status : FleetTaskStatus) : FleetTaskStatus :=
  let status := resolve failedClosed { status with actions := project compPhase status.actions }
  match task.actions.find? held with
  | none => status
  | some a => { status with childrenAdmitted := holdConflict stored a.name (compChildName task.name a.name) }

def driveCompensation (answers : Answers) (stored : Option Condition) (status : FleetTaskStatus)
    (made : Made) : Option FleetTaskStatus × Made :=
  if task.actions.any fun a => needsCompensation a made.children && !answers.get (compChildName task.name a.name) then
    (none, made)
  else
    let shown := answers.shown made.objects
    let compPhase := compPhases task shown made.children
    let failedClosed := task.actions.any fun a => compPhase a.name = .failed
    let held := undoTaken task shown made.children
    let (goesOn, undoing) := createUndos task answers made.children held (undoOrder task failedClosed)
      { objects := made.objects, compPhase := compPhase, events := made.events }
    (if goesOn then some (reportUndos task stored failedClosed held undoing.compPhase status) else none,
      { made with objects := undoing.objects, events := undoing.events })

def finishIfTerminal (now : Nat) (status : FleetTaskStatus) : FleetTaskStatus :=
  if isGroupTerminal status.phase then { status with completionTime := status.completionTime.or (some now) } else status

def patchStatus (patched : Bool) (state : State) (status : FleetTaskStatus) : State × List Event :=
  if status = state.task.status then (state, [])
  else if patched then ({ state with task := { state.task with status := status } }, [.wrote status.phase])
  else (state, [])

def markChildrenAdmitted : FleetTaskStatus :=
  match status.childrenAdmitted with
  | some ⟨false, _, _⟩ =>
    { status with childrenAdmitted := some ⟨true, "Admitted",
        "no child create was refused on the latest pass; the earlier refusal no longer applies"⟩ }
  | _ => status

def refusalMessage (error : String) : String :=
  "the API server refused child FleetAction " ++ quote (childName task.name a.name) ++ " for action " ++ quote a.name ++
    " (type " ++ a.type ++ "), so that action cannot start until the cause clears: " ++ error

/-- Only the condition is written, and only when it changes. -/
def recordHeld (answers : Answers) (reason message : String) (state : State) : State × List Event :=
  let written := { state.task.status with childrenAdmitted := some ⟨false, reason, message⟩ }
  match state.task.status.childrenAdmitted with
  | some condition =>
    if condition.status = false ∧ condition.message = message then (state, []) else patchStatus answers.patch state written
  | none => patchStatus answers.patch state written

/-- Cancel the members and enter the phase of the failure policy; a failed cancel ends the pass. -/
def enactFailure (answers : Answers) (status : FleetTaskStatus) (made : Made) : Option FleetTaskStatus × Made :=
  let (all, made) := propagate task answers.cancel .cancelled made
  (if all then some { status with phase := failurePhase task } else none, made)

def judge (answers : Answers) (status : FleetTaskStatus) (made : Made) : Option FleetTaskStatus × Made :=
  match aggregate task made.children status with
  | (status, false) => (some status, made)
  | (status, true) => enactFailure task answers status made

def drive (answers : Answers) (stored : Option Condition) (judged : Option FleetTaskStatus × Made) :
    Option FleetTaskStatus × Made :=
  match judged with
  | (none, made) => (none, made)
  | (some status, made) =>
    if status.phase = .compensating then driveCompensation task answers stored status made else (some status, made)

def conclude (answers : Answers) (state : State) (status : FleetTaskStatus) (made : Made) : State × List Event :=
  let status := { status with actions := rebuildActionStatus state.task made.children }
  let (settled, made) := drive state.task answers state.task.status.childrenAdmitted (judge state.task answers status made)
  let state := { state with objects := made.objects }
  match settled with
  | none => (state, made.events)
  | some status =>
    let (after, events) := patchStatus answers.patch state (finishIfTerminal answers.now status)
    (after, events ++ made.events)

/-- While the task compensates its primary actions are being rolled back. -/
def fanoutState : DesiredState :=
  if task.status.phase = .compensating then .cancelled else task.desiredState

def conflict : Option FleetTaskAction :=
  task.actions.find? fun a => taken task objects (childName task.name a.name)

/-- The pass from the fan-out on.  A refusal or a conflict is reported once the children are written. -/
def fanOut (answers : Answers) (state : State) (status : FleetTaskStatus) (refused : Option (FleetTaskAction × String))
    (conflict : Option FleetTaskAction) (made : Made) : State × List Event :=
  let (all, made) := propagate state.task answers.propagate (fanoutState state.task) made
  let held := { state with objects := made.objects }
  if all = false then (held, made.events)
  else
    match refused, conflict with
    | some (a, error), _ =>
      let (after, events) := recordHeld answers "AdmissionRefused" (refusalMessage state.task a error) held
      (after, events ++ made.events)
    | none, some a =>
      let message := childNameConflictMessage a.name (childName state.task.name a.name)
      let (after, events) := recordHeld answers "NameConflict" message held
      (after, events ++ made.events)
    | none, none => conclude answers state (markChildrenAdmitted status) made

def dependsOnPass (answers : Answers) (state : State) : State × List Event :=
  match validateGraph state.task.actions with
  | some message =>
    patchStatus answers.patch state (finishIfTerminal answers.now
      { state.task.status with dependencyGraphValid := some ⟨false, "InvalidGraph", message⟩, phase := .failed })
  | none =>
    let status := { state.task.status with
      dependencyGraphValid := some ⟨true, "Valid", "dependency graph is acyclic and complete"⟩ }
    if state.task.actions.any fun a => !answers.get (childName state.task.name a.name) then (state, [])
    else
      let shown := answers.shown state.objects
      let conflict := conflict state.task shown
      match createChildren state.task answers (toCreate state.task shown)
        { objects := state.objects, children := childrenOf state.task shown } with
      | (.failed, made) => ({ state with objects := made.objects }, made.events)
      | (.refused a error, made) => fanOut answers state status (some (a, error)) conflict made
      | (.done, made) => fanOut answers state status none conflict made

def holdAsDraft (answers : Answers) (state : State) : State × List Event :=
  let status := state.task.status
  if status.phase = .draft ∧ (status.awaitingActivation.any Condition.status) = true then (state, [])
  else
    patchStatus answers.patch state
      { status with
        phase := .draft
        awaitingActivation := some ⟨true, "DraftAwaitingActivation", "composed but not dispatched; clear spec.draft to " ++
          "activate. No child actions exist and no robot has been asked to do anything."⟩ }

def activatedStatus : FleetTaskStatus :=
  if status.phase = .draft ∨ (status.awaitingActivation.any Condition.status) = true then
    { status with
      phase := if status.phase = .draft then .pending else status.phase
      awaitingActivation := some ⟨false, "Activated", "spec.draft was cleared; the task is dispatched as written"⟩ }
  else status

def reconcile (answers : Answers) (state : State) : State × List Event :=
  if isGroupTerminal state.task.status.phase then (state, [])
  else if state.task.draft then holdAsDraft answers state
  else if activatedStatus state.task.status = state.task.status then dependsOnPass answers state
  else if answers.activate then
    let (activated, written) := patchStatus true state (activatedStatus state.task.status)
    let (after, events) := dependsOnPass answers activated
    (after, events ++ written)
  else (state, [])

/-- Between the passes a FleetAction reports, objects of others come, any object goes, members are
appended and the operator's fields change. -/
inductive Label where
  | pass (answers : Answers)
  | report (name : String) (reported : FleetAction)
  | create (name : String) (object : Object)
  | delete (name : String)
  | append (actions : List FleetTaskAction)
  | desire (desired : DesiredState)
  | setDraft (draft : Bool)

/-- No two members have one name. -/
def step (state : State) : Label → Option (State × List Event)
  | .pass answers => some (reconcile answers state)
  | .report name reported =>
    match state.objects name with
    | none => none
    | some object =>
      let action := { reported with name := object.action.name, spec := object.action.spec }
      some ({ state with objects := Function.update state.objects name (some { object with action := action }) }, [])
  | .create name object =>
    if (state.objects name).isSome ∨ object.controller = state.task.uid then none
    else some ({ state with objects := Function.update state.objects name (some object) }, [])
  | .delete name => some ({ state with objects := Function.update state.objects name none }, [])
  | .append actions =>
    if ((state.task.actions ++ actions).map FleetTaskAction.name).Nodup then
      some ({ state with task := { state.task with actions := state.task.actions ++ actions } }, [])
    else none
  | .desire desired => some ({ state with task := { state.task with desiredState := desired } }, [])
  | .setDraft draft => some ({ state with task := { state.task with draft := draft } }, [])

def sagaRuns : Machine State Label Event := ⟨step⟩

structure Fresh (state : State) : Prop where
  distinct : (state.task.actions.map FleetTaskAction.name).Nodup
  unwritten : state.task.status = {}
  childless : ∀ name object, state.objects name = some object → object.controller ≠ state.task.uid

end Swarmada.Saga
