import Swarmada.Api.FleetAction
import Swarmada.Controller.FencingStore
import Swarmada.Estopscope.Holder

namespace Swarmada.ActionReports

open Api Estopscope Executorguard FencingStore

inductive ActionState where
  | unspecified | running | succeeded | failed | paused | cancelled | stopped | unknown
deriving DecidableEq, Repr

inductive ActionEndCause where
  | unspecified | superseded | cancelledByOperator | capabilityLoss | leaseExpired | estop | executionFailure
deriving DecidableEq, Repr

structure ActionStatusUpdate where
  retained : Bool := false
  state : ActionState
  fencingToken : Option Nat := none
  endCause : ActionEndCause := .unspecified
  supersedingActionID : String := ""
  message : String := ""
  progressPct : Int := 0
deriving DecidableEq, Repr

/-- The part of the action's status that a report reads or writes. -/
structure ActionStatus where
  phase : ActionPhase
  assignedRobot : String := ""
  assignmentGeneration : Int := 0
  startedAt : Option Nat := none
  completedAt : Option Nat := none
  completionTime : Option Nat := none
  failedAt : Option Nat := none
  progressPct : Int := 0
  message : String := ""
  failureReason : String := ""
  cancellationReason : String := ""
  supersededBy : String := ""
  superseded : Option String := none
deriving DecidableEq, Repr

def phaseText : ActionPhase → String
  | .unset => ""
  | .pending => "Pending"
  | .assigned => "Assigned"
  | .inProgress => "InProgress"
  | .succeeded => "Succeeded"
  | .failed => "Failed"
  | .cancelled => "Cancelled"
  | .paused => "Paused"
  | .revoking => "Revoking"
  | .preempted => "Preempted"

def ended : ActionPhase → Bool
  | .succeeded | .failed | .cancelled => true
  | _ => false

def advanceable : ActionPhase → Bool
  | .assigned | .inProgress => true
  | _ => false

def outstanding : ActionPhase → Bool
  | .assigned | .inProgress | .paused | .revoking | .preempted => true
  | _ => false

def isTerminalReport : ActionState → Bool
  | .succeeded | .failed | .cancelled => true
  | _ => false

def reasonStopUnconfirmed : String := "StopUnconfirmed"

/-- A running report that the phase refuses still records the start. -/
def refusedRunningRecordsStart (status : ActionStatus) (report : ActionStatusUpdate) : Bool :=
  report.state = .running && status.startedAt.isNone && status.assignedRobot ≠ "" &&
    match status.phase with
    | .paused | .preempted | .revoking => true
    | .failed => status.failureReason = reasonStopUnconfirmed
    | _ => false

def tokenMatches (status : ActionStatus) (report : ActionStatusUpdate) : Bool :=
  match report.fencingToken with
  | none => false
  | some token => generationFromToken token = some status.assignmentGeneration

def clampPct (pct : Int) : Int := if pct < 0 then 0 else if pct > 100 then 100 else pct

def estopEndCauseMessage : String :=
  "paused by estop — the robot's retained outcome says an emergency stop ended the " ++
    "action (ACTION_END_CAUSE_ESTOP), and the control plane records no stop over the robot: a stop outcome, " ++
    "not a failure, so it is not retried; an operator resume, a cancel, or a requeue is required"

def liveEstopEndCauseMessage : String :=
  "paused by estop — the robot reported that an emergency stop ended the action " ++
    "(ACTION_END_CAUSE_ESTOP), and the control plane records no stop over the robot: a stop outcome, " ++
    "not a failure, so it is not retried; an operator resume, a cancel, or a requeue is required"

def failedUnderStopMessage (reason : String) (stops : List String) : String :=
  "paused by estop — the robot reported the action failed while the emergency stop of " ++ ", ".intercalate stops ++
    " covered it (" ++ quote reason ++ "): a stop outcome, not a failure, so it is not retried; an operator resume, " ++
    "a cancel, or a requeue by a holder of estop-clear on that stop is required"

def ActionStatusUpdate.failure (report : ActionStatusUpdate) : String :=
  if report.message = "" then "robot reported action failure" else report.message

def ActionStatusUpdate.messageOr (report : ActionStatusUpdate) (message : String) : String :=
  if report.message = "" then message else report.message

def saysNothingNew (status : ActionStatus) (report : ActionStatusUpdate) : Bool :=
  status.phase = .inProgress && status.startedAt.isSome && status.progressPct = clampPct report.progressPct &&
    (report.message = "" || report.message = status.message)

def recordRunning (now : Nat) (status : ActionStatus) (report : ActionStatusUpdate) : ActionStatus :=
  { status with
    phase := .inProgress, startedAt := status.startedAt.or (some now), progressPct := clampPct report.progressPct
    message := report.messageOr status.message }

def recordStartOnly (now : Nat) (status : ActionStatus) : ActionStatus := { status with startedAt := some now }

def recordSucceeded (now : Nat) (status : ActionStatus) (report : ActionStatusUpdate) : ActionStatus :=
  { status with
    phase := .succeeded, completedAt := some now, completionTime := some now, progressPct := 100
    startedAt := status.startedAt.or (some now), message := report.messageOr status.message }

def recordFailed (now : Nat) (status : ActionStatus) (report : ActionStatusUpdate) : ActionStatus :=
  { status with
    phase := .failed, failedAt := some now, completionTime := some now, failureReason := report.failure
    message := report.messageOr status.message }

def recordPaused (unseen : String) (stops : List String) (status : ActionStatus) (report : ActionStatusUpdate) :
    ActionStatus :=
  { status with
    phase := .paused
    message := if stops.isEmpty then unseen else failedUnderStopMessage report.failure stops }

def recordSuperseded (now : Nat) (status : ActionStatus) (successor : String) : ActionStatus :=
  { status with
    phase := .cancelled, completedAt := some now, completionTime := some now
    cancellationReason := "SupersededByDirective", supersededBy := successor
    message := "superseded in place by directive " ++ successor
    superseded := some ("superseded in place by directive " ++ successor) }

/-- Why the claim that the action was superseded by `successor` does not hold; `found` is
the phase and the robot of the action of that name. -/
def verifySupersession (ns name : String) (status : ActionStatus) (successor : String)
    (found : Option (ActionPhase × String)) : String :=
  if successor = name then "the report names the action itself as its successor"
  else if status.assignedRobot = "" then "the superseded action is bound to no robot"
  else
    match found with
    | none => "no FleetAction " ++ successor ++ " exists in namespace " ++ ns
    | some (phase, robot) =>
      if !advanceable phase then
        "superseding action " ++ successor ++ " is not live (phase " ++ phaseText phase ++ ")"
      else if robot ≠ status.assignedRobot then
        "superseding action " ++ successor ++ " is bound to robot " ++ robot ++ ", not " ++ status.assignedRobot
      else ""

def decideLive (now : Nat) (status : ActionStatus) (report : ActionStatusUpdate) (stops : List String)
    (refusal : String) : Option ActionStatus :=
  match report.state with
  | .running => if saysNothingNew status report then none else some (recordRunning now status report)
  | .succeeded => some (recordSucceeded now status report)
  | .failed =>
    if stopOutcome stops || report.endCause = .estop then
      some (recordPaused liveEstopEndCauseMessage stops status report)
    else some (recordFailed now status report)
  | .cancelled =>
    if report.endCause ≠ .superseded ∨ report.supersedingActionID = "" ∨ refusal ≠ "" then none
    else some (recordSuperseded now status report.supersedingActionID)
  | _ => none

inductive Admission where
  | drop
  | acknowledge
  | check (startOnly : Bool)

def liveAdmission (status : ActionStatus) (report : ActionStatusUpdate) : Admission :=
  if advanceable status.phase then .check false
  else if refusedRunningRecordsStart status report then .check true
  else .drop

def retainedAdmission (status : ActionStatus) (report : ActionStatusUpdate) : Admission :=
  if !tokenMatches status report then .drop
  else if ended status.phase then .acknowledge
  else if !outstanding status.phase then .drop
  else if status.assignedRobot = "" then .drop
  else .check false

def admission (status : ActionStatus) (report : ActionStatusUpdate) : Admission :=
  if report.retained then retainedAdmission status report else liveAdmission status report

inductive Retained where
  | write (next : ActionStatus)
  | acknowledge
  | refuse

def decideRetained (now : Nat) (status : ActionStatus) (report : ActionStatusUpdate) (stops : List String) : Retained :=
  match report.state with
  | .succeeded => .write (recordSucceeded now status report)
  | .failed =>
    if !stops.isEmpty || report.endCause = .estop then
      if advanceable status.phase then .write (recordPaused estopEndCauseMessage stops status report)
      else .acknowledge
    else .write (recordFailed now status report)
  | _ => .refuse

variable {now : Nat} {status next : ActionStatus} {report : ActionStatusUpdate} {stops : List String} {refusal : String}
  {startOnly : Bool}

theorem admission_acknowledge (admits : admission status report = .acknowledge) :
    report.retained = true ∧ ended status.phase = true := by
  unfold admission retainedAdmission liveAdmission at admits
  split at admits
  next retained =>
    split at admits <;> try contradiction
    split at admits
    · exact ⟨retained, ‹_›⟩
    · split at admits <;> try contradiction
      split at admits <;> contradiction
  · split at admits <;> try contradiction
    split at admits <;> contradiction

structure Admitted (report : ActionStatusUpdate) (status : ActionStatus) (startOnly : Bool) : Prop where
  token : report.retained = true → tokenMatches status report = true ∧ startOnly = false
  unfinished : startOnly = false → ended status.phase = false
  live : startOnly = false → report.retained = false → advanceable status.phase = true

theorem ended_of_advanceable (live : advanceable phase = true) : ended phase = false := by
  cases phase <;> trivial

theorem admitted_of_check (admits : admission status report = .check startOnly) : Admitted report status startOnly := by
  unfold admission retainedAdmission liveAdmission at admits
  split at admits
  next retained =>
    split at admits <;> try contradiction
    rename_i token
    split at admits <;> try contradiction
    rename_i unfinished
    split at admits <;> try contradiction
    split at admits <;> try contradiction
    cases admits
    exact ⟨fun _ => ⟨by simpa using token, rfl⟩, fun _ => by simpa using unfinished, fun _ live => by simp_all⟩
  next live =>
    split at admits
    next advances =>
      exact ⟨fun retained => absurd retained live, fun _ => ended_of_advanceable advances, fun _ _ => advances⟩
    · split at admits <;> try contradiction
      cases admits
      exact ⟨fun retained => absurd retained live, by simp, by simp⟩

theorem decideLive_failed (decided : decideLive now status report stops refusal = some next) (fails : next.phase = .failed) :
    report.state = .failed ∧ stops = [] ∧ report.endCause ≠ .estop := by
  unfold decideLive at decided
  split at decided
  · split at decided <;> try contradiction
    cases decided
    contradiction
  · cases decided
    contradiction
  next failed =>
    split at decided
    · cases decided
      contradiction
    rename_i clear
    simp only [stopOutcome, Bool.or_eq_true, Bool.not_eq_true', decide_eq_true_eq, not_or] at clear
    exact ⟨failed, by simpa using clear.1, clear.2⟩
  · split at decided <;> try contradiction
    cases decided
    contradiction
  · contradiction

theorem decideRetained_failed (decided : decideRetained now status report stops = .write next)
    (fails : next.phase = .failed) : report.state = .failed ∧ stops = [] ∧ report.endCause ≠ .estop := by
  unfold decideRetained at decided
  split at decided
  · cases decided
    contradiction
  next failed =>
    split at decided
    · split at decided <;> try contradiction
      cases decided
      contradiction
    next clear =>
      simp only [Bool.or_eq_true, Bool.not_eq_true', decide_eq_true_eq, not_or] at clear
      exact ⟨failed, by simpa using clear.1, clear.2⟩
  · contradiction

theorem decideRetained_acknowledge (decided : decideRetained now status report stops = .acknowledge) :
    report.state = .failed ∧ (stops ≠ [] ∨ report.endCause = .estop) := by
  unfold decideRetained at decided
  split at decided
  · contradiction
  next failed =>
    split at decided <;> try contradiction
    rename_i stopped
    refine ⟨failed, ?_⟩
    simpa using stopped
  · contradiction

def Records (report : ActionStatusUpdate) (phase : ActionPhase) : Prop :=
  report.state = .succeeded ∧ phase = .succeeded ∨ report.state = .failed ∧ (phase = .failed ∨ phase = .paused)

theorem decideRetained_records
    (decided : decideRetained now status report stops = .write next) : Records report next.phase := by
  unfold decideRetained at decided
  split at decided
  · cases decided
    exact .inl ⟨‹_›, rfl⟩
  · split at decided
    · split at decided <;> try contradiction
      cases decided
      exact .inr ⟨‹_›, .inr rfl⟩
    · cases decided
      exact .inr ⟨‹_›, .inl rfl⟩
  · contradiction

end Swarmada.ActionReports
