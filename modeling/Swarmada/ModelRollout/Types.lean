import Swarmada.Telemetry.Projector

namespace Swarmada.ModelRollout

open Api

inductive ModelStatus where
  | active | updating | failed | inactive
deriving DecidableEq, Repr

structure ModelEntry where
  status : ModelStatus
  runningVersion : String := ""
  failureReason : String := ""
deriving DecidableEq, Repr

structure Robot where
  name : String
  space : String := ""
  phase : RobotPhase := .idle
  batteryPercent : Option Int := none
  hardware : List (String × String) := []
  hardwareStatus : List (String × Telemetry.HardwareStatus) := []
  model : Option ModelEntry := none
  granted : Option (String × List String) := none
  held : String := ""
  inWindow : Bool := false
deriving DecidableEq, Repr

inductive RolloutPhase where
  | unset | pending | inProgress | paused | succeeded | failed
deriving DecidableEq, Repr

inductive RollbackPolicy where
  | manual | auto
deriving DecidableEq, Repr

inductive RolloutDesiredState where
  | running | paused
deriving DecidableEq, Repr

inductive RolloutTargetKind where
  | robot | edgeNode
deriving DecidableEq, Repr

structure RollingUpdate where
  maxUnavailable : String := ""
  pauseOnError : Option Bool := none
deriving DecidableEq, Repr

def RollingUpdate.pausesOnError (update : RollingUpdate) : Bool := update.pauseOnError.getD true

structure SafetyConstraints where
  minBatteryPct : Int := 0
  requireIdleState : Option Bool := none
  maintenanceWindowOnly : Bool := false
deriving DecidableEq, Repr

def SafetyConstraints.requiresIdleState (constraints : SafetyConstraints) : Bool :=
  constraints.requireIdleState.getD true

structure Spec where
  targetKind : RolloutTargetKind := .robot
  modelName : String
  newVersion : String
  modelURI : String := ""
  modelChecksum : String := ""
  modelSignatureRef : String := ""
  requiredHardware : List String := []
  grantsCapabilities : List String := []
  revokesCapabilities : List String := []
  rollingUpdate : Option RollingUpdate := none
  desiredState : RolloutDesiredState := .running
  safetyConstraints : SafetyConstraints := {}
  rollbackPolicy : RollbackPolicy := .manual
deriving DecidableEq, Repr

def Spec.strategy (spec : Spec) : RollingUpdate :=
  spec.rollingUpdate.getD { maxUnavailable := "10%", pauseOnError := some true }

structure RobotResult where
  robotName : String
  space : String := ""
  reason : String := ""
deriving DecidableEq, Repr

structure BatchRobot where
  robotName : String
  space : String := ""
  updateStartedAt : Nat
  previousVersion : String := ""
  updatePhase : String
  capabilitiesSuspendedAt : Option Nat := none
deriving DecidableEq, Repr

structure Condition where
  status : Bool
  reason : String
  message : String
  lastTransitionTime : Nat
deriving DecidableEq, Repr

structure Status where
  phase : RolloutPhase := .unset
  robotsTotal : Int := 0
  robotsUpdated : Int := 0
  robotsPending : Int := 0
  robotsFailed : Int := 0
  capabilitiesSuspendedOn : Int := 0
  robotsIneligible : Int := 0
  pausedAt : Option Nat := none
  currentBatch : List BatchRobot := []
  failedRobots : List RobotResult := []
  robotsRolledBack : Int := 0
  rolledBackRobots : List String := []
  excludedRobots : List String := []
  rollbackVersions : List (String × String) := []
  operatorHold : Option Condition := none
deriving DecidableEq, Repr

structure Rollout where
  name : String
  spec : Spec
  resume : Option String := none
  resumeProcessed : Option String := none
  status : Status := {}
deriving DecidableEq, Repr

def versionOf (versions : List (String × String)) (name : String) : String := (versions.lookup name).getD ""

/-- A field that did not change is left as it is stored. -/
def mergeField {α : Type} [DecidableEq α] (base new stored : α) : α := if new = base then stored else new

def mergeVersions (base new stored : List (String × String)) : List (String × String) :=
  (((stored ++ new).map Prod.fst).dedup.insertionSort (· ≤ ·)).filterMap fun name =>
    (mergeField (base.lookup name) (new.lookup name) (stored.lookup name)).map fun version => (name, version)

def Status.merge (base new stored : Status) : Status where
  phase := mergeField base.phase new.phase stored.phase
  robotsTotal := mergeField base.robotsTotal new.robotsTotal stored.robotsTotal
  robotsUpdated := mergeField base.robotsUpdated new.robotsUpdated stored.robotsUpdated
  robotsPending := mergeField base.robotsPending new.robotsPending stored.robotsPending
  robotsFailed := mergeField base.robotsFailed new.robotsFailed stored.robotsFailed
  capabilitiesSuspendedOn :=
    mergeField base.capabilitiesSuspendedOn new.capabilitiesSuspendedOn stored.capabilitiesSuspendedOn
  robotsIneligible := mergeField base.robotsIneligible new.robotsIneligible stored.robotsIneligible
  pausedAt := mergeField base.pausedAt new.pausedAt stored.pausedAt
  currentBatch := mergeField base.currentBatch new.currentBatch stored.currentBatch
  failedRobots := mergeField base.failedRobots new.failedRobots stored.failedRobots
  robotsRolledBack := mergeField base.robotsRolledBack new.robotsRolledBack stored.robotsRolledBack
  rolledBackRobots := mergeField base.rolledBackRobots new.rolledBackRobots stored.rolledBackRobots
  excludedRobots := mergeField base.excludedRobots new.excludedRobots stored.excludedRobots
  rollbackVersions := mergeVersions base.rollbackVersions new.rollbackVersions stored.rollbackVersions
  operatorHold := mergeField base.operatorHold new.operatorHold stored.operatorHold

def digits (text : List Char) : Option Int :=
  if text ≠ [] ∧ text.all Char.isDigit then
    some (text.foldl (fun value digit => value * 10 + (digit.toNat - '0'.toNat : Nat)) 0)
  else none

def atoi (text : List Char) : Option Int :=
  let value :=
    match text with
    | '-' :: rest => (digits rest).map (- ·)
    | '+' :: rest => digits rest
    | _ => digits text
  value.filter fun number => decide (-2 ^ 63 ≤ number ∧ number < 2 ^ 63)

def maxUnavailable (spec : String) (total : Nat) : Int :=
  let text := if spec = "" then "10%".toList else spec.toList
  if text.getLast? = some '%' then
    match atoi text.dropLast with
    | none => 1
    | some pct =>
      if pct ≤ 0 then 1
      else
        -- the product is that of machine integers, and the quotient is truncated
        let n := (Int.bmod (total * pct) (2 ^ 64)).tdiv 100
        if n < 1 then 1 else n
  else
    match atoi text with
    | none => 1
    | some n => if n < 1 then 1 else n

def parseSemver (version : String) : Option (Int × Int × Int) :=
  match version.toList.splitOn '.' with
  | [major, minor, patch] => do
      let major ← (atoi major).filter (0 ≤ ·)
      let minor ← (atoi minor).filter (0 ≤ ·)
      let patch ← (atoi patch).filter (0 ≤ ·)
      return (major, minor, patch)
  | _ => none

def versionIsNewer (have_ want : String) : Option Bool := do
  let h ← parseSemver have_
  let w ← parseSemver want
  return decide (w.1 < h.1 ∨ w.1 = h.1 ∧ (w.2.1 < h.2.1 ∨ w.2.1 = h.2.1 ∧ w.2.2 < h.2.2))

inductive ModelState where
  | pending | updating | done | failed | newer
deriving DecidableEq, Repr

def classifyModel (entry : Option ModelEntry) (newVersion : String) : ModelState :=
  match entry with
  | none => .pending
  | some entry =>
    match entry.status with
    | .active =>
      if entry.runningVersion = newVersion then .done
      else if versionIsNewer entry.runningVersion newVersion = some true then .newer
      else .pending
    | .updating => .updating
    | .failed => .failed
    | .inactive => .pending

def modelActiveAt (entry : Option ModelEntry) (want : String) : Bool :=
  entry.any fun entry => entry.status == .active && entry.runningVersion == want

def revertReportedFailed (before fresh : Option ModelEntry) : Bool :=
  match fresh with
  | none => false
  | some now =>
    now.status == .failed &&
      match before with
      | none => true
      | some was =>
        was.status != now.status || was.runningVersion != now.runningVersion ||
          was.failureReason != now.failureReason

variable (rob : Robot)

def hasHealthyHardwareType (type : String) : Bool :=
  rob.hardware.any fun component =>
    component.2 == type && rob.hardwareStatus.reverse.lookup component.1 == some .healthy

def eligibleForModelUpdate (spec : Spec) : Bool :=
  rob.held == "" &&
    (!spec.safetyConstraints.requiresIdleState || rob.phase == .idle) &&
    rob.batteryPercent.any (fun battery => decide (spec.safetyConstraints.minBatteryPct ≤ battery)) &&
    spec.requiredHardware.all (hasHealthyHardwareType rob)

def withinRolloutWindow (windowOnly : Bool) : Bool := !windowOnly || rob.inWindow

def whyHeld (holds : String → String) (rob : Robot) : String := if rob.held ≠ "" then rob.held else holds rob.name

def signatureRefusalPrefix : String := "adapter refused the model's signature: "

def lower (character : Char) : Char := if character.toNat = 0x130 then 'i' else character.toLower

def isSignatureFailure (message : String) : Bool :=
  (message.toList.map lower).tails.any fun rest => "signature".toList.isPrefixOf rest

def signatureRefusals (failed : List RobotResult) : List (String × String) :=
  (failed.filter fun result => signatureRefusalPrefix.toList.isPrefixOf result.reason.toList).map fun result =>
    (result.robotName, result.reason)

inductive Bucket where
  | done | updating | failed | eligible | rolledBack | reverting | revertFailed | newer | excluded | waiting
deriving DecidableEq, Repr

/-- The classification of one robot.  What was rolled back is read before a resume is applied
(`read`), the rest after (`rollout`). -/
def bucketOf (read : Status) (rollout : Rollout) (holds : String → String) (rob : Robot) : Bucket :=
  if rob.name ∈ read.rolledBackRobots then
    let target := versionOf read.rollbackVersions rob.name
    if target = "" ∨ modelActiveAt rob.model target then .rolledBack
    else if classifyModel rob.model target = .failed then .revertFailed
    else .reverting
  else if rob.name ∈ rollout.status.excludedRobots then .excluded
  else
    match classifyModel rob.model rollout.spec.newVersion with
    | .done => .done
    | .updating => .updating
    | .failed => .failed
    | .newer => .newer
    | .pending =>
      if ((signatureRefusals rollout.status.failedRobots).lookup rob.name).isSome then .failed
      else if whyHeld holds rob = "" ∧ eligibleForModelUpdate rob rollout.spec ∧
          withinRolloutWindow rob rollout.spec.safetyConstraints.maintenanceWindowOnly then .eligible
      else .waiting

def sortRobots (robots : List Robot) : List Robot := robots.insertionSort fun first second => first.name ≤ second.name

def sortNames (names : List String) : List String := names.insertionSort (· ≤ ·)

def mergeExcluded (existing add : List String) : List String := sortNames (existing ++ add).dedup

def modelInitialPhase : String := "Downloading"

/-- A robot that was in the batch keeps its entry. -/
def buildRolloutBatch (updating : List Robot) (prior : List BatchRobot) (now : Nat) : List BatchRobot :=
  (updating.map fun rob =>
    (prior.reverse.find? fun entry => entry.robotName = rob.name).getD
      { robotName := rob.name, space := rob.space, updateStartedAt := now, updatePhase := modelInitialPhase
        capabilitiesSuspendedAt := some now }).insertionSort fun first second => first.robotName ≤ second.robotName

structure Buckets where
  done : List Robot := []
  updating : List Robot := []
  failed : List Robot := []
  rolledBack : List Robot := []
  reverting : List Robot := []
  newer : List Robot := []
  excluded : List Robot := []

def names (robots : List Robot) : List String := robots.map Robot.name

def rolloutPhase (total : Nat) (b : Buckets) (paused : Bool) : RolloutPhase :=
  let settled := b.done.length + b.rolledBack.length + b.newer.length + b.excluded.length
  if settled = total ∧ 0 < total then .succeeded
  else if paused then .paused
  else if 0 < total ∧ 0 < b.failed.length ∧ settled + b.failed.length = total then .failed
  else if b.updating ≠ [] ∨ b.done ≠ [] ∨ b.failed ≠ [] ∨ b.rolledBack ≠ [] ∨ b.reverting ≠ [] then .inProgress
  else .pending

def computeRolloutStatus (total : Nat) (b : Buckets) (paused : Bool) (rollbackVersions : String → String)
    (prior : List BatchRobot) (now : Nat) : Status where
  phase := rolloutPhase total b paused
  robotsTotal := total
  robotsUpdated := b.done.length
  robotsFailed := b.failed.length
  robotsRolledBack := b.rolledBack.length
  robotsPending := total - b.done.length - b.failed.length - b.rolledBack.length - b.newer.length
  robotsIneligible := b.newer.length
  capabilitiesSuspendedOn := b.updating.length + b.reverting.length
  currentBatch := buildRolloutBatch b.updating prior now
  failedRobots := (b.failed.map fun rob =>
    { robotName := rob.name, space := rob.space
      reason := (rob.model.map ModelEntry.failureReason).getD "" : RobotResult }).insertionSort
        fun first second => first.robotName ≤ second.robotName
  -- every robot that was pushed a rollback and whose revert did not fail
  rolledBackRobots := sortNames (names b.rolledBack ++ names b.reverting)
  excludedRobots := sortNames (names b.excluded)
  -- the targets of the robots that could still need one
  rollbackVersions :=
    ((sortNames (names b.updating ++ names b.failed ++ names b.reverting).dedup).filter
      fun name => rollbackVersions name ≠ "").map fun name => (name, rollbackVersions name)

def operatorHold (heldByOperator : Bool) (stored : Option Condition) (now : Nat) : Condition where
  status := heldByOperator
  reason := if heldByOperator then "OperatorPaused" else "NoOperatorHold"
  message :=
    if heldByOperator then
      "spec.desiredState is Paused: no further robot enters a batch until it is set back to Running"
    else "spec.desiredState is Running; any Paused phase is the pauseOnError halt, exited with the rollout-resume verb"
  lastTransitionTime :=
    match stored with
    | none => now
    | some condition => if condition.status = heldByOperator then condition.lastTransitionTime else now

def pendingResume (rollout : Rollout) : Option String :=
  rollout.resume.filter fun request => rollout.resumeProcessed != some request

def resumedStatus (status : Status) : Status :=
  if status.phase = .paused then
    { status with
      excludedRobots := mergeExcluded status.excludedRobots
        (status.failedRobots.map RobotResult.robotName ++
          status.rolledBackRobots.filter fun name => name ∉ status.excludedRobots)
      failedRobots := []
      pausedAt := none }
  else status

structure ModelUpdate where
  modelName : String
  oldVersion : String
  newVersion : String
  modelURI : String := ""
  modelChecksum : String := ""
  modelSignatureRef : String := ""
  rollback : Bool := false
deriving DecidableEq, Repr

def modelUpdatePayload (spec : Spec) : ModelUpdate where
  modelName := spec.modelName
  oldVersion := (rob.model.map ModelEntry.runningVersion).getD ""
  newVersion := spec.newVersion
  modelURI := spec.modelURI
  modelChecksum := spec.modelChecksum
  modelSignatureRef := spec.modelSignatureRef

def rollbackPayload (spec : Spec) (prevVersion : String) : ModelUpdate where
  modelName := spec.modelName
  oldVersion := spec.newVersion
  newVersion := prevVersion
  rollback := true

def markUpdating : Option ModelEntry → ModelEntry
  | none => { status := .updating }
  | some entry => { entry with status := .updating }

def subtractCaps (grants revokes : List String) : List String := sortNames (grants.filter fun name => name ∉ revokes)

def modelGrantMatches (grantedBy : String) (caps : List String) : Bool :=
  rob.granted.any fun granted => granted.1 == grantedBy && sortNames granted.2 == sortNames caps

end Swarmada.ModelRollout
