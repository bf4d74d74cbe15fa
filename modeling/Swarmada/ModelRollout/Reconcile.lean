import Swarmada.ModelRollout.Types
import Swarmada.Transition.Program
import Swarmada.Transition.Versioned

/-! # One pass over a ModelRollout

`Reconcile` up to the calls it makes.  An error that ends the pass ends it at the call that meets it.
When the rollout is looked at again is left out: a pass may start at any time.
-/

namespace Swarmada.ModelRollout

open Transition

inductive PushReply where
  | undelivered
  | answered (acknowledged : Bool) (message : String)
deriving DecidableEq, Repr

def PushReply.acknowledged : PushReply → Bool
  | .undelivered => false
  | .answered acknowledged _ => acknowledged

/-- The calls of one pass.  The list of the robots is taken for a copy of the rollout, and the mark on
a robot carries the copy it was computed from. -/
inductive Op where
  | getRollout
  | listRobots (read : Versioned Rollout)
  | readHolds
  | patchResume (base new : Status)
  | markProcessed (request : String)
  | heldNow (robot : String)
  | push (robot : String) (update : ModelUpdate)
  | getRobot (robot : String)
  | patchRobot (robot : String) (read : Versioned (Option ModelEntry))
  | reread
  | patchGrant (robot : String) (caps : List String)
  | now
  | patchStatus (base new : Status)
  | fail

@[reducible] def Op.Reply : Op → Type
  | .getRollout | .markProcessed _ => Versioned Rollout
  | .listRobots _ => List Robot
  | .readHolds => String → String
  | .patchResume _ _ | .patchStatus _ _ | .patchGrant _ _ => Unit
  | .heldNow _ => String
  | .push _ _ => PushReply
  | .getRobot _ => Versioned (Option ModelEntry)
  | .patchRobot _ _ => Bool
  | .reread | .now => Nat
  | .fail => Empty

abbrev Pass := Program Op Op.Reply

def call (op : Op) : Pass op.Reply := Program.perform op

structure Setup where
  pusher : Bool
  read : Versioned Rollout
  rollout : Versioned Rollout
  listing : List Robot
  holds : String → String

variable (setup : Setup)

namespace Setup

def spec : Spec := setup.rollout.value.spec

def bucket (bucket : Bucket) : List Robot :=
  setup.listing.filter fun rob =>
    bucketOf setup.read.value.status setup.rollout.value setup.holds rob = bucket

def revertTarget (name : String) : String :=
  if name ∈ names (setup.bucket .rolledBack) then "" else versionOf setup.read.value.status.rollbackVersions name

def acknowledgedRevert (name : String) : Bool := name ∈ setup.rollout.value.status.excludedRobots

end Setup

def attempts : Nat := 5

def markModelUpdating (robot : String) (settled : Option ModelEntry → Bool) : Nat → Pass Bool
  | 0 => do
      let never ← call .fail
      nomatch never
  | left + 1 => do
      let fresh ← call (.getRobot robot)
      if settled fresh.value then pure true
      else if ← call (.patchRobot robot fresh) then pure false
      else markModelUpdating robot settled left

variable (rob : Robot)

def rollbackAcknowledged (prevVersion : String) : Pass Bool :=
  if setup.pusher then do
    let reply ← call (.push rob.name (rollbackPayload setup.spec prevVersion))
    pure reply.acknowledged
  else pure true

def rollbackRobot (prevVersion : String) : Pass Bool := do
  if ← rollbackAcknowledged setup rob prevVersion then do
    let _ ← markModelUpdating rob.name
      (fun fresh => modelActiveAt fresh prevVersion || revertReportedFailed rob.model fresh) attempts
    pure true
  else pure false

structure Reverts where
  stillFailed : List Robot := []
  reverting : List Robot := []

def heldFromRollback : Pass String :=
  if whyHeld setup.holds rob = "" ∧ setup.pusher then call (.heldNow rob.name) else pure (whyHeld setup.holds rob)

def rollbackFailed (setup : Setup) : List Robot → Reverts → Pass Reverts
  | [], reverts => pure reverts
  | rob :: rest, reverts =>
    if setup.revertTarget rob.name = "" then
      rollbackFailed setup rest { reverts with stillFailed := reverts.stillFailed ++ [rob] }
    else do
      let held ← heldFromRollback setup rob
      if held ≠ "" then rollbackFailed setup rest { reverts with stillFailed := reverts.stillFailed ++ [rob] }
      else if ← rollbackRobot setup rob (setup.revertTarget rob.name) then
        rollbackFailed setup rest { reverts with reverting := reverts.reverting ++ [rob] }
      else rollbackFailed setup rest { reverts with stillFailed := reverts.stillFailed ++ [rob] }

def rollbackPass : Pass Reverts :=
  let reverting := setup.bucket .reverting
  if setup.spec.rollbackPolicy = .auto then
    rollbackFailed setup (sortRobots (setup.bucket .failed)) { reverting := reverting }
  else pure { stillFailed := setup.bucket .failed, reverting := reverting }

inductive Entered where
  | entered (previousVersion : String)
  | deferred
  | refused (reason : String)

def enterMarked : Pass Entered := do
  let _ ← markModelUpdating rob.name
    (fun fresh =>
      let state := classifyModel fresh setup.spec.newVersion
      state = .done ∨ state = .failed) attempts
  pure (.entered ((rob.model.map ModelEntry.runningVersion).getD ""))

def enterBatch : Pass Entered :=
  if setup.pusher then do
    let held ← call (.heldNow rob.name)
    if held ≠ "" then pure .deferred
    else
      match ← call (.push rob.name (modelUpdatePayload rob setup.spec)) with
      | .undelivered => pure .deferred
      | .answered true _ => enterMarked setup rob
      | .answered false message =>
        if isSignatureFailure message then pure (.refused (signatureRefusalPrefix ++ message)) else pure .deferred
  else enterMarked setup rob

structure Filled where
  updating : List Robot
  failed : List Robot
  refused : List (String × String)
  versions : String → String
  paused : Bool

def fillBatch (setup : Setup) : List Robot → Int → Filled → Pass Filled
  | [], _, filled => pure filled
  | rob :: rest, slots, filled =>
    if slots ≤ 0 then pure filled
    else do
      match ← enterBatch setup rob with
      | .refused reason =>
        let filled := { filled with
          refused := (rob.name, reason) :: filled.refused, failed := filled.failed ++ [rob] }
        if setup.spec.strategy.pausesOnError then pure { filled with paused := true }
        else fillBatch setup rest slots filled
      | .deferred => fillBatch setup rest slots filled
      | .entered previousVersion =>
        fillBatch setup rest (slots - 1)
          { filled with
            updating := filled.updating ++ [rob]
            versions := if previousVersion ≠ "" then Function.update filled.versions rob.name previousVersion
              else filled.versions }

def staleRollout (asked : Bool) : Pass Bool :=
  if asked then do
    let stored ← call .reread
    pure (stored != setup.rollout.version)
  else pure false

variable (reverts : Reverts)

def failedAfter : List Robot :=
  sortRobots (reverts.stillFailed ++ setup.bucket .revertFailed)

def unackedReverts : List Robot :=
  (setup.bucket .rolledBack ++ reverts.reverting).filter fun rob => !setup.acknowledgedRevert rob.name

def ackedReverts : List Robot :=
  (setup.bucket .rolledBack ++ reverts.reverting).filter fun rob => setup.acknowledgedRevert rob.name

def pausedOnError : Bool :=
  (failedAfter setup reverts ≠ [] ∨ unackedReverts setup reverts ≠ []) ∧ setup.spec.strategy.pausesOnError

def heldByOperator : Bool := setup.spec.desiredState = .paused

/-- The places left in the batch: those updating count, those being reverted do not. -/
def slotsOf : Int :=
  maxUnavailable setup.spec.strategy.maxUnavailable setup.listing.length - (setup.bucket .updating).length

def filledBefore : Filled where
  updating := setup.bucket .updating
  failed := failedAfter setup reverts
  refused := signatureRefusals setup.rollout.value.status.failedRobots
  versions := setup.revertTarget
  paused := pausedOnError setup reverts || heldByOperator setup

/-- A push must not repeat, so the rollout is read again before the first one. -/
def checksCurrent : Bool :=
  !(filledBefore setup reverts).paused && setup.pusher && decide (0 < slotsOf setup) &&
    !(setup.bucket .eligible).isEmpty

def batchPass : Pass (Option Filled) := do
  let filled := filledBefore setup reverts
  if filled.paused then pure (some filled)
  else do
    if ← staleRollout setup (checksCurrent setup reverts) then pure none
    else some <$> fillBatch setup (sortRobots (setup.bucket .eligible)) (slotsOf setup) filled

def projectGrant : Pass Unit :=
  let grants := subtractCaps setup.spec.grantsCapabilities setup.spec.revokesCapabilities
  if modelGrantMatches rob setup.rollout.value.name grants then pure () else call (.patchGrant rob.name grants)

def projectGrants (setup : Setup) : List Robot → Pass Unit
  | [] => pure ()
  | rob :: rest => do
      projectGrant setup rob
      projectGrants setup rest

def bucketsAfter (filled : Filled) : Buckets where
  done := setup.bucket .done
  updating := filled.updating
  failed := filled.failed
  rolledBack := setup.bucket .rolledBack
  reverting := reverts.reverting
  newer := setup.bucket .newer
  excluded := setup.bucket .excluded

def newStatus (filled : Filled) (now : Nat) : Status :=
  let stored := setup.rollout.value.status
  let computed := computeRolloutStatus setup.listing.length (bucketsAfter setup reverts filled) filled.paused
    filled.versions stored.currentBatch now
  let acked := names (ackedReverts setup reverts)
  { computed with
    failedRobots := computed.failedRobots.map fun result =>
      if result.reason = "" then { result with reason := (filled.refused.lookup result.robotName).getD "" } else result
    excludedRobots := if acked = [] then computed.excludedRobots else mergeExcluded computed.excludedRobots acked
    operatorHold := some (operatorHold (heldByOperator setup) stored.operatorHold now)
    pausedAt := if computed.phase = .paused then some (stored.pausedAt.getD now) else none }

def writeStatus (filled : Filled) : Pass Unit := do
  let stored := setup.rollout.value.status
  let now ← call .now
  let status := newStatus setup reverts filled now
  let pauseEdge := decide (status.phase = .paused ∧ stored.phase ≠ .paused)
  if ← staleRollout setup (pauseEdge && !checksCurrent setup reverts) then pure ()
  else if status = stored then pure ()
  else call (.patchStatus stored status)

/-- The rollout to go on with, or `none` when the resume changed the status and ends the pass. -/
def applyResume (read : Versioned Rollout) : Pass (Option (Versioned Rollout)) :=
  match pendingResume read.value with
  | none => pure (some read)
  | some request => do
      let status := read.value.status
      let resumed := resumedStatus status
      if resumed = status then some <$> call (.markProcessed request)
      else do
        call (.patchResume status resumed)
        let _ ← call (.markProcessed request)
        pure none

def reconcileRobots : Pass Unit := do
  let reverts ← rollbackPass setup
  match ← batchPass setup reverts with
  | none => pure ()
  | some filled => do
      projectGrants setup (setup.bucket .done)
      writeStatus setup reverts filled

def reconcile (pusher : Bool) : Pass Unit := do
  let read ← call .getRollout
  if read.value.spec.targetKind = .edgeNode then pure ()
  else do
    let listing ← call (.listRobots read)
    let holds ← call .readHolds
    match ← applyResume read with
    | none => pure ()
    | some rollout => reconcileRobots { pusher, read, rollout, listing, holds }

end Swarmada.ModelRollout
