import Mathlib.Algebra.Group.Int.Defs
import Mathlib.Algebra.Group.Nat.Defs
import Mathlib.Data.List.AList
import Swarmada.Api.FleetAction
import Swarmada.Transition.Machine

/-! # Projecting telemetry onto the status

The projector remembers what it last wrote of each robot and returns an update when a frame
changes it.  A rate cap may hold a change, and a write that failed is made again with the next
frame.  Times are in nanoseconds.
-/

namespace Swarmada.Telemetry

open Api Transition

inductive HardwareStatus where
  | healthy | degraded | failed | disabled
deriving DecidableEq, Repr

abbrev Hardware := AList fun _ : String => HardwareStatus

structure RobotKey where
  space : String
  robotID : String
deriving DecidableEq, Repr

structure Frame where
  key : RobotKey
  phase : Option RobotPhase := none
  batteryPct : Option Int := none
  hardware : Hardware := ∅
  assignedAction : String := ""

/-- Zero disables a cap. -/
structure Config where
  minStatusWriteInterval : Int := 0
  batteryThresholds : List Int := [15, 30]
  maxStatusWritesPerMinute : Nat := 0

variable (config : Config)

def Config.sorted : Config :=
  { config with batteryThresholds := config.batteryThresholds.insertionSort (· ≤ ·) }

inductive Transition where
  | safetyCritical | phaseChange | hardwareHealth | batteryThreshold | assignedAction
deriving DecidableEq, Repr

/-- What was last written, and the clock of the rate cap.  `lastWrite` is absent for the zero time. -/
structure RobotState where
  initialized : Bool := false
  phase : Option RobotPhase := none
  batteryPct : Option Int := none
  batteryBkt : Int := 0
  hardware : Hardware := ∅
  assignedAction : String := ""
  lastWrite : Option Int := none
  writeTimes : List Int := []
  gen : Nat := 0
  unsent : Bool := false
  unsentCritical : Bool := false
  unsentType : Option Transition := none
  held : Bool := false
  heldHW : Hardware := ∅

structure UndoRecord where
  key : RobotKey
  prev : RobotState
  gen : Nat

/-- Only the fields that are present are written. -/
structure MaterialUpdate where
  key : RobotKey
  phase : Option RobotPhase := none
  batteryPct : Option Int := none
  hardware : Option Hardware := none
  assignedAction : Option String := none
  reason : String
  transitionType : Option Transition
  sentAt : Int

/-- The number of thresholds a reading has reached; an unreported one is below them all. -/
def batteryBucket (pct : Option Int) (thresholds : List Int) : Int :=
  match pct with
  | none => -1
  | some pct => (thresholds.takeWhile fun threshold => !decide (pct < threshold)).length

def mergeHardware (old delta : Hardware) : Bool × Hardware × Bool :=
  let changes := delta.entries.filter fun entry => old.lookup entry.1 ≠ some entry.2
  (!changes.isEmpty, delta ∪ old, changes.any fun entry => entry.2 = .degraded ∨ entry.2 = .failed)

def transitionType (critical phase hw battery action : Bool) : Option Transition :=
  if critical then some .safetyCritical
  else if phase then some .phaseChange
  else if hw then some .hardwareHealth
  else if battery then some .batteryThreshold
  else if action then some .assignedAction
  else none

def reasonString (phase battery hw action : Bool) : String :=
  let part (present : Bool) (text : String) : List String := if present then [text] else []
  "material change: " ++
    ",".intercalate (part phase "phase" ++ part battery "battery" ++ part hw "hardware" ++ part action "task")

structure Changes where
  phase : Bool
  battery : Bool
  action : Bool
  hardware : Bool
  newBkt : Int
  incomingHW : Hardware
  mergedHW : Hardware
  critical : Bool

variable (now : Int) (st : RobotState)

def changesOf (f : Frame) : Changes :=
  let incomingHW := if st.heldHW.entries.isEmpty then f.hardware else f.hardware ∪ st.heldHW
  let (hwChanged, mergedHW, hwCritical) := mergeHardware st.hardware incomingHW
  let phaseChanged := f.phase.isSome && f.phase != st.phase
  let newBkt := batteryBucket f.batteryPct config.batteryThresholds
  let batteryChanged := newBkt != st.batteryBkt
  { phase := phaseChanged, battery := batteryChanged, action := f.assignedAction != st.assignedAction
    hardware := hwChanged, newBkt := newBkt, incomingHW := incomingHW, mergedHW := mergedHW
    critical := hwCritical || (phaseChanged && (f.phase == some .offline || f.phase == some .error)) ||
      (batteryChanged && newBkt == 0) || (st.unsent && st.unsentCritical) }

def Changes.any (changes : Changes) : Bool := changes.phase || changes.battery || changes.action || changes.hardware

def minute : Int := 60 * 10 ^ 9

def pruneBefore (times : List Int) (cutoff : Int) : List Int := times.dropWhile fun time => !decide (cutoff < time)

def rateCap (critical : Bool) (st : RobotState) : Bool × List Int :=
  if critical then (false, st.writeTimes)
  else if 0 < config.minStatusWriteInterval ∧ (st.lastWrite.any fun last => now - last < config.minStatusWriteInterval) then
    (true, st.writeTimes)
  else if 0 < config.maxStatusWritesPerMinute then
    let times := pruneBefore st.writeTimes (now - minute)
    (decide (config.maxStatusWritesPerMinute ≤ times.length), times)
  else (false, st.writeTimes)

def RobotState.hold (hwChanged : Bool) (incomingHW : Hardware) : RobotState :=
  { st with held := true, heldHW := if hwChanged then incomingHW else ∅ }

def record (f : Frame) : RobotState :=
  { st with
    initialized := true
    phase := f.phase.or st.phase
    batteryPct := f.batteryPct
    batteryBkt := batteryBucket f.batteryPct config.batteryThresholds
    hardware := (mergeHardware st.hardware f.hardware).2.1
    assignedAction := f.assignedAction }

def present (hardware : Hardware) : Option Hardware := if hardware.entries.isEmpty then none else some hardware

def initialUpdate (f : Frame) : MaterialUpdate :=
  { key := f.key, sentAt := now, reason := "initial telemetry", transitionType := some .phaseChange
    phase := if f.phase.isSome then st.phase else none
    batteryPct := st.batteryPct, hardware := present st.hardware, assignedAction := some st.assignedAction }

def resendUpdate (unsentType : Option Transition) (update : MaterialUpdate) : MaterialUpdate :=
  { key := update.key, sentAt := update.sentAt, reason := "resend after a failed status write"
    transitionType := update.transitionType.or unsentType
    phase := st.phase, batteryPct := st.batteryPct, hardware := present st.hardware, assignedAction := some st.assignedAction }

def advance (f : Frame) (changes : Changes) : RobotState :=
  { st with
    phase := if changes.phase then f.phase else st.phase
    batteryPct := if changes.battery then f.batteryPct else st.batteryPct
    batteryBkt := if changes.battery then changes.newBkt else st.batteryBkt
    hardware := if changes.hardware then changes.mergedHW else st.hardware
    assignedAction := if changes.action then f.assignedAction else st.assignedAction }

def frameUpdate (f : Frame) (changes : Changes) : MaterialUpdate :=
  { key := f.key, sentAt := now
    phase := if changes.phase then f.phase else none
    batteryPct := if changes.battery then f.batteryPct else none
    hardware := if changes.hardware then some changes.mergedHW else none
    assignedAction := if changes.action then some f.assignedAction else none
    reason := reasonString changes.phase changes.battery changes.hardware changes.action
    transitionType := transitionType changes.critical changes.phase changes.hardware changes.battery changes.action }

def RobotState.emit (now : Int) (critical : Bool) (times : List Int) : RobotState :=
  { st with
    unsent := false, unsentCritical := false, unsentType := none, held := false, heldHW := ∅
    lastWrite := some now
    writeTimes := if critical then times else times ++ [now]
    gen := st.gen + 1 }

def updateOf (f : Frame) (changes : Changes) : MaterialUpdate :=
  if st.unsent then resendUpdate (advance st f changes) st.unsentType (frameUpdate now f changes)
  else frameUpdate now f changes

def projectState (f : Frame) : RobotState × Option MaterialUpdate :=
  if st.initialized = false then
    let recorded := record config st f
    ({ recorded with lastWrite := some now, gen := st.gen + 1 }, some (initialUpdate now recorded f))
  else
    let changes := changesOf config st f
    if !changes.any && !st.unsent then ({ st with held := false, heldHW := ∅ }, none)
    else
      match rateCap config now changes.critical st with
      | (true, times) => ({ st with writeTimes := times }.hold changes.hardware changes.incomingHW, none)
      | (false, times) =>
        ((advance st f changes).emit now changes.critical times, some (updateOf now st f changes))

structure Projector where
  config : Config
  state : RobotKey → Option RobotState := fun _ => none

/-- Project a frame; the second part is what `Unsent` needs to take the update back. -/
def Projector.project (projector : Projector) (now : Int) (f : Frame) : Projector × Option (MaterialUpdate × UndoRecord) :=
  let prev := (projector.state f.key).getD {}
  let (st, update) := projectState projector.config now prev f
  ({ projector with state := Function.update projector.state f.key (some st) },
    update.map fun update => (update, ⟨f.key, prev, st.gen⟩))

def RobotState.markUnsent (update : MaterialUpdate) (undo : UndoRecord) : RobotState :=
  { st with
    lastWrite := if st.gen = undo.gen then undo.prev.lastWrite else st.lastWrite
    writeTimes := if st.gen = undo.gen then undo.prev.writeTimes else st.writeTimes
    unsent := true
    unsentType := if st.unsentType = none ∨ update.transitionType = some .safetyCritical then update.transitionType
      else st.unsentType
    unsentCritical := st.unsentCritical || update.transitionType == some .safetyCritical
    gen := st.gen + 1 }

def Projector.markUnsent (projector : Projector) (update : MaterialUpdate) (undo : UndoRecord) : Projector :=
  match projector.state undo.key with
  | none => projector
  | some st => { projector with state := Function.update projector.state undo.key (some (st.markUnsent update undo)) }

def Projector.unwritten (projector : Projector) (key : RobotKey) : Bool :=
  match projector.state key with
  | none => true
  | some st => !st.initialized || st.unsent || st.held

structure RobotStatus where
  phase : Option RobotPhase := none
  batteryPct : Option Int := none
  hardware : Hardware := ∅
  assignedAction : String := ""

def RobotStatus.apply (status : RobotStatus) (update : MaterialUpdate) : RobotStatus where
  phase := update.phase.or status.phase
  batteryPct := update.batteryPct.or status.batteryPct
  hardware := update.hardware.getD status.hardware
  assignedAction := update.assignedAction.getD status.assignedAction

structure Reported where
  phase : Option RobotPhase := none
  batteryPct : Option Int := none
  hardware : Hardware := ∅
  assignedAction : String := ""

def Reported.report (reported : Reported) (f : Frame) : Reported where
  phase := f.phase.or reported.phase
  batteryPct := f.batteryPct.or reported.batteryPct
  hardware := f.hardware ∪ reported.hardware
  assignedAction := f.assignedAction

structure World where
  projector : Projector
  status : RobotKey → RobotStatus := fun _ => {}
  reported : RobotKey → Reported := fun _ => {}

inductive Event where
  | unchanged (key : RobotKey)
  | held (key : RobotKey)
  | landed (key : RobotKey)
  | failed (key : RobotKey)
deriving DecidableEq, Repr

structure Ingestion where
  frame : Frame
  now : Int
  lands : Bool := true

def ingest (world : World) (ingestion : Ingestion) : World × List Event :=
  let f := ingestion.frame
  let reported := Function.update world.reported f.key ((world.reported f.key).report f)
  match world.projector.project ingestion.now f with
  | (projector, none) =>
    ({ world with projector := projector, reported := reported },
      [if ((projector.state f.key).any RobotState.held) then .held f.key else .unchanged f.key])
  | (projector, some (update, undo)) =>
    if ingestion.lands then
      ({ projector := projector, reported := reported
         status := Function.update world.status f.key ((world.status f.key).apply update) }, [.landed f.key])
    else ({ world with projector := projector.markUnsent update undo, reported := reported }, [.failed f.key])

def ingestions : Machine World Ingestion Event := ⟨fun world ingestion => some (ingest world ingestion)⟩

def fresh (status : RobotKey → RobotStatus) : World :=
  { projector := { config := config.sorted }, status := status }

end Swarmada.Telemetry
