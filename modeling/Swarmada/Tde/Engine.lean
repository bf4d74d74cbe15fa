import Swarmada.Api.FleetAction
import Swarmada.Tde.SharedResource

/-! # The traffic deconfliction engine

Zone reservations and shared-resource queues of one namespace.  Each call holds the locks
of the zones it touches, so calls take effect one after the other.
-/

namespace Swarmada.Tde

open Api

inductive ReservationState where
  | reserved | occupied
deriving DecidableEq, Repr

structure ZoneReservation where
  robotID : String
  actionID : String
  priority : ActionPriority
  state : ReservationState
  grantedAt : Nat
  expiresAt : Option Nat := none
  enteredAt : Option Nat := none
deriving DecidableEq, Repr

structure ZoneState where
  reservations : List ZoneReservation := []
  resources : List SharedResourceQueue := []
deriving DecidableEq, Repr

structure ZoneSpec where
  maxConcurrentRobots : Nat := 0
  sharedResources : List Resource := []
deriving DecidableEq, Repr

structure Config where
  reservationTTL : Nat
  disconnectedReservationTTL : Nat
deriving DecidableEq, Repr

def second : Nat := 1000000000

def defaultConfig : Config where
  reservationTTL := 120 * second
  disconnectedReservationTTL := 360 * second

structure Engine where
  recovered : Bool := true
  zones : String → ZoneState := fun _ => {}

abbrev ZoneSpecs := String → Option ZoneSpec

def resourceCapacity (specs : ZoneSpecs) (zone resourceName : String) : Nat :=
  match specs zone with
  | none => 1
  | some spec =>
    match spec.sharedResources.find? (fun resource => resource.name = resourceName && 0 < resource.capacity) with
    | some resource => resource.capacity
    | none => 1

def resourcePolicy (specs : ZoneSpecs) (zone resourceName : String) : ReservationPolicy :=
  match specs zone with
  | none => .fifo
  | some spec =>
    match spec.sharedResources.find? (fun resource => resource.name = resourceName && resource.policy ≠ .unset) with
    | some resource => resource.policy
    | none => .fifo

/-- A Reserved entry the capacity gate counts. -/
def ZoneReservation.live (now : Nat) (entry : ZoneReservation) : Bool :=
  match entry.expiresAt with
  | none => true
  | some expiry => now < expiry

def ZoneReservation.counted (now : Nat) (entry : ZoneReservation) : Bool :=
  match entry.state with
  | .occupied => true
  | .reserved => entry.live now

/-- The Occupied entries and the unexpired Reserved ones. -/
def ZoneState.counts (now : Nat) (zone : ZoneState) : Nat := zone.reservations.countP (ZoneReservation.counted now)

structure ResourceRequest where
  resourceName : String
  zoneName : String
  estimatedDurationSeconds : Option Nat := none
deriving DecidableEq, Repr

structure ReservationRequest where
  actionID : String
  robotID : String
  targetZone : String
  priority : ActionPriority
  resources : List ResourceRequest := []
  mayEvict : String → Bool := fun _ => true

inductive ReservationStatus where
  | granted | denied | preemptedGranted
deriving DecidableEq, Repr

structure ReservationResult where
  status : ReservationStatus
  expiresAt : Nat := 0
  deniedReason : String := ""
  retryAfter : Nat := 0
  preemptedActionIDs : List String := []
deriving DecidableEq, Repr

def ActionPriority.canPreempt (priority : ActionPriority) : Bool := priority = .critical || priority = .high

def isPreemptibleBand (priority : ActionPriority) : Bool := priority = .normal || priority = .low

/-- `a` is a better victim than `b`: Reserved first, then the lower priority, then the more
recently granted. -/
def lessPreemptible (a b : ZoneReservation) : Bool :=
  if (a.state = .reserved) ≠ (b.state = .reserved) then a.state = .reserved
  else if priorityRank a.priority ≠ priorityRank b.priority then priorityRank b.priority < priorityRank a.priority
  else if a.grantedAt ≠ b.grantedAt then b.grantedAt < a.grantedAt
  else a.actionID < b.actionID

def victimIndex (mayEvict : String → Bool) (reservations : List ZoneReservation) : Option (ZoneReservation × Nat) :=
  reservations.zipIdx.foldl
    (fun best candidate =>
      if !isPreemptibleBand candidate.1.priority || !mayEvict candidate.1.actionID then best
      else
        match best with
        | none => some candidate
        | some held => if lessPreemptible candidate.1 held.1 then some candidate else best)
    none

def preempt (mayEvict : String → Bool) (zone : ZoneState) : Option (ZoneReservation × ZoneState) :=
  (victimIndex mayEvict zone.reservations).map fun (victim, index) =>
    (victim, { zone with reservations := zone.reservations.eraseIdx index })

def appendReservation (config : Config) (now : Nat) (request : ReservationRequest) (zone : ZoneState) : ZoneState :=
  { zone with
    reservations := zone.reservations ++
      [{ robotID := request.robotID, actionID := request.actionID, priority := request.priority, state := .reserved,
         grantedAt := now, expiresAt := some (now + config.reservationTTL) }] }

def earliestExpiry (config : Config) (now : Nat) (zone : ZoneState) : Nat :=
  match (zone.reservations.filterMap ZoneReservation.expiresAt).min? with
  | none => config.reservationTTL
  | some earliest => if now < earliest then earliest - now else second

def ZoneState.queue (zone : ZoneState) (resourceName : String) : SharedResourceQueue :=
  (zone.resources.find? (fun queue => queue.resourceName = resourceName)).getD { resourceName }

def ZoneState.setQueue (zone : ZoneState) (queue : SharedResourceQueue) : ZoneState :=
  { zone with resources := queue :: zone.resources.filter (fun other => other.resourceName ≠ queue.resourceName) }

def grantResources (specs : ZoneSpecs) (now : Nat) (request : ReservationRequest) (zones : String → ZoneState) :
    String → ZoneState :=
  request.resources.foldl
    (fun zones wanted =>
      if wanted.zoneName = "" then zones
      else
        let zone := zones wanted.zoneName
        let queue := zone.queue wanted.resourceName
        let granted :=
          if queue.currentHolders.length < resourceCapacity specs wanted.zoneName wanted.resourceName then
            { queue with
              currentHolders := queue.currentHolders ++
                [{ robotID := request.robotID, actionID := request.actionID, priority := request.priority,
                   heldSince := now }] }
          else
            insertByPolicy queue
              { robotID := request.robotID, actionID := request.actionID, priority := request.priority,
                requestedAt := now, estimatedDurationSeconds := wanted.estimatedDurationSeconds }
              (resourcePolicy specs wanted.zoneName wanted.resourceName)
        Function.update zones wanted.zoneName (zone.setQueue granted))
    zones

def releaseActionHolds (specs : ZoneSpecs) (now : Nat) (actionID : String) (locked : List String)
    (zones : String → ZoneState) : String → ZoneState :=
  fun name =>
    if name ∈ locked then
      { zones name with
        resources := (zones name).resources.map fun queue =>
          if queueHasAction queue actionID then
            releaseHolder (resourceCapacity specs name queue.resourceName) now actionID queue
          else queue }
    else zones name

def deniedUnavailable : ReservationResult := { status := .denied, deniedReason := "tde_unavailable" }

def requestReservation (specs : ZoneSpecs) (config : Config) (now : Nat) (request : ReservationRequest)
    (engine : Engine) : Engine × ReservationResult :=
  let locked := request.targetZone :: request.resources.map ResourceRequest.zoneName
  let grant (zones : String → ZoneState) : Engine := { engine with zones := grantResources specs now request zones }
  if !engine.recovered then (engine, deniedUnavailable)
  else if request.targetZone = "" then
    (grant engine.zones, { status := .granted, expiresAt := now + config.reservationTTL })
  else
    match specs request.targetZone with
    | none => (engine, deniedUnavailable)
    | some spec =>
      let zone := engine.zones request.targetZone
      if spec.maxConcurrentRobots ≠ 0 ∧ spec.maxConcurrentRobots ≤ zone.counts now then
        match if request.priority.canPreempt then preempt request.mayEvict zone else none with
        | some (victim, left) =>
          let evicted := Function.update engine.zones request.targetZone left
          let freed := releaseActionHolds specs now victim.actionID locked evicted
          let appended := Function.update freed request.targetZone
            (appendReservation config now request (freed request.targetZone))
          (grant appended,
            { status := .preemptedGranted, expiresAt := now + config.reservationTTL,
              preemptedActionIDs := [victim.actionID] })
        | none =>
          (engine, { status := .denied, deniedReason := "zone_capacity",
                     retryAfter := earliestExpiry config now zone })
      else
        (grant (Function.update engine.zones request.targetZone (appendReservation config now request zone)),
          { status := .granted, expiresAt := now + config.reservationTTL })

def releaseReservation (specs : ZoneSpecs) (now : Nat) (listed : List String) (zone actionID : String)
    (engine : Engine) : Engine :=
  let kept := { engine.zones zone with
    reservations := (engine.zones zone).reservations.filter (fun entry => entry.actionID ≠ actionID) }
  let dropped := if zone = "" then engine.zones else Function.update engine.zones zone kept
  { engine with zones := releaseActionHolds specs now actionID (zone :: listed) dropped }

def enter (now : Nat) (robotID : String) : List ZoneReservation → List ZoneReservation
  | [] => []
  | entry :: rest =>
    if entry.robotID = robotID ∧ entry.state = .reserved then
      { entry with state := .occupied, expiresAt := none, enteredAt := some now } :: rest
    else entry :: enter now robotID rest

def Engine.edit (engine : Engine) (zone : String) (edit : List ZoneReservation → List ZoneReservation) : Engine :=
  { engine with
    zones := Function.update engine.zones zone
      { engine.zones zone with reservations := edit (engine.zones zone).reservations } }

def onRobotEnteredZone (now : Nat) (zone robotID : String) (engine : Engine) : Engine :=
  engine.edit zone (enter now robotID)

def onRobotExitedZone (zone robotID : String) (engine : Engine) : Engine :=
  engine.edit zone (List.filter fun entry => entry.robotID ≠ robotID || entry.state ≠ .occupied)

def extend (config : Config) (now : Nat) (actionID : String) (entry : ZoneReservation) : ZoneReservation :=
  if entry.actionID = actionID ∧ entry.state = .reserved then
    { entry with expiresAt := some (now + config.disconnectedReservationTTL) }
  else entry

def onActionPhaseChanged (specs : ZoneSpecs) (config : Config) (now : Nat) (listed : List String)
    (zone actionID : String) (phase : ActionPhase) (engine : Engine) : Engine :=
  match phase with
  | .succeeded | .failed | .cancelled => releaseReservation specs now listed zone actionID engine
  | .revoking => engine.edit zone (List.map (extend config now actionID))
  | _ => engine

variable {specs : ZoneSpecs} {config : Config} {now : Nat} {zone : String} {engine : Engine}

variable (request : ReservationRequest)

theorem reservations_grantResources (zones : String → ZoneState) (name : String) :
    (grantResources specs now request zones name).reservations = (zones name).reservations := by
  unfold grantResources
  induction request.resources generalizing zones with
  | nil => rfl
  | cons wanted rest ih =>
    rw [List.foldl_cons, ih]
    split
    · rfl
    by_cases same : name = wanted.zoneName
    · subst same
      rw [Function.update_self]
      rfl
    · rw [Function.update_of_ne same]

theorem reservations_releaseActionHolds (actionID : String) (locked : List String) (zones : String → ZoneState)
    (name : String) :
    (releaseActionHolds specs now actionID locked zones name).reservations = (zones name).reservations := by
  unfold releaseActionHolds
  split <;> rfl

theorem reservations_releaseReservation (listed : List String) (actionID : String) (placed : zone ≠ "") :
    ((releaseReservation specs now listed zone actionID engine).zones zone).reservations =
      (engine.zones zone).reservations.filter (fun entry => entry.actionID ≠ actionID) := by
  unfold releaseReservation
  simp only [placed, if_false, reservations_releaseActionHolds, Function.update_self]

theorem reservations_releaseReservation_of_ne (listed : List String) (actionID : String) (apart : other ≠ zone) :
    ((releaseReservation specs now listed zone actionID engine).zones other).reservations =
      (engine.zones other).reservations := by
  unfold releaseReservation
  simp only [reservations_releaseActionHolds]
  split
  · rfl
  · rw [Function.update_of_ne apart]

theorem reservations_edit (edit : List ZoneReservation → List ZoneReservation) (name : String) :
    ((engine.edit zone edit).zones name).reservations =
      if name = zone then edit (engine.zones zone).reservations else (engine.zones name).reservations := by
  unfold Engine.edit
  split
  next same =>
    subst same
    simp only [Function.update_self]
  next other =>
    simp only [Function.update_of_ne other]

def granted (config : Config) (now : Nat) (request : ReservationRequest) : ZoneReservation :=
  { robotID := request.robotID, actionID := request.actionID, priority := request.priority, state := .reserved,
    grantedAt := now, expiresAt := some (now + config.reservationTTL) }

theorem reservations_append (state : ZoneState) :
    (appendReservation config now request state).reservations = state.reservations ++ [granted config now request] := rfl

theorem requestReservation_other (other : zone ≠ request.targetZone) :
    ((requestReservation specs config now request engine).1.zones zone).reservations =
      (engine.zones zone).reservations := by
  unfold requestReservation
  dsimp only
  split
  · rfl
  split
  · exact reservations_grantResources request engine.zones zone
  split
  · rfl
  split
  · split
    · simp only [reservations_grantResources, Function.update_of_ne other, reservations_releaseActionHolds]
    · rfl
  · simp only [reservations_grantResources, Function.update_of_ne other]

/-- A request for the zone is denied and leaves everything, is granted below the capacity,
or takes a victim's place. -/
theorem requestReservation_cases (placed : request.targetZone ≠ "") :
    (requestReservation specs config now request engine).2.status = .denied ∧
        (requestReservation specs config now request engine).1 = engine ∨
      (requestReservation specs config now request engine).2.status = .granted ∧
        ((requestReservation specs config now request engine).1.zones request.targetZone).reservations =
          (engine.zones request.targetZone).reservations ++ [granted config now request] ∧
        (∃ spec, specs request.targetZone = some spec ∧ (spec.maxConcurrentRobots ≠ 0 →
          (engine.zones request.targetZone).counts now < spec.maxConcurrentRobots)) ∨
      (requestReservation specs config now request engine).2.status = .preemptedGranted ∧
        ∃ index, ((requestReservation specs config now request engine).1.zones request.targetZone).reservations =
          (engine.zones request.targetZone).reservations.eraseIdx index ++ [granted config now request] := by
  unfold requestReservation
  dsimp only
  split
  · exact .inl ⟨rfl, rfl⟩
  split
  · exact .inl ⟨rfl, rfl⟩
  rename_i spec read
  split
  · split
    next victim left evicted =>
      refine .inr (.inr ⟨rfl, ?_⟩)
      split at evicted <;> try contradiction
      obtain ⟨⟨_, index⟩, -, same⟩ := Option.map_eq_some_iff.mp evicted
      cases same
      refine ⟨index, ?_⟩
      simp only [reservations_grantResources, Function.update_self, reservations_append,
        reservations_releaseActionHolds]
    · exact .inl ⟨rfl, rfl⟩
  next room =>
    refine .inr (.inl ⟨rfl, ?_, spec, read, fun limited => ?_⟩)
    · simp only [reservations_grantResources, Function.update_self, reservations_append]
    · exact Nat.lt_of_not_le fun full => room ⟨limited, full⟩

end Swarmada.Tde
