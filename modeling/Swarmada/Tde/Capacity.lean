import Swarmada.Tde.Engine

namespace Swarmada.Tde

open Api Transition

inductive EngineCall where
  | request (request : ReservationRequest)
  | release (zone actionID : String) (listed : List String)
  | entered (zone robotID : String)
  | exited (zone robotID : String)
  | phaseChanged (zone actionID : String) (phase : ActionPhase) (listed : List String)
  | advance (by_ : Nat)

structure Timed where
  engine : Engine := {}
  now : Nat := 0

def tde (specs : ZoneSpecs) (config : Config) : Machine Timed EngineCall ReservationResult where
  step state
    | .request request =>
      let served := requestReservation specs config state.now request state.engine
      some ({ state with engine := served.1 }, [served.2])
    | .release zone actionID listed =>
      some ({ state with engine := releaseReservation specs state.now listed zone actionID state.engine }, [])
    | .entered zone robotID => some ({ state with engine := onRobotEnteredZone state.now zone robotID state.engine }, [])
    | .exited zone robotID => some ({ state with engine := onRobotExitedZone zone robotID state.engine }, [])
    | .phaseChanged zone actionID phase listed =>
      some ({ state with
        engine := onActionPhaseChanged specs config state.now listed zone actionID phase state.engine }, [])
    | .advance by_ => some ({ state with now := state.now + by_ }, [])

def entering (robotID : String) (reservations : List ZoneReservation) : Option ZoneReservation :=
  reservations.find? (fun entry => entry.robotID = robotID && entry.state = .reserved)

/-- The call brings an expired entry of the zone back into the count: the robot enters under
it, or its TTL is extended. -/
def revives (zone : String) (state : Timed) : EngineCall → Bool
  | .entered entered robotID =>
    entered = zone &&
      (entering robotID (state.engine.zones zone).reservations).any (fun entry => !entry.live state.now)
  | .phaseChanged changed actionID phase _ =>
    phase = .revoking && changed = zone && (state.engine.zones zone).reservations.any fun entry =>
      entry.actionID = actionID && entry.state = .reserved && !entry.live state.now
  | _ => false

def RevivesNothing (zone : String) (_ : List ReservationResult) (state : Timed) (call : EngineCall) : Prop :=
  revives zone state call = false

instance (zone : String) (history : List ReservationResult) (state : Timed) (call : EngineCall) :
    Decidable (RevivesNothing zone history state call) :=
  inferInstanceAs (Decidable (revives zone state call = false))

variable {specs : ZoneSpecs} {config : Config} {zone : String} {now : Nat}

theorem counted_later {entry : ZoneReservation} (passed : now ≤ later)
    (counted : entry.counted later = true) : entry.counted now = true := by
  cases held : entry.state with
  | occupied => simp [ZoneReservation.counted, held]
  | reserved =>
    simp only [ZoneReservation.counted, held, ZoneReservation.live] at counted ⊢
    cases limit : entry.expiresAt with
    | none => rfl
    | some =>
      simp only [limit, decide_eq_true_eq] at counted ⊢
      omega

theorem counts_enter (live : (entering robotID reservations).any (fun entry => !entry.live now) = false) :
    (enter now robotID reservations).countP (ZoneReservation.counted now) =
      reservations.countP (ZoneReservation.counted now) := by
  induction reservations with
  | nil => rfl
  | cons entry rest ih =>
    rw [enter]
    by_cases here : entry.robotID = robotID ∧ entry.state = .reserved
    · rw [if_pos here]
      have running : entry.live now = true := by simpa [entering, here] using live
      have before : entry.counted now = true := by simp [ZoneReservation.counted, here.2, running]
      rw [List.countP_cons_of_pos before, List.countP_cons_of_pos rfl]
    · rw [if_neg here, List.countP_cons, List.countP_cons, ih]
      have passed : (entry.robotID = robotID && entry.state = .reserved) = false := by simpa using here
      rwa [entering, List.find?_cons, passed] at live

theorem counts_extend {reservations : List ZoneReservation} (live : reservations.any (fun entry =>
      entry.actionID = actionID && entry.state = .reserved && !entry.live now) = false) :
    (reservations.map (extend config now actionID)).countP (ZoneReservation.counted now) ≤
      reservations.countP (ZoneReservation.counted now) := by
  rw [List.countP_map]
  apply List.countP_mono_left
  intro entry member counted
  by_cases own : entry.actionID = actionID ∧ entry.state = .reserved
  · have running := List.any_eq_false.mp live entry member
    simp only [own, decide_true, Bool.and_self, Bool.true_and, Bool.not_eq_true, Bool.not_eq_false'] at running
    simp [ZoneReservation.counted, own.2, running]
  · simpa only [Function.comp_apply, extend, if_neg own] using counted

theorem reservations_release_sublist (released actionID : String) (listed : List String) (placed : zone ≠ "") :
    ((releaseReservation specs now listed released actionID engine).zones zone).reservations.Sublist
      (engine.zones zone).reservations := by
  by_cases own : zone = released
  · subst own
    rw [reservations_releaseReservation listed actionID placed]
    exact List.filter_sublist
  · rw [reservations_releaseReservation_of_ne listed actionID own]

/-- A call keeps the zone within its capacity when it revives no expired entry of it and
preempts nobody. -/
theorem capacity_step {state after : Timed} (placed : zone ≠ "") (fixed : specs zone = some spec)
    (limited : spec.maxConcurrentRobots ≠ 0) (within : (state.engine.zones zone).counts state.now ≤ spec.maxConcurrentRobots)
    (permitted : RevivesNothing zone history state call)
    (taken : (tde specs config).step state call = some (after, events))
    (kept : ∀ result ∈ events, result.status ≠ .preemptedGranted) :
    (after.engine.zones zone).counts after.now ≤ spec.maxConcurrentRobots := by
  unfold ZoneState.counts at within ⊢
  cases call with
  | request request =>
    cases taken
    dsimp only
    by_cases target : zone = request.targetZone
    · subst target
      obtain ⟨-, same⟩ | ⟨-, appended, _, found, room⟩ | ⟨preempted, -⟩ :=
        @requestReservation_cases specs config state.now state.engine request placed
      · rw [same]
        exact within
      · cases found.symm.trans fixed
        have below := room limited
        unfold ZoneState.counts at below
        rw [appended, List.countP_append]
        have one := @List.countP_le_length _ (ZoneReservation.counted state.now) [granted config state.now request]
        simp only [List.length_singleton] at one
        omega
      · exact absurd preempted (kept _ (List.mem_singleton_self _))
    · rw [requestReservation_other request target]
      exact within
  | release released actionID listed =>
    cases taken
    exact Nat.le_trans ((reservations_release_sublist released actionID listed placed).countP_le) within
  | entered =>
    cases taken
    dsimp only [onRobotEnteredZone]
    rw [reservations_edit]
    split
    next same =>
      subst same
      simp only [RevivesNothing, revives, decide_true, Bool.true_and] at permitted
      rw [counts_enter permitted]
      exact within
    · exact within
  | exited =>
    cases taken
    dsimp only [onRobotExitedZone]
    rw [reservations_edit]
    split
    next same =>
      subst same
      exact Nat.le_trans (List.filter_sublist.countP_le) within
    · exact within
  | phaseChanged changed actionID phase listed =>
    cases taken
    have released : ((releaseReservation specs state.now listed changed actionID state.engine).zones zone).reservations.countP
        (ZoneReservation.counted state.now) ≤ spec.maxConcurrentRobots :=
      Nat.le_trans ((reservations_release_sublist changed actionID listed placed).countP_le) within
    cases phase with
    | succeeded | failed | cancelled => exact released
    | revoking =>
      dsimp only [onActionPhaseChanged]
      rw [reservations_edit]
      split
      next same =>
        subst same
        simp only [RevivesNothing, revives, decide_true, Bool.true_and] at permitted
        exact Nat.le_trans (counts_extend permitted) within
      · exact within
    | unset | pending | assigned | inProgress | paused | preempted => exact within
  | advance =>
    cases taken
    refine Nat.le_trans (List.countP_mono_left ?_) within
    exact fun entry _ counted => counted_later (Nat.le_add_right _ _) counted

/-- The counted entries of a zone never exceed its `maxConcurrentRobots`, over every run in which nobody is preempted
and no expired entry of the zone is revived. -/
theorem zone_capacity_holds {spec : ZoneSpec} {history : List ReservationResult} {state : Timed} (placed : zone ≠ "")
    (fixed : specs zone = some spec) (limited : spec.maxConcurrentRobots ≠ 0)
    (reached : Machine.Reaches (tde specs config) (RevivesNothing zone) {} history state)
    (kept : ∀ result ∈ history, result.status ≠ .preemptedGranted) :
    (state.engine.zones zone).counts state.now ≤ spec.maxConcurrentRobots := by
  induction reached with
  | start => exact Nat.zero_le _
  | step before permitted taken ih =>
    simp only [List.mem_append, or_imp, forall_and] at kept
    exact capacity_step placed fixed limited (ih kept.2) permitted taken kept.1

def oneRobotBay : ZoneSpecs := fun zone => if zone = "bay" then some { maxConcurrentRobots := 1 } else none

def bayRequest (actionID robotID : String) : ReservationRequest :=
  { actionID, robotID, targetZone := "bay", priority := .normal }

theorem zone_capacity_holds_bay : ∃ state, Machine.Reaches (tde oneRobotBay defaultConfig) (RevivesNothing "bay") {}
        [{ status := .denied, deniedReason := "zone_capacity", retryAfter := 360 * second },
          { status := .granted, expiresAt := 120 * second }] state ∧
      (state.engine.zones "bay").counts state.now ≤ 1 := by
  have permitted : (tde oneRobotBay defaultConfig).Permitted (RevivesNothing "bay") ({}, [])
      [.request (bayRequest "a1" "r1"), .phaseChanged "bay" "a1" .revoking [], .request (bayRequest "a2" "r2")] := by
    decide +kernel
  have ran : (tde oneRobotBay defaultConfig).history {}
      [.request (bayRequest "a1" "r1"), .phaseChanged "bay" "a1" .revoking [], .request (bayRequest "a2" "r2")] = some
        [{ status := .denied, deniedReason := "zone_capacity", retryAfter := 360 * second },
          { status := .granted, expiresAt := 120 * second }] := by
    decide +kernel
  obtain ⟨state, reached⟩ := Machine.history_reaches_permitted permitted ran
  exact ⟨state, reached, zone_capacity_holds (by decide) rfl (by decide) reached (by decide)⟩

/-- The reservation of `a1` expires, its slot goes to `a2`, and `a1` starts revoking. -/
def revivedReservation : List EngineCall :=
  [.request (bayRequest "a1" "r1"), .advance (121 * second), .request (bayRequest "a2" "r2"),
    .phaseChanged "bay" "a1" .revoking []]

/-- Two reservations are then held in the bay for one robot. -/
theorem revived_reservation_exceeds :
    ∃ state, (tde oneRobotBay defaultConfig).run ({}, []) revivedReservation = some (state,
        [{ status := .granted, expiresAt := 241 * second }, { status := .granted, expiresAt := 120 * second }]) ∧
      (oneRobotBay "bay").map ZoneSpec.maxConcurrentRobots = some 1 ∧ (state.engine.zones "bay").counts state.now = 2 := by
  refine ⟨_, rfl, rfl, ?_⟩
  decide +kernel

end Swarmada.Tde
