import Swarmada.Transition.Machine
import Swarmada.Webhook.RobotMove

/-! # Where a robot is recorded

The Zone Controller writes `status.currentZone` from a position frame and from a declared
placement, the webhook admits a change of `spec.zone`.  All three ask the stop guard
whether the robot would leave a stop it does not record.
-/

namespace Swarmada.ZoneController

open Api Estopscope Transition Webhook

variable (read : Except String World)

def holdZoneMove (robot : Robot) (recorded target : String) : Bool :=
  let from_ := if recorded = "" then robot.zone else recorded
  if from_ = "" ∨ from_ = target then false
  else
    match read with
    | .error _ => true
    | .ok world =>
      match moveLoses world.tree world.configs { robot with currentZone := from_ } { robot with currentZone := target } with
      | .error _ => true
      | .ok left => !left.isEmpty

/-- The zone the robot reports, and whether by declaration.  `derived` is the zone its
position lies in, when it has reported one. -/
def placeRobot (specZone : String) (declaredOnly : List String) (derived : Option String) : String × Bool :=
  if specZone ≠ "" ∧ specZone ∈ declaredOnly then (specZone, true)
  else (derived.getD "", false)

def framedZone (robot : Robot) (placed : String) : String :=
  if holdZoneMove read robot robot.currentZone placed then robot.currentZone else placed

structure Memos where
  lastZone : Option String := none
  lastContaining : Option (List String) := none
deriving DecidableEq, Repr

/-- Whether the zone moved since the last frame; on first sight, since the status. -/
def recordZone (memos : Memos) (newZone statusZone : String) : Bool × Memos :=
  (memos.lastZone.getD statusZone ≠ newZone, { memos with lastZone := some newZone })

def recordContainment (memos : Memos) (newSet statusSet : List String) : Bool × Memos :=
  (memos.lastContaining.getD statusSet ≠ newSet, { memos with lastContaining := some newSet })

/-- A frame whose position lies in `derived` and in the zones `containing`.  `landed` is
whether the status write goes through; one that does not leaves the memos forgotten. -/
def applyFrame (declaredOnly : List String) (derived : String)
    (containing : List String) (landed : Bool) (robot : Robot) (memos : Memos) : Option Robot × Memos :=
  let placed := (placeRobot robot.zone declaredOnly (some derived)).1
  let newZone := framedZone read robot placed
  let (zoneMoved, memos) := recordZone memos newZone robot.currentZone
  let (containmentMoved, memos) := recordContainment memos containing robot.containingZones
  if !zoneMoved && !containmentMoved then (none, memos)
  else if landed then
    (some { robot with
      currentZone := newZone, containingZones := containing,
      specZoneMatchesCurrent := some (newZone ≠ "" && newZone = robot.zone) }, memos)
  else (none, {})

/-- The reconcile of the zone has the robot's record to write: it is declared here and not
recorded so, or recorded here and declared here no longer. -/
def concerns (zone placed : String) (declared : Bool) (robot : Robot) : Bool :=
  if declared ∧ placed = zone then ¬ (robot.currentZone = placed ∧ robot.specZoneMatchesCurrent = some true)
  else robot.currentZone = zone

def placeMember (zone : String) (declaredOnly : List String) (robot : Robot) : Option Robot :=
  let (placed, declared) := placeRobot robot.zone declaredOnly none
  if !concerns zone placed declared robot || holdZoneMove read robot robot.currentZone placed then none
  else
    some { robot with
      currentZone := placed, specZoneMatchesCurrent := some (placed ≠ "" && placed = robot.zone) }

inductive Reread where
  | gone
  | failed (error : String)
  | robot (robot : Robot)

/-- The pass over the listed robots, each with its re-read and whether its status write goes
through; the first failure ends it.  The robots it wrote, in order. -/
def placeMembers (read : Except String World) (zone : String) (declaredOnly : List String) :
    List (Reread × Bool) → List Robot
  | [] => []
  | (.gone, _) :: rest => placeMembers read zone declaredOnly rest
  | (.failed _, _) :: _ => []
  | (.robot robot, landed) :: rest =>
    match placeMember read zone declaredOnly robot with
    | none => placeMembers read zone declaredOnly rest
    | some placed => if landed then placed :: placeMembers read zone declaredOnly rest else []

def placeDeclaredMembers (zone : String) (declaredOnly : List String) (robots : List (Reread × Bool)) : List Robot :=
  if zone ∈ declaredOnly then placeMembers read zone declaredOnly robots else []

variable {zone : String} {declaredOnly : List String} {written : Robot}

theorem mem_placeMembers {read : Except String World}
    (member : written ∈ placeMembers read zone declaredOnly robots) :
    ∃ robot, (.robot robot, true) ∈ robots ∧ placeMember read zone declaredOnly robot = some written := by
  fun_induction placeMembers with
  | case1 | case3 | case6 => contradiction
  | case2 _ rest ih | case4 robot landed rest unplaced ih =>
    obtain ⟨robot, listed, placed⟩ := ih member
    exact ⟨robot, List.mem_cons_of_mem _ listed, placed⟩
  | case5 robot rest placed found ih =>
    rcases List.mem_cons.mp member with rfl | further
    · exact ⟨robot, List.mem_cons_self, found⟩
    · obtain ⟨robot, listed, placed⟩ := ih further
      exact ⟨robot, List.mem_cons_of_mem _ listed, placed⟩

structure Recorded where
  robot : Robot
  memos : Memos := {}
deriving DecidableEq

/-- Who writes next.  `unread` is the error the check's read of the zones fails with. -/
inductive Label where
  | update (write : RobotWrite) (byControlPlane : Bool) (unread : Option String)
  | frame (declaredOnly : List String) (derived : String) (containing : List String) (landed : Bool)
      (unread : Option String)
  | declared (zone : String) (declaredOnly : List String) (landed : Bool) (unread : Option String)
  | forget

inductive Event where
  | cleared
  | refused (text : String)
deriving DecidableEq

def reading (world : World) (unread : Option String) : Except String World :=
  match unread with
  | none => .ok world
  | some error => .error error

def step (checks : UpdateChecks) (world : World) (state : Recorded) : Label → Recorded × List Event
  | .update write byControlPlane unread =>
    let new := write.apply state.robot
    match validateUpdate checks byControlPlane (reading world unread) state.robot new with
    | .error text => (state, [.refused text])
    | .ok () =>
      ({ state with robot := new }, if state.robot.trigger.isSome && new.trigger.isNone then [.cleared] else [])
  | .frame declaredOnly derived containing landed unread =>
    let (written, memos) := applyFrame (reading world unread) declaredOnly derived containing landed state.robot state.memos
    ({ robot := written.getD state.robot, memos }, [])
  | .declared zone declaredOnly landed unread =>
    match placeMember (reading world unread) zone declaredOnly state.robot with
    | none => (state, [])
    | some placed =>
      if landed then
        let id := (placed.annotations.lookup robotIDAnnotation).getD ""
        ({ robot := placed,
           memos := if id = "" then state.memos else (recordZone state.memos placed.currentZone placed.currentZone).2 }, [])
      else (state, [])
  | .forget => ({ state with memos := {} }, [])

/-- The writers of a robot's zones over the zones and configs of its namespace. -/
def placement (checks : UpdateChecks) (world : World) : Machine Recorded Label Event where
  step state label := some (step checks world state label)

variable {checks : UpdateChecks} {world : World} {robot after : Robot} {kind : Kind} {name : String}

theorem ownStop_kept (same : after.name = robot.name) (kept : robot.trigger.isSome = true → after.trigger.isSome = true)
    (own : has (ownStop robot) kind name = true) : has (ownStop after) kind name = true := by
  unfold ownStop at own ⊢
  cases triggered : robot.trigger with
  | none => simp [triggered, has] at own
  | some =>
    obtain ⟨_, still⟩ := Option.isSome_iff_exists.mp (kept (by simp [triggered]))
    simpa [triggered, still, has, same] using own

variable {unread : Option String}

theorem not_held_cases {target : String}
    (free : holdZoneMove (reading world unread) robot robot.currentZone target = false) :
    reportedZone robot = "" ∨ reportedZone robot = target ∨
      moveLoses world.tree world.configs { robot with currentZone := reportedZone robot }
        { robot with currentZone := target } = .ok [] := by
  unfold holdZoneMove at free
  change (if reportedZone robot = "" ∨ reportedZone robot = target then _ else _) = _ at free
  split at free
  next unmoved =>
    exact unmoved.imp_right .inl
  cases unread with
  | some => contradiction
  | none =>
    dsimp only [reading] at free
    split at free <;> try contradiction
    rename_i left judged
    cases left with
    | nil => exact .inr (.inr judged)
    | cons => contradiction

theorem keeps_reported : Keeps world robot { robot with currentZone := reportedZone robot } kind name := by
  refine keeps_of_zones (ownStop_kept rfl id) rfl ?_ ?_
  · intro zone placed standing
    unfold reportedZone
    split
    next unrecorded =>
      simp_all
    · exact standing
  · intro placed
    exact if_neg placed

theorem keeps_of_not_held {target : String}
    (free : holdZoneMove (reading world unread) robot robot.currentZone target = false) :
    Keeps world robot { robot with currentZone := target } kind name := by
  rcases not_held_cases free with nowhere | same | judged
  · have unplaced : robot.currentZone = "" ∧ robot.zone = "" := by
      unfold reportedZone at nowhere
      split at nowhere <;> try contradiction
      rename_i unrecorded
      exact ⟨unrecorded, nowhere⟩
    refine keeps_of_zones (ownStop_kept rfl id) rfl ?_ (fun placed => absurd nowhere placed)
    simp_all
  · exact same ▸ keeps_reported
  · exact keeps_reported.trans (keeps_of_moveLoses judged)

theorem keeps_containing {containing : List String} :
    Keeps world robot { robot with containingZones := containing, specZoneMatchesCurrent := matching } kind name :=
  keeps_of_zones (ownStop_kept rfl id) rfl (fun _ _ standing => standing) (fun _ => rfl)

theorem keeps_framedZone {placed : String} :
    Keeps world robot { robot with currentZone := framedZone (reading world unread) robot placed } kind name := by
  unfold framedZone
  split
  · exact Keeps.refl robot
  next free =>
    exact keeps_of_not_held (Bool.eq_false_of_not_eq_true free)

theorem keeps_frame {derived : String} {memos : Memos}
    (frame : (applyFrame (reading world unread) declaredOnly derived containing landed robot memos).1 = some written) :
    Keeps world robot written kind name := by
  unfold applyFrame at frame
  dsimp only at frame
  split at frame <;> try contradiction
  split at frame <;> try contradiction
  obtain rfl := Option.some.inj frame
  exact keeps_framedZone.trans keeps_containing

theorem keeps_member (placed : placeMember (reading world unread) zone declaredOnly robot = some written) :
    Keeps world robot written kind name := by
  unfold placeMember at placed
  dsimp only at placed
  split at placed <;> try contradiction
  rename_i free
  obtain rfl := Option.some.inj placed
  rw [Bool.or_eq_true, not_or] at free
  exact (keeps_of_not_held (Bool.eq_false_of_not_eq_true free.2)).trans keeps_containing

theorem keeps_declared {robots : List (Reread × Bool)}
    (member : written ∈ placeDeclaredMembers (reading world unread) zone declaredOnly robots) :
    ∃ robot, (.robot robot, true) ∈ robots ∧ ∀ kind name, Keeps world robot written kind name := by
  unfold placeDeclaredMembers at member
  split at member <;> try contradiction
  obtain ⟨robot, listed, placed⟩ := mem_placeMembers member
  exact ⟨robot, listed, fun kind name => keeps_member placed⟩

theorem kind_of_ownStop (own : has (ownStop robot) kind name = true) : kind = .robot := by
  unfold ownStop at own
  split at own <;> simp [has] at own
  exact own.1.symm

theorem keeps_update {write : RobotWrite}
    (admitted : validateUpdate checks byControlPlane (reading world unread) robot (write.apply robot) = .ok ())
    (own : kind = .robot → robot.trigger.isSome = true → (write.apply robot).trigger.isSome = true) :
    Keeps world robot (write.apply robot) kind name := by
  have ownKept (mine : has (ownStop robot) kind name = true) : has (ownStop (write.apply robot)) kind name = true := by
    have same : (write.apply robot).name = robot.name := rfl
    exact ownStop_kept same (own (kind_of_ownStop mine)) mine
  have unmoved (same : write.zone = robot.zone) : Keeps world robot (write.apply robot) kind name := by
    refine keeps_of_zones ownKept rfl ?_ ?_ <;> simp [RobotWrite.apply, reportedZone, same]
  rcases validateUpdate_cases admitted with same | passed
  · exact unmoved same
  rcases refuseMove_ok passed with same | undeclared | ⟨_, known, judged⟩
  · exact unmoved same
  · -- the robot was declared nowhere, so a declaration only adds a zone
    refine keeps_of_zones ownKept rfl ?_ ?_
    · intro zone placed standing
      simp_all [RobotWrite.apply]
    · unfold reportedZone
      by_cases recorded : robot.currentZone = "" <;> simp [RobotWrite.apply, recorded, undeclared]
  have judgedHere : moveLoses world.tree world.configs robot { robot with zone := write.zone } = .ok [] := by
    cases unread with
    | none =>
      cases known
      exact judged
    | some => contradiction
  refine (keeps_of_moveLoses judgedHere).trans ?_
  exact keeps_of_zones ownKept rfl (fun _ _ standing => standing) (fun _ => rfl)

theorem keeps_step {state : Recorded}
    (own : kind = .robot → Event.cleared ∉ (step checks world state label).2) :
    Keeps world state.robot (step checks world state label).1.robot kind name := by
  cases label with
  | update write =>
    unfold step at own ⊢
    dsimp only at own ⊢
    split at own
    · exact Keeps.refl _
    rename_i admitted
    refine keeps_update admitted fun mine triggered => ?_
    cases still : (write.apply state.robot).trigger <;> simp_all
  | frame declaredOnly derived containing landed unread =>
    unfold step
    dsimp only
    cases written : (applyFrame (reading world unread) declaredOnly derived containing landed state.robot state.memos).1 with
    | none => exact Keeps.refl _
    | some => exact keeps_frame written
  | declared =>
    unfold step
    dsimp only
    split
    · exact Keeps.refl _
    rename_i placed
    split
    · exact keeps_member placed
    · exact Keeps.refl _
  | forget => exact Keeps.refl _

def stoppedFloor : World where
  tree := {
    zones := [
      { name := "floor", annotations := [( triggerAnnotation, "fire")] },
      { name := "cell", parentZone := "floor" },
      { name := "yard" }]
    distinct := by decide }
  configs := []

def noRefusal : UpdateChecks := ⟨fun _ _ => .ok (), fun _ _ => .ok (), fun _ _ => .ok ()⟩

end Swarmada.ZoneController
