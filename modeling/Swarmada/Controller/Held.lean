import Swarmada.Controller.Stopped

namespace Swarmada.Controller

open Api Executorguard Transition

variable {settings : Settings} {w : World} {P : World → Prop} {original : Versioned FleetAction} {a' : FleetAction}
  {now duration skew : Nat}

theorem Standing.again (standing : Standing settings w a) (running : runs a.phase = true)
    (robot : a'.assignedRobot = a.assignedRobot)
    (phase : a'.phase = .assigned ∨ a'.phase = .inProgress ∨ a'.phase = .paused) : Standing settings w a' := by
  refine ⟨?_, ?_, fun _ => robot ▸ standing.records running, fun _ => robot ▸ standing.reaches running, ?_⟩ <;>
    rcases phase with h | h | h <;> simp [h, rests]

theorem Sound.goesOn (sound : Sound settings w) (stored : w.cluster.action = some original)
    (known : w.cluster.orphaned = none) (bound : original.value.assignedRobot ≠ "")
    (running : runs original.value.phase = true) (name : a'.name = original.value.name)
    (robot : a'.assignedRobot = original.value.assignedRobot)
    (phase : a'.phase = .assigned ∨ a'.phase = .inProgress ∨ a'.phase = .paused) (lease : a'.leaseExpiresAt = some y)
    (stamped : original.value.leaseExpiresAt = some y ∨ y ≤ w.cluster.now + maxLease) :
    Sound settings (w.written original.value a') := by
  refine sound.rebound stored known bound name robot ?_ (fun z found => ?_) ?_
  · rcases phase with h | h | h <;> simp [h]
  · rw [lease] at found
    cases found
    exact stamped
  · refine ((sound.action original stored).bound bound).imp_right fun ⟨_, standing⟩ => ⟨⟨y, lease⟩, ?_⟩
    exact standing.again running robot phase

theorem Since.ahead (since : Since now w) (admitted : duration ≤ maxLease) :
    now + duration ≤ w.cluster.now + maxLease := by
  have later := since.now_le
  omega

theorem outline_pauseAssignedUnderStop (bound : original.value.assignedRobot ≠ "")
    (running : runs original.value.phase = true) (admitted : duration ≤ maxLease) (message : String) :
    Keeps settings (Bounds original now) (pauseAssignedUnderStop original message now duration) := by
  refine outline_settle (fun w holds => holds.1.copy) fun w sound holds stored => ?_
  by_cases held : original.value.renewalHeld = true
  · refine sound.goesOn stored holds.1.known bound running rfl rfl (.inr (.inr rfl)) (if_pos held) ?_
    exact holds.2.stamp admitted rfl
  · exact sound.goesOn stored holds.1.known bound running rfl rfl (.inr (.inr rfl)) (if_neg held)
      (.inr (holds.2.ahead admitted))

variable {robot : Option (Versioned FleetRobot)}

theorem outline_releasePaused (stable : Stable settings P)
    (named : ∀ copy, robot = some copy → copy.value.name = original.value.assignedRobot)
    (bound : original.value.assignedRobot ≠ "")
    (off : robotOff = true → ∀ w, P w → Vacated settings original w) :
    Outline settings P (releasePaused original robot robotOff) fun _ => P := by
  unfold releasePaused
  split
  · exact .pure fun _ _ holds => holds
  rename_i copy
  split
  next released =>
    refine ((silent_stopCovering _).outline stable).bind fun covered => ?_
    split
    · exact .pure fun _ _ holds => holds
    refine outline_clear stable fun w _ holds grounds => ?_
    rw [named copy rfl]
    exact (off released.1 w holds).current (grounds original rfl) bound
  · exact .pure fun _ _ holds => holds

theorem outline_applyPauseTransition (bound : original.value.assignedRobot ≠ "") (admitted : duration ≤ maxLease)
   
    (named : ∀ copy, robot = some copy → copy.value.name = original.value.assignedRobot) (message : String)
    (intake : PauseIntake) (stable : Stable settings P) (reads : ∀ w, P w → Bounds original now w)
    (stopped : intake = .stopConfirmed → original.value.phase = .assigned →
      ∀ w, P w → Vacated settings original w) :
    Keeps settings P (applyPauseTransition original robot message now duration intake) := by
  unfold applyPauseTransition
  split
  next phase =>
    have running : runs original.value.phase = true := by rw [phase]; rfl
    split
    · exact (outline_pauseAssignedUnderStop bound running admitted message).strengthen fun w _ holds => reads w holds
    -- The robot is let go: it is off the action, or its record stays.
    have release : ∀ {Q : World → Prop} (robotOff : Bool) (said : String), Stable settings Q →
        (∀ w, Q w → Bounds original now w) →
        (robotOff = true → ∀ w, Q w → Vacated settings original w) →
        Keeps settings Q (do
          if ← releasePaused original robot robotOff then
            settle original
              { original.value with
                phase := .paused, assignedRobot := "", leaseExpiresAt := none, message := .text said }
          else pure ()) := by
      intro Q robotOff said stableQ readsQ off
      refine (outline_releasePaused stableQ named bound off).bind fun released => ?_
      split
      · refine outline_settle (fun w holds => (readsQ w holds).1.copy) fun w sound holds stored => ?_
        refine sound.unbound stored (readsQ w holds).1.known (fun _ => ?_) rfl rfl rfl fun _ _ _ => .inr (.inl rfl)
        exact ((sound.action original stored).bound bound).imp_right fun ⟨_, standing⟩ => standing.records running
      · exact .done
    split
    · refine (outline_pushCancel stable _).bind fun (ok, disposition) => ?_
      refine release _ _ (stable.and fun _ _ _ drift off yes => drift.carries.off _ (off yes))
        (fun w holds => reads w holds.1) fun acknowledged w holds => ?_
      exact (reads w holds.1).1.imp fun _ _ _ => holds.2 (by simpa using acknowledged)
    · refine release _ _ stable reads fun confirmed w holds => ?_
      exact stopped (by simpa using confirmed) phase w holds
  next phase =>
    have running : runs original.value.phase = true := by rw [phase]; rfl
    have pauses : ∀ {Q : World → Prop} (said : String), (∀ w, Q w → Bounds original now w) →
        Keeps settings Q
          (settle original
            { original.value with
              phase := .paused
              leaseExpiresAt :=
                if robot.any fun copy => stopConfirmed copy.value.toRobot && !original.value.renewalHeld then
                  some (now + duration)
                else some (original.value.leaseExpiresAt.getD (now + duration))
              message := .text said }) := by
      intro Q said readsQ
      refine outline_settle (fun w holds => (readsQ w holds).1.copy) fun w sound holds stored => ?_
      have bounds := readsQ w holds
      by_cases stamped : (robot.any fun copy => stopConfirmed copy.value.toRobot && !original.value.renewalHeld) = true
      · exact sound.goesOn stored bounds.1.known bound running rfl rfl (.inr (.inr rfl)) (if_pos stamped)
          (.inr (bounds.2.ahead admitted))
      · refine sound.goesOn stored bounds.1.known bound running rfl rfl (.inr (.inr rfl)) (if_neg stamped) ?_
        exact bounds.2.stamp admitted rfl
    split
    · refine (outline_pushCancel stable _).bind fun (ok, disposition) => ?_
      exact pauses _ fun w holds => reads w holds.1
    · exact pauses _ reads
  · exact .done

theorem silent_stopOver (robot : String) : Silent (stopOver robot) := by
  refine .bind (.call rfl) fun reply => ?_
  cases reply with
  | none => exact .pure _
  | some => exact .bind (silent_stopNames _) fun _ => .pure _

variable (bound : original.value.assignedRobot ≠ "")
include bound

theorem outline_pauseAssignedUnconfirmed
    (running : runs original.value.phase = true) (admitted : duration ≤ maxLease) (margin : skew = settings.skew) :
    Keeps settings (Bounds original now) (pauseAssignedUnconfirmed original now duration skew) := by
  have pauses : ∀ message w, Sound settings w → Bounds original now w → w.cluster.action = some original →
      Sound settings (w.written original.value
        { original.value with
          phase := .paused, leaseExpiresAt := some (original.value.leaseExpiresAt.getD (now + duration))
          message := message }) := by
    intro message w sound holds stored
    exact sound.goesOn stored holds.1.known bound running rfl rfl (.inr (.inr rfl)) rfl (holds.2.stamp admitted rfl)
  have copy : ∀ w, Bounds original now w → w.cluster.actions.CopyOf () original := fun w holds => holds.1.copy
  unfold pauseAssignedUnconfirmed
  dsimp only
  split
  · exact outline_settle copy (pauses _)
  rename_i dead
  refine (Silent.outline (.call rfl) Bounds.stable).bind fun reply => ?_
  cases reply with
  | some =>
    refine ((silent_stopOver _).outline Bounds.stable).bind fun (stops, confirmed) => ?_
    split
    · exact outline_noteWritten (fun w holds => holds.1) (pauses _)
    · exact outline_settle copy (pauses _)
  | none =>
    -- The robot is gone, and its lease is provably dead.
    refine outline_settle copy fun w sound holds stored => ?_
    refine sound.unbound stored holds.1.known (fun _ => .inl ?_) rfl rfl rfl fun _ _ _ => .inr (.inl rfl)
    rcases (sound.action original stored).bound bound with off | ⟨⟨x, lease, _⟩, _⟩
    · exact off
    refine (holds.1.dead sound holds.2 ?_).current stored bound
    rw [margin, lease] at dead
    rw [lease]
    simpa using dead

theorem outline_pauseAssignedForEstop
    (assigned : original.value.phase = .assigned) (admitted : duration ≤ maxLease) (margin : skew = settings.skew)
    {robot : Versioned FleetRobot} (named : robot.value.name = original.value.assignedRobot) :
    Keeps settings (Bounds original now) (pauseAssignedForEstop original robot now duration skew) := by
  have running : runs original.value.phase = true := by rw [assigned]; rfl
  unfold pauseAssignedForEstop
  split
  · refine outline_applyPauseTransition bound admitted ?_ _ _ Bounds.stable (fun _ => id) nofun
    intro copy same
    cases same
    exact named
  · exact outline_pauseAssignedUnconfirmed bound running admitted margin

theorem outline_holdUnderUnconfirmedStop
    (paused : original.value.phase = .paused) (admitted : duration ≤ maxLease) (robot : String) (stops : List String) :
    Keeps settings (Bounds original now) (holdUnderUnconfirmedStop original robot stops now duration skew) := by
  have running : runs original.value.phase = true := by rw [paused]; rfl
  unfold holdUnderUnconfirmedStop
  split
  · refine outline_settle (fun w holds => holds.1.copy) fun w sound holds stored => ?_
    exact sound.goesOn stored holds.1.known bound running rfl rfl (.inr (.inr paused)) rfl
      (.inr (holds.2.ahead admitted))
  · split
    · exact outline_note (fun w holds => holds.1) (.refl _)
    · exact .done

omit bound

theorem outline_holdRenewalAfterClear (reads : ∀ w, P w → Reading original w) :
    Keeps settings P (holdRenewalAfterClear original) := by
  unfold holdRenewalAfterClear
  split
  · exact .done
  · refine outline_settle (fun w holds => (reads w holds).copy) fun w sound _ stored => sound.noted stored ?_
    exact ⟨rfl, rfl, rfl, rfl, rfl, fun _ member => member⟩

theorem outline_holdPaused (bound : original.value.assignedRobot ≠ "") (paused : original.value.phase = .paused)
    (admitted : duration ≤ maxLease) (margin : skew = settings.skew) (robot : Option (Versioned FleetRobot)) :
    Keeps settings (Bounds original now) (holdPaused original robot now duration skew) := by
  have running : runs original.value.phase = true := by rw [paused]; rfl
  unfold holdPaused
  extract_lets -underBinder rest
  have kept : ∀ read, Keeps settings (Bounds original now) (rest read) := by
    intro read
    dsimp only [rest]
    split
    · exact outline_holdUnderUnconfirmedStop bound paused admitted _ _
    split
    · exact outline_pauseAssignedUnconfirmed bound running admitted margin
    split
    · exact .done
    split
    · exact outline_holdRenewalAfterClear fun w holds => holds.1
    split
    · refine outline_settle (fun w holds => holds.1.copy) fun w sound holds stored => ?_
      exact sound.goesOn stored holds.1.known bound running rfl rfl (.inr (.inr paused)) rfl
        (.inr (holds.2.ahead admitted))
    · exact .done
  cases robot with
  | none => exact kept ([], false)
  | some => exact ((silent_stopOver _).outline Bounds.stable).bind kept

theorem outline_holdRevoking (robot : Option (Versioned FleetRobot)) (stable : Stable settings P)
    (reads : ∀ w, P w → Reading original w) :
    Outline settings P (holdRevoking original robot now skew) (Holds P) := by
  refine ((silent_stopsOverBoundRobot _).outline stable).bind fun (stops, confirmed, _) => ?_
  dsimp only
  split
  · split <;> exact outline_holds (outline_note reads (.refl _)) P
  · exact .pure fun _ _ holds _ => holds

theorem outline_holdPreemptedUnderStop (robot : Option (Versioned FleetRobot)) (stable : Stable settings P)
    (reads : ∀ w, P w → Reading original w) :
    Outline settings P (holdPreemptedUnderStop original robot) (Holds P) := by
  refine ((silent_stopsOverBoundRobot _).outline stable).bind fun (stops, _, _) => ?_
  dsimp only
  split
  · exact .pure fun _ _ holds _ => holds
  · exact outline_holds (outline_note reads (.refl _)) P

theorem outline_holdDeclared (bound : original.value.assignedRobot ≠ "") (admitted : duration ≤ maxLease)
   
    (named : ∀ copy, robot = some copy → copy.value.name = original.value.assignedRobot) (stable : Stable settings P)
    (reads : ∀ w, P w → Bounds original now w) :
    Outline settings P (holdDeclared original robot now duration) (Holds P) := by
  unfold holdDeclared
  split
  · exact outline_holds (outline_applyPauseTransition bound admitted named _ _ stable reads fun other => by
      contradiction) P
  · refine (outline_confirmedStop stable fun w holds => (reads w holds).1).bind fun (confirmed, disposition) => ?_
    dsimp only
    split
    · exact outline_holds (outline_holdStop (fun w holds => (reads w holds.1).1) _) P
    rename_i stopped
    have lasting : Stable settings fun w => P w ∧
        (confirmed = true → Vacated settings original w) :=
      stable.and fun _ _ sound drift released yes => While.stable_released sound drift (released yes)
    refine outline_holds (outline_applyPauseTransition bound admitted named _ _ lasting
      (fun w holds => reads w holds.1) fun _ _ w holds => holds.2 ?_) P
    simpa using stopped
  · exact .pure fun _ _ holds _ => holds
  · exact .pure fun _ _ holds _ => holds

theorem silent_stopsOverRobots (robots : List FleetRobot) : Silent (stopsOverRobots robots) := by
  induction robots with
  | nil => exact .pure _
  | cons robot rest ih => exact .bind (silent_stopNames _) fun _ => .bind ih fun _ => .pure _

theorem silent_stopsOverWork (action : FleetAction) : Silent (stopsOverWork action) := by
  unfold stopsOverWork
  split
  · refine .bind (.call rfl) fun reply => ?_
    cases reply with
    | none => exact .pure _
    | some => exact silent_stopsOverRobots _
  · exact .bind (.call rfl) fun _ => silent_stopsOverRobots _

theorem silent_requeueOvertakenByEstop : Silent (requeueOvertakenByEstop original skew) := by
  unfold requeueOvertakenByEstop
  split
  · refine .bind (silent_stopsOverWork _) fun stops => ?_
    split <;> exact .pure _
  split
  · exact .pure _
  refine .bind (.call rfl) fun reply => ?_
  cases reply with
  | none => exact .pure _
  | some =>
    refine .bind (silent_stopOver _) fun (stops, confirmed) => ?_
    dsimp only
    split
    · split
      · exact .pure _
      · refine .bind (.call rfl) fun now => ?_
        split <;> exact .pure _
    · split
      · exact .pure _
      · exact .bind (.call rfl) fun _ => .pure _

end Swarmada.Controller
