import Swarmada.Controller.Guarded

namespace Swarmada.Controller

open Api Executorguard Transition

variable {settings : Settings} {w : World} {P : World → Prop} {original : Versioned FleetAction} {a' : FleetAction}

theorem outline_patchStatus {after : Versioned FleetAction → World → Prop}
    (lasting : ∀ copy, Stable settings (after copy)) (copy : ∀ w, P w → w.cluster.actions.CopyOf () original)
    (writes : ∀ w, Sound settings w → P w → w.cluster.action = some original →
      Sound settings (w.written original.value a') ∧
        after ⟨a', w.cluster.actions.next⟩ (w.written original.value a')) :
    Outline settings P (patchActionStatus original a') fun reply w =>
      ∀ copy, reply = some copy → copy.value = a' ∧ after copy w := by
  refine .perform (fun reply v v' sound drift holds copy same => ?_) fun w reply w' sound holds replied => ?_
  · obtain ⟨value, knows⟩ := holds copy same
    exact ⟨value, lasting copy sound drift knows⟩
  rcases replied.2 with ⟨none, rfl⟩ | ⟨held, landed, rfl⟩
  · exact ⟨sound, fun copy same => by rw [none] at same; contradiction⟩
  obtain ⟨sound', knows⟩ := writes w sound holds ((copy w holds).stored held)
  refine ⟨sound', fun copy same => ?_⟩
  cases landed copy same
  exact ⟨rfl, knows⟩

theorem outline_landed {after : Versioned FleetAction → World → Prop}
    {program : Pass α} {post : α → World → Prop}
    (outline : copy.value = a' → Outline settings (after copy) program post) :
    Outline settings (fun w => ∀ landed, some copy = some landed → landed.value = a' ∧ after landed w) program post :=
  (Surroundings.Outline.known outline).strengthen fun _ _ holds =>
    ⟨(holds copy rfl).2, (holds copy rfl).1⟩

theorem outline_settle (copy : ∀ w, P w → w.cluster.actions.CopyOf () original)
    (writes : ∀ w, Sound settings w → P w → w.cluster.action = some original →
      Sound settings (w.written original.value a')) :
    Keeps settings P (settle original a') := by
  have patch := @outline_patchStatus settings P original a' (fun _ _ => True) (fun _ => .const _) copy
    fun w sound holds stored => ⟨writes w sound holds stored, trivial⟩
  exact patch.bind fun _ => .done

theorem Sound.copy_written {original a' : FleetAction} (sound : Sound settings (w.written original a'))
    (known : w.cluster.orphaned = none) (holds : fact (w.written original a')) :
    While ⟨a', w.cluster.actions.next⟩ fact (w.written original a') := by
  refine ⟨sound.wellformed.actions.copyOf ?_, known, fun _ => holds⟩
  exact Store.put_objects _ _ _

theorem outline_patched {fact : World → Prop} (lasting : ∀ copy, Stable settings (While copy fact))
    (reads : ∀ w, P w → Reading original w)
    (writes : ∀ w, Sound settings w → P w → w.cluster.action = some original →
      Sound settings (w.written original.value a') ∧ fact (w.written original.value a')) :
    Outline settings P (patchActionStatus original a') fun reply w =>
      ∀ copy, reply = some copy → copy.value = a' ∧ While copy fact w := by
  refine outline_patchStatus lasting (fun w holds => (reads w holds).copy) fun w sound holds stored => ?_
  obtain ⟨sound', knows⟩ := writes w sound holds stored
  exact ⟨sound', sound'.copy_written (reads w holds).known knows⟩

variable (sound : Sound settings w)
include sound

variable (stored : w.cluster.action = some original)
include stored

theorem Sound.noted (core : Core original.value a') : Sound settings (w.written original.value a') :=
  sound.write (.inl core.robot) (fun _ found => .inl (core.lease ▸ found)) (.inl core.lease)
    ((sound.action original stored).kept core)

theorem Sound.unbound (known : w.cluster.orphaned = none)
    (left : original.value.assignedRobot ≠ "" → w.Off settings original.value.assignedRobot ∨
      w.Records settings original.value.assignedRobot)
    (name : a'.name = original.value.name) (unbound : a'.assignedRobot = "") (lease : a'.leaseExpiresAt = none)
    (bounded : ∀ r x, horizonOf r w.history = some x → w.Off settings r ∨ Bounded a' x) :
    Sound settings (w.written original.value a') :=
  sound.write (.inr unbound) (fun y found => by rw [lease] at found; contradiction) (.inr known)
    ((sound.action original stored).unbind left name unbound lease bounded)

theorem Sound.rebound (known : w.cluster.orphaned = none) (bound : original.value.assignedRobot ≠ "")
    (name : a'.name = original.value.name) (robot : a'.assignedRobot = original.value.assignedRobot)
    (phase : a'.phase ≠ .unset ∧ a'.phase ≠ .pending)
    (lease : ∀ y, a'.leaseExpiresAt = some y →
      original.value.leaseExpiresAt = some y ∨ y ≤ w.cluster.now + maxLease)
    (standing : w.Off settings original.value.assignedRobot ∨
      (∃ y, a'.leaseExpiresAt = some y) ∧ Standing settings w a') :
    Sound settings (w.written original.value a') :=
  sound.write (.inl robot) lease (.inr known)
    ((sound.action original stored).rebind bound name robot phase standing)

theorem Sound.released (known : w.cluster.orphaned = none) (released : Released settings original.value w)
    (since : Since now w) (name : a'.name = original.value.name) (unbound : a'.assignedRobot = "")
    (lease : a'.leaseExpiresAt = none) (moment : some now ∈ moments a') :
    Sound settings (w.written original.value a') :=
  sound.unbound stored known (fun bound => .inl (released bound)) name unbound lease fun r x written =>
    .inr (.inr ⟨now, moment, since.horizon r x written⟩)

theorem Sound.allOff (released : Released settings original.value w) (others : OthersOff settings original w) :
    AllOff settings w := by
  intro r
  by_cases same : r = original.value.assignedRobot
  · by_cases unbound : original.value.assignedRobot = ""
    · exact (((sound.action original stored).unbound unbound r).resolve_right fun ⟨records, _⟩ => by
        obtain ⟨copy, found, _⟩ := records
        exact (sound.wellformed.robot r copy found).2.1 (same.trans unbound))
    · exact same ▸ released unbound
  · exact others r same

theorem Sound.othersOff (bound : original.value.assignedRobot ≠ "") (released : Released settings original.value w) :
    AllOff settings w := by
  intro r
  by_cases same : r = original.value.assignedRobot
  · exact same ▸ released bound
  · exact (sound.action original stored).others bound r same

omit stored

omit sound

variable (reads : ∀ w, P w → Reading original w)
include reads

theorem outline_noteWritten
    (writes : ∀ w, Sound settings w → P w → w.cluster.action = some original →
      Sound settings (w.written original.value { action with message := message })) :
    Keeps settings P (note original action message) := by
  unfold note
  split
  · exact .done
  · exact outline_settle (fun w holds => (reads w holds).copy) writes

theorem outline_note
    (core : Core original.value action) : Keeps settings P (note original action message) :=
  outline_noteWritten reads fun _ sound _ stored =>
    sound.noted stored ⟨core.name, core.robot, core.phase, core.lease, core.reason, core.moments⟩

theorem outline_holdStop (message : ActionMessage) : Keeps settings P (holdStop original message) :=
  outline_note reads (.refl _)

omit reads

theorem outline_releaseRobotForStop (name : original.value.name = settings.task) (stable : Stable settings P)
    (off : ∀ w, Sound settings w → P w → w.cluster.action = some original → robot ≠ "" → w.Off settings robot) :
    Outline settings P (releaseRobotForStop original robot) fun _ => P := by
  unfold releaseRobotForStop
  split
  · exact .pure fun _ _ holds => holds
  · rw [name]
    exact outline_releaseRecord stable fun w sound holds grounds => off w sound holds (grounds original rfl) ‹_›

theorem outline_releaseBoundUnlessCovered (name : original.value.name = settings.task) (stable : Stable settings P)
    (off : ∀ w, Sound settings w → P w → w.cluster.action = some original → robot ≠ "" → w.Off settings robot) :
    Outline settings P (releaseBoundUnlessCovered original robot) fun _ => P := by
  unfold releaseBoundUnlessCovered
  split
  · exact .pure fun _ _ holds => holds
  refine (Silent.outline (.call rfl) stable).bind fun reply => ?_
  cases reply with
  | none => exact .pure fun _ _ holds => holds
  | some live =>
    dsimp only
    split
    · exact .pure fun _ _ holds => holds
    refine ((silent_stopCovering live.value).outline stable).bind fun covered => ?_
    split
    · exact .pure fun _ _ holds => holds
    · exact outline_releaseRobotForStop name stable off

theorem outline_confirmedStop (stable : Stable settings P) (reads : ∀ w, P w → Reading original w) :
    Outline settings P (confirmedStopWithDisposition original.value original.value.assignedRobot) fun reply w =>
      P w ∧ (reply.1 = true → Vacated settings original w) := by
  refine (outline_pushCancel stable _).bind fun (ok, disposition) => ?_
  dsimp only
  split
  next acknowledged =>
    refine .pure fun w _ holds => ⟨holds.1, fun _ => ?_⟩
    exact (reads w holds.1).imp fun _ _ _ => holds.2 acknowledged
  refine .strengthen ?_ fun _ _ (both : _ ∧ _) => both.1
  refine outline_clock stable fun timings now admitted => ?_
  refine .pure fun w sound holds => ⟨holds.1, fun dead => (reads w holds.1).imp fun stored _ _ => ?_⟩
  rw [admitted.skew] at dead
  refine (sound.action original stored).provablyDead ?_ dead _
  rw [sound.timely.clock]
  exact holds.2.now_le

variable (task : original.value.name = settings.task)

include task in
theorem outline_releaseStopped : Outline settings (Vacated settings original)
      (releaseRobotForStop original original.value.assignedRobot) fun _ =>
        Vacated settings original :=
  outline_releaseRobotForStop task While.stable_released fun _ _ holds stored bound => holds.current stored bound

variable {action : FleetAction}

include task in
theorem outline_finalizeCancel (name : action.name = original.value.name)
    (robot : action.assignedRobot = original.value.assignedRobot) (reason : String) :
    Keeps settings (Vacated settings original) (finalizeCancel original action reason) := by
  refine (outline_releaseBoundUnlessCovered task While.stable_released fun w _ holds stored bound => ?_).bind
    fun released => ?_
  · rw [robot] at bound ⊢
    exact holds.current stored bound
  split
  · refine (outline_now While.stable_released).bind fun now => ?_
    refine outline_settle (fun w holds => holds.1.copy) fun w sound holds stored => ?_
    exact sound.released stored holds.1.known (holds.1.current stored) holds.2 name rfl rfl (by simp [moments])
  · exact .done

theorem While.unbound (free : original.value.assignedRobot = "") (holds : Reading original w) :
    Vacated settings original w :=
  holds.imp fun _ _ bound => absurd free bound

include task in
theorem outline_handleCancel (reason : String) :
    Keeps settings (Reading original) (handleCancel original reason) := by
  unfold handleCancel
  split
  · exact (outline_finalizeCancel task rfl rfl reason).strengthen fun w _ holds => holds.unbound ‹_›
  refine (outline_confirmedStop Reading.stable fun _ => id).bind fun (confirmed, disposition) => ?_
  dsimp only
  split
  · exact (outline_finalizeCancel task rfl rfl reason).strengthen fun w _ holds => holds.2 ‹_›
  · exact outline_holdStop (fun _ holds => holds.1) _

theorem outline_setRequeue (stable : Stable settings P) (value : Option String) :
    Keeps settings P (do let _ ← call (.setRequeue value)) :=
  ((Silent.call rfl).outline stable).bind fun _ => .done

include task in
theorem outline_finalizeRequeue (reason : String) :
    Keeps settings (Vacated settings original) (finalizeRequeue original reason) := by
  refine (outline_releaseStopped task).bind fun released => ?_
  split
  · refine (outline_now While.stable_released).bind fun reentered => ?_
    refine (@outline_patched _ _ _ _ trivially (fun _ => Reading.stable)
      (fun w holds => holds.1.imp fun _ _ => trivial) fun w sound holds stored => ⟨?_, trivial⟩).bind fun reply => ?_
    · exact sound.released stored holds.1.known (holds.1.current stored) holds.2 rfl rfl rfl (by simp [moments])
    cases reply with
    | none => exact .done
    | some written =>
      refine outline_landed fun value => ?_
      have name : written.value.name = settings.task := by rw [value]; exact task
      refine outline_clock Reading.stable fun timings now admitted => ?_
      refine (outline_recordersDecision name admitted.skew Bounds.stable fun _ => id).bind fun decision => ?_
      cases decision with
      | none => exact .done
      | some => exact outline_setRequeue (Bounds.stable.and Cleared.stable) none
  · exact .done

theorem Standing.failed_unconfirmed (phase : action.phase = .failed)
    (reason : action.failureReason = reasonStopUnconfirmed) : Standing settings w action := by
  refine ⟨?_, fun _ => reason, ?_, ?_, ?_⟩ <;> simp [phase, rests, runs]

theorem outline_finalizeCapabilityLossFailure (bound : original.value.assignedRobot ≠ "") :
    Keeps settings (Vacated settings original) (finalizeCapabilityLossFailure original) := by
  refine (outline_now While.stable_released).bind fun now => ?_
  refine (@outline_patched _ _ _ _ trivially (fun _ => Reading.stable)
    (fun w holds => holds.1.imp fun _ _ => trivial) fun w sound holds stored => ⟨?_, trivial⟩).bind fun reply => ?_
  · exact sound.rebound stored holds.1.known bound rfl rfl (by simp) (fun _ found => .inl found)
      (.inl (holds.1.current stored bound))
  cases reply with
  | none => exact .done
  | some => exact outline_landed fun _ => outline_setRequeue Reading.stable none

theorem Since.stamp (since : Since now w) (admitted : duration ≤ maxLease)
    (stamped : y = lease.getD (now + duration)) : lease = some y ∨ y ≤ w.cluster.now + maxLease := by
  cases lease with
  | some => exact .inl (by simp [stamped])
  | none =>
    have later := since.now_le
    simp only [Option.getD_none] at stamped
    exact .inr (by omega)

theorem outline_finalizeStopUnconfirmed (bound : original.value.assignedRobot ≠ "") (reason : String) :
    Keeps settings (Reading original) (finalizeStopUnconfirmed original reason) := by
  refine (outline_now Reading.stable).bind fun now => ?_
  refine (outline_leaseTimings Bounds.stable).bind fun timings => .known fun admitted => ?_
  refine (@outline_patched _ _ _ _ trivially (fun _ => Reading.stable) (fun w holds => holds.1)
    fun w sound holds stored => ⟨?_, trivial⟩).bind fun reply => ?_
  · refine sound.rebound stored holds.1.known bound rfl rfl (by simp) (fun y found => ?_) (.inr ⟨⟨_, rfl⟩, ?_⟩)
    · exact holds.2.stamp admitted.duration (Option.some.inj found).symm
    · exact .failed_unconfirmed rfl rfl
  · cases reply with
    | none => exact .done
    | some => exact outline_landed fun _ => outline_setRequeue Reading.stable none

include task in
theorem outline_handleRequeue (waitMessage : ActionMessage) :
    Keeps settings (Reading original) (handleRequeue original waitMessage) := by
  unfold handleRequeue
  split
  · exact (outline_finalizeRequeue task _).strengthen fun w _ holds => holds.unbound ‹_›
  rename_i bound
  refine (outline_confirmedStop Reading.stable fun _ => id).bind fun (confirmed, disposition) => ?_
  dsimp only
  split
  · exact (outline_finalizeStopUnconfirmed bound _).left
  split
  · exact outline_holdStop (fun _ holds => holds.1) _
  rename_i stopped
  have released : ∀ w, (Reading original w ∧ (confirmed = true →
      Vacated settings original w)) → Vacated settings original w :=
    fun w holds => holds.2 (by simpa using stopped)
  split
  · exact (outline_finalizeCapabilityLossFailure bound).strengthen fun w _ holds => released w holds
  split
  · exact (outline_setRequeue While.stable_released none).strengthen fun w _ holds => released w holds
  · exact (outline_finalizeRequeue task _).strengthen fun w _ holds => released w holds

include task in
theorem outline_handleCompletionTimeout (bound : original.value.assignedRobot ≠ "") :
    Keeps settings (Reading original) (handleCompletionTimeout original) := by
  refine (outline_confirmedStop Reading.stable fun _ => id).bind fun (confirmed, disposition) => ?_
  dsimp only
  split
  · exact outline_holdStop (fun _ holds => holds.1) _
  rename_i stopped
  refine .strengthen ?_ fun w _ (holds : _ ∧ _) => holds.2 (by simpa using stopped)
  refine (outline_releaseStopped task).bind fun released => ?_
  split
  · refine (outline_now While.stable_released).bind fun now => ?_
    refine outline_settle (fun w holds => holds.1.copy) fun w sound holds stored => ?_
    exact sound.rebound stored holds.1.known bound rfl rfl (by simp) (fun _ found => .inl found)
      (.inl (holds.1.current stored bound))
  · exact .done

theorem outline_clearLeaseHorizon :
    Keeps settings (Vacated settings original) (clearLeaseHorizon original) := by
  unfold clearLeaseHorizon
  split
  · exact .done
  rename_i leased
  refine outline_settle (fun w holds => holds.copy) fun w sound holds stored => ?_
  have accounted := sound.action original stored
  have bound : original.value.assignedRobot ≠ "" := fun free => leased (accounted.unleased free)
  refine sound.rebound stored holds.known bound rfl rfl ?_ nofun
    (.inl (holds.current stored bound))
  exact ⟨fun unset => bound (accounted.waiting (.inl unset)), fun pending => bound (accounted.waiting (.inr pending))⟩

include task in
theorem outline_retireTerminalAction (ended : rests original.value.phase = true) :
    Keeps settings (Reading original) (retireTerminalAction original) := by
  have main : Keeps settings (Vacated settings original) (retireTerminalAction original) := by
    refine (outline_releaseStopped task).bind fun released => ?_
    split
    · refine outline_clock While.stable_released fun timings now admitted => ?_
      refine (outline_recordersDecision task admitted.skew (While.stable_released.and (Since.stable now)) fun w holds =>
        ⟨holds.1.imp fun _ _ => trivial, holds.2⟩).bind fun reply => ?_
      cases reply with
      | none => exact .done
      | some =>
        dsimp only
        split
        · exact .done
        · exact outline_clearLeaseHorizon.strengthen fun w _ holds => holds.1.1
    · exact .done
  refine main.strengthen fun w sound holds => holds.imp fun stored _ bound => ?_
  rcases (sound.action original stored).bound bound with off | ⟨_, standing⟩
  · exact off
  have active := standing.active
  rw [ended] at active
  contradiction

theorem outline_requeueFailedAction :
    Keeps settings (While original (AllOff settings)) (requeueFailedAction original) := by
  refine (@outline_patched _ _ _ _ trivially (fun _ => Reading.stable)
    (fun w holds => holds.imp fun _ _ => trivial) fun w sound holds stored => ⟨?_, trivial⟩).bind fun reply => ?_
  · exact sound.unbound stored holds.known (fun _ => .inl (holds.current stored _)) rfl rfl rfl
      fun r _ _ => .inl (holds.current stored r)
  cases reply with
  | none => exact .done
  | some =>
    refine outline_landed fun _ => ?_
    dsimp only
    split
    · exact ((Silent.call rfl).outline Reading.stable).bind fun _ => .done
    · exact .done

theorem outline_alertFailedOnce :
    Outline settings (Vacated settings original) (alertFailedOnce original) fun alerted w =>
      Vacated settings alerted w := by
  unfold alertFailedOnce
  split
  · exact .pure fun _ _ holds => holds
  have alerting : Outline settings (Vacated settings original)
      (call (.setAlerted original true)) fun reply w =>
        Vacated settings original w ∧
          ∀ alerted, reply = some alerted → Vacated settings alerted w := by
    refine outline_call rfl While.stable_released ?_ fun w reply w' sound holds founded replied => ?_
    · exact fun reply v v' sound drift knows alerted same =>
        While.stable_released sound drift (knows alerted same)
    intro alerted same
    rcases replied with ⟨none, _⟩ | ⟨_, stored, landed, rfl⟩
    · rw [none] at same
      contradiction
    rw [landed] at same
    cases same
    have read : w.cluster.action = some original := by simpa [Op.founded] using founded
    rw [stored] at read
    cases read
    have wellformed := sound.wellformed.writeAction { original.value with failureAlerted := true }
    refine ⟨wellformed.actions.copyOf (Store.put_objects _ _ _), holds.known, fun _ bound => ?_⟩
    exact holds.current stored bound
  refine alerting.bind fun reply => ?_
  cases reply with
  | none => exact .pure fun _ _ holds => holds.1
  | some alerted => exact .pure fun _ _ holds => holds.2 alerted rfl

include task in
theorem outline_settleFailedAction :
    Keeps settings (Vacated settings original) (settleFailedAction original) := by
  refine (outline_releaseStopped task).bind fun released => ?_
  split
  · refine outline_clock While.stable_released fun timings now admitted => ?_
    refine (outline_recordersDecision task admitted.skew (While.stable_released.and (Since.stable now)) fun w holds =>
      ⟨holds.1.imp fun _ _ => trivial, holds.2⟩).bind fun reply => ?_
    cases reply with
    | none => exact .done
    | some decision =>
      dsimp only
      split
      · exact .done
      rename_i waits
      have off : ∀ w, Sound settings w →
          ((Vacated settings original w ∧ Since now w) ∧
            Cleared settings (some original) (some decision) w) → While original (AllOff settings) w := by
        intro w sound holds
        have cleared := holds.2 decision rfl (by omega) original rfl
        exact holds.1.1.imp fun stored released => sound.allOff stored released (cleared.current stored)
      split
      · have decide : ∀ waits : Bool, Keeps settings (While original (AllOff settings))
            (if waits then clearLeaseHorizon original else requeueFailedAction original) := by
          intro waits
          split
          · exact outline_clearLeaseHorizon.strengthen fun w _ holds => holds.imp fun _ off _ => off _
          · exact outline_requeueFailedAction
        split
        · exact (decide false).strengthen off
        · refine .strengthen ?_ off
          exact (Silent.outline (.call rfl) While.stable_allOff).bind fun waits => decide waits
      · split
        · exact outline_clearLeaseHorizon.strengthen fun w _ holds => holds.1.1
        · refine (outline_alertFailedOnce.strengthen fun w _ holds => holds.1.1).bind fun alerted => ?_
          exact outline_clearLeaseHorizon
  · exact .done

theorem silent_stopsOverBoundRobot (action : FleetAction) : Silent (stopsOverBoundRobot action) := by
  refine .bind (.call rfl) fun reply => ?_
  cases reply with
  | some => exact .bind (silent_stopNames _) fun _ => .pure _
  | none => exact .bind (.call rfl) fun _ => .pure _

theorem While.dead (sound : Sound settings w) (holds : Reading original w) (since : Since now w)
    (dead : leaseProvablyDead original.value.leaseExpiresAt now settings.skew = true) :
    Vacated settings original w := by
  refine holds.imp fun stored _ _ => (sound.action original stored).provablyDead ?_ dead _
  rw [sound.timely.clock]
  exact since.now_le

include task in
theorem outline_heldFailedAction :
    Outline settings (Reading original) (heldFailedAction original) (Holds (Reading original)) := by
  refine outline_clock Reading.stable fun timings now admitted => ?_
  rw [admitted.skew]
  dsimp only
  split
  · split
    · refine outline_holds ?_ _
      exact (outline_finalizeCancel task rfl rfl _).strengthen fun w sound holds => holds.1.dead sound holds.2 ‹_›
    · exact outline_holds (outline_holdStop (fun _ holds => holds.1) _) _
  refine (Silent.outline (.call rfl) Bounds.stable).bind fun robot => ?_
  refine ((silent_stopsOverBoundRobot _).outline Bounds.stable).bind fun (stops, _, gone) => ?_
  split
  · exact .pure fun w _ holds _ => holds.1
  split
  · exact outline_holds (outline_handleRequeue task _).left _
  split
  · exact .pure fun w _ holds _ => holds.1
  · exact outline_holds (outline_note (fun _ holds => holds.1) (.refl _)) _

include task in
theorem outline_handleFailedAction (failed : original.value.phase = .failed) :
    Keeps settings (Reading original) (handleFailedAction original) := by
  unfold handleFailedAction
  extract_lets -underBinder rest
  have kept : Keeps settings (Reading original) (rest false) := by
    simp only [rest, Bool.false_eq_true, if_false]
    split
    · refine outline_clock Reading.stable fun timings now admitted => ?_
      rw [admitted.skew]
      split
      · exact (outline_settleFailedAction task).strengthen fun w sound holds => holds.1.dead sound holds.2 ‹_›
      · exact .done
    next other =>
      refine (outline_settleFailedAction task).strengthen fun w sound holds => holds.imp fun stored _ bound => ?_
      rcases (sound.action original stored).bound bound with off | ⟨⟨x, leased, _⟩, standing⟩
      · exact off
      · exact absurd ⟨standing.failed failed, by simp [leased]⟩ other
  split
  · exact (outline_heldFailedAction task).bind (outline_unlessHeld kept)
  · exact kept

end Swarmada.Controller
