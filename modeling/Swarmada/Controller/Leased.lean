import Swarmada.Controller.Held

namespace Swarmada.Controller

open Api Executorguard Transition

variable {settings : Settings} {w : World} {P : World → Prop} {original : Versioned FleetAction} {a' : FleetAction}
  {now duration skew : Nat} {robot : Option (Versioned FleetRobot)}

/-- A robot the cache shows lost shows its record too, and one it shows free while the
action is being revoked is off it. -/
structure Shown (settings : Settings) (original : Versioned FleetAction) (robot : Option (Versioned FleetRobot))
    (w : World) : Prop where
  lost : original.value.assignedRobot ≠ "" → runs original.value.phase = true →
    classifyRobot original.value (robot.map (·.value)) = .lost →
      w.Off settings original.value.assignedRobot ∨ w.CacheRecords settings original.value.assignedRobot
  free : original.value.assignedRobot ≠ "" → original.value.phase = .revoking →
    classifyRobot original.value (robot.map (·.value)) = .free → w.Off settings original.value.assignedRobot

theorem Shown.stable : Stable settings (While original (Shown settings original robot)) := by
  refine While.stable fun w w' sound drift stored shown => ⟨fun bound running lost => ?_, fun bound revoking free => ?_⟩
  · rcases shown.lost bound running lost with off | cached
    · exact .inl (drift.carries.off _ off)
    rcases (sound.action original stored).bound bound with off | ⟨_, standing⟩
    · exact .inl (drift.carries.off _ off)
    · exact drift.carries.cacheRecords _ (standing.records running) cached
  · exact drift.carries.off _ (shown.free bound revoking free)

theorem Sound.shown (sound : Sound settings w) (stored : w.cluster.action = some original)
    (task : original.value.name = settings.task) :
    Shown settings original (w.cluster.cachedRobots original.value.assignedRobot) w where
  lost := by
    intro bound running lost
    refine ((sound.action original stored).bound bound).imp_right fun ⟨_, standing⟩ => ?_
    obtain ⟨copy, found, record | reached⟩ := standing.reaches running
    · exact ⟨copy, found, record⟩
    rw [found, Option.map_some, classifyRobot, reached] at lost
    simp only [Bool.false_eq_true, if_false] at lost
    split at lost <;> contradiction
  free := by
    intro bound revoking free
    refine ((sound.action original stored).bound bound).resolve_right fun ⟨_, standing⟩ => ?_
    obtain ⟨_, found, record⟩ := standing.revoking revoking
    rw [found, Option.map_some, classifyRobot] at free
    simp only [task, record, if_true] at free
    split at free <;> contradiction

theorem outline_getBoundRobot (task : original.value.name = settings.task) (stable : Stable settings P)
    (reads : ∀ w, P w → Reading original w) :
    Outline settings P (call (.getRobot original.value.assignedRobot)) fun robot w =>
      (P w ∧ While original (Shown settings original robot) w) ∧
        ∀ copy, robot = some copy → copy.value.name = original.value.assignedRobot := by
  have lasting : ∀ robot : Option (Versioned FleetRobot), Stable settings fun w =>
      While original (Shown settings original robot) w ∧
        ∀ copy, robot = some copy → copy.value.name = original.value.assignedRobot :=
    fun robot => Shown.stable.and (.const _)
  refine (outline_call rfl stable lasting fun w robot w' sound holds _ replied => ?_).weaken
    fun robot w both => ⟨⟨both.1, both.2.1⟩, both.2.2⟩
  obtain ⟨rfl, rfl⟩ := replied
  refine ⟨(reads w' holds).imp fun stored _ => sound.shown stored task, fun copy found => ?_⟩
  exact (sound.wellformed.cachedRobot _ copy found).2.1

theorem outline_mergeRobot (stable : Stable settings P) {robot : String}
    (off : ∀ w, Sound settings w → P w → w.cluster.action = some original → w.Off settings robot) :
    Outline settings P (call (.mergeRobot original robot)) fun _ => P := by
  refine .perform (fun _ => stable) fun w reply w' sound holds replied => ?_
  obtain ⟨founded, replied⟩ := replied
  rcases replied with rfl | ⟨current, stored, rfl⟩
  · exact ⟨sound, holds⟩
  have gone : w.Off settings robot := by
    simp only [Op.founded, Bool.or_eq_true, decide_eq_true_eq] at founded
    rcases founded with told | read
    · exact off_of_toldOff told
    · exact off w sound holds read
  have moves := Moves.robotRewritten sound { current.value with assignedAction := "" } stored rfl fun _ => .inl gone
  exact ⟨moves.sound, stable sound moves.drift holds⟩

theorem outline_requeueDead (bound : original.value.assignedRobot ≠ "")
    (named : ∀ copy, robot = some copy → copy.value.name = original.value.assignedRobot) :
    Keeps settings (Vacated settings original) (requeueDead original robot) := by
  unfold requeueDead
  extract_lets -underBinder rest
  have kept : ∀ read, Keeps settings (Vacated settings original) (rest read) := by
    intro read
    refine outline_settle (fun w holds => holds.copy) fun w sound holds stored => ?_
    have off := sound.othersOff stored bound (holds.current stored)
    exact sound.unbound stored holds.known (fun _ => .inl (off _)) rfl rfl rfl fun r _ _ => .inl (off r)
  cases robot with
  | none => exact kept ()
  | some copy =>
    dsimp only
    split
    · refine (outline_mergeRobot While.stable_released fun w _ holds stored => ?_).bind kept
      rw [named copy rfl]
      exact holds.current stored bound
    · exact kept ()

theorem outline_revokingHeld (reads : ∀ w, P w → Reading original w) :
    Keeps settings P (revokingHeld original) :=
  outline_note reads (.refl _)

theorem outline_reassign (task : original.value.name = settings.task) (bound : original.value.assignedRobot ≠ "")
    (named : ∀ copy, robot = some copy → copy.value.name = original.value.assignedRobot) :
    Keeps settings (Vacated settings original) (reassign original robot now) := by
  have reads : ∀ w, Vacated settings original w → Reading original w :=
    fun w holds => holds.imp fun _ _ => trivial
  unfold reassign
  split
  · refine (Silent.outline (.call rfl) While.stable_released).bind fun policy => ?_
    cases policy with
    | afterTimeout =>
      dsimp only
      split
      · refine outline_settle (fun w holds => holds.copy) fun w sound holds stored => sound.noted stored ?_
        exact ⟨rfl, rfl, rfl, rfl, rfl, fun _ member => member⟩
      · exact outline_requeueDead bound named
    | whenActionExpired =>
      dsimp only
      split
      · refine outline_finalizeCancel task ?_ ?_ _ <;> rfl
      · exact outline_revokingHeld reads
    | never => exact outline_revokingHeld reads
  · exact outline_requeueDead bound named

variable (bound : original.value.assignedRobot ≠ "")
include bound

theorem outline_renewLease (admitted : duration ≤ maxLease)
    (phase : original.value.phase = .assigned ∨ original.value.phase = .inProgress ∨ original.value.phase = .revoking) :
    Keeps settings (Bounds original now) (renewLease original robot now duration) := by
  have running : runs original.value.phase = true := by rcases phase with h | h | h <;> rw [h] <;> rfl
  unfold renewLease
  split
  · exact outline_holdRenewalAfterClear fun w holds => holds.1
  extract_lets -underBinder rest
  have kept : ∀ lost, Keeps settings (Bounds original now) (rest lost) := by
    intro lost
    dsimp only [rest]
    split
    · split
      · exact .done
      · exact outline_setRequeue Bounds.stable _
    refine (@outline_patched _ _ _ _ trivially (fun _ => Reading.stable) (fun w holds => holds.1)
      fun w sound holds stored => ⟨?_, trivial⟩).bind fun reply => ?_
    · have ahead := holds.2.ahead admitted
      split
      · exact sound.goesOn stored holds.1.known bound running rfl rfl (.inr (.inl rfl)) rfl (.inr ahead)
      rename_i other
      have kept : original.value.phase = .assigned ∨ original.value.phase = .inProgress ∨
          original.value.phase = .paused := by
        rcases phase with h | h | h
        · exact .inl h
        · exact .inr (.inl h)
        · exact absurd h other
      exact sound.goesOn stored holds.1.known bound running rfl rfl kept rfl (.inr ahead)
    · cases reply with
      | none => exact .done
      | some =>
        exact outline_landed fun _ => ((Silent.call rfl).outline Reading.stable).weaken fun _ _ _ => trivial
  split
  · exact (Silent.outline (.call rfl) Bounds.stable).bind fun satisfied => kept (!satisfied)
  · exact kept false

theorem outline_revoke (admitted : duration ≤ maxLease) (running : runs original.value.phase = true)
    (lost : classifyRobot original.value (robot.map (·.value)) = .lost) :
    Keeps settings (fun w => Bounds original now w ∧ While original (Shown settings original robot) w)
      (revoke original now duration) := by
  refine outline_settle (fun w holds => holds.1.1.copy) fun w sound holds stored => ?_
  refine sound.rebound stored holds.1.1.known bound rfl rfl (by simp) (fun y found => ?_) ?_
  · exact holds.1.2.stamp admitted (Option.some.inj found).symm
  rcases (holds.2.current stored).lost bound running lost with off | cached
  · exact .inl off
  · refine ((sound.action original stored).bound bound).imp_right fun ⟨_, standing⟩ => ⟨⟨_, rfl⟩, ?_⟩
    exact ⟨rfl, by simp, fun _ => standing.records running, fun _ => cached.reaches, fun _ => cached⟩

theorem outline_succeedOnCompletedCancel :
    Keeps settings (Vacated settings original) (succeedOnCompletedCancel original) := by
  refine (outline_now While.stable_released).bind fun now => ?_
  refine outline_settle (fun w holds => holds.1.copy) fun w sound holds stored => ?_
  exact sound.rebound stored holds.1.known bound rfl rfl (by simp) (fun _ found => .inl found)
    (.inl (holds.1.current stored bound))

omit bound

variable {phase : ActionPhase} {reach : Reachability} {lease : Option Nat}

theorem evaluateLease_renew (decided : evaluateLease phase reach lease now skew = .renew) :
    phase = .assigned ∨ phase = .inProgress ∨ phase = .revoking := by
  cases phase <;> cases reach <;> simp_all [evaluateLease]
  all_goals split at decided <;> contradiction

theorem evaluateLease_revoke
    (decided : evaluateLease phase reach lease now skew = .revoke) : runs phase = true ∧ reach = .lost := by
  cases phase <;> cases reach <;> simp_all [evaluateLease, runs]
  all_goals split at decided <;> contradiction

/-- Nothing is reassigned on the cache's word alone, but a robot that is free again while
the action is being revoked. -/
theorem evaluateLease_reassign (decided : evaluateLease phase reach lease now skew = .reassign) :
    phase = .revoking ∧ reach = .free ∨ leaseProvablyDead lease now skew = true := by
  cases phase <;> cases reach <;> simp_all [evaluateLease]

theorem outline_decideLease (task : original.value.name = settings.task) (bound : original.value.assignedRobot ≠ "")
    (named : ∀ copy, robot = some copy → copy.value.name = original.value.assignedRobot) {timings : LeaseTimings}
    (admitted : Admitted settings timings) :
    Keeps settings (fun w => Bounds original now w ∧ While original (Shown settings original robot) w)
      (decideLease original robot timings now) := by
  have stable : Stable settings fun w => Bounds original now w ∧ While original (Shown settings original robot) w :=
    Bounds.stable.and Shown.stable
  unfold decideLease
  split
  · refine (outline_confirmedStop stable fun w holds => holds.1.1).bind fun (stopped, disposition) => ?_
    dsimp only
    split
    · exact .done
    rename_i confirmed
    refine .strengthen ?_ fun w _ (holds : _ ∧ _) => holds.2 (by simpa using confirmed)
    refine (outline_releaseStopped task).bind fun released => ?_
    split
    · split
      · exact outline_succeedOnCompletedCancel bound
      · exact outline_reassign task bound named
    · exact .done
  next decided =>
    exact (outline_renewLease bound admitted.duration (evaluateLease_renew decided)).left
  next decided =>
    obtain ⟨running, lost⟩ := evaluateLease_revoke decided
    exact outline_revoke bound admitted.duration running lost
  · exact .done
  next decided =>
    refine (outline_reassign task bound named).strengthen fun w sound holds => ?_
    rcases evaluateLease_reassign decided with ⟨revoking, free⟩ | dead
    · exact holds.2.imp fun stored shown bound => shown.free bound revoking free
    · exact holds.1.1.dead sound holds.1.2 (admitted.skew ▸ dead)

theorem silent_timesOut : Silent (timesOut original robot now) := by
  unfold timesOut
  split
  · exact .pure _
  split
  · exact .bind (silent_stopOver _) fun _ => .pure _
  · exact .pure _

theorem outline_reconcileAssigned (task : original.value.name = settings.task)
    (bound : original.value.assignedRobot ≠ "") (admitted : Admitted settings timings) :
    Keeps settings (Bounds original now) (reconcileAssigned original timings now) := by
  refine (outline_getBoundRobot task Bounds.stable fun w holds => holds.1).bind fun robot => .known fun named => ?_
  have stable : Stable settings fun w => Bounds original now w ∧ While original (Shown settings original robot) w :=
    Bounds.stable.and Shown.stable
  have decides := @outline_decideLease settings original now robot task bound named timings admitted
  dsimp only
  split
  next copy found phase =>
    refine (outline_pauseAssignedForEstop bound phase admitted.duration admitted.skew ?_).left
    exact named copy (Option.filter_eq_some_iff.mp found).1
  next copy found phase =>
    refine outline_applyPauseTransition bound admitted.duration ?_ _ _ stable (fun w holds => holds.1) ?_
    · intro other same
      cases same
      exact named copy (Option.filter_eq_some_iff.mp found).1
    · intro _ assigned
      rw [phase] at assigned
      contradiction
  · exact (outline_holdRevoking robot stable fun w holds => holds.1.1).bind (outline_unlessHeld decides)
  · exact (outline_holdPreemptedUnderStop robot stable fun w holds => holds.1.1).bind (outline_unlessHeld decides)
  next paused =>
    exact (outline_holdPaused bound paused admitted.duration admitted.skew robot).left
  · refine (outline_holdDeclared bound admitted.duration named stable fun w holds => holds.1).bind
      (outline_unlessHeld ?_)
    refine (silent_timesOut.outline stable).bind fun ends => ?_
    split
    · exact (outline_handleCompletionTimeout task bound).strengthen fun w _ holds => holds.1.1
    · exact decides

end Swarmada.Controller
