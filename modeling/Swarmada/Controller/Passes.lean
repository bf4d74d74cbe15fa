import Swarmada.Controller.Committed

namespace Swarmada.Controller

open Api Executorguard Transition

variable {settings : Settings} {w : World} {P : World → Prop} {original : Versioned FleetAction}
  {action a' : FleetAction} {now : Nat}

theorem Sound.waits (sound : Sound settings w) (stored : w.cluster.action = some original)
    (known : w.cluster.orphaned = none)
    (waits : original.value.phase = .unset ∨ original.value.phase = .pending) (off : AllOff settings w)
    (name : a'.name = original.value.name) (robot : a'.assignedRobot = original.value.assignedRobot)
    (lease : a'.leaseExpiresAt = original.value.leaseExpiresAt) : Sound settings (w.written original.value a') := by
  have accounted := sound.action original stored
  have free := accounted.waiting waits
  exact sound.unbound stored known (fun bound => absurd free bound) name (robot.trans free)
    (lease.trans (accounted.unleased free)) fun r _ _ => .inl (off r)

theorem outline_settleWaiting (waits : original.value.phase = .unset ∨ original.value.phase = .pending)
    (reads : ∀ w, P w → While original (AllOff settings) w) (name : a'.name = original.value.name)
    (robot : a'.assignedRobot = original.value.assignedRobot)
    (lease : a'.leaseExpiresAt = original.value.leaseExpiresAt) :
    Keeps settings P (settle original a') :=
  outline_settle (fun w holds => (reads w holds).copy) fun w sound holds stored =>
    sound.waits stored (reads w holds).known waits ((reads w holds).current stored) name robot lease

theorem outline_withheld (waits : original.value.phase = .unset ∨ original.value.phase = .pending)
    (core : Core original.value action) (stable : Stable settings P)
    (reads : ∀ w, P w → While original (AllOff settings) w) :
    Outline settings P (withheld original action) (Holds P) := by
  refine (Silent.outline (.call rfl) stable).bind fun stopped => ?_
  split
  · exact outline_holds (outline_settleWaiting waits reads (by exact core.name) (by exact core.robot) (by exact core.lease)) P
  refine (Silent.outline (.call rfl) stable).bind fun refused => ?_
  split
  · refine (Silent.outline (.call rfl) stable).bind fun terminal => ?_
    split
    · refine (outline_now stable).bind fun now => outline_holds ?_ P
      exact outline_settleWaiting waits (fun w holds => reads w holds.1) core.name core.robot core.lease
    · exact outline_holds (outline_settleWaiting waits reads (by exact core.name) (by exact core.robot) (by exact core.lease)) P
  refine (Silent.outline (.call rfl) stable).bind fun missing => ?_
  split
  · exact outline_holds (outline_settleWaiting waits reads (by exact core.name) (by exact core.robot) (by exact core.lease)) P
  · exact .pure fun _ _ holds _ => holds

theorem outline_selectRobot (stable : Stable settings P) (robots : List (Versioned FleetRobot)) :
    Outline settings P (call (.selectRobot robots)) fun reply w =>
      P w ∧ ∀ robot, reply = some robot → robot ∈ robots ∧ selectable robot.value = true :=
  outline_call rfl stable (fun _ => .const _) fun _ _ _ _ _ _ replied => replied.1

theorem outline_assign (task : original.value.name = settings.task) (core : Core original.value action)
    (waits : original.value.phase = .unset ∨ original.value.phase = .pending) (admitted : duration ≤ maxLease) (stable : Stable settings P)
    (reads : ∀ w, P w → While original (AllOff settings) w ∧ Listed settings original robots w) :
    Keeps settings P (assign original action robots duration) := by
  have offs : ∀ w, P w → While original (AllOff settings) w := fun w holds => (reads w holds).1
  refine (outline_selectRobot stable robots).bind fun reply => .known fun chosen => ?_
  cases reply with
  | none => exact outline_settleWaiting waits offs core.name core.robot core.lease
  | some robot =>
    obtain ⟨member, selected⟩ := chosen robot rfl
    refine (Silent.outline (.call rfl) stable).bind fun denied => ?_
    split
    · exact outline_settleWaiting waits offs core.name core.robot core.lease
    refine (Silent.outline (.call rfl) stable).bind fun running => ?_
    split
    · exact outline_settleWaiting waits offs core.name core.robot core.lease
    refine (Silent.outline (.call rfl) stable).bind fun taken => ?_
    split
    · exact (outline_commit task core selected admitted waits).strengthen fun w _ holds =>
        ⟨offs w holds, (reads w holds).2.copies robot member⟩
    · exact .done

theorem core_pendingSince (a : FleetAction) (seen : Nat) :
    Core a { a with pendingSince := some (a.pendingSince.getD seen) } := by
  refine ⟨rfl, rfl, rfl, rfl, rfl, fun t member => ?_⟩
  simp only [moments, List.mem_cons, Option.some.injEq] at member ⊢
  rcases member with h | h | h | h | h
  · exact .inl h
  · exact .inr (.inl (by rw [← h, Option.getD_some]))
  · exact .inr (.inr (.inl h))
  · exact .inr (.inr (.inr (.inl h)))
  · contradiction

variable (task : original.value.name = settings.task)
include task

theorem outline_schedule (waits : original.value.phase = .unset ∨ original.value.phase = .pending)
    (admitted : Admitted settings timings) :
    Keeps settings (Bounds original now) (schedule original timings now) := by
  refine (outline_now Bounds.stable).bind fun seen => ?_
  have core := core_pendingSince original.value seen
  generalize { original.value with pendingSince := some (original.value.pendingSince.getD seen) } = action at core ⊢
  refine ((outline_listRobots Bounds.stable fun w holds => holds.1).left).bind
    fun robots => ?_
  have stable : Stable settings fun w => Bounds original now w ∧ Listed settings original robots w :=
    Bounds.stable.and Listed.stable
  have gate := @outline_executorGate settings (fun w => Bounds original now w ∧ Listed settings original robots w)
    (some original) action robots now timings.skew false (core.name.trans task)
  refine (gate ?_ stable ?_ ?_).bind fun reply => ?_
  · intro same again
    cases again
    exact core.robot
  · intro same again w holds
    cases again
    exact holds.2.records
  · intro w sound holds grounds
    rw [admitted.skew]
    exact sound.proves core holds.1.2.now_le grounds
  cases reply with
  | none => exact .done
  | some decision =>
    dsimp only
    split
    · exact outline_note (fun w holds => holds.1.1.1) core
    rename_i nobody
    -- The guard waits for nobody, and no robot is bound.
    have off : ∀ w, Sound settings w → ((Bounds original now w ∧ Listed settings original robots w) ∧
        Cleared settings (some original) (some decision) w) →
        While original (AllOff settings) w ∧ Listed settings original robots w := by
      intro w sound holds
      have cleared := holds.2 decision rfl (by omega) original rfl
      refine ⟨holds.1.1.1.imp fun stored _ => sound.allOff stored ?_ (cleared.current stored), holds.1.2⟩
      exact fun bound => absurd ((sound.action original stored).waiting waits) bound
    have lasting : Stable settings fun w => While original (AllOff settings) w ∧ Listed settings original robots w :=
      While.stable_allOff.and Listed.stable
    refine ((outline_withheld waits core lasting fun w holds => holds.1).strengthen off).bind (outline_unlessHeld ?_)
    exact outline_assign task core waits admitted.duration lasting fun _ => id

theorem outline_reconcileLease (admitted : Admitted settings timings) :
    Keeps settings (Reading original) (reconcileLease original timings) := by
  refine (outline_now Reading.stable).bind fun now => ?_
  dsimp only
  split
  next expired =>
    refine outline_settle (fun w holds => holds.1.copy) fun w sound holds stored => ?_
    have accounted := sound.action original stored
    have free := accounted.waiting expired.1
    exact sound.released stored holds.1.known (fun bound => absurd free bound) holds.2 rfl free (accounted.unleased free)
      (by simp [moments])
  split
  next bound =>
    exact outline_reconcileAssigned task bound.1 admitted
  split
  · refine (outline_recordersDecision task admitted.skew Bounds.stable fun w holds => holds).bind fun _ => ?_
    exact .done
  split
  next waits =>
    exact outline_schedule task waits admitted
  · exact .done

theorem outline_reconcileLive :
    Keeps settings (Reading original) (reconcileLive original) := by
  refine (outline_leaseTimings Reading.stable).bind fun timings => .known fun admitted => ?_
  have note : ∀ message, Keeps settings (Reading original)
      (settle original { original.value with message := message }) := fun message =>
    outline_settle (fun w holds => holds.copy) fun w sound _ stored =>
      sound.noted stored ⟨rfl, rfl, rfl, rfl, rfl, fun _ member => member⟩
  split
  · exact outline_handleCancel task _
  split
  · exact outline_handleCancel task _
  split
  · refine (silent_requeueOvertakenByEstop.outline Reading.stable).bind fun (verdict, message) => ?_
    cases verdict with
    | dropped => exact .done
    | runs => exact outline_handleRequeue task _
    | held => exact note message
    | waits => exact outline_reconcileLease task admitted
  split
  · exact note _
  · exact outline_reconcileLease task admitted

omit task

theorem outline_syncHeldFinalizer :
    Outline settings (Reading original) (syncHeldFinalizer original) fun reply w =>
      ∀ copy, reply = some copy → copy.value = original.value ∧ Reading copy w := by
  refine (Silent.outline (.call rfl) Reading.stable).bind fun changes => ?_
  split
  · refine .perform (fun reply v v' sound drift holds copy same => ?_) fun w reply w' sound holds replied => ?_
    · exact ⟨(holds copy same).1, Reading.stable sound drift (holds copy same).2⟩
    rcases replied.2 with ⟨none, rfl⟩ | ⟨held, landed, rfl⟩
    · exact ⟨sound, fun copy same => by rw [none] at same; contradiction⟩
    have moves := Moves.rewrite sound (holds.copy.stored held) (.refl _) rfl
    refine ⟨moves.sound, fun copy same => ?_⟩
    rw [landed] at same
    cases same
    exact ⟨rfl, moves.sound.wellformed.actions.copyOf (Store.put_objects _ _ _), holds.known, fun _ => trivial⟩
  · refine .pure fun w _ holds copy same => ?_
    cases same
    exact ⟨rfl, holds⟩

theorem outline_getAction : Outline settings (fun _ => True) (call .getAction) fun reply w =>
      ∀ copy, reply = some copy → copy.value.name = settings.task ∧ w.cluster.actions.CopyOf () copy := by
  refine (outline_call rfl (.const _) (fun reply v v' _ drift holds copy same => ?_)
    fun w reply w' sound _ _ replied copy same => ?_).weaken fun _ _ both => both.2
  · exact ⟨(holds copy same).1, (holds copy same).2.advances drift.action.advances⟩
  · obtain ⟨rfl, rfl⟩ := replied
    exact (sound.wellformed.cachedAction copy same).symm

theorem outline_forgetOrphan_reading :
    Outline settings (fun w => w.cluster.actions.CopyOf () original) (call .forgetOrphan) fun _ =>
      Reading original := by
  refine .perform (fun _ => Reading.stable) fun w reply w' sound copy replied => ?_
  have forgotten : w' = ⟨w.history, { w.cluster with orphaned := none }⟩ := replied.2
  subst forgotten
  exact ⟨sound.orphaned nofun, copy, rfl, fun _ => trivial⟩

theorem outline_reconcileAction : Keeps settings (fun _ => True) (reconcileAction settings.task) := by
  refine outline_getAction.bind fun reply => ?_
  cases reply with
  | none => exact outline_releaseOrphanedRecords.strengthen fun _ _ _ => trivial
  | some read =>
    by_cases task : read.value.name = settings.task
    · refine (outline_forgetOrphan_reading.strengthen fun w _ holds => (holds read rfl).2).bind fun _ => ?_
      refine outline_syncHeldFinalizer.bind fun reply => ?_
      cases reply with
      | none => exact .done
      | some action =>
        refine outline_landed fun value => ?_
        have name : action.value.name = settings.task := by rw [value]; exact task
        dsimp only
        split
        · refine (Silent.outline (.call rfl) Reading.stable).bind fun held => ?_
          split
          · exact outline_note (fun _ => id) (.refl _)
          · exact .done
        split
        next ended =>
          exact outline_retireTerminalAction name (by rw [ended]; rfl)
        next ended =>
          exact outline_retireTerminalAction name (by rw [ended]; rfl)
        · exact outline_handleFailedAction name ‹_›
        · exact outline_reconcileLive name
    · exact .unreached _ fun w holds => task (holds read rfl).1

end Swarmada.Controller
