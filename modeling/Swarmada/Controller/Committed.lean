import Swarmada.Controller.Leased

namespace Swarmada.Controller

open Api Executorguard Transition

variable {settings : Settings} {w : World} {P : World → Prop} {original : Versioned FleetAction}
  {robot : Versioned FleetRobot} {a' : FleetAction} {horizon generation : Nat}

structure Copied (robot : Versioned FleetRobot) (w : World) : Prop where
  named : robot.value.name ≠ ""
  copy : w.cluster.robots.CopyOf robot.value.name robot
  cached : w.cluster.robots.objects robot.value.name = some robot →
    w.cluster.cachedRobots robot.value.name = some robot

theorem Copied.stable : Stable settings (Copied robot) := by
  intro w w' _ drift holds
  refine ⟨holds.named, holds.copy.advances drift.robots, fun stored => ?_⟩
  have before := holds.copy.earlier drift.robots stored
  rcases drift.cached robot.value.name with same | synced
  · exact same.trans (holds.cached before)
  · exact synced.trans before

structure Listed (settings : Settings) (original : Versioned FleetAction) (robots : List (Versioned FleetRobot))
    (w : World) : Prop where
  records : While original (ListsRecords settings original robots) w
  copies : ∀ robot ∈ robots, Copied robot w

theorem Listed.stable : Stable settings (Listed settings original robots) :=
  fun _ _ sound drift holds =>
    ⟨ListsRecords.stable sound drift holds.records, fun robot member => Copied.stable sound drift (holds.copies robot member)⟩

theorem Sound.listsCached (sound : Sound settings w) (stored : w.cluster.action = some original)
    (shown : w.cluster.recordsCached settings = true) : ListsRecords settings original w.cluster.listCached w := by
  intro r other
  by_cases records : w.Records settings r
  · have recorded := World.recordsTask_iff.mpr records
    obtain ⟨live, found, _⟩ := records
    obtain ⟨_, _, member⟩ := sound.wellformed.robot r live found
    have cached := List.all_eq_true.mp shown r member
    simp only [recorded, Bool.not_true, Bool.false_or, Option.any_eq_true] at cached
    obtain ⟨copy, kept, record⟩ := cached
    refine .inr ⟨copy, List.mem_filterMap.mpr ⟨r, member, kept⟩, ?_, by simpa using record⟩
    exact (sound.wellformed.cachedRobot r copy kept).2.1
  · exact .inl (sound.off_of_not_records stored other records)

theorem outline_listRobots (stable : Stable settings P) (reads : ∀ w, P w → Reading original w) :
    Outline settings P (call .listRobots) fun robots w => P w ∧ Listed settings original robots w := by
  refine outline_call rfl stable (fun _ => Listed.stable) fun w robots w' sound holds founded replied => ?_
  obtain ⟨rfl, rfl⟩ := replied
  refine ⟨(reads w' holds).imp fun stored _ => sound.listsCached stored founded, fun robot member => ?_⟩
  obtain ⟨name, _, found⟩ := List.mem_filterMap.mp member
  obtain ⟨copy, named, filled, _⟩ := sound.wellformed.cachedRobot name robot found
  exact ⟨named ▸ filled, named ▸ copy, fun _ => named ▸ found⟩

/-- The action was given to the robot, and nobody runs it yet.  No report can move it, since
no adapter has been sent its token. -/
structure Given (settings : Settings) (robot : Versioned FleetRobot) (horizon generation : Nat) (w : World) : Prop where
  off : AllOff settings w
  leased : horizonOf robot.value.name w.history = some horizon
  copied : Copied robot w
  unsent : generation ∉ w.cluster.sent
  action : ∀ a, w.cluster.action = some a →
    (a.value.assignedRobot = robot.value.name ∧ a.value.phase = .assigned ∧ a.value.leaseExpiresAt = some horizon ∧
        a.value.assignmentGeneration = generation) ∨
      (a.value.assignedRobot = "" ∧ a.value.leaseExpiresAt = none ∧
        ∃ t, some t ∈ moments a.value ∧ horizon ≤ t + maxLease)

theorem Given.stable : Stable settings (Given settings robot horizon generation) := by
  intro w w' sound drift given
  refine ⟨fun r => drift.carries.off r (given.off r), (drift.carries.horizon _).trans given.leased,
    Copied.stable sound drift given.copied, drift.sent ▸ given.unsent, fun a stored => ?_⟩
  unfold Cluster.action at stored
  cases drift.action with
  | kept same =>
    rw [same] at stored
    exact given.action a stored
  | removed gone =>
    rw [gone, Store.remove_objects] at stored
    contradiction
  | rewritten current _ before core token put =>
    rw [put, Store.put_objects] at stored
    cases stored
    rcases given.action current before with ⟨name, phase, lease, sent⟩ | ⟨free, lease, t, moment, le⟩
    · exact .inl ⟨core.robot.trans name, core.phase.trans phase, core.lease.trans lease, token.trans sent⟩
    · exact .inr ⟨core.robot.trans free, core.lease.trans lease, t, core.moments t moment, le⟩
  | created _ _ unbound unleased now put =>
    rw [put, Store.put_objects] at stored
    cases stored
    refine .inr ⟨unbound, unleased, w.cluster.now, by simp [moments, now], ?_⟩
    exact sound.timely.horizon _ _ given.leased
  | reported current _ before bound sent =>
    rcases given.action current before with ⟨_, _, _, token⟩ | ⟨free, _⟩
    · exact absurd (token ▸ sent) given.unsent
    · exact absurd free bound

theorem leaseEvents_given (free : original.value.assignedRobot = "") (named : robot.value.name ≠ "")
    (assigned : a'.assignedRobot = robot.value.name) (lease : a'.leaseExpiresAt = some horizon) :
    leaseEvents original.value a' = [.assigned robot.value.name horizon] := by
  simp [leaseEvents, lease, assigned, named, free]

theorem Sound.given (sound : Sound settings w) (stored : w.cluster.action = some original)
    (known : w.cluster.orphaned = none) (off : AllOff settings w) (free : original.value.assignedRobot = "")
    (named : robot.value.name ≠ "") (name : a'.name = original.value.name)
    (assigned : a'.assignedRobot = robot.value.name) (phase : a'.phase = .assigned)
    (lease : a'.leaseExpiresAt = some horizon) (admitted : horizon ≤ w.cluster.now + maxLease) :
    Sound settings (w.written original.value a') := by
  have events := leaseEvents_given free named assigned lease
  have bound : a'.assignedRobot ≠ "" := assigned ▸ named
  have off' : AllOff settings (w.written original.value a') := fun r => (off r).written _ _
  refine ⟨fun copy found => ?_, fun gone => ?_, sound.wellformed.writeAction a', ?_, ?_⟩
  · simp only [World.written, writeAction_action, Option.some.injEq] at found
    rw [← found]
    refine ⟨name.trans (sound.action original stored).name, fun waits => ?_, fun unbound => absurd unbound bound,
      fun unbound => absurd unbound bound, fun _ r _ => off' r, fun _ => .inl (off' _)⟩
    rcases waits with h | h <;> simp [phase] at h
  · simp [World.written] at gone
  · refine ⟨(clockOf_leaseEvents _ _ _).trans sound.timely.clock, fun r x written => ?_, fun t since => ?_⟩
    · rw [World.written, events] at written
      simp only [List.cons_append, List.nil_append, horizonOf] at written
      split at written
      · cases written
        exact admitted
      · exact sound.timely.horizon r x written
    · have some : w.cluster.orphaned = some t := since
      rw [known] at some
      contradiction
  · rw [World.written, events]
    exact ⟨fun r gives other _ => off other, sound.single⟩

theorem Sound.recorded (sound : Sound settings w) (given : Given settings robot horizon generation w)
    (reached : lostPhase robot.value.phase = false)
    (stored : w.cluster.robots.objects robot.value.name = some robot) {value : FleetRobot}
    (name : value.name = robot.value.name) (record : value.assignedAction = settings.task) :
    Sound settings ⟨.recorded robot.value.name :: w.history, w.cluster.writeRobot robot.value.name value⟩ := by
  set r := robot.value.name with theRobot
  set w' : World := ⟨.recorded r :: w.history, w.cluster.writeRobot r value⟩ with after
  obtain ⟨_, filled, listed⟩ := sound.wellformed.robot r robot stored
  have others : ∀ other, other ≠ r → w'.Off settings other := by
    intro other ne
    refine off_cons (fun same => ?_) (given.off other)
    cases same
    exact ne rfl
  have leased : horizonOf r w'.history = some horizon := given.leased
  have records : w'.Records settings r := ⟨_, Store.put_objects _ _ _, record⟩
  have reaches : w'.CacheReaches settings r := ⟨robot, given.copied.cached stored, .inr reached⟩
  refine ⟨fun a found => ?_, fun _ other => ?_, ?_, ?_, ⟨fun given' gives other ne => given.off other, sound.single⟩⟩
  · have before : w.cluster.action = some a := found
    have accounted := sound.action a before
    rcases given.action a before with ⟨assigned, phase, lease, _⟩ | ⟨free, lease, t, moment, le⟩
    · have bound : a.value.assignedRobot ≠ "" := assigned ▸ filled
      refine ⟨accounted.name, accounted.waiting, accounted.unleased, fun unbound => absurd unbound bound,
        fun _ other ne => others other fun same => ne (same.trans assigned.symm), fun _ => .inr ⟨⟨horizon, lease, assigned ▸ leased⟩, ?_⟩⟩
      refine ⟨?_, ?_, fun _ => assigned ▸ records, fun _ => assigned ▸ reaches, ?_⟩ <;> simp [phase, rests]
    refine ⟨accounted.name, accounted.waiting, fun _ => lease, fun _ other => ?_, fun bound => absurd free bound,
      fun bound => absurd free bound⟩
    by_cases same : other = r
    · exact .inr (same ▸ ⟨records, horizon, leased, .inr ⟨t, moment, le⟩⟩)
    · exact .inl (others other same)
  · by_cases same : other = r
    · exact .inr (same ▸ ⟨records, horizon, leased⟩)
    · exact .inl (others other same)
  · refine sound.wellformed.robots_advance rfl (Store.advances_put _ r value) (sound.wellformed.robots.put _ _) ?_
      (fun _ => id) rfl rfl rfl rfl
    intro other copy found
    by_cases same : other = r
    · subst same
      have put : some (⟨value, w.cluster.robots.next⟩ : Versioned FleetRobot) = some copy :=
        (Store.put_objects _ _ _).symm.trans found
      cases put
      exact .inr ⟨name, filled, listed⟩
    · exact .inl ((Store.put_objects_ne _ _ same).symm.trans found)
  · exact sound.timely.later (fun _ => rfl) sound.timely.clock (Nat.le_refl _) fun _ found => found

theorem lostPhase_selectable {robot : FleetRobot} (chosen : selectable robot = true) : lostPhase robot.phase = false := by
  unfold selectable at chosen
  cases phase : robot.phase <;> simp_all [lostPhase]

variable {duration : Nat} {committed : Versioned FleetAction}

theorem outline_mintGeneration (stable : Stable settings P) (previous : Nat) :
    Outline settings P (call (.mintGeneration previous)) fun reply w =>
      P w ∧ ∀ generation, reply = some generation → generation ∉ w.cluster.sent ∧ generation ≤ w.cluster.mark := by
  refine outline_call rfl stable ?_ fun w reply w' sound _ _ replied generation same => ?_
  · intro reply v v' _ drift holds generation same
    obtain ⟨unsent, below⟩ := holds generation same
    exact ⟨drift.sent ▸ unsent, Nat.le_trans below drift.mark⟩
  rcases replied with ⟨none, _⟩ | ⟨_, landed, fresh, rfl⟩
  · rw [none] at same
    contradiction
  rw [landed] at same
  cases same
  refine ⟨fun member => ?_, Nat.le_refl _⟩
  have before := sound.wellformed.sent _ member
  unfold nextGeneration at fresh
  omega

theorem outline_recordRobot (reached : lostPhase robot.value.phase = false)
    (name : value.name = robot.value.name) (record : value.assignedAction = settings.task) :
    Outline settings
      (fun w => (Reading committed w ∧ generation ≤ w.cluster.mark) ∧
        Given settings robot horizon generation w)
      (call (.patchRobot (some committed) robot value)) fun _ w =>
        Reading committed w ∧ generation ≤ w.cluster.mark := by
  have stable : Stable settings fun w => Reading committed w ∧ generation ≤ w.cluster.mark :=
    Reading.stable.and fun _ _ _ drift below => Nat.le_trans below drift.mark
  refine .perform (fun _ => stable) fun w reply w' sound holds replied => ?_
  rcases replied.2 with ⟨_, rfl⟩ | ⟨held, rfl⟩
  · exact ⟨sound, holds.1⟩
  rw [name] at held ⊢
  rw [recordEvents, if_pos record, name]
  refine ⟨sound.recorded holds.2 reached (holds.2.copied.copy.stored held) name record, ⟨?_, ?_, ?_⟩, holds.1.2⟩
  · exact holds.1.1.copy
  · exact holds.1.1.known
  · exact fun _ => trivial

theorem outline_pushAssignAction {robot : String} :
    Outline settings (fun w => Reading committed w ∧ generation ≤ w.cluster.mark)
      (call (.pushAssignAction robot generation)) fun rejected w =>
        Reading committed w ∧ (rejected = true → w.Off settings robot) := by
  refine .perform (fun rejected => Reading.stable.and fun _ _ _ drift off yes => drift.carries.off _ (off yes))
    fun w rejected w' sound holds replied => ?_
  have pushed : w' = ⟨(if rejected = true then [.refused robot] else []) ++ w.history,
      { w.cluster with sent := generation :: w.cluster.sent }⟩ := replied.2
  subst pushed
  have quiet : ∀ event ∈ (if rejected = true then [Event.refused robot] else []), event.quiet = true := by
    split <;> simp [Event.quiet]
  have clock : clockOf ((if rejected = true then [Event.refused robot] else []) ++ w.history) = w.cluster.now := by
    rw [← sound.timely.clock]
    split <;> rfl
  have carries : Carries settings w ⟨(if rejected = true then [.refused robot] else []) ++ w.history,
      { w.cluster with sent := generation :: w.cluster.sent }⟩ := .quiet quiet rfl rfl rfl
  refine ⟨sound.carried carries (fun a found => .inl ⟨a, found, .refl _⟩) .inl ?_ ?_
    (singleExecutor_quiet quiet sound.single), ⟨holds.1.copy, holds.1.known, fun _ => trivial⟩, fun yes => ?_⟩
  · refine { sound.wellformed with sent := fun token member => ?_ }
    rcases List.mem_cons.mp member with rfl | earlier
    · exact holds.2
    · exact sound.wellformed.sent token earlier
  · exact sound.timely.later carries.horizon clock (Nat.le_refl _) fun _ found => found
  · rw [if_pos yes]
    exact off_of_frees _ (by simp [Event.frees])

theorem outline_getRobotLive (stable : Stable settings P) (robot : String) :
    Outline settings P (call (.getRobotLive robot)) fun reply w =>
      P w ∧ ∀ live, reply = some live → live.value.name = robot :=
  outline_call rfl stable (fun _ => .const _) fun _ _ _ sound _ _ replied live found =>
    (sound.wellformed.robot robot live (replied.1 ▸ found)).1

theorem outline_releaseRejectedAssignment (task : committed.value.name = settings.task)
    (bound : committed.value.assignedRobot ≠ "") (assigned : committed.value.phase = .assigned) :
    Keeps settings (fun w => Reading committed w ∧ w.Off settings committed.value.assignedRobot)
      (releaseRejectedAssignment committed committed.value.assignedRobot) := by
  have refused : Stable settings fun w => w.Off settings committed.value.assignedRobot :=
    fun _ _ _ drift off => drift.carries.off _ off
  have stable : Stable settings fun w => Reading committed w ∧ w.Off settings committed.value.assignedRobot :=
    Reading.stable.and refused
  refine (outline_getRobotLive stable _).bind fun reply => .known fun named => ?_
  extract_lets -underBinder rest
  have gives : Keeps settings (fun w => Reading committed w ∧ w.Off settings committed.value.assignedRobot) (rest none) := by
    refine (@outline_patched _ _ _ _ (fun w => w.Off settings committed.value.assignedRobot)
      (fun _ => .stable fun _ _ _ drift _ off => drift.carries.off _ off) (fun w holds => holds.1)
      fun w sound holds stored => ⟨?_, holds.2.written _ _⟩).bind fun reply => ?_
    · have off := sound.othersOff stored bound fun _ => holds.2
      exact sound.unbound stored holds.1.known (fun _ => .inl (off _)) rfl rfl rfl fun r _ _ => .inl (off r)
    cases reply with
    | none => exact .done
    | some written =>
      refine outline_landed fun value => ?_
      have name : written.value.name = settings.task := by rw [value]; exact task
      refine (outline_releaseRobotForStop name (.stable fun _ _ _ drift _ off => drift.carries.off _ off)
        fun w _ holds stored _ => holds.current stored).bind fun _ => .done
  cases reply with
  | none => exact gives
  | some live =>
    refine ((silent_stopNames _).outline stable).bind fun stops => ?_
    by_cases free : stops = [] ∧ estopHoldsWork live.value.toRobot = false
    · rw [if_pos free]
      exact gives
    · rw [if_neg free]
      refine outline_clock stable fun timings now admitted => ?_
      exact (outline_pauseAssignedForEstop bound assigned admitted.duration admitted.skew (named live rfl)).strengthen
        fun w _ holds => ⟨holds.1.1, holds.2⟩

/-- The record of the robot failed: the action goes back to Pending, and the robot keeps the
record that may have landed. -/
theorem outline_revert (bound : committed.value.assignedRobot ≠ "") (assigned : committed.value.phase = .assigned) :
    Keeps settings (Reading committed)
      (do
        let now ← call .now
        settle committed
          { committed.value with
            phase := .pending, assignedRobot := "", leaseExpiresAt := none, pendingSince := some now
            message := .text "robot commit failed after task assignment; reverted to Pending" }) := by
  refine (outline_now Reading.stable).bind fun now => ?_
  refine outline_settle (fun w holds => holds.1.copy) fun w sound holds stored => ?_
  refine sound.unbound stored holds.1.known (fun _ => ?_) rfl rfl rfl fun r x written => ?_
  · refine ((sound.action committed stored).bound bound).imp_right fun ⟨_, standing⟩ => standing.records ?_
    rw [assigned]
    rfl
  · exact .inr (.inr ⟨now, by simp [moments], holds.2.horizon r x written⟩)

theorem outline_commit (task : original.value.name = settings.task)
    (core : Core original.value action) (chosen : selectable robot.value = true) (admitted : duration ≤ maxLease)
    (waits : original.value.phase = .unset ∨ original.value.phase = .pending) :
    Keeps settings (fun w => While original (AllOff settings) w ∧ Copied robot w)
      (commit original action robot duration) := by
  have stable : Stable settings fun w => While original (AllOff settings) w ∧ Copied robot w :=
    While.stable_allOff.and Copied.stable
  refine (outline_now stable).bind fun scheduled => ?_
  refine ((outline_mintGeneration stable _).left).bind fun reply => ?_
  cases reply with
  | none => exact .done
  | some generation =>
    have minted : Stable settings fun w => (While original (AllOff settings) w ∧ Copied robot w) ∧
        ∀ token, some generation = some token → token ∉ w.cluster.sent ∧ token ≤ w.cluster.mark :=
      stable.and fun _ _ _ drift holds token same =>
        ⟨drift.sent ▸ (holds token same).1, Nat.le_trans (holds token same).2 drift.mark⟩
    refine (outline_now minted).bind fun issued => ?_
    have lasting : ∀ copy : Versioned FleetAction, Stable settings fun w =>
        (Reading copy w ∧ generation ≤ w.cluster.mark) ∧
          Given settings robot (issued + duration) generation w := fun copy =>
      (Reading.stable.and fun _ _ _ drift below => Nat.le_trans below drift.mark).and Given.stable
    refine (outline_patchStatus lasting (fun w holds => holds.1.1.1.copy) fun w sound holds stored => ?_).bind
      fun reply => ?_
    · obtain ⟨⟨⟨reads, copied⟩, token⟩, since⟩ := holds
      obtain ⟨unsent, below⟩ := token generation rfl
      have off := reads.current stored
      have free := (sound.action original stored).waiting waits
      refine (fun written => ⟨written, ⟨written.copy_written reads.known trivial, below⟩,
        fun r => (off r).written _ _, ?_, ⟨copied.named, copied.copy, copied.cached⟩, unsent, fun a found => ?_⟩)
        (sound.given stored reads.known off free copied.named (by exact core.name) rfl rfl rfl (since.ahead admitted))
      · rw [World.written, leaseEvents_given free copied.named rfl rfl]
        simp [horizonOf]
      · simp only [World.written, writeAction_action, Option.some.injEq] at found
        exact .inl (found ▸ ⟨rfl, rfl, rfl, rfl⟩)
    · cases reply with
      | none => exact .done
      | some committed =>
        refine outline_landed fun value => ?_
        by_cases named : robot.value.name = ""
        · exact .unreached _ fun w holds => holds.2.copied.named named
        have name : committed.value.name = settings.task := by rw [value]; exact core.name.trans task
        have given : committed.value.assignedRobot = robot.value.name := by rw [value]
        have bound : committed.value.assignedRobot ≠ "" := given ▸ named
        have assigned : committed.value.phase = .assigned := by rw [value]
        refine (outline_recordRobot (lostPhase_selectable chosen) (by rfl) (by exact core.name.trans task)).bind
          fun recorded => ?_
        split
        · refine outline_pushAssignAction.bind fun rejected => ?_
          split
          · rw [← given]
            exact (outline_releaseRejectedAssignment name bound assigned).strengthen fun w _ holds =>
              ⟨holds.1, holds.2 ‹_›⟩
          · exact .done
        · exact (outline_revert bound assigned).left

end Swarmada.Controller
