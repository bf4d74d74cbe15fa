import Swarmada.Controller.Accounts

namespace Swarmada.Controller

open Api Executorguard Transition

inductive ActionDrift (c c' : Cluster) : Prop
  | kept (same : c'.actions = c.actions)
  | removed (gone : c'.actions = c.actions.remove ())
  | rewritten (current : Versioned FleetAction) (a : FleetAction) (stored : c.action = some current)
      (core : Core current.value a) (token : a.assignmentGeneration = current.value.assignmentGeneration)
      (put : c'.actions = c.actions.put () a)
  | created (a : FleetAction) (absent : c.action = none) (unbound : a.assignedRobot = "")
      (unleased : a.leaseExpiresAt = none) (now : a.created = c.now) (put : c'.actions = c.actions.put () a)
  | reported (current : Versioned FleetAction) (a : FleetAction) (stored : c.action = some current)
      (bound : current.value.assignedRobot ≠ "") (sent : current.value.assignmentGeneration ∈ c.sent)
      (put : c'.actions = c.actions.put () a)

structure Drift (settings : Settings) (w w' : World) : Prop where
  carries : Carries settings w w'
  now_le : w.cluster.now ≤ w'.cluster.now
  action : ActionDrift w.cluster w'.cluster
  robots : w.cluster.robots.Advances w'.cluster.robots
  cached : ∀ r, w'.cluster.cachedRobots r = w.cluster.cachedRobots r ∨
    w'.cluster.cachedRobots r = w.cluster.robots.objects r
  orphaned : w'.cluster.orphaned = w.cluster.orphaned
  sent : w'.cluster.sent = w.cluster.sent
  mark : w.cluster.mark ≤ w'.cluster.mark

theorem ActionDrift.advances (drift : ActionDrift c c') : c.actions.Advances c'.actions := by
  cases drift with
  | kept same => exact same ▸ .refl _
  | removed gone => exact gone ▸ Store.advances_remove _ _
  | rewritten _ _ _ _ _ put | created _ _ _ _ _ put | reported _ _ _ _ _ put => exact put ▸ Store.advances_put _ _ _

variable {settings : Settings} {w w' : World}

theorem World.recordsTask_iff : w.cluster.recordsTask settings r = true ↔ w.Records settings r := by
  simp [Cluster.recordsTask, World.Records, Option.any_eq_true]

theorem Carries.quiet (quiet : ∀ event ∈ events, event.quiet = true)
    (history : w'.history = events ++ w.history) (robots : w'.cluster.robots = w.cluster.robots)
    (cached : w'.cluster.cachedRobots = w.cluster.cachedRobots) : Carries settings w w' where
  off := by
    intro r off
    unfold World.Off
    rw [history]
    refine off_append (fun event member same => ?_) off
    have said := quiet event member
    rw [same] at said
    contradiction
  horizon := fun r => by rw [history, horizonOf_quiet quiet]
  records := fun r records => .inr (by unfold World.Records; rw [robots]; exact records)
  reaches := fun r _ reaches => .inr (by unfold World.CacheReaches; rw [cached]; exact reaches)
  cacheRecords := fun r _ records => .inr (by unfold World.CacheRecords; rw [cached]; exact records)

theorem Carries.robots (history : w'.history = w.history) (cached : w'.cluster.cachedRobots = w.cluster.cachedRobots)
    (records : ∀ r, w.Records settings r → w.Off settings r ∨ w'.Records settings r) : Carries settings w w' where
  off := fun r off => by unfold World.Off; rw [history]; exact off
  horizon := fun r => by rw [history]
  records := fun r before => (records r before).imp_left fun off => by unfold World.Off; rw [history]; exact off
  reaches := fun r _ reaches => .inr (by unfold World.CacheReaches; rw [cached]; exact reaches)
  cacheRecords := fun r _ before => .inr (by unfold World.CacheRecords; rw [cached]; exact before)

theorem Carries.synced (history : w'.history = w.history) (robots : w'.cluster.robots = w.cluster.robots)
    (cached : ∀ r, w'.cluster.cachedRobots r = w.cluster.cachedRobots r ∨
      w'.cluster.cachedRobots r = w.cluster.robots.objects r) : Carries settings w w' where
  off := fun r off => by unfold World.Off; rw [history]; exact off
  horizon := fun r => by rw [history]
  records := fun r before => .inr (by unfold World.Records; rw [robots]; exact before)
  reaches := by
    intro r records reaches
    rcases cached r with same | synced
    · exact .inr (by unfold World.CacheReaches; rw [same]; exact reaches)
    · obtain ⟨copy, found, record⟩ := records
      exact .inr ⟨copy, synced.trans found, .inl record⟩
  cacheRecords := by
    intro r records before
    rcases cached r with same | synced
    · exact .inr (by unfold World.CacheRecords; rw [same]; exact before)
    · obtain ⟨copy, found, record⟩ := records
      exact .inr ⟨copy, synced.trans found, record⟩

theorem Timely.later (timely : Timely w) (horizon : ∀ r, horizonOf r w'.history = horizonOf r w.history)
    (clock : clockOf w'.history = w'.cluster.now) (now_le : w.cluster.now ≤ w'.cluster.now)
    (orphaned : ∀ t, w'.cluster.orphaned = some t → w.cluster.orphaned = some t) : Timely w' where
  clock := clock
  horizon := by
    intro r x found
    have bound := timely.horizon r x (horizon r ▸ found)
    omega
  orphan := fun t found r x written => timely.orphan t (orphaned t found) r x (horizon r ▸ written)

theorem Timely.kept (timely : Timely w) {cluster : Cluster} (now : cluster.now = w.cluster.now)
    (orphaned : cluster.orphaned = w.cluster.orphaned) : Timely ⟨w.history, cluster⟩ :=
  timely.later (fun _ => rfl) (timely.clock.trans now.symm) now.ge fun _ found => orphaned ▸ found

theorem Sound.carried (sound : Sound settings w) (carries : Carries settings w w')
    (action : ∀ a', w'.cluster.action = some a' →
      (∃ a, w.cluster.action = some a ∧ Core a.value a'.value) ∨ Accounted settings w' a'.value)
    (gone : w'.cluster.action = none → w.cluster.action = none ∨ ∀ r, w'.Off settings r ∨
      w'.Records settings r ∧ ∃ x, horizonOf r w'.history = some x)
    (wellformed : Wellformed settings w'.cluster) (timely : Timely w')
    (single : SingleExecutor settings.skew w'.history) : Sound settings w' where
  action := by
    intro a' found
    rcases action a' found with ⟨a, stored, core⟩ | accounted
    · exact carries.accounted core (sound.action a stored)
    · exact accounted
  gone := by
    intro none
    rcases gone none with before | accounted
    · intro r
      rcases sound.gone before r with off | ⟨records, x, written⟩
      · exact .inl (carries.off r off)
      · exact (carries.records r records).imp_right fun records' => ⟨records', x, (carries.horizon r).trans written⟩
    · exact accounted
  wellformed := wellformed
  timely := timely
  single := single

theorem Wellformed.robots_advance (wellformed : Wellformed settings c)
    (actions : c'.actions = c.actions) (advances : c.robots.Advances c'.robots) (issued : c'.robots.Issued)
    (robot : ∀ r copy, c'.robots.objects r = some copy →
      c.robots.objects r = some copy ∨ copy.value.name = r ∧ r ≠ "" ∧ r ∈ c'.names)
    (names : ∀ r ∈ c.names, r ∈ c'.names) (cachedAction : c'.cachedAction = c.cachedAction)
    (cached : c'.cachedRobots = c.cachedRobots) (sent : c'.sent = c.sent) (mark : c'.mark = c.mark) :
    Wellformed settings c' where
  actions := actions ▸ wellformed.actions
  robots := issued
  robot := by
    intro r copy found
    rcases robot r copy found with before | named
    · obtain ⟨name, filled, known⟩ := wellformed.robot r copy before
      exact ⟨name, filled, names r known⟩
    · exact named
  cachedAction := by
    rw [cachedAction, actions]
    exact wellformed.cachedAction
  cachedRobot := by
    intro r copy found
    obtain ⟨earlier, name, filled, known⟩ := wellformed.cachedRobot r copy (cached ▸ found)
    exact ⟨earlier.advances advances, name, filled, names r known⟩
  sent := by
    rw [sent, mark]
    exact wellformed.sent

structure Moves (settings : Settings) (w w' : World) : Prop where
  sound : Sound settings w'
  drift : Drift settings w w'

variable {current : Versioned FleetAction}

namespace Moves

variable (sound : Sound settings w)
include sound

theorem said {events : List Event} {cluster : Cluster}
    (quiet : ∀ event ∈ events, event.quiet = true) (clock : clockOf (events ++ w.history) = cluster.now)
    (now_le : w.cluster.now ≤ cluster.now) (actions : cluster.actions = w.cluster.actions)
    (robots : cluster.robots = w.cluster.robots) (cached : cluster.cachedRobots = w.cluster.cachedRobots)
    (orphaned : cluster.orphaned = w.cluster.orphaned) (sent : cluster.sent = w.cluster.sent)
    (mark : w.cluster.mark ≤ cluster.mark)
    (wellformed : Wellformed settings cluster) : Moves settings w ⟨events ++ w.history, cluster⟩ := by
  have carries : Carries settings w ⟨events ++ w.history, cluster⟩ := .quiet quiet rfl robots cached
  have same : cluster.action = w.cluster.action := by rw [Cluster.action, actions]; rfl
  refine ⟨sound.carried carries (fun a' found => .inl ⟨a', same ▸ found, .refl _⟩)
    (fun none => .inl (same ▸ none)) wellformed ?_ (singleExecutor_quiet quiet sound.single),
    carries, now_le, .kept actions, robots ▸ .refl _, fun r => .inl (by rw [cached]), orphaned, sent, mark⟩
  exact sound.timely.later carries.horizon clock now_le fun t found => orphaned ▸ found

theorem still : Moves settings w w :=
  said sound (List.forall_mem_nil _) sound.timely.clock (Nat.le_refl _) rfl rfl rfl rfl rfl (Nat.le_refl _) sound.wellformed

theorem rewrite {a' : FleetAction} (stored : w.cluster.action = some current) (core : Core current.value a')
    (token : a'.assignmentGeneration = current.value.assignmentGeneration) :
    Moves settings w ⟨w.history, w.cluster.writeAction a'⟩ := by
  have carries : Carries settings w ⟨w.history, w.cluster.writeAction a'⟩ :=
    .quiet (List.forall_mem_nil _) rfl rfl rfl
  refine ⟨sound.carried carries (fun copy found => .inl ⟨current, stored, ?_⟩) (fun none => ?_)
    (sound.wellformed.writeAction a') ?_ sound.single, carries, Nat.le_refl _,
    .rewritten current a' stored core token rfl, .refl _, fun _ => .inl rfl, rfl, rfl, Nat.le_refl _⟩
  · rw [writeAction_action] at found
    cases found
    exact core
  · simp at none
  · exact sound.timely.kept rfl rfl

theorem robots {store : Store String FleetRobot} {names : List String}
    (advances : w.cluster.robots.Advances store) (issued : store.Issued)
    (robot : ∀ r copy, store.objects r = some copy →
      w.cluster.robots.objects r = some copy ∨ copy.value.name = r ∧ r ≠ "" ∧ r ∈ names)
    (known : ∀ r ∈ w.cluster.names, r ∈ names)
    (records : ∀ r, w.Records settings r → w.Off settings r ∨
      ∃ copy, store.objects r = some copy ∧ copy.value.assignedAction = settings.task) :
    Moves settings w ⟨w.history, { w.cluster with robots := store, names := names }⟩ := by
  have carries : Carries settings w ⟨w.history, { w.cluster with robots := store, names := names }⟩ :=
    .robots rfl rfl records
  refine ⟨sound.carried carries (fun a found => .inl ⟨a, found, .refl _⟩) .inl
    (sound.wellformed.robots_advance rfl advances issued robot known rfl rfl rfl rfl) ?_ sound.single,
    carries, Nat.le_refl _, .kept rfl, advances, fun _ => .inl rfl, rfl, rfl, Nat.le_refl _⟩
  exact sound.timely.kept rfl rfl

theorem robotWritten
    (name : value.name = r) (filled : r ≠ "") (listed : r ∈ names) (known : ∀ r ∈ w.cluster.names, r ∈ names)
    (record : w.Records settings r → w.Off settings r ∨ value.assignedAction = settings.task) :
    Moves settings w ⟨w.history, { w.cluster.writeRobot r value with names := names }⟩ := by
  refine @robots _ _ sound (w.cluster.robots.put r value) _ (Store.advances_put _ _ _)
    (sound.wellformed.robots.put _ _) ?_ known ?_
  · intro other copy found
    by_cases same : other = r
    · subst same
      rw [Store.put_objects] at found
      cases found
      exact .inr ⟨name, filled, listed⟩
    · rw [Store.put_objects_ne _ _ same] at found
      exact .inl found
  · intro other records
    by_cases same : other = r
    · subst same
      exact (record records).imp_right fun kept => ⟨_, Store.put_objects _ _ _, kept⟩
    · obtain ⟨copy, found, task⟩ := records
      exact .inr ⟨copy, (Store.put_objects_ne _ _ same).trans found, task⟩

theorem robotRewritten {current : Versioned FleetRobot} (value : FleetRobot)
    (stored : w.cluster.robots.objects r = some current) (name : value.name = current.value.name)
    (record : current.value.assignedAction = settings.task → w.Off settings r ∨ value.assignedAction = settings.task) :
    Moves settings w ⟨w.history, w.cluster.writeRobot r value⟩ := by
  obtain ⟨named, filled, listed⟩ := sound.wellformed.robot r current stored
  refine robotWritten sound (name.trans named) filled listed (fun _ => id) fun records => ?_
  obtain ⟨copy, found, task⟩ := records
  rw [stored] at found
  cases found
  exact record task

theorem robotRemoved (record : w.Records settings r → w.Off settings r) :
    Moves settings w ⟨w.history, { w.cluster with robots := w.cluster.robots.remove r }⟩ := by
  refine robots sound (Store.advances_remove _ _) (sound.wellformed.robots.remove _) ?_ (fun _ => id) ?_
  · intro other copy found
    rcases (Store.advances_remove w.cluster.robots r).fresh other copy found with before | _
    · exact .inl before
    by_cases same : other = r
    · subst same
      simp at found
    · exact .inl (Store.remove_objects_ne _ same ▸ found)
  · intro other records
    by_cases same : other = r
    · exact .inl (same ▸ record (same ▸ records))
    · obtain ⟨copy, found, task⟩ := records
      exact .inr ⟨copy, (Store.remove_objects_ne _ same).trans found, task⟩

theorem synced (follows : ∀ r, cached r = w.cluster.cachedRobots r ∨ cached r = w.cluster.robots.objects r) :
    Moves settings w ⟨w.history, { w.cluster with cachedRobots := cached }⟩ := by
  have carries : Carries settings w ⟨w.history, { w.cluster with cachedRobots := cached }⟩ :=
    .synced rfl rfl follows
  refine ⟨sound.carried carries (fun a found => .inl ⟨a, found, .refl _⟩) .inl ?_ ?_ sound.single,
    carries, Nat.le_refl _, .kept rfl, .refl _, follows, rfl, rfl, Nat.le_refl _⟩
  · refine { sound.wellformed with cachedRobot := fun r copy found => ?_ }
    rcases follows r with same | live
    · exact sound.wellformed.cachedRobot r copy (same ▸ found)
    · have stored : w.cluster.robots.objects r = some copy := live ▸ found
      exact ⟨sound.wellformed.robots.copyOf stored, sound.wellformed.robot r copy stored⟩
  · exact sound.timely.kept rfl rfl

theorem reported {news : Report}
    (stored : w.cluster.action = some current) (moves : news.movesFrom current.value.phase = true)
    (bound : current.value.assignedRobot ≠ "") (sent : current.value.assignmentGeneration ∈ w.cluster.sent) :
    Moves settings w
      ⟨(if news.ends then [.ended current.value.assignedRobot] else []) ++ w.history,
        w.cluster.writeAction (news.written w.cluster.now current.value)⟩ := by
  set a' := news.written w.cluster.now current.value with written
  set events : List Event := if news.ends then [.ended current.value.assignedRobot] else [] with saying
  have quiet : ∀ event ∈ events, event.quiet = true := by
    rw [saying]
    split <;> simp [Event.quiet]
  have clock : clockOf (events ++ w.history) = w.cluster.now := by
    rw [saying, ← sound.timely.clock]
    split <;> rfl
  have heard : Moves settings w ⟨events ++ w.history, w.cluster⟩ :=
    said sound quiet clock (Nat.le_refl _) rfl rfl rfl rfl rfl (Nat.le_refl _) sound.wellformed
  have same : a'.name = current.value.name ∧ a'.assignedRobot = current.value.assignedRobot ∧
      a'.leaseExpiresAt = current.value.leaseExpiresAt ∧ a'.phase ≠ .unset ∧ a'.phase ≠ .pending := by
    rw [written]
    cases news <;> simp [Report.written]
  obtain ⟨name, robot, lease, phase⟩ := same
  have accounted := heard.sound.action current stored
  -- A report that does not end the run leaves the robot bound in a phase that runs.
  have standing : (⟨events ++ w.history, w.cluster⟩ : World).Off settings current.value.assignedRobot ∨
      (∃ y, a'.leaseExpiresAt = some y) ∧ Standing settings ⟨events ++ w.history, w.cluster⟩ a' := by
    by_cases ends : news.ends = true
    · left
      rw [saying, if_pos ends]
      exact off_of_frees _ (by simp [Event.frees])
    rcases accounted.bound bound with off | ⟨⟨x, leased, _⟩, standing⟩
    · exact .inl off
    refine .inr ⟨⟨x, lease.trans leased⟩, ?_⟩
    have running : runs current.value.phase = true := by
      cases news <;> simp_all [Report.ends, Report.movesFrom] <;> rcases moves with h | h <;> simp [h, runs]
    have after : a'.phase = .inProgress ∨ a'.phase = .paused := by
      cases news <;> simp_all [Report.ends, Report.written]
    refine ⟨?_, ?_, fun _ => robot ▸ standing.records running, fun _ => robot ▸ standing.reaches running, ?_⟩ <;>
      rcases after with h | h <;> simp [h, rests]
  have kept := heard.sound.write (.inl robot) (fun y found => .inl (lease ▸ found)) (.inl lease)
    (accounted.rebind bound name robot phase standing)
  have none : leaseEvents current.value a' = [] := leaseEvents_same robot lease
  rw [World.written, none] at kept
  exact ⟨kept, .quiet quiet rfl rfl rfl, Nat.le_refl _, .reported current a' stored bound sent rfl, .refl _,
    fun _ => .inl rfl, rfl, rfl, Nat.le_refl _⟩

theorem created (absent : w.cluster.action = none) (spec : ActionSpec) : Moves settings w
      ⟨w.history, w.cluster.writeAction { name := settings.task, created := w.cluster.now, spec := spec }⟩ := by
  set a : FleetAction := { name := settings.task, created := w.cluster.now, spec := spec } with fresh
  have carries : Carries settings w ⟨w.history, w.cluster.writeAction a⟩ :=
    .quiet (List.forall_mem_nil _) rfl rfl rfl
  refine ⟨sound.carried carries (fun copy found => .inr ?_) nofun
    (sound.wellformed.writeAction a) ?_ sound.single, carries, Nat.le_refl _,
    .created a absent rfl rfl rfl rfl, .refl _, fun _ => .inl rfl, rfl, rfl, Nat.le_refl _⟩
  · rw [writeAction_action] at found
    cases found
    refine ⟨rfl, fun _ => rfl, fun _ => rfl, fun _ r => ?_, fun bound => absurd rfl bound, fun bound => absurd rfl bound⟩
    -- Every lease was written at most `maxLease` ahead of now.
    refine (sound.gone absent r).imp_right fun ⟨records, x, leased⟩ => ⟨records, x, leased, .inr ?_⟩
    exact ⟨w.cluster.now, by simp [moments, fresh], sound.timely.horizon r x leased⟩
  · exact sound.timely.kept rfl rfl

theorem removed (stored : w.cluster.action = some current) (founded : Act.delete.founded settings w.cluster = true) :
    Moves settings w ⟨w.history, { w.cluster with actions := w.cluster.actions.remove () }⟩ := by
  have carries : Carries settings w ⟨w.history, { w.cluster with actions := w.cluster.actions.remove () }⟩ :=
    .quiet (List.forall_mem_nil _) rfl rfl rfl
  have gone : ({ w.cluster with actions := w.cluster.actions.remove () } : Cluster).action = none := by
    simp [Cluster.action]
  refine ⟨sound.carried carries (fun a found => by rw [gone] at found; contradiction) (fun _ => .inr fun r => ?_)
    ?_ ?_ sound.single, carries, Nat.le_refl _, .removed rfl, .refl _, fun _ => .inl rfl, rfl, rfl, Nat.le_refl _⟩
  · have accounted := sound.action current stored
    by_cases free : current.value.assignedRobot = ""
    · refine (accounted.unbound free r).imp_right (.imp_right ?_)
      exact .imp fun _ => And.left
    by_cases same : r = current.value.assignedRobot
    · subst same
      rcases accounted.bound free with off | ⟨⟨x, _, leased⟩, standing⟩
      · exact .inl off
      by_cases running : runs current.value.phase = true
      · exact .inr ⟨standing.records running, x, leased⟩
      -- Preempted, or failed on an unconfirmed stop: the record or the lease decides.
      have phase : current.value.phase = .preempted ∨
          current.value.phase = .failed ∧ current.value.failureReason = reasonStopUnconfirmed := by
        have active := standing.active
        have failed := standing.failed
        cases known : current.value.phase <;> simp_all [runs, rests]
      simp only [Act.founded, stored, Bool.or_eq_true, Bool.and_eq_true, Bool.not_eq_true', beq_iff_eq] at founded
      rcases founded with (((other | records) | dead) | unbound) | ⟨_, _⟩
      · rcases phase with h | ⟨h, _⟩ <;> simp [h] at other
      · exact .inr ⟨World.recordsTask_iff.mp records, x, leased⟩
      · exact .inl (accounted.provablyDead (Nat.le_of_eq sound.timely.clock.symm) dead _)
      · exact absurd unbound free
      · rcases phase with h | ⟨_, h⟩ <;> simp_all
    · exact .inl (accounted.others free r same)
  · refine { sound.wellformed with actions := sound.wellformed.actions.remove _, cachedAction := fun copy found => ?_ }
    obtain ⟨earlier, name⟩ := sound.wellformed.cachedAction copy found
    exact ⟨earlier.advances (Store.advances_remove _ _), name⟩
  · exact sound.timely.kept rfl rfl

end Moves

theorem Sound.deletable (sound : Sound settings w) (stored : w.cluster.robots.objects r = some copy)
    (deletable : w.cluster.robotDeletable settings copy.value = true) (records : w.Records settings r) :
    w.Off settings r := by
  obtain ⟨_, same, record⟩ := records
  rw [stored] at same
  cases same
  obtain ⟨name, filled, _⟩ := sound.wellformed.robot r copy stored
  unfold Cluster.robotDeletable at deletable
  simp only [record, bne_self_eq_false, Bool.false_or] at deletable
  split at deletable
  · simp [deleteLosesKey] at deletable
  rename_i action held
  unfold deleteLosesKey at deletable
  simp only [Bool.false_eq_true, if_false] at deletable
  set input : Input :=
    { horizon := action.value.leaseExpiresAt, reference := referenceOf action.value
      recorders := [{ robot := copy.value.name }], now := w.cluster.now, skew := maxSkew } with guard
  have dispatchable : input.decide.dispatchable = true := by
    by_contra blocked
    rw [if_neg blocked] at deletable
    split at deletable <;> simp at deletable
  have proved := input.decided.proved (by simpa [Decision.dispatchable] using dispatchable)
    { robot := copy.value.name } (by simp [guard]) (by rw [name]; exact filled)
  have dead : input.leaseDead = true := by simpa [Input.Proved] using proved
  exact (sound.action action held).dead rfl rfl settings.admitted (Nat.le_of_eq sound.timely.clock.symm) dead r

theorem Act.moves (sound : Sound settings w) {move : Act}
    (free : move.byWorker = false) (founded : move.founded settings w.cluster = true)
    (taken : move.step settings w.cluster = some (cluster, events)) :
    Moves settings w ⟨events ++ w.history, cluster⟩ := by
  cases move with
  | tick =>
    cases taken
    refine .said sound (by simp [Event.quiet]) rfl ?_ rfl rfl rfl rfl rfl (Nat.le_refl _) ?_
    · exact Nat.le_add_right _ _
    · exact { sound.wellformed with }
  | syncAction =>
    cases taken
    refine .said sound (List.forall_mem_nil _) sound.timely.clock (Nat.le_refl _) rfl rfl rfl rfl rfl (Nat.le_refl _) ?_
    refine { sound.wellformed with cachedAction := fun copy found => ?_ }
    exact ⟨sound.wellformed.actions.copyOf found, (sound.action copy found).name⟩
  | syncRobot r =>
    cases taken
    refine .synced sound fun other => ?_
    by_cases same : other = r
    · exact .inr (by simp [same])
    · exact .inl (by simp [same])
  | create spec =>
    simp only [Act.step] at taken
    split at taken <;> try contradiction
    cases taken
    exact .created sound ‹_› spec
  | delete =>
    simp only [Act.step, Option.map_eq_some_iff] at taken
    obtain ⟨_, stored, same⟩ := taken
    cases same
    exact .removed sound stored founded
  | edit =>
    simp only [Act.step, Option.map_eq_some_iff] at taken
    obtain ⟨_, stored, same⟩ := taken
    cases same
    exact .rewrite sound stored ⟨rfl, rfl, rfl, rfl, rfl, fun _ member => member⟩ rfl
  | report =>
    simp only [Act.step] at taken
    split at taken <;> try contradiction
    split at taken <;> try contradiction
    rename_i current stored guarded
    cases taken
    exact .reported sound stored guarded.1 guarded.2.1 guarded.2.2
  | createRobot =>
    simp only [Act.step] at taken
    split at taken <;> try contradiction
    split at taken <;> try contradiction
    rename_i absent named
    cases taken
    refine .robotWritten sound rfl named List.mem_cons_self (fun _ => List.mem_cons_of_mem _) fun records => ?_
    obtain ⟨_, found, _⟩ := records
    rw [absent] at found
    contradiction
  | deleteRobot =>
    simp only [Act.step] at taken
    split at taken <;> try contradiction
    split at taken <;> try contradiction
    rename_i current stored deletable
    cases taken
    exact .robotRemoved sound (sound.deletable stored deletable)
  | robotStatus =>
    simp only [Act.step, Option.map_eq_some_iff] at taken
    obtain ⟨current, stored, same⟩ := taken
    cases same
    have name := (sound.wellformed.robot _ current stored).1
    exact .robotRewritten sound _ stored name.symm .inr
  | preempt | preemptCancel | preemptCompleted | take | free => simp [Act.byWorker] at free

theorem Sound.preempted (sound : Sound settings w)
    (stored : w.cluster.action = some current) (bound : current.value.assignedRobot ≠ "")
    (name : a'.name = current.value.name) (robot : a'.assignedRobot = current.value.assignedRobot)
    (lease : a'.leaseExpiresAt = current.value.leaseExpiresAt)
    (phase : a'.phase = .preempted ∨ a'.phase = .succeeded ∧ w.Off settings current.value.assignedRobot) :
    Sound settings ⟨w.history, w.cluster.writeAction a'⟩ := by
  have accounted := sound.action current stored
  have standing : w.Off settings current.value.assignedRobot ∨
      (∃ y, a'.leaseExpiresAt = some y) ∧ Standing settings w a' := by
    rcases phase with preempted | ⟨_, off⟩
    · refine (accounted.bound bound).imp_right fun ⟨⟨x, leased, _⟩, _⟩ => ⟨⟨x, lease.trans leased⟩, ?_⟩
      refine ⟨?_, ?_, ?_, ?_, ?_⟩ <;> simp [preempted, rests, runs]
    · exact .inl off
  have waits : a'.phase ≠ .unset ∧ a'.phase ≠ .pending := by
    rcases phase with h | ⟨h, _⟩ <;> simp [h]
  have kept := sound.write (.inl robot) (fun y found => .inl (lease ▸ found)) (.inl lease)
    (accounted.rebind bound name robot waits standing)
  rwa [World.written, leaseEvents_same robot lease] at kept

theorem Sound.taken (sound : Sound settings w) {current : Versioned FleetRobot}
    (value : FleetRobot) (same : value.name = current.value.name) (stored : w.cluster.robots.objects r = some current)
    (founded : (Act.take r other).founded settings w.cluster = true) :
    Sound settings ⟨w.history, w.cluster.writeRobot r value⟩ := by
  obtain ⟨named, filled, listed⟩ := sound.wellformed.robot r current stored
  have name : value.name = r := same.trans named
  simp only [Act.founded, Bool.or_eq_true, Bool.not_eq_true'] at founded
  by_cases records : w.Records settings r
  · have recorded := World.recordsTask_iff.mpr records
    replace founded := founded.resolve_left (by simp [recorded])
    split at founded <;> try contradiction
    rename_i action held
    simp only [Bool.and_eq_true, Bool.or_eq_true, bne_iff_ne, ne_eq, Bool.not_eq_true'] at founded
    obtain ⟨bound, elsewhere⟩ := founded
    have accounted := sound.action action held
    by_cases off : w.Off settings r
    · exact (Moves.robotRewritten sound value stored same fun _ => .inl off).sound
    -- The robot is the bound one, in a phase that does not rest on its record.
    have this : r = action.value.assignedRobot := by
      by_contra ne
      exact off (accounted.others bound r ne)
    have rest : runs action.value.phase = false := elsewhere.resolve_left (not_not.mpr this.symm)
    have advances : w.cluster.robots.Advances (w.cluster.robots.put r value) := Store.advances_put _ _ _
    refine ⟨fun a found => ?_, fun gone => ?_, ?_, ?_, sound.single⟩
    · have again : w.cluster.action = some a := found
      rw [held] at again
      cases again
      refine ⟨accounted.name, accounted.waiting, accounted.unleased, fun free => absurd free bound,
        accounted.others, fun _ => (accounted.bound bound).imp_right fun ⟨leased, standing⟩ => ⟨leased, ?_⟩⟩
      refine ⟨standing.active, standing.failed, ?_, ?_, fun revoking => ?_⟩
      · simp [rest]
      · simp [rest]
      · simp [revoking, runs] at rest
    · have absent : w.cluster.action = none := gone
      rw [held] at absent
      contradiction
    · refine sound.wellformed.robots_advance rfl advances (sound.wellformed.robots.put _ _) ?_ (fun _ => id) rfl rfl
        rfl rfl
      intro robot copy found
      rcases advances.fresh robot copy found with before | _
      · exact .inl before
      by_cases this : robot = r
      · subst this
        have put : some (⟨value, w.cluster.robots.next⟩ : Versioned FleetRobot) = some copy :=
          (Store.put_objects _ _ _).symm.trans found
        cases put
        exact .inr ⟨name, filled, listed⟩
      · exact .inl ((Store.put_objects_ne _ _ this).symm.trans found)
    · exact sound.timely.kept rfl rfl
  · exact (Moves.robotRewritten sound value stored same fun record => absurd ⟨current, stored, record⟩ records).sound

theorem Act.sound (sound : Sound settings w) {move : Act} {cluster : Cluster}
    (founded : move.founded settings w.cluster = true) (taken : move.step settings w.cluster = some (cluster, events)) :
    Sound settings ⟨events ++ w.history, cluster⟩ := by
  cases worker : move.byWorker with
  | false => exact (Act.moves sound worker founded taken).sound
  | true =>
    have heard : ∀ r, Sound settings ⟨[.acknowledged r] ++ w.history, w.cluster⟩ := fun r =>
      (@Moves.said _ _ sound [.acknowledged r] w.cluster (by simp [Event.quiet]) sound.timely.clock (Nat.le_refl _)
        rfl rfl rfl rfl rfl (Nat.le_refl _) sound.wellformed).sound
    cases move with
    | preempt =>
      simp only [Act.step] at taken
      split at taken <;> try contradiction
      split at taken <;> try contradiction
      rename_i current stored guarded
      cases taken
      exact sound.preempted stored guarded.1 rfl rfl rfl (.inl rfl)
    | preemptCancel r =>
      cases taken
      exact heard r
    | preemptCompleted r =>
      simp only [Act.step] at taken
      split at taken <;> try contradiction
      split at taken <;> try contradiction
      rename_i current stored guarded
      cases taken
      have teller : current.value.assignedRobot = r := by simpa [Act.founded, stored] using founded
      refine (heard r).preempted stored guarded.1 rfl rfl rfl (.inr ⟨rfl, ?_⟩)
      exact off_of_frees _ (by simp [Event.frees, teller])
    | take =>
      simp only [Act.step] at taken
      split at taken <;> try contradiction
      split at taken <;> try contradiction
      rename_i current stored different
      cases taken
      exact sound.taken _ rfl stored founded
    | free =>
      simp only [Act.step] at taken
      split at taken <;> try contradiction
      split at taken <;> try contradiction
      rename_i current stored different
      cases taken
      exact (Moves.robotRewritten sound (freed current.value) stored rfl fun record => absurd record different).sound
    | tick | syncAction | syncRobot | create | delete | edit | report | createRobot | deleteRobot | robotStatus =>
      simp [Act.byWorker] at worker

theorem Sound.restarted (sound : Sound settings w) : Sound settings ⟨w.history,
      { w.cluster with
        orphaned := none, cachedAction := w.cluster.action, cachedRobots := w.cluster.robots.objects }⟩ := by
  refine sound.carried (.synced rfl rfl fun r => .inr rfl) (fun a found => .inl ⟨a, found, .refl _⟩) .inl ?_ ?_
    sound.single
  · refine ⟨sound.wellformed.actions, sound.wellformed.robots, sound.wellformed.robot, ?_, ?_, sound.wellformed.sent⟩
    · exact fun copy found => ⟨sound.wellformed.actions.copyOf found, (sound.action copy found).name⟩
    · exact fun r copy found => ⟨sound.wellformed.robots.copyOf found, sound.wellformed.robot r copy found⟩
  · exact ⟨sound.timely.clock, sound.timely.horizon, fun t found => by simp at found⟩

end Swarmada.Controller
