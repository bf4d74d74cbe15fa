import Swarmada.Controller.Executors

namespace Swarmada.Controller

open Api Executorguard Transition

structure World where
  history : List Event
  cluster : Cluster

def moments (a : FleetAction) : List (Option Nat) :=
  [some a.created, a.pendingSince, a.completionTime, a.failedAt]

/-- The guard's reference proves no lease dead before `horizon`. -/
def Bounded (a : FleetAction) (horizon : Nat) : Prop :=
  a.phase = .paused ∨ ∃ t, some t ∈ moments a ∧ horizon ≤ t + maxLease

theorem Bounded.reference (bounded : Bounded a horizon)
    (lease : a.leaseExpiresAt = none) (reference : referenceOf a = some t) : horizon ≤ t + maxLease := by
  unfold referenceOf at reference
  split at reference <;> try contradiction
  rename_i notHeld
  rcases bounded with paused | ⟨_, member, _⟩
  · exact absurd ⟨paused, lease⟩ notHeld
  obtain ⟨_, found, _⟩ := le_latest member
  rw [moments, reference] at found
  cases found
  omega

structure Core (a a' : FleetAction) : Prop where
  name : a'.name = a.name
  robot : a'.assignedRobot = a.assignedRobot
  phase : a'.phase = a.phase
  lease : a'.leaseExpiresAt = a.leaseExpiresAt
  reason : a'.failureReason = a.failureReason
  moments : ∀ t, some t ∈ moments a → some t ∈ moments a'

theorem Core.refl (a : FleetAction) : Core a a :=
  ⟨rfl, rfl, rfl, rfl, rfl, fun _ member => member⟩

theorem Core.bounded (core : Core a a') (bounded : Bounded a horizon) : Bounded a' horizon := by
  rcases bounded with paused | ⟨t, member, le⟩
  · exact .inl (core.phase.trans paused)
  · exact .inr ⟨t, core.moments t member, le⟩

def rests : ActionPhase → Bool
  | .unset | .pending | .succeeded | .cancelled => true
  | _ => false

namespace World

variable (settings : Settings)

def Off (w : World) (robot : String) : Prop := off settings.skew robot w.history = true

def Records (w : World) (robot : String) : Prop :=
  ∃ copy, w.cluster.robots.objects robot = some copy ∧ copy.value.assignedAction = settings.task

def CacheRecords (w : World) (robot : String) : Prop :=
  ∃ copy, w.cluster.cachedRobots robot = some copy ∧ copy.value.assignedAction = settings.task

def CacheReaches (w : World) (robot : String) : Prop :=
  ∃ copy, w.cluster.cachedRobots robot = some copy ∧
    (copy.value.assignedAction = settings.task ∨ lostPhase copy.value.phase = false)

def written (w : World) (a a' : FleetAction) : World :=
  { history := leaseEvents a a' ++ w.history, cluster := w.cluster.writeAction a' }

end World

structure Standing (settings : Settings) (w : World) (a : FleetAction) : Prop where
  active : rests a.phase = false
  failed : a.phase = .failed → a.failureReason = reasonStopUnconfirmed
  records : runs a.phase = true → w.Records settings a.assignedRobot
  reaches : runs a.phase = true → w.CacheReaches settings a.assignedRobot
  revoking : a.phase = .revoking → w.CacheRecords settings a.assignedRobot

structure Accounted (settings : Settings) (w : World) (a : FleetAction) : Prop where
  name : a.name = settings.task
  waiting : a.phase = .unset ∨ a.phase = .pending → a.assignedRobot = ""
  unleased : a.assignedRobot = "" → a.leaseExpiresAt = none
  unbound : a.assignedRobot = "" → ∀ r, w.Off settings r ∨
    w.Records settings r ∧ ∃ x, horizonOf r w.history = some x ∧ Bounded a x
  others : a.assignedRobot ≠ "" → ∀ r, r ≠ a.assignedRobot → w.Off settings r
  bound : a.assignedRobot ≠ "" → w.Off settings a.assignedRobot ∨
    (∃ x, a.leaseExpiresAt = some x ∧ horizonOf a.assignedRobot w.history = some x) ∧ Standing settings w a

structure Carries (settings : Settings) (w w' : World) : Prop where
  off : ∀ r, w.Off settings r → w'.Off settings r
  horizon : ∀ r, horizonOf r w'.history = horizonOf r w.history
  records : ∀ r, w.Records settings r → w'.Off settings r ∨ w'.Records settings r
  reaches : ∀ r, w.Records settings r → w.CacheReaches settings r →
    w'.Off settings r ∨ w'.CacheReaches settings r
  cacheRecords : ∀ r, w.Records settings r → w.CacheRecords settings r →
    w'.Off settings r ∨ w'.CacheRecords settings r

variable {settings : Settings} {w w' : World} {a a' : FleetAction}

theorem World.CacheRecords.reaches (records : w.CacheRecords settings r) : w.CacheReaches settings r := by
  obtain ⟨copy, found, record⟩ := records
  exact ⟨copy, found, .inl record⟩

namespace Carries

theorem standing (carries : Carries settings w w') (core : Core a a') (standing : Standing settings w a) :
    w'.Off settings a'.assignedRobot ∨ Standing settings w' a' := by
  rw [or_iff_not_imp_left, core.robot]
  intro still
  refine ⟨core.phase ▸ standing.active, ?_, ?_, ?_, ?_⟩ <;> rw [core.phase]
  · exact fun failed => core.reason.trans (standing.failed failed)
  · rw [core.robot]
    exact fun running => (carries.records _ (standing.records running)).resolve_left still
  · rw [core.robot]
    exact fun running =>
      (carries.reaches _ (standing.records running) (standing.reaches running)).resolve_left still
  · rw [core.robot]
    intro revoking
    have running : runs a.phase = true := by rw [revoking]; rfl
    exact (carries.cacheRecords _ (standing.records running) (standing.revoking revoking)).resolve_left still

theorem accounted (carries : Carries settings w w') (core : Core a a') (accounted : Accounted settings w a) :
    Accounted settings w' a' where
  name := core.name.trans accounted.name
  waiting := by rw [core.phase, core.robot]; exact accounted.waiting
  unleased := by rw [core.robot, core.lease]; exact accounted.unleased
  unbound := by
    rw [core.robot]
    intro free r
    rcases accounted.unbound free r with off | ⟨records, x, written, bounded⟩
    · exact .inl (carries.off r off)
    · exact (carries.records r records).imp_right fun records' =>
        ⟨records', x, (carries.horizon r).trans written, core.bounded bounded⟩
  others := by
    rw [core.robot]
    exact fun bound r other => carries.off r (accounted.others bound r other)
  bound := by
    intro bound
    rw [core.robot] at bound
    rcases accounted.bound bound with off | ⟨⟨x, lease, written⟩, standing⟩
    · rw [core.robot]
      exact .inl (carries.off _ off)
    refine (carries.standing core standing).imp_right fun standing' => ⟨⟨x, core.lease.trans lease, ?_⟩, standing'⟩
    rw [core.robot]
    exact (carries.horizon _).trans written

end Carries

theorem not_recorded_leaseEvents (a a' : FleetAction) (robot : String) :
    ∀ event ∈ leaseEvents a a', event ≠ .recorded robot := by
  unfold leaseEvents
  repeat' split
  all_goals simp

theorem World.Off.written (off : w.Off settings r) (a a' : FleetAction) : (w.written a a').Off settings r :=
  off_append (not_recorded_leaseEvents a a' r) off

theorem leaseEvents_unbound (unbound : a'.assignedRobot = "") : leaseEvents a a' = [] := by
  unfold leaseEvents
  split <;> simp [unbound]

theorem leaseEvents_same (robot : a'.assignedRobot = a.assignedRobot) (lease : a'.leaseExpiresAt = a.leaseExpiresAt) :
    leaseEvents a a' = [] := by
  unfold leaseEvents
  rw [robot, lease]
  split
  · rfl
  · by_cases unbound : a.assignedRobot = "" <;> simp [*]

theorem horizonOf_written (robot : a'.assignedRobot = a.assignedRobot) (bound : a.assignedRobot ≠ "")
    (lease : a'.leaseExpiresAt = some y)
    (before : ∀ x, a.leaseExpiresAt = some x → horizonOf a.assignedRobot w.history = some x) :
    horizonOf a.assignedRobot (w.written a a').history = some y := by
  unfold World.written leaseEvents
  simp only [lease, robot, bound, if_false]
  by_cases same : a.leaseExpiresAt = some y
  · simpa [same] using before y same
  · simp [same, horizonOf]

namespace Accounted

variable (accounted : Accounted settings w a)
include accounted

theorem dead {input : Input} (horizon : input.horizon = a.leaseExpiresAt)
    (reference : input.reference = referenceOf a) (skew : settings.skew ≤ input.skew)
    (clock : input.now ≤ clockOf w.history) (dead : input.leaseDead = true) (r : String) : w.Off settings r := by
  have passed : input.dead ≤ input.now := by simpa [Input.leaseDead] using dead
  have lapses : ∀ x, horizonOf r w.history = some x → x + input.skew ≤ input.dead → w.Off settings r := by
    intro x written le
    refine off_of_lapsed (lapsed_of_le written ?_ clock)
    omega
  by_cases free : a.assignedRobot = ""
  · rcases accounted.unbound free r with off | ⟨_, x, written, bounded⟩
    · exact off
    have none := accounted.unleased free
    refine lapses x written ?_
    unfold Input.dead at passed ⊢
    simp only [horizon, none, reference] at passed ⊢
    cases known : referenceOf a with
    | none =>
      have positive : 0 < maxLease := by decide
      rw [known] at passed
      simp only at passed
      omega
    | some =>
      have le := bounded.reference none known
      simp only
      omega
  · by_cases same : r = a.assignedRobot
    · subst same
      rcases accounted.bound free with off | ⟨⟨x, lease, written⟩, _⟩
      · exact off
      · exact lapses x written (by simp [Input.dead, horizon, lease])
    · exact accounted.others free r same

theorem provablyDead (clock : now ≤ clockOf w.history)
    (dead : leaseProvablyDead a.leaseExpiresAt now settings.skew = true) (r : String) : w.Off settings r := by
  obtain ⟨x, lease, passed⟩ := leaseProvablyDead_iff.mp dead
  let input : Input :=
    { horizon := a.leaseExpiresAt, reference := referenceOf a, recorders := [], now := now, skew := settings.skew }
  have ended : input.leaseDead = true := by simpa [input, Input.leaseDead, Input.dead, lease] using passed
  exact accounted.dead rfl rfl (Nat.le_refl _) clock ended r

theorem kept (core : Core a a') : Accounted settings (w.written a a') a' := by
  refine Carries.accounted ⟨fun r off => off.written a a', fun r => ?_, ?_, ?_, ?_⟩ core accounted
  · rw [World.written, leaseEvents_same core.robot core.lease]
    rfl
  · exact fun r records => .inr records
  · exact fun r _ reaches => .inr reaches
  · exact fun r _ records => .inr records

theorem leased (r : String) : w.Off settings r ∨ ∃ x, horizonOf r w.history = some x := by
  by_cases free : a.assignedRobot = ""
  · exact (accounted.unbound free r).imp_right fun ⟨_, x, written, _⟩ => ⟨x, written⟩
  by_cases same : r = a.assignedRobot
  · subst same
    exact (accounted.bound free).imp_right fun ⟨⟨x, _, written⟩, _⟩ => ⟨x, written⟩
  · exact .inl (accounted.others free r same)

theorem unbind (left : a.assignedRobot ≠ "" → w.Off settings a.assignedRobot ∨ w.Records settings a.assignedRobot)
    (name : a'.name = a.name) (unbound : a'.assignedRobot = "") (lease : a'.leaseExpiresAt = none)
    (bounded : ∀ r x, horizonOf r w.history = some x → w.Off settings r ∨ Bounded a' x) :
    Accounted settings (w.written a a') a' where
  name := name.trans accounted.name
  waiting := fun _ => unbound
  unleased := fun _ => lease
  unbound := by
    intro _ r
    have kept : w.Off settings r ∨ w.Records settings r := by
      by_cases free : a.assignedRobot = ""
      · exact (accounted.unbound free r).imp_right And.left
      by_cases same : r = a.assignedRobot
      · exact same ▸ left free
      · exact .inl (accounted.others free r same)
    rcases kept with off | records
    · exact .inl (off.written a a')
    rcases accounted.leased r with off | ⟨x, written⟩
    · exact .inl (off.written a a')
    refine (bounded r x written).imp (·.written a a') fun bounded' => ⟨records, x, ?_, bounded'⟩
    rw [World.written, leaseEvents_unbound unbound]
    exact written
  others := fun bound => absurd unbound bound
  bound := fun bound => absurd unbound bound

theorem rebind (bound : a.assignedRobot ≠ "") (name : a'.name = a.name)
    (robot : a'.assignedRobot = a.assignedRobot) (phase : a'.phase ≠ .unset ∧ a'.phase ≠ .pending)
    (standing : w.Off settings a.assignedRobot ∨ (∃ y, a'.leaseExpiresAt = some y) ∧ Standing settings w a') :
    Accounted settings (w.written a a') a' where
  name := name.trans accounted.name
  waiting := fun waits => absurd waits (not_or.mpr phase)
  unleased := fun free => absurd (robot ▸ free) bound
  unbound := fun free => absurd (robot ▸ free) bound
  others := fun _ r other => (accounted.others bound r (robot ▸ other)).written a a'
  bound := by
    intro _
    rw [robot]
    rcases standing with off | ⟨⟨y, lease⟩, standing⟩
    · exact .inl (off.written a a')
    rcases accounted.bound bound with off | ⟨⟨x, before, written⟩, _⟩
    · exact .inl (off.written a a')
    refine .inr ⟨⟨y, lease, horizonOf_written robot bound lease ?_⟩, standing.1, standing.2, standing.3,
      standing.4, standing.5⟩
    intro z found
    rw [written, ← before, found]

end Accounted

structure Wellformed (settings : Settings) (c : Cluster) : Prop where
  actions : c.actions.Issued
  robots : c.robots.Issued
  robot : ∀ r copy, c.robots.objects r = some copy → copy.value.name = r ∧ r ≠ "" ∧ r ∈ c.names
  cachedAction : ∀ copy, c.cachedAction = some copy → c.actions.CopyOf () copy ∧ copy.value.name = settings.task
  cachedRobot : ∀ r copy, c.cachedRobots r = some copy →
    c.robots.CopyOf r copy ∧ copy.value.name = r ∧ r ≠ "" ∧ r ∈ c.names
  sent : ∀ token ∈ c.sent, token ≤ c.mark

structure Timely (w : World) : Prop where
  clock : clockOf w.history = w.cluster.now
  horizon : ∀ r x, horizonOf r w.history = some x → x ≤ w.cluster.now + maxLease
  orphan : ∀ t, w.cluster.orphaned = some t → ∀ r x, horizonOf r w.history = some x → x ≤ t + maxLease

structure Sound (settings : Settings) (w : World) : Prop where
  action : ∀ a, w.cluster.action = some a → Accounted settings w a.value
  gone : w.cluster.action = none → ∀ r, w.Off settings r ∨
    w.Records settings r ∧ ∃ x, horizonOf r w.history = some x
  wellformed : Wellformed settings w.cluster
  timely : Timely w
  single : SingleExecutor settings.skew w.history

theorem Wellformed.writeAction (wellformed : Wellformed settings c) (a' : FleetAction) :
    Wellformed settings (c.writeAction a') where
  actions := wellformed.actions.put _ _
  robots := wellformed.robots
  robot := wellformed.robot
  cachedAction := fun copy found =>
    ⟨(wellformed.cachedAction copy found).1.advances (Store.advances_put _ _ _), (wellformed.cachedAction copy found).2⟩
  cachedRobot := wellformed.cachedRobot
  sent := wellformed.sent

@[simp] theorem writeAction_action (c : Cluster) (a' : FleetAction) :
    (c.writeAction a').action = some ⟨a', c.actions.next⟩ := by
  simp [Cluster.writeAction, Cluster.action]

theorem leaseEvents_cases (robot : a'.assignedRobot = a.assignedRobot ∨ a'.assignedRobot = "") : leaseEvents a a' = [] ∨
      ∃ y, a'.leaseExpiresAt = some y ∧ a.leaseExpiresAt ≠ some y ∧
        leaseEvents a a' = [.leased a'.assignedRobot y] := by
  by_cases unbound : a'.assignedRobot = ""
  · exact .inl (leaseEvents_unbound unbound)
  have same := robot.resolve_right unbound
  unfold leaseEvents
  split
  · exact .inl rfl
  rename_i y lease
  by_cases kept : a.leaseExpiresAt = some y
  · simp [kept, ← same, unbound]
  · simp [kept, ← same, unbound, lease]

theorem Sound.write {original : Versioned FleetAction} (sound : Sound settings w)
    (robot : a'.assignedRobot = original.value.assignedRobot ∨ a'.assignedRobot = "")
    (lease : ∀ y, a'.leaseExpiresAt = some y →
      original.value.leaseExpiresAt = some y ∨ y ≤ w.cluster.now + maxLease)
    (known : a'.leaseExpiresAt = original.value.leaseExpiresAt ∨ w.cluster.orphaned = none)
    (accounted : Accounted settings (w.written original.value a') a') :
    Sound settings (w.written original.value a') where
  action := by
    intro copy found
    simp only [World.written, writeAction_action, Option.some.injEq] at found
    exact found ▸ accounted
  gone := by
    intro none
    simp [World.written] at none
  wellformed := sound.wellformed.writeAction a'
  timely := by
    refine ⟨(clockOf_leaseEvents _ _ _).trans sound.timely.clock, fun r x found => ?_, fun t found r x written => ?_⟩
    · rcases leaseEvents_cases robot with none | ⟨y, new, fresh, event⟩
      · rw [World.written, none] at found
        exact sound.timely.horizon r x found
      rw [World.written, event] at found
      simp only [List.cons_append, List.nil_append, horizonOf] at found
      split at found
      · cases found
        exact (lease x new).resolve_left fresh
      · exact sound.timely.horizon r x found
    · have since : w.cluster.orphaned = some t := found
      rcases leaseEvents_cases robot with none | ⟨y, new, fresh, _⟩
      · rw [World.written, none] at written
        exact sound.timely.orphan t since r x written
      rcases known with same | none
      · exact absurd (same ▸ new) fresh
      · rw [since] at none
        contradiction
  single := by
    rcases leaseEvents_cases robot with none | ⟨y, _, _, event⟩
    · rw [World.written, none]
      exact sound.single
    · rw [World.written, event]
      exact ⟨fun r gives => by simp [Event.gives] at gives, sound.single⟩

end Swarmada.Controller
