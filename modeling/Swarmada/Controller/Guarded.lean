import Swarmada.Controller.Replies

namespace Swarmada.Controller

open Api Executorguard Transition

variable {settings : Settings} {w w' : World} {P : World → Prop}

def Grounds (basis : Option (Versioned FleetAction)) (w : World) : Prop :=
  ∀ original, basis = some original → w.cluster.action = some original

variable {basis : Option (Versioned FleetAction)}

theorem cleared (sound : Sound settings w)
    (off : Grounds basis w → w.Off settings copy.value.name)
    (founded : (Op.patchRobot basis copy (freed copy.value)).founded settings w.history w.cluster = true)
    (replied : Replied settings w (.patchRobot basis copy (freed copy.value)) reply w') : Moves settings w w' := by
  rcases replied with ⟨_, rfl⟩ | ⟨held, rfl⟩
  · exact .still sound
  have name : (freed copy.value).name = copy.value.name := rfl
  have other : (freed copy.value).assignedAction ≠ settings.task := Ne.symm settings.named
  rw [recordEvents, if_neg other, name]
  have gone : w.Off settings copy.value.name := by
    cases basis with
    | none => exact off fun _ same => by contradiction
    | some =>
      simp only [Op.founded, Bool.or_eq_true, beq_iff_eq, decide_eq_true_eq] at founded
      rcases founded with (same | told) | stored
      · exact absurd same other
      · exact off_of_toldOff told
      · exact off fun _ same => Option.some.inj same ▸ stored
  unfold Store.holds at held
  split at held <;> try contradiction
  rename_i current stored
  have named := (sound.wellformed.robot _ current stored).1
  exact .robotRewritten sound _ stored (name.trans named.symm) fun _ => Or.inl gone

theorem outline_clear (stable : Stable settings P)
    (off : ∀ w, Sound settings w → P w → Grounds basis w → w.Off settings copy.value.name) :
    Outline settings P (call (.patchRobot basis copy (freed copy.value))) fun _ => P := by
  refine .perform (fun _ => stable) fun w reply w' sound holds replied => ?_
  have moves := cleared sound (off w sound holds) replied.1 replied.2
  exact ⟨moves.sound, stable sound moves.drift holds⟩

theorem outline_getRobot (stable : Stable settings P) (robot : String) :
    Outline settings P (call (.getRobot robot)) fun reply w =>
      P w ∧ ∀ copy, reply = some copy → copy.value.name = robot :=
  outline_call rfl stable (fun _ => .const _) fun _ _ _ sound _ _ replied copy found =>
    (sound.wellformed.cachedRobot robot copy (replied.1 ▸ found)).2.1

theorem outline_releaseRecord (stable : Stable settings P)
    (off : ∀ w, Sound settings w → P w → Grounds basis w → w.Off settings robot) :
    Outline settings P (releaseRecord basis settings.task robot) fun _ => P := by
  refine (outline_getRobot stable robot).bind fun reply => .known fun named => ?_
  cases reply with
  | none => exact .pure fun _ _ holds => holds
  | some copy =>
    have name := named copy rfl
    dsimp only
    split
    · exact .pure fun _ _ holds => holds
    · exact outline_clear stable fun w sound holds grounds => name ▸ off w sound holds grounds

theorem outline_releaseRecords (stable : Stable settings P)
    (off : ∀ w, Sound settings w → P w → Grounds basis w → ∀ robot ∈ robots, w.Off settings robot) :
    Outline settings P (releaseRecords basis settings.task robots) fun _ => P := by
  induction robots with
  | nil => exact .pure fun _ _ holds => holds
  | cons robot rest ih =>
    refine (outline_releaseRecord stable fun w sound holds grounds =>
      off w sound holds grounds robot List.mem_cons_self).bind fun reply => ?_
    split
    · exact ih fun w sound holds grounds other member =>
        off w sound holds grounds other (List.mem_cons_of_mem _ member)
    · exact .pure fun _ _ holds => holds

theorem silent_stopCovering (robot : FleetRobot) : Silent (stopCovering robot) := by
  refine .bind (.call rfl) fun names => ?_
  repeat' split
  all_goals exact .pure _

theorem silent_stopNames (robot : FleetRobot) : Silent (stopNames robot) := by
  refine .bind (.call rfl) fun names => ?_
  split <;> exact .pure _

variable {original : Versioned FleetAction}

theorem Sound.off_of_not_records (sound : Sound settings w)
    (stored : w.cluster.action = some original) (other : r ≠ original.value.assignedRobot)
    (free : ¬ w.Records settings r) : w.Off settings r := by
  have accounted := sound.action original stored
  by_cases unbound : original.value.assignedRobot = ""
  · exact (accounted.unbound unbound r).resolve_right fun recorded => free recorded.1
  · exact accounted.others unbound r other

structure Found (settings : Settings) (basis : Option (Versioned FleetAction)) (listed : List (Versioned FleetRobot))
    (recorders : List Recorder) (w : World) : Prop where
  complete : ∀ original, basis = some original → While original (fun w => ∀ copy ∈ listed,
    copy.value.assignedAction = settings.task → copy.value.name ≠ original.value.assignedRobot →
      w.Off settings copy.value.name ∨ ∃ r ∈ recorders, r.robot = copy.value.name) w
  confirmed : ∀ r ∈ recorders, r.robot ≠ "" ∧ r.ended = false ∧ (r.cancelConfirmed = true → w.Off settings r.robot)

theorem Found.stable : Stable settings (Found settings basis listed recorders) := by
  intro w w' sound drift found
  refine ⟨fun original same => ?_, fun r member => ?_⟩
  · refine While.stable (fun v v' _ drift _ holds copy member record other => ?_) sound drift
      (found.complete original same)
    exact (holds copy member record other).imp_left (drift.carries.off _)
  · obtain ⟨named, open_, off⟩ := found.confirmed r member
    exact ⟨named, open_, fun confirmed => drift.carries.off _ (off confirmed)⟩

def OffWhile (settings : Settings) (basis : Option (Versioned FleetAction)) (robot : String) (w : World) : Prop :=
  ∀ original, basis = some original → robot ≠ original.value.assignedRobot →
    While original (fun w => w.Off settings robot) w

theorem OffWhile.stable : Stable settings (OffWhile settings basis robot) :=
  fun _ _ sound drift holds original same other =>
    While.stable (fun _ _ _ drift _ off => drift.carries.off _ off) sound drift (holds original same other)

theorem outline_recorder (stable : Stable settings P) (robot : String)
    (reads : ∀ original, basis = some original → ∀ w, P w → Reading original w) :
    Outline settings P (call (.getRobotLive robot)) fun reply w => (P w ∧
      ((∀ live, reply = some live → live.value.assignedAction ≠ settings.task) → OffWhile settings basis robot w)) ∧
        ∀ live, reply = some live → live.value.name = robot ∧ robot ≠ "" := by
  have lasting : ∀ reply : Option (Versioned FleetRobot), Stable settings fun w =>
      ((∀ live, reply = some live → live.value.assignedAction ≠ settings.task) → OffWhile settings basis robot w) ∧
        ∀ live, reply = some live → live.value.name = robot ∧ robot ≠ "" := fun reply w w' sound drift holds =>
    ⟨fun free => OffWhile.stable sound drift (holds.1 free), holds.2⟩
  refine (outline_call rfl stable lasting fun w reply w' sound holds _ replied => ⟨fun free => ?_, ?_⟩).weaken
    fun reply w both => ⟨⟨both.1, both.2.1⟩, both.2.2⟩
  · obtain ⟨rfl, rfl⟩ := replied
    intro original same other
    refine (reads original same w' holds).imp fun stored _ => sound.off_of_not_records stored other ?_
    exact fun ⟨copy, found, record⟩ => free copy found record
  · obtain ⟨rfl, rfl⟩ := replied
    intro live found
    have named := sound.wellformed.robot robot live found
    exact ⟨named.1, named.2.1⟩

theorem outline_recordersOf (name : action.name = settings.task)
    (bound : ∀ original, basis = some original → action.assignedRobot = original.value.assignedRobot)
    (listed : List (Versioned FleetRobot)) (stable : Stable settings P)
    (reads : ∀ original, basis = some original → ∀ w, P w → Reading original w) :
    Outline settings P (recordersOf action auth listed) fun recorders w =>
      P w ∧ Found settings basis listed recorders w := by
  -- The robots already asked are part of what the rest of the loop keeps.
  induction listed generalizing P with
  | nil =>
    refine .pure fun w _ holds => ⟨holds, fun original same => ?_, by simp⟩
    exact (reads original same w holds).imp fun _ _ => by simp
  | cons robot rest ih =>
    have skip : ∀ {Q : World → Prop}, Stable settings Q → (∀ w, Q w → P w) →
        (∀ w, Q w → robot.value.assignedAction = settings.task → OffWhile settings basis robot.value.name w) →
        Outline settings Q (recordersOf action auth rest) fun recorders w =>
          P w ∧ Found settings basis (robot :: rest) recorders w := by
      intro Q stableQ keeps off
      refine (ih stableQ fun original same w holds => reads original same w (keeps w holds)).weaken
        fun recorders w both => ⟨keeps w both.1, fun original same => ?_, both.2.confirmed⟩
      refine (both.2.complete original same).imp fun stored complete copy member record other => ?_
      rcases List.mem_cons.mp member with rfl | later
      · exact .inl ((off w both.1 record original same other).current stored)
      · exact complete copy later record other
    unfold recordersOf
    split
    next passed =>
      refine skip stable (fun _ => id) fun w _ record original same other => ?_
      rcases passed with elsewhere | bound'
      · exact absurd (record.trans name.symm) elsewhere
      · exact absurd (bound'.trans (bound original same)) other
    refine (outline_recorder stable robot.value.name reads).bind fun reply => .known fun named => ?_
    have lasting : Stable settings fun w => P w ∧
        ((∀ live, reply = some live → live.value.assignedAction ≠ settings.task) →
          OffWhile settings basis robot.value.name w) :=
      stable.and fun _ _ sound drift holds free => OffWhile.stable sound drift (holds free)
    cases reply with
    | none => exact skip lasting (fun _ => And.left) fun w holds _ => holds.2 (by simp)
    | some live =>
      obtain ⟨liveName, filled⟩ := named live rfl
      dsimp -zeta only
      split
      next free =>
        refine skip lasting (fun _ => And.left) fun w holds _ => holds.2 fun other same => ?_
        cases same
        exact name ▸ free
      refine ((silent_stopCovering live.value).outline stable).strengthen (fun _ _ both => both.1) |>.bind
        fun covered => ?_
      extract_lets -underBinder joined
      have kept : ∀ confirmed, Outline settings (fun w => P w ∧ (confirmed = true → w.Off settings live.value.name))
          (joined confirmed) fun recorders w => P w ∧ Found settings basis (robot :: rest) recorders w := by
        intro confirmed
        have stable' : Stable settings fun w => P w ∧ (confirmed = true → w.Off settings live.value.name) :=
          stable.and fun _ _ _ drift off yes => drift.carries.off _ (off yes)
        refine (ih stable' fun original same w holds => reads original same w holds.1).bind fun others => ?_
        refine .pure fun w _ holds => ⟨holds.1.1, fun original same => ?_, fun r member => ?_⟩
        · refine (holds.2.complete original same).imp fun _ complete copy member record other => ?_
          rcases List.mem_cons.mp member with rfl | later
          · exact .inr ⟨_, List.mem_cons_self, liveName⟩
          · refine (complete copy later record other).imp_right fun ⟨r, inOthers, this⟩ => ?_
            exact ⟨r, List.mem_cons_of_mem _ inOthers, this⟩
        · rcases List.mem_cons.mp member with rfl | later
          · exact ⟨liveName ▸ filled, rfl, holds.1.2⟩
          · exact holds.2.confirmed r later
      split
      · exact (kept false).strengthen fun w _ holds => ⟨holds, by simp⟩
      refine (outline_pushCancel stable live.value.name).bind fun (ok, disposition) => ?_
      refine (kept (ok && disposition != .stopUnconfirmed)).strengthen fun w _ holds => ⟨holds.1, ?_⟩
      exact fun confirmed => holds.2 (by simpa using confirmed)

def ListsRecords (settings : Settings) (original : Versioned FleetAction) (listed : List (Versioned FleetRobot))
    (w : World) : Prop :=
  ∀ r, r ≠ original.value.assignedRobot → w.Off settings r ∨
    ∃ copy ∈ listed, copy.value.name = r ∧ copy.value.assignedAction = settings.task

def OthersOff (settings : Settings) (original : Versioned FleetAction) (w : World) : Prop :=
  ∀ r, r ≠ original.value.assignedRobot → w.Off settings r

def Cleared (settings : Settings) (basis : Option (Versioned FleetAction)) (reply : Option Decision) (w : World) :
    Prop :=
  ∀ decision, reply = some decision → decision.wait = 0 → ∀ original, basis = some original →
    While original (OthersOff settings original) w

theorem Cleared.stable : Stable settings (Cleared settings basis reply) :=
  fun _ _ sound drift holds decision same none original current =>
    While.stable (fun _ _ _ drift _ off r other => drift.carries.off r (off r other)) sound drift
      (holds decision same none original current)

def Proves (settings : Settings) (action : FleetAction) (now skew : Nat) (w : World) : Prop :=
  ∀ input : Input, input.horizon = action.leaseExpiresAt → input.reference = referenceOf action → input.now = now →
    input.skew = skew → input.leaseDead = true → AllOff settings w

theorem outline_executorGate {basis : Option (Versioned FleetAction)} {action : FleetAction}
    {listed : List (Versioned FleetRobot)} {now skew : Nat} {auth : Bool} (name : action.name = settings.task)
    (bound : ∀ original, basis = some original → action.assignedRobot = original.value.assignedRobot)
    (stable : Stable settings P)
    (lists : ∀ original, basis = some original → ∀ w, P w → While original (ListsRecords settings original listed) w)
    (proves : ∀ w, Sound settings w → P w → Grounds basis w → Proves settings action now skew w) :
    Outline settings P (executorGate basis action listed now skew auth) fun reply w =>
      P w ∧ Cleared settings basis reply w := by
  have reads : ∀ original, basis = some original → ∀ w, P w → Reading original w :=
    fun original same w holds => (lists original same w holds).imp fun _ _ => trivial
  refine (outline_recordersOf name bound listed stable reads).bind fun recorders => ?_
  split
  next none =>
    refine .pure fun w _ holds => ⟨holds.1, fun _ _ _ original same => ?_⟩
    refine (lists original same w holds.1).imp fun stored shown r other => ?_
    rcases shown r other with off | ⟨copy, member, rfl, record⟩
    · exact off
    · refine ((holds.2.complete original same).current stored copy member record other).resolve_right ?_
      simp [none]
  · set input : Input :=
      { horizon := action.leaseExpiresAt, reference := referenceOf action, recorders := recorders, now := now
        skew := skew, moveAuthorized := auth } with guard
    have decided := input.decided
    -- The robot's own word, or the lease, puts a proved recorder off the action.
    have off : ∀ w, Sound settings w → P w ∧ Found settings basis listed recorders w → Grounds basis w →
        ∀ r ∈ recorders, input.Proved r → w.Off settings r.robot := by
      intro w sound holds grounds r member proof
      obtain ⟨_, open_, confirmed⟩ := holds.2.confirmed r member
      rcases proof with yes | ended | dead
      · exact confirmed yes
      · rw [open_] at ended
        contradiction
      · exact proves w sound holds.1 grounds input rfl rfl rfl rfl dead r.robot
    rw [name]
    refine (outline_releaseRecords (stable.and Found.stable) fun w sound holds grounds robot member => ?_).bind
      fun released => ?_
    · obtain ⟨r, inRecorders, rfl, proof⟩ := decided.released robot member
      exact off w sound holds grounds r inRecorders proof
    split
    · refine .pure fun w sound holds => ⟨holds.1, fun decision same none original current => ?_⟩
      cases same
      have proved := decided.proved (decided.waits none)
      refine (lists original current w holds.1).imp fun stored shown r other => ?_
      rcases shown r other with off' | ⟨copy, member, rfl, record⟩
      · exact off'
      rcases (holds.2.complete original current).current stored copy member record other with off' | ⟨found, inRecorders, this⟩
      · exact off'
      have filled := (holds.2.confirmed found inRecorders).1
      refine this ▸ off w sound holds (fun _ again => ?_) found inRecorders (proved found inRecorders filled)
      rw [current] at again
      cases again
      exact stored
    · exact .pure fun w _ holds => ⟨holds.1, nofun⟩

theorem Sound.proves (sound : Sound settings w) {action : FleetAction} (core : Core original.value action) (since : now ≤ w.cluster.now)
    (grounds : Grounds (some original) w) : Proves settings action now settings.skew w := by
  intro input horizon reference clock skew dead
  have carries : Carries settings w w := .quiet (List.forall_mem_nil _) rfl rfl rfl
  refine (carries.accounted core (sound.action original (grounds original rfl))).dead horizon reference
    (Nat.le_of_eq skew.symm) ?_ dead
  rw [clock, sound.timely.clock]
  exact since

theorem Sound.listsLive (sound : Sound settings w)
    (stored : w.cluster.action = some original) : ListsRecords settings original w.cluster.listLive w := by
  intro r other
  by_cases records : w.Records settings r
  · obtain ⟨copy, found, record⟩ := records
    obtain ⟨named, _, member⟩ := sound.wellformed.robot r copy found
    exact .inr ⟨copy, List.mem_filterMap.mpr ⟨r, member, found⟩, named, record⟩
  · exact .inl (sound.off_of_not_records stored other records)

theorem ListsRecords.stable : Stable settings (While original (ListsRecords settings original listed)) :=
  .stable fun _ _ _ drift _ shown r other => (shown r other).imp_left (drift.carries.off r)

theorem outline_recordersDecision
    (name : action.value.name = settings.task) (margin : skew = settings.skew) (stable : Stable settings P)
    (reads : ∀ w, P w → Reading action w ∧ Since now w) :
    Outline settings P (recordersDecision action now skew auth) fun reply w =>
      P w ∧ Cleared settings (some action) reply w := by
  have listing : Outline settings P (call .listRobotsLive) fun listed w =>
      P w ∧ While action (ListsRecords settings action listed) w := by
    refine outline_call rfl stable (fun _ => ListsRecords.stable) fun w listed w' sound holds _ replied => ?_
    obtain ⟨rfl, rfl⟩ := replied
    exact (reads w' holds).1.imp fun stored _ => sound.listsLive stored
  refine listing.bind fun listed => ?_
  refine (outline_executorGate name ?_ (stable.and ListsRecords.stable) ?_ ?_).weaken
    fun reply w both => ⟨both.1.1, both.2⟩
  · intro original same
    cases same
    rfl
  · intro original same w holds
    cases same
    exact holds.2
  · intro w sound holds grounds
    exact margin ▸ sound.proves (.refl _) (reads w holds.1).2.now_le grounds

theorem Sound.leased (sound : Sound settings w) (r : String) :
    w.Off settings r ∨ ∃ x, horizonOf r w.history = some x := by
  cases stored : w.cluster.action with
  | none => exact (sound.gone stored r).imp_right And.right
  | some action => exact (sound.action action stored).leased r

theorem Sound.orphaned (sound : Sound settings w) {orphaned : Option Nat}
    (bounded : ∀ t, orphaned = some t → ∀ r x, horizonOf r w.history = some x → x ≤ t + maxLease) :
    Sound settings ⟨w.history, { w.cluster with orphaned := orphaned }⟩ where
  action := fun a stored => Carries.accounted (.quiet (List.forall_mem_nil _) rfl rfl rfl) (.refl _) (sound.action a stored)
  gone := sound.gone
  wellformed := { sound.wellformed with }
  timely := ⟨sound.timely.clock, sound.timely.horizon, bounded⟩
  single := sound.single

theorem outline_forgetOrphan : Outline settings P (call .forgetOrphan) fun _ w => w.cluster.orphaned = none := by
  refine .perform (fun _ w w' _ drift none => drift.orphaned.trans none) fun w reply w' sound _ replied => ?_
  have forgotten : w' = ⟨w.history, { w.cluster with orphaned := none }⟩ := replied.2
  subst forgotten
  exact ⟨sound.orphaned nofun, rfl⟩

def LeasedBy (since : Nat) (w : World) : Prop := ∀ r x, horizonOf r w.history = some x → x ≤ since + maxLease

theorem LeasedBy.stable (since : Nat) : Stable settings (LeasedBy since) :=
  fun _ _ _ drift holds r x written => holds r x (drift.carries.horizon r ▸ written)

theorem outline_orphanedSince (now : Nat) :
    Outline settings (Since now) (call (.orphanedSince now)) fun since w => Since now w ∧ LeasedBy since w := by
  refine .perform (fun since => (Since.stable now).and (LeasedBy.stable since)) fun w since w' sound holds replied => ?_
  rcases replied.2 with ⟨before, rfl⟩ | ⟨first, rfl⟩
  · exact ⟨sound, holds, sound.timely.orphan since before⟩
  refine ⟨sound.orphaned fun t same => ?_, ⟨holds.now_le, holds.horizon⟩, ?_⟩
  · cases same
    exact holds.horizon
  · rw [first]
    exact holds.horizon

theorem outline_releaseOrphanedRecords :
    Keeps settings (fun _ => True) (releaseOrphanedRecords settings.task) := by
  have always : Stable settings fun _ => True := .const _
  refine (Silent.outline (.call rfl) always).bind fun reply => ?_
  cases reply with
  | some => exact .done
  | none =>
    refine (Silent.outline (.call rfl) always).bind fun robots => ?_
    split
    · exact outline_forgetOrphan.weaken fun _ _ _ => trivial
    refine (outline_now always).bind fun now => .strengthen ?_ fun _ _ both => both.2
    refine (outline_orphanedSince now).bind fun since => ?_
    have stable : Stable settings fun w => Since now w ∧ LeasedBy since w :=
      (Since.stable now).and (LeasedBy.stable since)
    refine (outline_leaseTimings stable).bind fun timings => .known fun admitted => ?_
    have gate := @outline_executorGate settings (fun w => Since now w ∧ LeasedBy since w) none
      { name := settings.task, created := since } robots now timings.skew false rfl (by simp) stable (by simp)
    refine (gate fun w sound holds _ => ?_).bind fun reply => ?_
    · -- The longest lease, counted from when the action was first missed, has run out.
      intro input horizon reference clock skew dead r
      rcases sound.leased r with off | ⟨x, written⟩
      · exact off
      have bound := holds.2 r x written
      have since_now := holds.1.now_le
      have passed : input.dead ≤ input.now := by simpa [Input.leaseDead] using dead
      have ends : input.dead = since + (maxLease + settings.skew) := by
        rw [Input.dead, horizon, reference, skew, admitted.skew]
        rfl
      refine off_of_lapsed (lapsed_of_le written ?_ (Nat.le_of_eq sound.timely.clock.symm))
      omega
    · cases reply with
      | none => exact .done
      | some =>
        dsimp only
        split
        · exact .done
        · exact outline_forgetOrphan.weaken fun _ _ _ => trivial

end Swarmada.Controller
