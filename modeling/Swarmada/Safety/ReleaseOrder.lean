import Swarmada.Safety.WriteLock

namespace Swarmada.Safety

open Api Transition

variable {derive : Option (Robot → List CapabilityStatusEntry)} {me : Nat} {shared after : Shared}

def issuedStops : List Event → List Nat
  | [] => []
  | .issued .trigger epoch :: older => epoch :: issuedStops older
  | _ :: older => issuedStops older

def stopsBeforeRead (thread : Nat) : List Event → List Nat
  | [] => []
  | .read reader :: older =>
    if reader = thread then issuedStops older else stopsBeforeRead thread older
  | _ :: older => stopsBeforeRead thread older

/-- A write of Resuming or Normal follows every trigger that was issued before the
attempt read the Robot. -/
def ReleaseInOrder (older : List Event) (event : Event) : Prop :=
  ∀ thread kind epoch state, event = .wrote thread kind epoch state →
    isEstopRelease state = true → ∀ stop ∈ stopsBeforeRead thread older, stop ≤ epoch

def Thread.awaitsRead : Thread → Bool
  | .write (.reading _ state _) => isEstopRelease state
  | _ => false

def Thread.retryUnsuperseded (order : EstopOrder) : Thread → Bool
  | .write (.backoff call state _) => !isEstopRelease state || order.lastStop ≤ call.epoch
  | _ => true

/-- No trigger takes its epoch between the lock of a release's attempt and the attempt's
read, and no retry of a release begins once a later trigger has been issued. -/
def ReleasesChecked (_ : List Event) (config : Config Shared Thread) (label : Nat × Act) : Prop :=
  (match label.2 with
    | .trigger => config.shared.writer.all fun holder => !(config.threads holder).awaitsRead
    | _ => true) = true ∧
  (config.threads label.1).retryUnsuperseded config.shared.order = true

instance (history : List Event) (config : Config Shared Thread) (label : Nat × Act) :
    Decidable (ReleasesChecked history config label) :=
  inferInstanceAs (Decidable (_ ∧ _))

variable {history : List Event}

theorem stopsBeforeRead_subset (member : stop ∈ stopsBeforeRead thread history) : stop ∈ issuedStops history := by
  fun_induction stopsBeforeRead thread history with
  | case1 => contradiction
  | case2 => exact member
  | case3 reader older different ih => exact ih member
  | case4 event older unread ih =>
    cases event with
    | issued kind =>
      cases kind with
      | trigger => exact List.mem_cons_of_mem _ (ih member)
      | resume | clear => exact ih member
    | read reader => exact absurd rfl (unread reader)
    | _ => exact ih member

theorem stopsBeforeRead_append {thread : Nat} {events history : List Event} (unread : .read thread ∉ events) :
    stopsBeforeRead thread (events ++ history) = stopsBeforeRead thread history := by
  induction events with
  | nil => rfl
  | cons event events ih =>
    have rest := ih fun member => unread (List.mem_cons_of_mem _ member)
    cases event with
    | read reader =>
      have other : reader ≠ thread := fun same => unread (same ▸ List.mem_cons_self)
      simpa [stopsBeforeRead, other] using rest
    | _ => exact rest

variable {thread next : Thread} {act : Act} {events : List Event}

variable (move : Move derive me shared thread act after next events)

include move in
theorem Move.reads_own (different : other ≠ me) : .read other ∉ events := by
  cases move with
  | write move =>
    cases move with
    | read => simpa using different
    | refused _ warned => rcases warned with rfl | rfl <;> simp
    | found => split <;> simp
    | _ => simp
  | clear move =>
    cases move with
    | read => simpa using different
    | _ => simp
  | record move =>
    cases move with
    | finished full => rcases full with rfl | ⟨_, rfl⟩ <;> simp
    | _ => simp
  | _ => simp

include move in
theorem Move.lastStop :
    act = .trigger ∧ events = [.issued .trigger (shared.order.issued + 1)] ∧ next.awaitsRead = false ∧
        after.order = shared.order.issueEstopEpoch true ∨
      after.order.lastStop = shared.order.lastStop ∧ shared.order.issued ≤ after.order.issued ∧
        ∀ history, issuedStops (events ++ history) = issuedStops history := by
  cases move with
  | triggered => exact .inl ⟨rfl, rfl, rfl, rfl⟩
  | confirming | clearing => exact .inr ⟨rfl, Nat.le_succ _, fun _ => rfl⟩
  | write move =>
    cases move with
    | refused _ warned =>
      rcases warned with rfl | rfl <;> exact .inr ⟨rfl, Nat.le_refl _, fun _ => rfl⟩
    | @found state =>
      refine .inr ?_
      by_cases stopped : state = .stopped <;>
        simp [EstopOrder.found, stopped, issuedStops]
    | _ => exact .inr ⟨rfl, Nat.le_refl _, fun _ => rfl⟩
  | clear move => cases move <;> exact .inr ⟨rfl, Nat.le_refl _, fun _ => rfl⟩
  | record move =>
    cases move with
    | finished full =>
      rcases full with rfl | ⟨_, rfl⟩ <;> exact .inr ⟨by simp, by simp, fun _ => rfl⟩
    | edited => exact .inr ⟨by simp, by simp, fun _ => rfl⟩
    | _ => exact .inr ⟨rfl, Nat.le_refl _, fun _ => rfl⟩
  | @fence fencer => cases fencer <;> exact .inr ⟨rfl, Nat.le_refl _, fun _ => rfl⟩
  | _ => exact .inr ⟨rfl, Nat.le_refl _, fun _ => rfl⟩

structure EpochsIssued (history : List Event) (shared : Shared) : Prop where
  stops : ∀ stop ∈ issuedStops history, stop ≤ shared.order.lastStop
  last : shared.order.lastStop ≤ shared.order.issued
  releases : Always ReleaseInOrder history

def ReleaseOrdered (history : List Event) (shared : Shared) (me : Nat) : Thread → Prop
  | .write (.reading call state _) => isEstopRelease state = true → shared.order.lastStop ≤ call.epoch
  | .write (.deciding call state _ _) | .write (.patching call state _ _ _) =>
    isEstopRelease state = true → ∀ stop ∈ stopsBeforeRead me history, stop ≤ call.epoch
  | .clear (.guarding call _ _) | .clear (.marking call _ _) | .clear (.patching call _ _) =>
    ∀ stop ∈ stopsBeforeRead me history, stop ≤ call.epoch
  | _ => True

include move in
theorem Move.releases (ordered : ReleaseOrdered history shared me thread) (releases : Always ReleaseInOrder history) :
    Always ReleaseInOrder (events ++ history) := by
  have quiet (unwritten : ∀ event ∈ events, ∀ thread kind epoch state,
      event ≠ .wrote thread kind epoch state) : Always ReleaseInOrder (events ++ history) :=
    releases.extend fun event member older thread kind epoch state written =>
      absurd written (unwritten event member _ _ _ _)
  cases move with
  | write move =>
    cases move with
    | landed =>
      refine ⟨fun thread kind epoch state written release => ?_, releases⟩
      obtain ⟨rfl, rfl, rfl, rfl⟩ := Event.wrote.inj written
      exact ordered release
    | refused _ warned => exact quiet (by rcases warned with rfl | rfl <;> simp)
    | found => exact quiet (by split <;> simp)
    | _ => exact quiet (by simp)
  | clear move =>
    cases move with
    | landed =>
      refine ⟨fun thread kind epoch state written release => ?_, ?_, releases⟩
      · obtain ⟨rfl, rfl, rfl, rfl⟩ := Event.wrote.inj written
        exact ordered
      · intro thread kind epoch state written
        contradiction
    | _ => exact quiet (by simp)
  | record move =>
    cases move with
    | finished full => exact quiet (by rcases full with rfl | ⟨_, rfl⟩ <;> simp)
    | _ => exact quiet (by simp)
  | _ => exact quiet (by simp)

include move in
theorem Move.epochsIssued (ordered : ReleaseOrdered history shared me thread) (epochs : EpochsIssued history shared) :
    EpochsIssued (events ++ history) after := by
  refine ⟨?_, ?_, move.releases ordered epochs.releases⟩
  · rcases move.lastStop with ⟨-, rfl, -, issued⟩ | ⟨same, -, kept⟩
    · intro stop member
      rw [issued]
      rcases List.mem_cons.mp member with rfl | older
      · exact Nat.le_refl _
      · exact Nat.le_succ_of_le (Nat.le_trans (epochs.stops stop older) epochs.last)
    · rw [same, kept]
      exact epochs.stops
  · rcases move.lastStop with ⟨-, -, -, issued⟩ | ⟨same, grows, -⟩
    · rw [issued]
      exact Nat.le_refl _
    · rw [same]
      exact Nat.le_trans epochs.last grows

include move in
theorem Move.releaseOrdered (epochs : EpochsIssued history shared) (ordered : ReleaseOrdered history shared me thread)
    (retries : thread.retryUnsuperseded shared.order = true) : ReleaseOrdered (events ++ history) after me next := by
  have returns (call : Call) (state : RobotEstopState) :
      ReleaseOrdered (events ++ history) after me (continueAs .write (call.returned state)) := by
    rcases call.returned_cases state with finished | ⟨_, waiting, -⟩
    · rw [finished]
      trivial
    · rw [waiting]
      trivial
  cases move with
  | write move =>
    cases move with
    | entered _ admitted =>
      intro release
      simpa [orderRefuses, release, EstopOrder.supersededByLaterStop] using admitted
    | read =>
      intro release stop member
      have before : stop ∈ issuedStops history := by simpa [stopsBeforeRead] using member
      exact Nat.le_trans (epochs.stops stop before) (ordered release)
    | planned => exact ordered
    | relocked =>
      intro release
      simpa [Thread.retryUnsuperseded, release] using retries
    | unwritten | refused | stood | found | landed | abandoned => exact returns _ _
    | _ => trivial
  | clear move =>
    cases move with
    | @locked call _ _ _ latest =>
      intro stop member
      have before := epochs.stops stop (stopsBeforeRead_subset member)
      have unsuperseded : shared.order.lastStop ≤ call.epoch := by
        simpa [EstopOrder.supersededByLaterStop] using latest
      exact Nat.le_trans before unsuperseded
    | planned | marked => exact ordered
    | _ => trivial
  | record move => cases move <;> trivial
  | clearing led => rcases led with rfl | rfl <;> trivial
  | _ => trivial

include move in
/-- Another thread's move leaves a release the order it relies on: it reads nothing for
it, and issues no trigger while the release awaits its read. -/
theorem Move.releaseOrdered_other (different : other ≠ me) (ordered : ReleaseOrdered history shared other theirs)
    (untriggered : act = .trigger → theirs.awaitsRead = false) :
    ReleaseOrdered (events ++ history) after other theirs := by
  have reads := @stopsBeforeRead_append other events history (move.reads_own different)
  unfold ReleaseOrdered at ordered ⊢
  split
  · intro release
    rcases move.lastStop with ⟨issued, -⟩ | ⟨same, -⟩
    · have quiet := untriggered issued
      simp [Thread.awaitsRead, release] at quiet
    · rw [same]
      exact ordered release
  all_goals simp_all

/-- Each release follows every stop issued before its attempt's read, when no trigger comes between an attempt's lock
and its read and no retry begins after a later trigger. -/
theorem releases_follow_stops (robot : Robot) {history : List Event} {config : Config Shared Thread}
    (run : (dispatchers derive).machine.Reaches ReleasesChecked (takeover robot) history config) :
    Always ReleaseInOrder history := by
  refine (Pool.assertions_hold EpochsIssued
    (fun history shared me thread => LockHeld shared me thread ∧ ReleaseOrdered history shared me thread)
    ⟨nofun, Nat.le_refl _, trivial⟩ ?_ ?_ ?_ run).1.releases
  · intro i
    exact ⟨nofun, trivial⟩
  · intro history config me act shared thread events _ epochs ordered checked taken
    have move := dispatch_move taken
    exact ⟨move.epochsIssued (ordered me).2 epochs, move.lockHeld (ordered me).1,
      move.releaseOrdered epochs (ordered me).2 checked.2⟩
  intro history config me act shared thread events other _ epochs ordered checked taken different
  have move := dispatch_move taken
  refine ⟨move.lockHeld_other (ordered me).1 (ordered other).1 different,
    move.releaseOrdered_other different (ordered other).2 ?_⟩
  rintro rfl
  cases awaits : (config.threads other).awaitsRead with
  | false => rfl
  | true =>
    have holds : (config.threads other).holdsLock = true := by
      unfold Thread.awaitsRead at awaits
      split at awaits <;> try contradiction
      rename_i same
      rw [same]
      rfl
    have holder := (ordered other).1 holds
    have free := checked.1
    simp [holder, awaits] at free

def triggeredAfterRead : List (Nat × Act) :=
  [(0, .confirmResume), (0, .write .confirm), (0, .write .enter), (0, .write (.read true)),
    (1, .trigger), (0, .write (.decide 0)), (0, .write (.patch false false))]

theorem releases_follow_stops_run : Always ReleaseInOrder
      [.wrote 0 .resume 1 .normal, .issued .trigger 2, .read 0, .issued .resume 1] := by
  have permitted : (dispatchers none).machine.Permitted ReleasesChecked
      (takeover { ns := "default", name := "r1", estopState := .resuming }, []) triggeredAfterRead := by
    decide +kernel
  have ran : (dispatchers none).machine.history
      (takeover { ns := "default", name := "r1", estopState := .resuming }) triggeredAfterRead =
        some [.wrote 0 .resume 1 .normal, .issued .trigger 2, .read 0, .issued .resume 1] := by
    decide +kernel
  obtain ⟨_, run⟩ := Machine.history_reaches_permitted permitted ran
  exact releases_follow_stops { ns := "default", name := "r1", estopState := .resuming } run

/-- A confirmation whose first attempt meets a conflict, and a trigger issued before its
retry reads the Robot again. -/
def triggeredBeforeRetry (robot : Robot) : List (Nat × Act) :=
  [(0, .confirmResume), (0, .write .confirm), (0, .write .enter), (0, .write (.read true)),
    (0, .write (.decide 0)), (2, .otherWrite { robot with adapter := "a1" }),
    (0, .write (.patch false false)), (1, .trigger), (0, .write .relock), (0, .write (.read true)),
    (0, .write (.decide 0)), (0, .write (.patch false false))]

/-- Normal is written by the retry although a later trigger was issued before its read. -/
theorem released_after_later_trigger : ∃ history config, (dispatchers none).machine.Reaches Machine.unrestricted
        (takeover { ns := "default", name := "r1", estopState := .resuming }) history config ∧
      ¬ Always ReleaseInOrder history := by
  have ran : (dispatchers none).machine.history
      (takeover { ns := "default", name := "r1", estopState := .resuming })
      (triggeredBeforeRetry { ns := "default", name := "r1", estopState := .resuming }) =
        some [.wrote 0 .resume 1 .normal, .read 0, .issued .trigger 2, .read 0, .issued .resume 1] := by
    decide +kernel
  obtain ⟨config, run⟩ := Machine.history_reaches ran
  refine ⟨_, config, run, fun always => ?_⟩
  have bound := always.1 0 .resume 1 .normal rfl rfl 2 (by decide)
  contradiction

end Swarmada.Safety
