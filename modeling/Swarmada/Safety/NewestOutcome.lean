import Swarmada.Safety.WriteLock

namespace Swarmada.Safety

open Api Transition

variable {derive : Option (Robot → List CapabilityStatusEntry)} {me : Nat} {shared after : Shared}

def standing : List Event → List Nat
  | [] => []
  | .wrote _ _ epoch state :: older => if state = .stopped then epoch :: standing older else []
  | .confirmed epoch :: older => epoch :: standing older
  | _ :: older => standing older

/-- No trigger writes Stopping or Failed over the Stopped of a newer one. -/
def NewestStands (older : List Event) (event : Event) : Prop :=
  ∀ thread epoch state, event = .wrote thread .trigger epoch state →
    state = .stopping ∨ state = .failed → ∀ newer ∈ standing older, newer ≤ epoch

/-- A thread about to take the lock for a retry of an outcome write finds no newer
trigger's Stopped recorded. -/
def retryInOrder (order : EstopOrder) : Thread → Bool
  | .write (.backoff call state _) => isEstopRelease state || order.stoppedBy ≤ call.epoch
  | _ => true

/-- Each retry of an outcome write begins while no newer trigger's Stopped is recorded. -/
def RetriesInOrder (_ : List Event) (config : Config Shared Thread) (label : Nat × Act) : Prop :=
  retryInOrder config.shared.order (config.threads label.1) = true

instance (history : List Event) (config : Config Shared Thread) (label : Nat × Act) :
    Decidable (RetriesInOrder history config label) :=
  inferInstanceAs (Decidable (_ = true))

variable {thread next : Thread} {act : Act} {events : List Event}

variable (move : Move derive me shared thread act after next events)

include move in
theorem Move.standing_of_unlocked (unlocked : thread.holdsLock = false) (history : List Event) :
    after.order.stoppedBy = shared.order.stoppedBy ∧ standing (events ++ history) = standing history := by
  cases move with
  | write move =>
    cases move with
    | refused _ warned => rcases warned with rfl | rfl <;> exact ⟨rfl, rfl⟩
    | stood | found | landed | abandoned | conflicted => contradiction
    | _ => exact ⟨rfl, rfl⟩
  | clear move =>
    cases move with
    | landed | closed | heldCleared => contradiction
    | _ => exact ⟨rfl, rfl⟩
  | record move =>
    cases move with
    | finished full => rcases full with rfl | ⟨_, rfl⟩ <;> exact ⟨by simp, rfl⟩
    | edited => exact ⟨by simp, rfl⟩
    | _ => exact ⟨rfl, rfl⟩
  | @fence fencer => cases fencer <;> exact ⟨rfl, rfl⟩
  | _ => exact ⟨rfl, rfl⟩

def OutcomeOrdered (history : List Event) (shared : Shared) : Thread → Prop
  | .write (.reading call state _) | .write (.deciding call state _ _)
  | .write (.patching call state _ _ _) =>
    isEstopRelease state = false → shared.order.stoppedBy ≤ call.epoch
  | .clear (.closing _ _ _ true _) => standing history = []
  | _ => True

variable {history : List Event}

theorem OutcomeOrdered.of_unlocked (unlocked : thread.holdsLock = false) : OutcomeOrdered history shared thread := by
  unfold OutcomeOrdered
  split <;> first
    | contradiction
    | trivial

theorem OutcomeOrdered.transfer (ordered : OutcomeOrdered history shared thread)
    (sameStop : after.order.stoppedBy = shared.order.stoppedBy)
    (sameStanding : standing later = standing history) : OutcomeOrdered later after thread := by
  unfold OutcomeOrdered at ordered ⊢
  split <;> simp_all

structure StandingBelow (history : List Event) (shared : Shared) : Prop where
  bound : ∀ epoch ∈ standing history, epoch ≤ shared.order.stoppedBy
  newest : Always NewestStands history

theorem StandingBelow.quiet (below : StandingBelow history shared)
    (sameStop : after.order.stoppedBy = shared.order.stoppedBy)
    (sameStanding : standing (events ++ history) = standing history)
    (unwritten : ∀ event ∈ events, ∀ thread kind epoch state, event ≠ .wrote thread kind epoch state) :
    StandingBelow (events ++ history) after := by
  refine ⟨?_, ?_⟩
  · rw [sameStop, sameStanding]
    exact below.bound
  · refine below.newest.extend fun event member older thread epoch state written => ?_
    exact absurd written (unwritten event member _ _ _ _)

include move in
theorem Move.unwritten_of_unlocked (unlocked : thread.holdsLock = false) :
    ∀ event ∈ events, ∀ thread kind epoch state, event ≠ .wrote thread kind epoch state := by
  cases move with
  | write move =>
    cases move with
    | refused _ warned => rcases warned with rfl | rfl <;> simp_all
    | landed | found => contradiction
    | _ => simp_all
  | clear move =>
    cases move with
    | landed => contradiction
    | _ => simp_all
  | record move =>
    cases move with
    | finished full => rcases full with rfl | ⟨_, rfl⟩ <;> simp_all
    | _ => simp_all
  | _ => simp_all

theorem Writer.Move.outcomeOrdered {next : Option Writer}
    (move : writer.Move derive me shared after next events)
    (locked : writer.holdsLock = true) (below : StandingBelow history shared)
    (ordered : OutcomeOrdered history shared (.write writer)) :
    StandingBelow (events ++ history) after ∧
      OutcomeOrdered (events ++ history) after (continueAs .write next) := by
  have quietly {unlocked : Shared} (same : unlocked.order = shared.order) :
      StandingBelow history unlocked := ⟨by rw [same]; exact below.bound, below.newest⟩
  cases move with
  | read =>
    exact ⟨⟨below.bound, ⟨nofun, below.newest⟩⟩, ordered⟩
  | planned => exact ⟨below, ordered⟩
  | stood | abandoned => exact ⟨quietly rfl, .of_unlocked (by simp)⟩
  | conflicted => exact ⟨quietly rfl, .of_unlocked rfl⟩
  | @found state =>
    refine ⟨?_, .of_unlocked (by simp)⟩
    by_cases stopped : state = .stopped
    · subst stopped
      refine ⟨?_, ⟨nofun, below.newest⟩⟩
      intro epoch member
      rcases List.mem_cons.mp member with rfl | older
      · exact Nat.le_refl _
      · exact Nat.le_trans (below.bound epoch older) (ordered rfl)
    · simp only [stopped, if_false, EstopOrder.found]
      exact quietly rfl
  | @landed call state =>
    refine ⟨⟨?_, ⟨?_, below.newest⟩⟩, .of_unlocked (by simp)⟩
    · intro epoch member
      by_cases stopped : state = .stopped
      · subst stopped
        rcases List.mem_cons.mp member with rfl | older
        · exact Nat.le_refl _
        · exact Nat.le_trans (below.bound epoch older) (ordered rfl)
      · simp [standing, stopped] at member
    · intro thread epoch written same unsafe_ newer member
      obtain ⟨-, -, rfl, rfl⟩ := Event.wrote.inj same
      have admitted : shared.order.stoppedBy ≤ call.epoch := by
        apply ordered
        rcases unsafe_ with rfl | rfl <;> rfl
      exact Nat.le_trans (below.bound newer member) admitted
  | finished => cases writer <;> contradiction
  | _ => contradiction

theorem Clearer.Move.outcomeOrdered {next : Option Clearer}
    (move : clearer.Move me shared after next events)
    (locked : clearer.holdsLock = true) (below : StandingBelow history shared)
    (ordered : OutcomeOrdered history shared (.clear clearer)) :
    StandingBelow (events ++ history) after ∧
      OutcomeOrdered (events ++ history) after (continueAs .clear next) := by
  have quietly {unlocked : Shared} (same : unlocked.order = shared.order) :
      StandingBelow history unlocked := ⟨by rw [same]; exact below.bound, below.newest⟩
  cases move with
  | stood | marked | retried | failed | heldKept => exact ⟨quietly rfl, trivial⟩
  | planned | unlanded => exact ⟨below, trivial⟩
  | heldCleared => exact ⟨below.quiet rfl rfl (by simp), trivial⟩
  | @landed call attempt write current =>
    -- Resuming is written: no Stopped stands any more
    have kept : StandingBelow ([.ended write.version write.ended] ++ history) shared := below.quiet rfl rfl (by simp)
    refine ⟨⟨?_, ⟨?_, kept.newest⟩⟩, rfl⟩
    · intro epoch member
      contradiction
    · intro thread epoch state same
      cases same
  | closed =>
    have cleared : standing history = [] := ordered
    refine ⟨⟨?_, below.newest⟩, trivial⟩
    intro epoch member
    rw [List.nil_append, cleared] at member
    contradiction
  | _ => contradiction

def OrderedThread (history : List Event) (shared : Shared) (me : Nat) (thread : Thread) : Prop :=
  LockHeld shared me thread ∧ OutcomeOrdered history shared thread

include move in
theorem Move.orderedThread (below : StandingBelow history shared) (ordered : OrderedThread history shared me thread)
    (retries : retryInOrder shared.order thread = true) :
    StandingBelow (events ++ history) after ∧ OrderedThread (events ++ history) after me next := by
  suffices StandingBelow (events ++ history) after ∧ OutcomeOrdered (events ++ history) after next from
    ⟨this.1, move.lockHeld ordered.1, this.2⟩
  cases locked : thread.holdsLock with
  | true =>
    cases move with
    | write move | clear move => exact move.outcomeOrdered locked below ordered.2
    | _ => contradiction
  | false =>
    have kept := move.standing_of_unlocked locked history
    refine ⟨below.quiet kept.1 kept.2 (move.unwritten_of_unlocked locked), ?_⟩
    cases taken : next.holdsLock with
    | false => exact .of_unlocked taken
    | true =>
      -- the lock is taken at the ordering checks, or for a retry
      cases move with
      | write move =>
        cases move with
        | @entered _ _ _ admitted =>
          intro stop
          simpa [orderRefuses, stop] using admitted
        | relocked =>
          intro stop
          simpa [retryInOrder, stop] using retries
        | unwritten | refused => simp at taken
        | _ => contradiction
      | clear move =>
        cases move with
        | locked => trivial
        | _ => contradiction
      | record move => cases move <;> contradiction
      | clearing led => rcases led with rfl | rfl <;> contradiction
      | _ => contradiction

theorem orderedThread_everywhere (idle : ∀ i, start.threads i = .idle)
    (run : (dispatchers derive).machine.Reaches RetriesInOrder start history config) :
    StandingBelow history config.shared ∧
      ∀ i, OrderedThread history config.shared i (config.threads i) := by
  refine Pool.assertions_hold StandingBelow OrderedThread ⟨nofun, trivial⟩
    ?_ ?_ ?_ run
  · intro i
    rw [idle i]
    exact ⟨nofun, trivial⟩
  · intro history config me act shared thread events _ below ordered retries taken
    exact (dispatch_move taken).orderedThread below (ordered me) retries
  intro history config me act shared thread events other _ below ordered retries taken different
  have move := dispatch_move taken
  refine ⟨move.lockHeld_other (ordered me).1 (ordered other).1 different, ?_⟩
  cases theirs : (config.threads other).holdsLock with
  | false => exact .of_unlocked theirs
  | true =>
    have unlocked := (ordered other).1.exclusive (ordered me).1 (Ne.symm different) theirs
    have kept := move.standing_of_unlocked unlocked history
    exact (ordered other).2.transfer kept.1 kept.2

/-- While the Stopped of a trigger stands, no older trigger's outcome is written over
it, in every run whose retries begin under no newer Stopped. -/
theorem newest_outcome_stands (robot : Robot) {history : List Event} {config : Config Shared Thread}
    (run : (dispatchers derive).machine.Reaches RetriesInOrder (takeover robot) history config) :
    Always NewestStands history :=
  (orderedThread_everywhere (fun _ => rfl) run).1.newest

def newerConfirmedFirst : List (Nat × Act) :=
  [(0, .trigger), (1, .trigger), (0, .write (.lookup 0 false)), (1, .write (.lookup 0 false))] ++
    writesOutcome 1 .stopped ++ [(0, .write (.outcome .failed)), (0, .write .enter)]

theorem newest_outcome_stands_run : Always NewestStands
      [.outcomeSuperseded 1, .wrote 1 .trigger 2 .stopped, .read 1, .issued .trigger 2,
        .issued .trigger 1] := by
  have permitted : (dispatchers none).machine.Permitted RetriesInOrder
      (takeover { ns := "default", name := "r1" }, []) newerConfirmedFirst := by
    decide +kernel
  have ran : (dispatchers none).machine.history (takeover { ns := "default", name := "r1" })
      newerConfirmedFirst =
        some [.outcomeSuperseded 1, .wrote 1 .trigger 2 .stopped, .read 1, .issued .trigger 2,
          .issued .trigger 1] := by
    decide +kernel
  obtain ⟨_, run⟩ := Machine.history_reaches_permitted permitted ran
  exact newest_outcome_stands { ns := "default", name := "r1" } run

/-- No trigger writes Stopping or Failed once a newer one has written Stopped, whatever
was written in between. -/
def NeverOverwritten (older : List Event) (event : Event) : Prop :=
  ∀ thread epoch state, event = .wrote thread .trigger epoch state →
    state = .stopping ∨ state = .failed →
      ∀ other newer, .wrote other .trigger newer .stopped ∈ older → newer ≤ epoch

/-- The Stopped of the second trigger gives way to the Stopping of a third, and then the
first one's Failed is the latest outcome. -/
theorem older_failed_after_newer_stopped : ∃ history config, (dispatchers none).machine.Reaches Machine.unrestricted
        (takeover { ns := "default", name := "r1" }) history config ∧ ¬ Always NeverOverwritten history := by
  have ran : (dispatchers none).machine.history (takeover { ns := "default", name := "r1" })
      ([(0, .trigger), (1, .trigger), (2, .trigger), (0, .write (.lookup 0 false)),
          (1, .write (.lookup 0 false)), (2, .write (.lookup 0 false))] ++
        writesOutcome 1 .stopped ++ writesOutcome 2 .stopping ++ writesOutcome 0 .failed) =
      some [.wrote 0 .trigger 1 .failed, .read 0, .wrote 2 .trigger 3 .stopping, .read 2,
        .wrote 1 .trigger 2 .stopped, .read 1, .issued .trigger 3, .issued .trigger 2,
        .issued .trigger 1] := by
    decide +kernel
  obtain ⟨config, run⟩ := Machine.history_reaches ran
  refine ⟨_, config, run, fun always => ?_⟩
  have bound := always.1 0 1 .failed rfl (.inr rfl) 1 2 (by decide)
  contradiction

end Swarmada.Safety
