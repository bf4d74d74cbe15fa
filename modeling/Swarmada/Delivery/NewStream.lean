import Swarmada.Delivery.Confirmed

namespace Swarmada.Delivery

open Api Safety Transition

variable {me i σ : Nat} {d after : Dispatcher} {thread next : Thread} {key : PendingKey}
  {events history : List Event} {task : Task}

def Task.sender : Task → Nat
  | .resendHeld sender _ _ | .resendHeldTo sender _ _ _ => sender

def Thread.worksOn : Thread → Option Nat
  | .sending _ _ sender | .moving sender _ _ _ | .listing sender _ _ | .resending sender _ _ _
  | .repushing sender _ | .heldSending sender _ => some sender
  | _ => none

structure Quiet (σ : Nat) (config : Config Dispatcher Thread) : Prop where
  tasks : ∀ task ∈ config.shared.tasks, task.sender ≠ σ
  threads : ∀ i, (config.threads i).worksOn ≠ some σ

def Sent (history : List Event) (σ : Nat) (key : PendingKey) : Prop := ∃ ok, .pushed σ key ok ∈ history

/-- The push of the key's stop is what the thread does next, or after other pushes. -/
def Thread.Owes (d : Dispatcher) : Thread → Nat → PendingKey → Prop
  | .sending call _ sender, σ, key => sender = σ ∧ call.key = key
  | .moving sender _ _ rest, σ, key => sender = σ ∧ key ∈ rest
  | .repushing sender owed, σ, key => sender = σ ∧ owed = key
  | .heldSending sender p, σ, key => sender = σ ∧ (d.waiters p).key = key
  | _, _, _ => False

def Begun (history : List Event) (d : Dispatcher) (task : Task) : Prop :=
  task ∈ d.tasks ∨ ∃ i, .started i task ∈ history

def Listed (history : List Event) (σ : Nat) (identity : Identity) (moved : List String) : Prop :=
  .listFailed σ ∈ history ∨ ∃ robots, .listed σ identity moved robots ∈ history

structure Obliged (history : List Event) (d : Dispatcher) (i : Nat) (thread : Thread) : Prop where
  bound : ∀ key σ, .bound i key σ ∈ history → Sent history σ key ∨ thread.Owes d σ key
  handover : ∀ σ identity moved, .handover i σ identity moved ∈ history →
    (∃ rest, thread = .moving σ identity moved rest) ∨ Begun history d (.resendHeld σ identity moved)
  lists : ∀ σ identity moved, .started i (.resendHeld σ identity moved) ∈ history →
    thread = .listing σ identity moved ∨ Listed history σ identity moved
  resends : ∀ σ identity robot id, .started i (.resendHeldTo σ identity robot id) ∈ history →
    thread = .resending σ identity robot id ∨ ∃ j, .bound j ⟨robot.ns, robot.wire, id⟩ σ ∈ history
  held : ∀ σ p, thread = .heldSending σ p → p < d.count

structure Followed (history : List Event) (d : Dispatcher) : Prop where
  awaited : Awaited history d
  listed : ∀ σ identity moved robots, .listed σ identity moved robots ∈ history →
    ∀ robot ∈ robots, Dispatcher.holdsStop identity moved robot = true →
      ∀ id ∈ robot.unclearedStops, Begun history d (.resendHeldTo σ identity robot id)

theorem Sent.later (sent : Sent history σ key) : Sent (events ++ history) σ key := by
  obtain ⟨ok, member⟩ := sent
  exact ⟨ok, List.mem_append_right _ member⟩

variable {identity : Identity}

theorem Listed.later (listed : Listed history σ identity moved) : Listed (events ++ history) σ identity moved := by
  rcases listed with failed | ⟨robots, read⟩
  · exact .inl (List.mem_append_right _ failed)
  · exact .inr ⟨robots, List.mem_append_right _ read⟩

theorem mem_eraseIdx_or {tasks : List Task} (member : task ∈ tasks) :
    task ∈ tasks.eraseIdx position ∨ tasks[position]? = some task := by
  obtain ⟨index, found⟩ := List.mem_iff_getElem?.mp member
  by_cases same : index = position
  · exact .inr (same ▸ found)
  · exact .inl (List.mem_eraseIdx_iff_getElem?.mpr ⟨index, same, found⟩)

theorem Dispatcher.rebind_tasks (keys : List PendingKey) : (d.rebind sender keys).tasks = d.tasks := by
  induction keys generalizing d with
  | nil => rfl
  | cons key keys ih =>
    rw [Dispatcher.rebind]
    split
    · exact ih
    · rw [ih]
      rfl

variable (move : Move me d thread after next events)

include move in
theorem Move.tasks (waiting : task ∈ d.tasks) : task ∈ after.tasks ∨ .started me task ∈ events := by
  cases move with
  | framed frame => exact .inl (frame.tasks ▸ waiting)
  | opened =>
    rw [Dispatcher.registerStream, Dispatcher.rebind_tasks]
    exact .inl waiting
  | startedList found | startedResend found =>
    rcases mem_eraseIdx_or waiting with stays | taken
    · exact .inl stays
    · cases found.symm.trans taken
      exact .inr List.mem_cons_self
  | ackTaken | heldPushed => split <;> exact .inl waiting
  | registered =>
    rw [Dispatcher.register_eq]
    rcases d.release_cases _ with same | ⟨_, changed⟩
    · rw [same]
      exact .inl waiting
    · rw [changed]
      exact .inl waiting
  | left =>
    simp only [Dispatcher.deregister]
    split <;> exact .inl waiting
  | moved | listed => exact .inl (List.mem_append_left _ waiting)
  | _ => exact .inl waiting

include move in
theorem Move.begun (begun : Begun history d task) : Begun (events ++ history) after task := by
  rcases begun with waiting | ⟨i, started⟩
  · rcases move.tasks waiting with waits | started
    · exact .inl waits
    · exact .inr ⟨me, List.mem_append_left _ started⟩
  · exact .inr ⟨i, List.mem_append_right _ started⟩

theorem Thread.Owes.later (kept : Kept d after) (held : ∀ σ p, thread = .heldSending σ p → p < d.count)
    (owes : thread.Owes d σ key) : thread.Owes after σ key := by
  cases thread with
  | heldSending sender p =>
    obtain ⟨same, own⟩ := owes
    exact ⟨same, (kept.key p (held sender p rfl)).trans own⟩
  | _ => exact owes

theorem Thread.Owes.worksOn (owes : thread.Owes d σ key) : thread.worksOn = some σ := by
  cases thread with
  | sending | moving | repushing | heldSending => exact congrArg some owes.1
  | _ => exact owes.elim

def Event.actor : Event → Option Nat
  | .bound i _ _ | .handover i _ _ _ | .started i _ => some i
  | _ => none

include move in
theorem Move.actor (member : event ∈ events) (acts : event.actor = some i) : i = me := by
  cases move with
  | framed _ _ _ silent =>
    rcases silent with rfl | ⟨_, _, rfl⟩
    · contradiction
    · cases List.mem_singleton.mp member
      contradiction
  | opened =>
    simp only [List.mem_append, List.mem_map, List.mem_cons, List.not_mem_nil, or_false] at member
    rcases member with ⟨_, -, rfl⟩ | rfl | rfl
    · exact (Option.some.inj acts).symm
    · exact (Option.some.inj acts).symm
    · contradiction
  | startedList | startedResend | registered | rebound | resent =>
    cases List.mem_singleton.mp member
    exact (Option.some.inj acts).symm
  | ackDropped | ackTaken | pushed | undelivered | acknowledged | confirmed | refused | expired
  | movedPushed | listFailed | listed | repushed | heldPushed =>
    cases List.mem_singleton.mp member
    contradiction
  | _ => contradiction

theorem Obliged.others (obliged : Obliged history d i thread)
    (move : Move me d moving after next events) (other : i ≠ me) : Obliged (events ++ history) after i thread := by
  have older {event : Event} (acts : event.actor = some i) (member : event ∈ events ++ history) :
      event ∈ history := by
    rcases List.mem_append.mp member with new | old
    · exact absurd (move.actor new acts) other
    · exact old
  constructor
  · intro key σ member
    rcases obliged.bound key σ (older rfl member) with sent | owes
    · exact .inl sent.later
    · exact .inr (owes.later move.kept obliged.held)
  · intro σ identity moved member
    rcases obliged.handover σ identity moved (older rfl member) with moves | begun
    · exact .inl moves
    · exact .inr (move.begun begun)
  · intro σ identity moved member
    rcases obliged.lists σ identity moved (older rfl member) with lists | listed
    · exact .inl lists
    · exact .inr listed.later
  · intro σ identity robot id member
    rcases obliged.resends σ identity robot id (older rfl member) with resends | ⟨j, bound⟩
    · exact .inl resends
    · exact .inr ⟨j, List.mem_append_right _ bound⟩
  · intro σ p same
    exact (obliged.held σ p same).trans_le move.kept.count

structure Meets (history events : List Event) (me : Nat) (d after : Dispatcher) (thread next : Thread) : Prop where
  owed : ∀ σ key, thread.Owes d σ key → Sent events σ key ∨ next.Owes after σ key
  bound : ∀ key σ, .bound me key σ ∈ events → next.Owes after σ key
  moving : ∀ σ identity moved rest, thread = .moving σ identity moved rest →
    (∃ rest, next = .moving σ identity moved rest) ∨ .resendHeld σ identity moved ∈ after.tasks
  handover : ∀ σ identity moved, .handover me σ identity moved ∈ events →
    ∃ rest, next = .moving σ identity moved rest
  listing : ∀ σ identity moved, thread = .listing σ identity moved → Listed events σ identity moved
  lists : ∀ σ identity moved, .started me (.resendHeld σ identity moved) ∈ events →
    next = .listing σ identity moved
  resending : ∀ σ identity robot id, thread = .resending σ identity robot id →
    ∃ j, .bound j ⟨robot.ns, robot.wire, id⟩ σ ∈ events ++ history
  resends : ∀ σ identity robot id, .started me (.resendHeldTo σ identity robot id) ∈ events →
    next = .resending σ identity robot id
  held : ∀ σ p, next = .heldSending σ p → p < after.count

include move in
theorem Meets.obliged (meets : Meets history events me d after thread next) (obliged : Obliged history d me thread) :
    Obliged (events ++ history) after me next := by
  constructor
  · intro key σ member
    rcases List.mem_append.mp member with new | old
    · exact .inr (meets.bound key σ new)
    rcases obliged.bound key σ old with sent | owes
    · exact .inl sent.later
    rcases meets.owed σ key owes with ⟨ok, sent⟩ | owes
    · exact .inl ⟨ok, List.mem_append_left _ sent⟩
    · exact .inr owes
  · intro σ identity moved member
    rcases List.mem_append.mp member with new | old
    · exact .inl (meets.handover σ identity moved new)
    rcases obliged.handover σ identity moved old with ⟨rest, moves⟩ | begun
    · rcases meets.moving σ identity moved rest moves with moves | started
      · exact .inl moves
      · exact .inr (.inl started)
    · exact .inr (move.begun begun)
  · intro σ identity moved member
    rcases List.mem_append.mp member with new | old
    · exact .inl (meets.lists σ identity moved new)
    rcases obliged.lists σ identity moved old with lists | listed
    · rcases meets.listing σ identity moved lists with failed | ⟨robots, read⟩
      · exact .inr (.inl (List.mem_append_left _ failed))
      · exact .inr (.inr ⟨robots, List.mem_append_left _ read⟩)
    · exact .inr listed.later
  · intro σ identity robot id member
    rcases List.mem_append.mp member with new | old
    · exact .inl (meets.resends σ identity robot id new)
    rcases obliged.resends σ identity robot id old with resends | ⟨j, bound⟩
    · exact .inr (meets.resending σ identity robot id resends)
    · exact .inr ⟨j, List.mem_append_right _ bound⟩
  · exact meets.held

theorem Meets.of_free (free : thread.worksOn = none) (silent : ∀ event ∈ events, event.actor = none)
    (unheld : next.worksOn = none) : Meets history events me d after thread next := by
  have silenced {event : Event} (acts : event.actor = some me) : event ∉ events := by
    intro member
    have none := silent event member
    simp [acts] at none
  constructor
  · intro σ key owes
    simp [owes.worksOn] at free
  · exact fun key σ member => absurd member (silenced rfl)
  · rintro σ _ _ _ rfl
    simp [Thread.worksOn] at free
  · exact fun σ identity moved member => absurd member (silenced rfl)
  · rintro σ _ _ rfl
    simp [Thread.worksOn] at free
  · exact fun σ identity moved member => absurd member (silenced rfl)
  · rintro σ _ _ _ rfl
    simp [Thread.worksOn] at free
  · exact fun σ identity robot id member => absurd member (silenced rfl)
  · rintro σ p rfl
    simp [Thread.worksOn] at unheld

theorem Thread.worksOn_of_plain (plain : thread.plain = true) : thread.worksOn = none := by
  cases thread <;> first | contradiction | rfl

theorem Thread.worksOn_of_awaits {call : Call} (waits : thread.awaits = some (call, p)) : thread.worksOn = none := by
  cases thread <;> first | contradiction | rfl

include move in
theorem Move.meets (awaited : Awaited history d) : Meets history events me d after thread next := by
  cases move with
  | framed _ before later silent =>
    refine .of_free (Thread.worksOn_of_plain before) ?_ (Thread.worksOn_of_plain later)
    rcases silent with rfl | ⟨_, _, rfl⟩ <;> simp [Event.actor]
  | opened | startedList | startedResend | registered | rebound => constructor <;> simp +contextual [Thread.Owes]
  | @pushed _ _ _ ok | @heldPushed _ _ ok => cases ok <;> constructor <;> simp +contextual [Thread.Owes, Sent]
  | movedPushed | repushed => constructor <;> simp +contextual [Thread.Owes, Sent]
  | moved => constructor <;> simp +contextual [Thread.Owes, Dispatcher.start]
  | listFailed | listed => constructor <;> simp +contextual [Thread.Owes, Listed]
  | alreadyBound found bound =>
    obtain ⟨j, earlier⟩ := bound_of_lastBound (awaited _ _ found).last
    rw [bound] at earlier
    constructor
    case resending =>
      rintro σ _ _ _ ⟨⟩
      exact ⟨j, earlier⟩
    all_goals simp [Thread.Owes]
  | resent => constructor <;> simp +contextual [Thread.Owes, Dispatcher.addWaiter]
  | confirmed waits | refused waits | expired waits =>
    exact .of_free (Thread.worksOn_of_awaits waits) (by simp [Event.actor]) rfl
  | cancelled waits => exact .of_free (Thread.worksOn_of_awaits waits) (by simp) rfl
  | stopping waits later =>
    rcases later with rfl | rfl <;> exact .of_free (Thread.worksOn_of_awaits waits) (by simp) rfl
  | heldAnswered later => rcases later with rfl | rfl <;> exact .of_free rfl (by simp) rfl
  | _ => exact .of_free rfl (by simp [Event.actor]) rfl

theorem mem_heldTasks {id : String}
    (stop : id ∈ robot.unclearedStops) :
    .resendHeldTo σ identity robot id ∈ Dispatcher.heldTasks σ identity mint robot := by
  unfold Dispatcher.heldTasks
  split
  next none =>
    simp [none] at stop
  · exact List.mem_map_of_mem stop

include move in
theorem Move.followed (followed : Followed history d) : Followed (events ++ history) after := by
  refine ⟨move.awaited followed.awaited, ?_⟩
  intro σ identity moved robots member robot among holds id stop
  rcases List.mem_append.mp member with new | old
  · cases move with
    | listed =>
      cases List.mem_singleton.mp new
      refine .inl (List.mem_append_right _ (List.mem_flatMap.mpr ⟨robot, ?_, mem_heldTasks stop⟩))
      exact List.mem_filter.mpr ⟨among, holds⟩
    | framed _ _ _ silent =>
      rcases silent with rfl | ⟨_, _, rfl⟩ <;> simp at new
    | opened | ackTaken | _ => simp at new
  · exact move.begun (followed.listed σ identity moved robots old robot among holds id stop)

theorem followed_everywhere
    (run : dispatchers.machine.Reaches Machine.unrestricted (takeover robots) history config) :
    Followed history config.shared ∧ ∀ i, Obliged history config.shared i (config.threads i) := by
  refine Pool.assertions_hold Followed Obliged ?starts ?initially ?own ?others run
  case starts => exact ⟨nofun, by simp⟩
  case initially => exact fun i => ⟨by simp, by simp, by simp, by simp, by simp [takeover]⟩
  case own =>
    intro history config me act shared thread events _ followed threads _ taken
    have move := Thread.step_move taken
    exact ⟨move.followed followed, (move.meets followed.awaited).obliged move (threads me)⟩
  case others =>
    intro history config me act shared thread events other _ followed threads _ taken distinct
    exact (threads other).others (Thread.step_move taken) distinct

theorem Quiet.started (quiet : Quiet σ config) (begun : Begun history config.shared task) (mine : task.sender = σ) :
    ∃ i, .started i task ∈ history := by
  rcases begun with waiting | started
  · exact absurd mine (quiet.tasks task waiting)
  · exact started

section Quiet

variable {robots : List Robot} {config : Config Dispatcher Thread}
  (run : dispatchers.machine.Reaches Machine.unrestricted (takeover robots) history config)

include run

theorem Quiet.sent (quiet : Quiet σ config) (bound : .bound i key σ ∈ history) : Sent history σ key := by
  obtain ⟨-, obliged⟩ := followed_everywhere run
  rcases (obliged i).bound key σ bound with sent | owes
  · exact sent
  · exact absurd owes.worksOn (quiet.threads i)

theorem Quiet.listed (quiet : Quiet σ config)
    (handover : .handover i σ identity moved ∈ history) : Listed history σ identity moved := by
  obtain ⟨-, obliged⟩ := followed_everywhere run
  rcases (obliged i).handover σ identity moved handover with ⟨_, moves⟩ | begun
  · exact absurd (by rw [moves]; rfl) (quiet.threads i)
  obtain ⟨j, started⟩ := quiet.started begun rfl
  rcases (obliged j).lists σ identity moved started with lists | listed
  · exact absurd (by rw [lists]; rfl) (quiet.threads j)
  · exact listed

theorem Quiet.resent (quiet : Quiet σ config) {read : List Robot}
    {id : String} (listed : .listed σ identity moved read ∈ history) (among : robot ∈ read)
    (holds : Dispatcher.holdsStop identity moved robot = true) (stop : id ∈ robot.unclearedStops) :
    Sent history σ ⟨robot.ns, robot.wire, id⟩ := by
  obtain ⟨followed, obliged⟩ := followed_everywhere run
  have begun := followed.listed σ identity moved read listed robot among holds id stop
  obtain ⟨j, started⟩ := quiet.started begun rfl
  rcases (obliged j).resends σ identity robot id started with resends | ⟨k, bound⟩
  · exact absurd (by rw [resends]; rfl) (quiet.threads j)
  · exact quiet.sent run bound

end Quiet

theorem Dispatcher.mem_moves (awaited : Awaited history d)
    (found : d.pending key = some p) (live : d.streams identity = some replaced)
    (wanted : d.wanted identity replaced p = true) : key ∈ d.moves identity := by
  unfold Dispatcher.moves
  rw [live, List.mem_insertionSort, List.mem_filter]
  exact ⟨(awaited key p found).awaited, by simpa [found] using wanted⟩

theorem Thread.step_registerStream (taken : thread.step me d (.registerStream identity) = some (after, next, events)) :
    registers d me identity = (after, next, events) := by
  cases thread with
  | idle => exact Option.some.inj taken
  | moving _ _ _ rest => cases rest <;> contradiction
  | _ => contradiction

/-- When all that was started for a new stream has been done, the stops moved onto it have been pushed down it, and
those recorded on the adapter's other robots in a stop state as well. -/
theorem new_stream_gets_stops (robots : List Robot) {before last next : Config Dispatcher Thread}
    {earlier later opened : List Event} {identity : Identity}
    (run : dispatchers.machine.Reaches Machine.unrestricted (takeover robots) earlier before)
    (opens : dispatchers.machine.step before (me, .registerStream identity) = some (next, opened))
    (rest : dispatchers.machine.Reaches Machine.unrestricted next later last)
    (quiet : Quiet before.shared.identities.length last) :
    let stream := before.shared.identities.length
    let moved := before.shared.movedRobots (before.shared.moves identity)
    let history := later ++ (opened ++ earlier)
    (∀ key p replaced, before.shared.pending key = some p → before.shared.streams identity = some replaced →
        before.shared.wanted identity replaced p = true → Sent history stream key) ∧
      (.listFailed stream ∈ history ∨ ∃ read, .listed stream identity moved read ∈ history ∧
        ∀ robot ∈ read, Dispatcher.holdsStop identity moved robot = true →
          ∀ id ∈ robot.unclearedStops, Sent history stream ⟨robot.ns, robot.wire, id⟩) := by
  intro stream moved history
  have whole : dispatchers.machine.Reaches Machine.unrestricted (takeover robots) history last :=
    (Machine.Reaches.step run trivial opens).trans rest
  obtain ⟨_, taken, -⟩ := Pool.machine_step opens
  have emitted : (registers before.shared me identity).2.2 = opened := by
    rw [Thread.step_registerStream taken]
  have handover : .handover me stream identity moved ∈ history := by
    simp [history, ← emitted, registers, stream, moved]
  constructor
  · intro key p replaced found live wanted
    have moves := Dispatcher.mem_moves (followed_everywhere run).1.awaited found live wanted
    have bound : .bound me key stream ∈ history := by
      simp [history, ← emitted, registers, stream, moves]
    exact quiet.sent whole bound
  · rcases quiet.listed whole handover with failed | ⟨read, listed⟩
    · exact .inl failed
    · refine .inr ⟨read, listed, fun robot among holds id stop => ?_⟩
      exact quiet.resent whole listed among holds stop

def robotQ : Robot :=
  { ns := "default", name := "r2", adapter := "a1", estopState := .stopped,
    stops := [{ id := "q1", scope := .robot, carrier := none, sentAt := 0 }] }

/-- The new stream's work: the push of the stop moved onto it, the read of the robots, and
the re-send of the stop recorded on the second one. -/
def pushedOn : List (Nat × Act) :=
  [(3, .push true), (3, .next), (4, .run 1), (4, .list fun _ => "m1"), (4, .run 1), (4, .next), (4, .push true)]

def olderUnsent : List (Nat × Act) :=
  sentStop ++ [(2, .trigger "default" "r1"), (2, .read robotR .robot none "s2" true), (2, .register), (2, .push true),
    (2, .window 2000), (3, .registerStream adapterA), (3, .push true), (3, .next), (4, .run 1),
    (4, .list fun _ => "m1")]

/-- Whether nothing is left to do on the stream, in a configuration where only the first `n`
threads have moved. -/
def quietBelow (n σ : Nat) (config : Config Dispatcher Thread) : Bool :=
  (config.shared.tasks.all fun task => task.sender ≠ σ) &&
    (List.range n).all fun i => (config.threads i).worksOn ≠ some σ

theorem quiet_of_below (below : quietBelow n σ config = true)
    (idle : ∀ i, n ≤ i → config.threads i = .idle) : Quiet σ config := by
  simp only [quietBelow, Bool.and_eq_true, List.all_eq_true, decide_eq_true_eq, List.mem_range] at below
  refine ⟨below.1, fun i => ?_⟩
  by_cases small : i < n
  · exact below.2 i small
  · rw [idle i (Nat.le_of_not_lt small)]
    simp [Thread.worksOn]

theorem new_stream_gets_stops_run :
    ∃ history, Sent history 1 ⟨"default", "r1", "s1"⟩ ∧ Sent history 1 ⟨"default", "r2", "q1"⟩ := by
  have view :
      ((dispatchers.machine.run (takeover [robotR, robotQ], []) sentStop).bind fun before =>
        (dispatchers.machine.step before.1 (3, .registerStream adapterA)).bind fun next =>
          (dispatchers.machine.run (next.1, []) pushedOn).map fun last =>
            ((before.1.shared.identities.length, before.1.shared.pending ⟨"default", "r1", "s1"⟩,
                before.1.shared.streams adapterA, before.1.shared.wanted adapterA 0 0 && quietBelow 5 1 last.1),
              last.2, next.2 ++ before.2)) =
      some ((1, some 0, some 0, true),
        [.pushed 1 ⟨"default", "r2", "q1"⟩ true, .bound 4 ⟨"default", "r2", "q1"⟩ 1,
          .started 4 (.resendHeldTo 1 adapterA robotQ "q1"), .listed 1 adapterA ["r1"] [robotR, robotQ],
          .started 4 (.resendHeld 1 adapterA ["r1"]), .pushed 1 ⟨"default", "r1", "s1"⟩ true],
        [.bound 3 ⟨"default", "r1", "s1"⟩ 1, .handover 3 1 adapterA ["r1"], .opened 1 adapterA,
          .pushed 0 ⟨"default", "r1", "s1"⟩ true, .bound 1 ⟨"default", "r1", "s1"⟩ 0,
          .handover 0 0 adapterA [], .opened 0 adapterA]) := by
    decide +kernel
  obtain ⟨⟨before, earlier⟩, ran, view⟩ := Option.bind_eq_some_iff.mp view
  obtain ⟨⟨_, opened⟩, opens, view⟩ := Option.bind_eq_some_iff.mp view
  obtain ⟨⟨last, later⟩, rest, view⟩ := Option.map_eq_some_iff.mp view
  simp only [Prod.mk.injEq, Bool.and_eq_true] at view
  obtain ⟨⟨length, found, live, wanted, below⟩, laterIs, openedIs⟩ := view
  have idle : ∀ i, 5 ≤ i → last.threads i = .idle := by
    intro i large
    rw [Pool.run_untouched (n := 5) (by decide) rest large, Pool.machine_step_untouched opens (by omega),
      Pool.run_untouched (n := 5) (by decide) ran large]
    rfl
  have quiet : Quiet before.shared.identities.length last := by
    rw [length]
    exact quiet_of_below below idle
  obtain ⟨moved, held⟩ := new_stream_gets_stops [robotR, robotQ]
    (Machine.run_reaches_from .start (Machine.permitted_unrestricted _ _ _) ran) opens
    (Machine.run_reaches_from .start (Machine.permitted_unrestricted _ _ _) rest) quiet
  refine ⟨later ++ (opened ++ earlier), ?_, ?_⟩
  · rw [← length]
    exact moved _ 0 0 found live wanted
  rw [length, laterIs, openedIs] at held
  rw [laterIs, openedIs]
  rcases held with failed | ⟨_, listed, sent⟩
  · simp at failed
  simp only [List.cons_append, List.nil_append, List.mem_cons, Event.listed.injEq, reduceCtorEq, true_and,
    List.not_mem_nil, or_false, false_or] at listed
  obtain ⟨moved, rfl⟩ := listed
  exact sent robotQ (by simp) (by rw [moved]; decide) "q1" (by decide)

/-- Two stops of one robot are awaited on the stream that is replaced. The older one is not moved, and not recorded
yet, so the new stream never carries it. -/
theorem older_stop_not_on_new_stream :
    ∃ history config, dispatchers.machine.Reaches Machine.unrestricted (takeover [robotR]) history config ∧
      config.shared.streams adapterA = some 1 ∧ Quiet 1 config ∧
      (∃ p, config.shared.pending ⟨"default", "r1", "s1"⟩ = some p ∧ (config.shared.waiters p).settled = false ∧
        config.shared.expired p = false) ∧
      (config.shared.orderFor "default" "r1").lastClear = 0 ∧
      .listed 1 adapterA ["r1"] [robotR] ∈ history ∧ ¬Sent history 1 ⟨"default", "r1", "s1"⟩ := by
  have view :
      (dispatchers.machine.run (takeover [robotR], []) olderUnsent).map (fun last =>
        ((last.1.shared.streams adapterA, last.1.shared.pending ⟨"default", "r1", "s1"⟩,
            quietBelow 5 1 last.1 && !(last.1.shared.waiters 0).settled && !last.1.shared.expired 0,
            (last.1.shared.orderFor "default" "r1").lastClear), last.2)) =
      some ((some 1, some 0, true, 0),
        [.listed 1 adapterA ["r1"] [robotR], .started 4 (.resendHeld 1 adapterA ["r1"]),
          .pushed 1 ⟨"default", "r1", "s2"⟩ true, .bound 3 ⟨"default", "r1", "s2"⟩ 1,
          .handover 3 1 adapterA ["r1"], .opened 1 adapterA, .pushed 0 ⟨"default", "r1", "s2"⟩ true,
          .bound 2 ⟨"default", "r1", "s2"⟩ 0, .pushed 0 ⟨"default", "r1", "s1"⟩ true,
          .bound 1 ⟨"default", "r1", "s1"⟩ 0, .handover 0 0 adapterA [], .opened 0 adapterA]) := by
    decide +kernel
  obtain ⟨⟨last, _⟩, ran, view⟩ := Option.map_eq_some_iff.mp view
  simp only [Prod.mk.injEq, Bool.and_eq_true, Bool.not_eq_true'] at view
  obtain ⟨⟨live, found, ⟨⟨below, unsettled⟩, running⟩, uncleared⟩, rfl⟩ := view
  refine ⟨_, last, Machine.run_reaches_from .start (Machine.permitted_unrestricted _ _ _) ran, live, ?_,
    ⟨0, found, unsettled, running⟩, uncleared, by simp, by simp [Sent]⟩
  refine quiet_of_below below fun i large => ?_
  rw [Pool.run_untouched (n := 5) (by decide) ran large]
  rfl

end Swarmada.Delivery
