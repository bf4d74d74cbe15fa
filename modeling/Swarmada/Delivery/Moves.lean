import Swarmada.Delivery.Threads

namespace Swarmada.Delivery

open Api Safety Transition

variable {me : Nat} {d after : Dispatcher} {thread next : Thread} {act : Act} {events : List Event}

structure SameTable (d after : Dispatcher) : Prop where
  waiters : after.waiters = d.waiters
  count : after.count = d.count
  pending : after.pending = d.pending
  awaited : after.awaited = d.awaited

structure Frame (d after : Dispatcher) : Prop extends SameTable d after where
  identities : after.identities = d.identities
  tasks : after.tasks = d.tasks

theorem SameTable.refl (d : Dispatcher) : SameTable d d := ⟨rfl, rfl, rfl, rfl⟩

theorem Frame.refl (d : Dispatcher) : Frame d d := ⟨.refl d, rfl, rfl⟩

def Thread.plain : Thread → Bool
  | .idle | .triggering .. | .registering .. => true
  | _ => false

def Thread.call : Thread → Option (Call × Nat)
  | .sending call p _ | .unsent call p _ | .sent call p | .delivering call p | .acknowledged call p
  | .confirming call p => some (call, p)
  | _ => none

def Thread.awaits : Thread → Option (Call × Nat)
  | .delivering call p | .confirming call p => some (call, p)
  | _ => none

inductive Move (me : Nat) (d : Dispatcher) : Thread → Dispatcher → Thread → List Event → Prop
  | framed {thread next : Thread} {after : Dispatcher} {events : List Event} (frame : Frame d after)
      (before : thread.plain = true) (later : next.plain = true)
      (silent : events = [] ∨ ∃ robot id, events = [.outcome robot id .failed]) :
      Move me d thread after next events
  | opened (identity : Identity) :
      Move me d .idle (d.registerStream identity)
        (.moving d.identities.length identity (d.movedRobots (d.moves identity)) (d.moves identity))
        ((d.moves identity).map (.bound me · d.identities.length) ++
          [.handover me d.identities.length identity (d.movedRobots (d.moves identity)),
            .opened d.identities.length identity])
  | ackDropped : Move me d .idle d .idle [.ackReceived sender identity robotID estopID state]
  | ackTaken (known : d.identities[sender]? = some identity)
      (found : d.pending ⟨identity.ns, robotID, estopID⟩ = some p)
      (adapter : (d.waiters p).adapter = identity.adapter) (bound : (d.waiters p).sender = sender) :
      Move me d .idle (if state = .stopping then d else d.settle p) (.routing p state)
        [.ackReceived sender identity robotID estopID state]
  | startedList (found : d.tasks[position]? = some (.resendHeld sender identity moved)) :
      Move me d .idle { d with tasks := d.tasks.eraseIdx position } (.listing sender identity moved)
        [.started me (.resendHeld sender identity moved)]
  | startedResend (found : d.tasks[position]? = some (.resendHeldTo sender identity robot estopID)) :
      Move me d .idle { d with tasks := d.tasks.eraseIdx position } (.resending sender identity robot estopID)
        [.started me (.resendHeldTo sender identity robot estopID)]
  | registered (live : d.streams ⟨call.robot.ns, call.robot.adapter⟩ = some sender) :
      Move me d (.registering call) (d.register call.robot call.estopID call.epoch sender)
        (.sending call d.count sender) [.bound me call.key sender]
  | pushed {ok : Bool} :
      Move me d (.sending call p sender) d (if ok then .sent call p else .unsent call p sender)
        [.pushed sender call.key ok]
  | undelivered :
      Move me d (.unsent call p sender) (d.settle p) (.leaving p)
        [.outcome call.robot call.estopID .failed]
  | movedOn : Move me d (.unsent call p sender) d (.sent call p) []
  | delivering : Move me d (.sent call p) (d.startWindowAt p deadline) (.delivering call p) []
  | acknowledged :
      Move me d (.acknowledged call p) (d.startWindowAt p deadline) (.confirming call p)
        [.outcome call.robot call.estopID .stopping]
  | confirmed {thread : Thread} (waits : thread.awaits = some (call, p)) (first : (d.waiters p).ch = .stopped :: rest) :
      Move me d thread (d.receive p) (.leaving p) [.outcome call.robot call.estopID .stopped]
  | refused {thread : Thread} (waits : thread.awaits = some (call, p)) :
      Move me d thread (d.receive p) (.leaving p) [.outcome call.robot call.estopID .failed]
  | stopping {thread next : Thread} (waits : thread.awaits = some (call, p))
      (later : next = .acknowledged call p ∨ next = .confirming call p) :
      Move me d thread (d.receive p) next []
  | expired {thread : Thread} (waits : thread.awaits = some (call, p)) :
      Move me d thread (d.settle p) (.leaving p) [.outcome call.robot call.estopID .failed]
  | cancelled {thread : Thread} (waits : thread.awaits = some (call, p)) : Move me d thread d (.leaving p) []
  | left : Move me d (.leaving p) (d.deregister p) .idle []
  | delivered : Move me d (.routing p state) (d.deliver p state) .idle []
  | movedPushed :
      Move me d (.moving sender identity moved (key :: rest)) d (.moving sender identity moved rest)
        [.pushed sender key ok]
  | moved : Move me d (.moving sender identity moved []) (d.start [.resendHeld sender identity moved]) .idle []
  | listFailed : Move me d (.listing sender identity moved) d .idle [.listFailed sender]
  | listed :
      Move me d (.listing sender identity moved)
        { d.start ((d.robots.filter (Dispatcher.holdsStop identity moved)).flatMap
            (Dispatcher.heldTasks sender identity mint)) with issued }
        .idle [.listed sender identity moved d.robots]
  | alreadyBound (found : d.pending ⟨robot.ns, robot.wire, estopID⟩ = some p) (bound : (d.waiters p).sender = sender) :
      Move me d (.resending sender identity robot estopID) d .idle []
  | rebound (found : d.pending ⟨robot.ns, robot.wire, estopID⟩ = some p) :
      Move me d (.resending sender identity robot estopID) (d.bind p sender)
        (.repushing sender ⟨robot.ns, robot.wire, estopID⟩) [.bound me ⟨robot.ns, robot.wire, estopID⟩ sender]
  | resent (absent : d.pending ⟨robot.ns, robot.wire, estopID⟩ = none) :
      Move me d (.resending sender identity robot estopID)
        (d.addWaiter
          { adapter := identity.adapter, sender, robot := robot.name,
            key := ⟨robot.ns, robot.wire, estopID⟩, epoch := 0, resend := true })
        (.heldSending sender d.count) [.bound me ⟨robot.ns, robot.wire, estopID⟩ sender]
  | repushed : Move me d (.repushing sender key) d .idle [.pushed sender key ok]
  | heldPushed {ok : Bool} :
      Move me d (.heldSending sender p) (if ok then d else d.settle p) (if ok then .heldSent p else .leaving p)
        [.pushed sender (d.waiters p).key ok]
  | heldDelivering : Move me d (.heldSent p) (d.startWindowAt p deadline) (.heldWaiting p) []
  | heldAnswered {next : Thread} (later : next = .heldWaiting p ∨ next = .leaving p) :
      Move me d (.heldWaiting p) (d.receive p) next []
  | heldTaken : Move me d (.heldWaiting p) d (.leaving p) []
  | heldExpired : Move me d (.heldWaiting p) (d.settle p) (.leaving p) []

theorem begin_move (taken : begin d act = some (after, next, events)) : Move me d .idle after next events := by
  cases act <;> simp only [begin] at taken
  case trigger =>
    cases taken
    exact .framed ⟨⟨rfl, rfl, rfl, rfl⟩, rfl, rfl⟩ rfl rfl (.inl rfl)
  case clear =>
    cases taken
    exact .framed ⟨⟨rfl, rfl, rfl, rfl⟩, rfl, rfl⟩ rfl rfl (.inl rfl)
  case confirmResume =>
    cases taken
    exact .framed ⟨⟨rfl, rfl, rfl, rfl⟩, rfl, rfl⟩ rfl rfl (.inl rfl)
  case order =>
    cases taken
    exact .framed ⟨⟨rfl, rfl, rfl, rfl⟩, rfl, rfl⟩ rfl rfl (.inl rfl)
  case tick =>
    cases taken
    exact .framed ⟨⟨rfl, rfl, rfl, rfl⟩, rfl, rfl⟩ rfl rfl (.inl rfl)
  case robots =>
    cases taken
    exact .framed ⟨⟨rfl, rfl, rfl, rfl⟩, rfl, rfl⟩ rfl rfl (.inl rfl)
  case closeStream sender =>
    split at taken <;> try contradiction
    cases taken
    unfold Dispatcher.closeStream
    split <;> exact .framed ⟨⟨rfl, rfl, rfl, rfl⟩, rfl, rfl⟩ rfl rfl (.inl rfl)
  case routeAck sender robotID estopID state =>
    split at taken <;> try contradiction
    rename_i identity known
    unfold Dispatcher.routeAck at taken
    split at taken
    · cases taken
      exact .ackDropped
    rename_i p found
    split at taken
    next own =>
      cases taken
      exact .ackTaken known found own.2.1 own.2.2
    · cases taken
      exact .ackDropped
  all_goals contradiction

theorem runs_move (taken : runs d me task = some (after, next, events)) : Move me d .idle after next events := by
  unfold runs at taken
  split at taken <;> try contradiction
  rename_i started found
  cases taken
  cases started with
  | resendHeld => exact .startedList found
  | resendHeldTo => exact .startedResend found

theorem reads_move (taken : d.reads robot epoch scope carrier fresh written = some (after, next, events)) :
    Move me d (.triggering ns name epoch) after next events := by
  unfold Dispatcher.reads at taken
  split at taken
  · split at taken
    · cases taken
      cases written <;> exact .framed (.refl d) rfl rfl (.inr ⟨_, _, rfl⟩)
    · cases taken
      exact .framed (.refl d) rfl rfl (.inl rfl)
  · split at taken <;> try contradiction
    cases taken
    exact .framed ⟨⟨rfl, rfl, rfl, rfl⟩, rfl, rfl⟩ rfl rfl (.inl rfl)

theorem answered_move (awaits : thread.awaits = some (call, p))
    (later : waits = .acknowledged call p ∨ waits = .confirming call p)
    (taken : answered d call p waits = some (after, next, events)) : Move me d thread after next events := by
  unfold answered at taken
  split at taken
  · contradiction
  next first =>
    cases taken
    exact .confirmed awaits first
  · cases taken
    exact .refused awaits
  · cases taken
    exact .stopping awaits later

theorem resends_move (taken : resends d me sender identity robot estopID = (after, next, events)) :
    Move me d (.resending sender identity robot estopID) after next events := by
  simp only [resends] at taken
  split at taken
  next p found =>
    split at taken
    next bound =>
      cases taken
      exact .alreadyBound found bound
    · cases taken
      exact .rebound found
  next absent =>
    cases taken
    exact .resent absent

theorem Thread.step_move (taken : thread.step me d act = some (after, next, events)) :
    Move me d thread after next events := by
  cases thread with
  | idle =>
    cases act with
    | registerStream identity =>
      cases taken
      exact .opened identity
    | run => exact runs_move taken
    | _ =>
      simp only [Thread.step] at taken
      exact begin_move taken
  | triggering =>
    cases act with
    | read =>
      simp only [Thread.step] at taken
      split at taken <;> try contradiction
      exact reads_move taken
    | cancel =>
      cases taken
      exact .framed (.refl d) rfl rfl (.inl rfl)
    | _ => cases taken
  | registering =>
    cases act with
    | register =>
      simp only [Thread.step] at taken
      split at taken
      · cases taken
        exact .framed (.refl d) rfl rfl (.inr ⟨_, _, rfl⟩)
      rename_i live
      cases taken
      exact .registered live
    | _ => cases taken
  | sending =>
    cases act with
    | push =>
      cases taken
      exact .pushed
    | _ => cases taken
  | unsent =>
    cases act with
    | next =>
      simp only [Thread.step] at taken
      split at taken <;> cases taken
      · exact .undelivered
      · exact .movedOn
    | _ => cases taken
  | sent =>
    cases act with
    | window =>
      cases taken
      exact .delivering
    | _ => cases taken
  | delivering =>
    cases act with
    | receive => exact answered_move rfl (.inl rfl) taken
    | timeout =>
      simp only [Thread.step] at taken
      split at taken <;> cases taken
      exact .expired rfl
    | cancel =>
      cases taken
      exact .cancelled rfl
    | _ => cases taken
  | acknowledged =>
    cases act with
    | window =>
      cases taken
      exact .acknowledged
    | _ => cases taken
  | confirming =>
    cases act with
    | receive => exact answered_move rfl (.inr rfl) taken
    | timeout =>
      simp only [Thread.step] at taken
      split at taken <;> cases taken
      exact .expired rfl
    | cancel =>
      cases taken
      exact .cancelled rfl
    | _ => cases taken
  | leaving =>
    cases act with
    | next =>
      cases taken
      exact .left
    | _ => cases taken
  | routing =>
    cases act with
    | next =>
      cases taken
      exact .delivered
    | _ => cases taken
  | moving _ _ _ rest =>
    cases rest with
    | nil =>
      cases act with
      | next =>
        cases taken
        exact .moved
      | _ => cases taken
    | cons =>
      cases act with
      | push =>
        cases taken
        exact .movedPushed
      | _ => cases taken
  | listing =>
    cases act with
    | list =>
      simp only [Thread.step] at taken
      split at taken <;> cases taken
      exact .listed
    | cancel =>
      cases taken
      exact .listFailed
    | _ => cases taken
  | resending =>
    cases act with
    | next => exact resends_move (Option.some.inj taken)
    | _ => cases taken
  | repushing =>
    cases act with
    | push =>
      cases taken
      exact .repushed
    | _ => cases taken
  | heldSending =>
    cases act with
    | push =>
      cases taken
      exact .heldPushed
    | _ => cases taken
  | heldSent =>
    cases act with
    | window =>
      cases taken
      exact .heldDelivering
    | _ => cases taken
  | heldWaiting =>
    cases act with
    | receive =>
      simp only [Thread.step] at taken
      split at taken <;> cases taken
      · exact .heldAnswered (.inl rfl)
      · exact .heldAnswered (.inr rfl)
    | taken =>
      simp only [Thread.step] at taken
      split at taken <;> cases taken
      exact .heldTaken
    | timeout =>
      simp only [Thread.step] at taken
      split at taken <;> cases taken
      exact .heldExpired
    | _ => cases taken

end Swarmada.Delivery
