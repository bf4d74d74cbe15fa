import Swarmada.Delivery.Waiters

namespace Swarmada.Delivery

open Api Safety Transition

variable {me p : Nat} {d after : Dispatcher} {thread next : Thread} {key : PendingKey} {adapter : String}
  {events history : List Event} {change : PendingEstop → PendingEstop}

/-- An ack that reports STOPPED for the key arrived on the stream the key was then bound
to last, and that stream is the adapter's. -/
def Confirmed (history : List Event) (key : PendingKey) (adapter : String) : Prop :=
  ∃ since sender before,
    history = since ++ .ackReceived sender ⟨key.ns, adapter⟩ key.robot key.estopID .stopped :: before ∧
      .opened sender ⟨key.ns, adapter⟩ ∈ before ∧ lastBound key before = some sender

/-- `Stopped` is written for a robot only once its stop has been confirmed so. -/
def StoppedProved (older : List Event) : Event → Prop
  | .outcome robot estopID .stopped => Confirmed older ⟨robot.ns, robot.wire, estopID⟩ robot.adapter
  | _ => True

theorem Confirmed.later (confirmed : Confirmed history key adapter) : Confirmed (events ++ history) key adapter := by
  obtain ⟨since, sender, before, rfl, opened, last⟩ := confirmed
  exact ⟨events ++ since, sender, before, by simp, opened, last⟩

def NoneDelivered (d after : Dispatcher) : Prop :=
  ∀ p, p < after.count → .stopped ∈ (after.waiters p).ch → p < d.count ∧ .stopped ∈ (d.waiters p).ch

theorem SameTable.noneDelivered (same : SameTable d after) : NoneDelivered d after := by
  intro p small member
  rw [same.count] at small
  rw [same.waiters] at member
  exact ⟨small, member⟩

theorem NoneDelivered.trans (first : NoneDelivered d after)
    (second : NoneDelivered after last) : NoneDelivered d last := by
  intro p small member
  obtain ⟨earlier, before⟩ := second p small member
  exact first p earlier before

theorem noneDelivered_changeWaiter (shrinks : ∀ waiter, ∀ state ∈ (change waiter).ch, state ∈ waiter.ch) :
    NoneDelivered d (d.changeWaiter p change) := by
  intro q small member
  refine ⟨small, ?_⟩
  by_cases same : q = p
  · subst same
    simp only [Dispatcher.changeWaiter, Function.update_self] at member
    exact shrinks _ _ member
  · simpa [Dispatcher.changeWaiter, same] using member

theorem noneDelivered_addWaiter (empty : waiter.ch = []) : NoneDelivered d (d.addWaiter waiter) := by
  intro q small member
  by_cases same : q = d.count
  · simp [Dispatcher.addWaiter, same, empty] at member
  have older : q < d.count := by
    simp only [Dispatcher.addWaiter] at small
    omega
  exact ⟨older, by simpa [Dispatcher.addWaiter, same] using member⟩

theorem noneDelivered_bind (sender : Nat) : NoneDelivered d (d.bind p sender) :=
  noneDelivered_changeWaiter fun _ _ member => member

theorem noneDelivered_rebind (keys : List PendingKey) : NoneDelivered d (d.rebind sender keys) := by
  induction keys generalizing d with
  | nil => exact (SameTable.refl d).noneDelivered
  | cons key keys ih =>
    rw [Dispatcher.rebind]
    split
    · exact ih
    · exact (noneDelivered_bind sender).trans ih

theorem noneDelivered_release : NoneDelivered d (d.release key) := by
  rcases d.release_cases key with same | ⟨_, changed⟩
  · rw [same]
    exact (SameTable.refl d).noneDelivered
  · rw [changed]
    exact noneDelivered_changeWaiter fun _ _ member => member

theorem noneDelivered_receive : NoneDelivered d (d.receive p) :=
  noneDelivered_changeWaiter fun _ _ member => List.mem_of_mem_tail member

theorem noneDelivered_deregister : NoneDelivered d (d.deregister p) := by
  simp only [Dispatcher.deregister]
  split <;> exact fun _ small member => ⟨small, member⟩

theorem mem_deliver (member : .stopped ∈ ((d.deliver p state).waiters q).ch) :
    .stopped ∈ (d.waiters q).ch ∨ q = p ∧ state = .stopped := by
  by_cases same : q = p
  · subst same
    simp only [Dispatcher.deliver, Dispatcher.changeWaiter, Function.update_self] at member
    split at member
    · rcases List.mem_append.mp member with old | new
      · exact .inl old
      · exact .inr ⟨rfl, (List.mem_singleton.mp new).symm⟩
    · exact .inl member
  · exact .inl (by simpa [Dispatcher.deliver, Dispatcher.changeWaiter, same] using member)

variable (move : Move me d thread after next events)

include move in
theorem Move.ch : NoneDelivered d after ∨ ∃ p state, thread = .routing p state ∧ after = d.deliver p state := by
  cases move with
  | @delivered p state => exact .inr ⟨p, state, rfl, rfl⟩
  | framed frame => exact .inl frame.toSameTable.noneDelivered
  | opened identity =>
    have registered : SameTable d (d.withStream identity) := ⟨rfl, rfl, rfl, rfl⟩
    exact .inl (registered.noneDelivered.trans (noneDelivered_rebind _))
  | registered =>
    exact .inl (noneDelivered_release.trans (noneDelivered_addWaiter rfl))
  | resent => exact .inl (noneDelivered_addWaiter rfl)
  | left => exact .inl noneDelivered_deregister
  | ackTaken | heldPushed =>
    split
    · exact .inl (SameTable.refl d).noneDelivered
    · exact .inl (noneDelivered_changeWaiter fun _ _ member => member)
  | confirmed | refused | stopping | heldAnswered => exact .inl noneDelivered_receive
  | undelivered | expired | heldExpired | delivering | acknowledged | heldDelivering =>
    exact .inl (noneDelivered_changeWaiter fun _ _ member => member)
  | rebound => exact .inl (noneDelivered_bind _)
  | _ => exact .inl (SameTable.noneDelivered ⟨rfl, rfl, rfl, rfl⟩)

structure Standing (history : List Event) (d : Dispatcher) : Prop where
  awaited : Awaited history d
  delivered : ∀ p, p < d.count → .stopped ∈ (d.waiters p).ch →
    Confirmed history (d.waiters p).key (d.waiters p).adapter
  identities : ∀ sender identity, d.identities[sender]? = some identity → .opened sender identity ∈ history
  proved : Always StoppedProved history

structure Placed (history : List Event) (d : Dispatcher) (thread : Thread) : Prop where
  call : ∀ call p, thread.call = some (call, p) →
    p < d.count ∧ (d.waiters p).key = call.key ∧ (d.waiters p).adapter = call.robot.adapter
  routing : ∀ p, thread = .routing p .stopped →
    p < d.count ∧ Confirmed history (d.waiters p).key (d.waiters p).adapter

theorem Placed.later (placed : Placed history d thread) (kept : Kept d after) :
    Placed (events ++ history) after thread := by
  constructor
  · intro call p has
    obtain ⟨small, key, adapter⟩ := placed.call call p has
    exact ⟨small.trans_le kept.count, by rw [kept.key p small, key], by rw [kept.adapter p small, adapter]⟩
  intro p routes
  obtain ⟨small, confirmed⟩ := placed.routing p routes
  rw [kept.key p small, kept.adapter p small]
  exact ⟨small.trans_le kept.count, confirmed.later⟩

theorem Thread.call_of_awaits {call : Call} (waits : thread.awaits = some (call, p)) :
    thread.call = some (call, p) := by
  cases thread <;> first | contradiction | exact waits

theorem Placed.goesOn (placed : Placed history d thread) (kept : Kept d after)
    (calls : ∀ call p, next.call = some (call, p) → thread.call = some (call, p))
    (unrouted : ∀ p state, next ≠ .routing p state) : Placed (events ++ history) after next := by
  have later : Placed (events ++ history) after thread := placed.later kept
  exact ⟨fun call p has => later.call call p (calls call p has),
    fun p routes => absurd routes (unrouted p .stopped)⟩

theorem Placed.of_plain (plain : thread.plain = true) : Placed history d thread := by
  constructor
  · intro call p has
    cases thread <;> contradiction
  · rintro p rfl
    contradiction

theorem Dispatcher.release_count (d : Dispatcher) (key : PendingKey) : (d.release key).count = d.count := by
  rcases d.release_cases key with same | ⟨_, changed⟩
  · rw [same]
  · rw [changed]
    rfl

theorem Standing.confirms (standing : Standing history d) (known : d.identities[sender]? = some identity)
    (found : d.pending ⟨identity.ns, robotID, estopID⟩ = some p)
    (adapter : (d.waiters p).adapter = identity.adapter) (bound : (d.waiters p).sender = sender) :
    p < d.count ∧ Confirmed (.ackReceived sender identity robotID estopID .stopped :: history)
      (d.waiters p).key (d.waiters p).adapter := by
  have own := standing.awaited _ p found
  refine ⟨own.small, ?_⟩
  rw [own.own, adapter]
  exact ⟨[], sender, history, rfl, standing.identities sender identity known, by rw [own.last, bound]⟩

include move in
theorem Move.placed (standing : Standing history d)
    (placed : Placed history d thread) : Placed (events ++ history) after next := by
  have kept := move.kept
  cases move with
  | framed _ _ later => exact .of_plain later
  | @ackTaken _ _ _ _ p _ known found adapter bound =>
    constructor
    · intro call q has
      contradiction
    intro q routes
    cases routes
    obtain ⟨small, confirmed⟩ := standing.confirms known found adapter bound
    rw [kept.key p small, kept.adapter p small]
    exact ⟨small.trans_le kept.count, confirmed⟩
  | registered =>
    constructor
    · intro other q has
      cases has
      rw [Dispatcher.register_eq]
      simp only [Dispatcher.addWaiter, Dispatcher.release_count, Function.update_self]
      exact ⟨by omega, rfl, trivial⟩
    · intro q routes
      contradiction
  | pushed =>
    split <;> exact placed.goesOn kept (fun _ _ has => has) (by simp)
  | movedOn | delivering | acknowledged => exact placed.goesOn kept (fun _ _ has => has) (by simp)
  | stopping waits later =>
    have has := Thread.call_of_awaits waits
    rcases later with rfl | rfl <;> exact placed.goesOn kept (fun _ _ same => has.trans same) (by simp)
  | @heldPushed _ _ ok =>
    cases ok with
    | true | false => exact placed.goesOn kept (by simp [Thread.call]) (by simp)
  | heldAnswered later =>
    rcases later with rfl | rfl <;> exact placed.goesOn kept (by simp [Thread.call]) (by simp)
  | _ => exact placed.goesOn kept (by simp [Thread.call]) (by simp)

include move in
theorem Move.delivered_confirmed (standing : Standing history d)
    (placed : Placed history d thread) (small : p < after.count) (member : .stopped ∈ (after.waiters p).ch) :
    Confirmed (events ++ history) (after.waiters p).key (after.waiters p).adapter := by
  have kept := move.kept
  rcases move.ch with none | ⟨q, _, rfl, rfl⟩
  · obtain ⟨earlier, before⟩ := none p small member
    rw [kept.key p earlier, kept.adapter p earlier]
    exact (standing.delivered p earlier before).later
  rw [kept.key p small, kept.adapter p small]
  rcases mem_deliver member with before | ⟨rfl, rfl⟩
  · exact (standing.delivered p small before).later
  · exact (placed.routing p rfl).2.later

theorem Dispatcher.rebind_identities (keys : List PendingKey) : (d.rebind sender keys).identities = d.identities := by
  induction keys generalizing d with
  | nil => rfl
  | cons key keys ih =>
    rw [Dispatcher.rebind]
    split
    · exact ih
    · rw [ih]
      rfl

include move in
theorem Move.identities (known : after.identities[sender]? = some identity) :
    d.identities[sender]? = some identity ∨ .opened sender identity ∈ events := by
  cases move with
  | framed frame => exact .inl (frame.identities ▸ known)
  | opened =>
    rw [Dispatcher.registerStream, Dispatcher.rebind_identities] at known
    simp only [Dispatcher.withStream, List.getElem?_append, List.getElem?_singleton] at known
    split at known
    · exact .inl known
    split at known <;> try contradiction
    cases known
    have same : sender = d.identities.length := by omega
    exact .inr (by simp [same])
  | ackTaken =>
    split at known <;> exact .inl known
  | registered =>
    rw [Dispatcher.register_eq] at known
    rcases d.release_cases _ with same | ⟨_, changed⟩
    · rw [same] at known
      exact .inl known
    · rw [changed] at known
      exact .inl known
  | left =>
    simp only [Dispatcher.deregister] at known
    split at known <;> exact .inl known
  | heldPushed => split at known <;> exact .inl known
  | _ => exact .inl known

include move in
theorem Move.proved (standing : Standing history d)
    (placed : Placed history d thread) : Always StoppedProved (events ++ history) := by
  have past := standing.proved
  cases move with
  | framed _ _ _ silent =>
    rcases silent with rfl | ⟨_, _, rfl⟩
    · exact past
    · exact ⟨trivial, past⟩
  | opened =>
    refine Always.extend (fun event member older => ?_) past
    simp only [List.mem_append, List.mem_map, List.mem_cons, List.not_mem_nil, or_false] at member
    rcases member with ⟨_, -, rfl⟩ | rfl | rfl <;> trivial
  | @confirmed call p _ _ waits first =>
    obtain ⟨small, key, adapter⟩ := placed.call call p (Thread.call_of_awaits waits)
    have confirmed := standing.delivered p small (by simp [first])
    rw [key, adapter] at confirmed
    exact ⟨confirmed, past⟩
  | _ => first | exact past | exact ⟨trivial, past⟩

def adapterA : Identity := ⟨"default", "a1"⟩

def robotR : Robot := { ns := "default", name := "r1", adapter := "a1" }

def sentStop : List (Nat × Act) :=
  [(0, .registerStream adapterA), (0, .next), (1, .trigger "default" "r1"),
    (1, .read robotR .robot none "s1" true), (1, .register), (1, .push true), (1, .window 2000)]

def stoppedOn (sender : Nat) : List (Nat × Act) :=
  [(2, .routeAck sender "r1" "s1" .stopped), (2, .next), (1, .receive)]

end Swarmada.Delivery
