import Swarmada.Delivery.Moves

namespace Swarmada.Delivery

open Api Transition

variable {me sender p : Nat} {d after : Dispatcher} {thread next : Thread} {key : PendingKey}
  {events history : List Event} {change : PendingEstop → PendingEstop}

def lastBound (key : PendingKey) : List Event → Option Nat
  | [] => none
  | .bound _ other sender :: older => if other = key then some sender else lastBound key older
  | _ :: older => lastBound key older

theorem lastBound_quiet (quiet : ∀ i sender, .bound i key sender ∉ events) :
    lastBound key (events ++ history) = lastBound key history := by
  induction events with
  | nil => rfl
  | cons event events ih =>
    have rest := ih fun i sender member => quiet i sender (List.mem_cons_of_mem _ member)
    cases event with
    | bound i other sender =>
      have distinct : other ≠ key := by
        rintro rfl
        exact quiet i sender List.mem_cons_self
      simpa [lastBound, distinct] using rest
    | _ => simpa [lastBound] using rest

theorem lastBound_map (keys : List PendingKey) : lastBound key (keys.map (.bound me · sender) ++ history) =
      if key ∈ keys then some sender else lastBound key history := by
  induction keys with
  | nil => simp
  | cons first keys ih =>
    simp only [List.map_cons, List.cons_append, lastBound, ih, List.mem_cons]
    by_cases same : first = key
    · simp [same]
    · simp [same, Ne.symm same]

theorem bound_of_lastBound (last : lastBound key history = some sender) : ∃ i, .bound i key sender ∈ history := by
  induction history with
  | nil => simp [lastBound] at last
  | cons event older ih =>
    have further (earlier : lastBound key older = some sender) :
        ∃ i, .bound i key sender ∈ event :: older := by
      obtain ⟨i, member⟩ := ih earlier
      exact ⟨i, List.mem_cons_of_mem _ member⟩
    cases event with
    | bound i =>
      simp only [lastBound] at last
      split at last
      next same =>
        cases last
        exact ⟨i, by simp [same]⟩
      · exact further last
    | _ => exact further last

structure Kept (d after : Dispatcher) : Prop where
  count : d.count ≤ after.count
  key : ∀ p, p < d.count → (after.waiters p).key = (d.waiters p).key
  adapter : ∀ p, p < d.count → (after.waiters p).adapter = (d.waiters p).adapter

theorem Kept.refl (d : Dispatcher) : Kept d d := ⟨le_refl _, fun _ _ => rfl, fun _ _ => rfl⟩

theorem Kept.trans (first : Kept d after) (second : Kept after last) : Kept d last where
  count := first.count.trans second.count
  key := fun p small => (second.key p (small.trans_le first.count)).trans (first.key p small)
  adapter := fun p small => (second.adapter p (small.trans_le first.count)).trans (first.adapter p small)

theorem SameTable.kept (same : SameTable d after) : Kept d after where
  count := by rw [same.count]
  key := fun p _ => by rw [same.waiters]
  adapter := fun p _ => by rw [same.waiters]

def KeepsName (change : PendingEstop → PendingEstop) : Prop :=
  ∀ waiter, (change waiter).key = waiter.key ∧ (change waiter).adapter = waiter.adapter

theorem kept_changeWaiter (d : Dispatcher) (p : Nat) (named : KeepsName change) : Kept d (d.changeWaiter p change) := by
  refine ⟨le_refl _, fun q _ => ?_, fun q _ => ?_⟩
  · by_cases same : q = p
    · simp [Dispatcher.changeWaiter, same, (named _).1]
    · simp [Dispatcher.changeWaiter, same]
  · by_cases same : q = p
    · simp [Dispatcher.changeWaiter, same, (named _).2]
    · simp [Dispatcher.changeWaiter, same]

theorem kept_addWaiter (d : Dispatcher) (waiter : PendingEstop) : Kept d (d.addWaiter waiter) := by
  refine ⟨by simp [Dispatcher.addWaiter], fun q small => ?_, fun q small => ?_⟩
  · simp [Dispatcher.addWaiter, Nat.ne_of_lt small]
  · simp [Dispatcher.addWaiter, Nat.ne_of_lt small]

theorem kept_settle (d : Dispatcher) (p : Nat) : Kept d (d.settle p) :=
  kept_changeWaiter d p fun _ => ⟨rfl, rfl⟩

theorem kept_startWindowAt (d : Dispatcher) (p deadline : Nat) : Kept d (d.startWindowAt p deadline) :=
  kept_changeWaiter d p fun _ => ⟨rfl, rfl⟩

theorem kept_receive (d : Dispatcher) (p : Nat) : Kept d (d.receive p) :=
  kept_changeWaiter d p fun _ => ⟨rfl, rfl⟩

theorem kept_bind (d : Dispatcher) (p sender : Nat) : Kept d (d.bind p sender) :=
  kept_changeWaiter d p fun _ => ⟨rfl, rfl⟩

theorem kept_deliver (d : Dispatcher) (p : Nat) (state : AckState) : Kept d (d.deliver p state) := by
  refine kept_changeWaiter d p fun waiter => ?_
  split <;> exact ⟨rfl, rfl⟩

theorem kept_deregister (d : Dispatcher) (p : Nat) : Kept d (d.deregister p) := by
  simp only [Dispatcher.deregister]
  split <;> exact ⟨le_refl _, fun _ _ => rfl, fun _ _ => rfl⟩

theorem kept_rebind (d : Dispatcher) (sender : Nat) (keys : List PendingKey) : Kept d (d.rebind sender keys) := by
  induction keys generalizing d with
  | nil => exact .refl d
  | cons key keys ih =>
    rw [Dispatcher.rebind]
    split
    · exact ih d
    · exact (kept_bind d _ sender).trans (ih _)

/-- What `register` does to the waiter whose stop ID it takes. -/
def Dispatcher.release (d : Dispatcher) (key : PendingKey) : Dispatcher :=
  match d.pending key with
  | some old =>
    if (d.waiters old).resend then
      d.changeWaiter old fun waiter => { waiter with resend := false, taken := true }
    else d
  | none => d

theorem Dispatcher.register_eq (d : Dispatcher) (robot : Robot) (estopID : String) (epoch sender : Nat) :
    d.register robot estopID epoch sender = (d.release ⟨robot.ns, robot.wire, estopID⟩).addWaiter
        { adapter := robot.adapter, sender, robot := robot.name, key := ⟨robot.ns, robot.wire, estopID⟩, epoch } :=
  rfl

theorem Dispatcher.release_cases (d : Dispatcher) (key : PendingKey) : d.release key = d ∨ ∃ old, d.release key =
      d.changeWaiter old fun waiter => { waiter with resend := false, taken := true } := by
  unfold Dispatcher.release
  split
  · split
    · exact .inr ⟨_, rfl⟩
    · exact .inl rfl
  · exact .inl rfl

theorem kept_release (d : Dispatcher) (key : PendingKey) : Kept d (d.release key) := by
  rcases d.release_cases key with same | ⟨old, changed⟩
  · rw [same]
    exact .refl d
  · rw [changed]
    exact kept_changeWaiter d old fun _ => ⟨rfl, rfl⟩

theorem Move.kept (move : Move me d thread after next events) : Kept d after := by
  cases move with
  | framed frame => exact frame.toSameTable.kept
  | opened identity =>
    have registered : SameTable d (d.withStream identity) := ⟨rfl, rfl, rfl, rfl⟩
    exact registered.kept.trans (kept_rebind _ _ _)
  | ackTaken | heldPushed =>
    split
    · exact .refl d
    · exact kept_settle d _
  | registered =>
    exact (kept_release d _).trans (kept_addWaiter _ _)
  | delivered => exact kept_deliver d _ _
  | left => exact kept_deregister d _
  | rebound => exact kept_bind d _ _
  | resent => exact kept_addWaiter d _
  | undelivered | expired | heldExpired => exact kept_settle d _
  | delivering | acknowledged | heldDelivering => exact kept_startWindowAt d _ _
  | confirmed | refused | stopping | heldAnswered => exact kept_receive d _
  | _ => exact SameTable.kept ⟨rfl, rfl, rfl, rfl⟩

structure Bound (history : List Event) (d : Dispatcher) (key : PendingKey) (p : Nat) : Prop where
  small : p < d.count
  own : (d.waiters p).key = key
  last : lastBound key history = some (d.waiters p).sender
  awaited : key ∈ d.awaited

def Awaited (history : List Event) (d : Dispatcher) : Prop :=
  ∀ key p, d.pending key = some p → Bound history d key p

theorem Awaited.quiet (awaited : Awaited history d)
    (quiet : ∀ key i sender, .bound i key sender ∉ events) : Awaited (events ++ history) d := by
  intro key p found
  have before := awaited key p found
  exact ⟨before.small, before.own, by rw [lastBound_quiet (quiet key), before.last], before.awaited⟩

theorem SameTable.preserves (same : SameTable d after) (awaited : Awaited history d) : Awaited history after := by
  intro key p found
  rw [same.pending] at found
  have before := awaited key p found
  exact ⟨same.count ▸ before.small, by rw [same.waiters, before.own], by rw [same.waiters, before.last],
    same.awaited ▸ before.awaited⟩

theorem Awaited.changeWaiter (awaited : Awaited history d)
    (keeps : ∀ waiter, (change waiter).key = waiter.key ∧ (change waiter).sender = waiter.sender) :
    Awaited history (d.changeWaiter p change) := by
  intro key q found
  have before := awaited key q found
  by_cases same : q = p
  · subst same
    refine ⟨before.small, ?_, ?_, before.awaited⟩
    · simp [Dispatcher.changeWaiter, (keeps _).1, before.own]
    · simp [Dispatcher.changeWaiter, (keeps _).2, before.last]
  · refine ⟨before.small, ?_, ?_, before.awaited⟩
    · simp [Dispatcher.changeWaiter, same, before.own]
    · simp [Dispatcher.changeWaiter, same, before.last]

theorem Awaited.addWaiter (awaited : Awaited history d) :
    Awaited (.bound me waiter.key waiter.sender :: history) (d.addWaiter waiter) := by
  intro key q found
  have listed : ∀ other ∈ d.awaited, other ∈ (d.addWaiter waiter).awaited := by
    intro other member
    simp only [Dispatcher.addWaiter]
    split
    · exact member
    · exact List.mem_cons_of_mem _ member
  by_cases same : key = waiter.key
  · subst same
    have newest : d.count = q := by simpa [Dispatcher.addWaiter] using found
    subst newest
    refine ⟨by simp [Dispatcher.addWaiter], by simp [Dispatcher.addWaiter],
      by simp [Dispatcher.addWaiter, lastBound], ?_⟩
    simp only [Dispatcher.addWaiter]
    split
    · assumption
    · exact List.mem_cons_self
  · have older : d.pending key = some q := by simpa [Dispatcher.addWaiter, same] using found
    have before := awaited key q older
    have distinct : q ≠ d.count := Nat.ne_of_lt before.small
    refine ⟨?_, ?_, ?_, listed key before.awaited⟩
    · exact Nat.lt_succ_of_lt before.small
    · simp [Dispatcher.addWaiter, distinct, before.own]
    · simp [Dispatcher.addWaiter, distinct, lastBound, Ne.symm same, before.last]

theorem Awaited.bind (awaited : Awaited history d) (present : d.pending key = some p) :
    Awaited (.bound me key sender :: history) (d.bind p sender) := by
  intro other q found
  have before := awaited other q found
  have mine := awaited key p present
  by_cases same : q = p
  · subst same
    have keys : other = key := before.own.symm.trans mine.own
    subst keys
    refine ⟨before.small, ?_, ?_, before.awaited⟩
    · simp [Dispatcher.bind, Dispatcher.changeWaiter, before.own]
    · simp [Dispatcher.bind, Dispatcher.changeWaiter, lastBound]
  · have distinct : key ≠ other := by
      rintro rfl
      exact same (Option.some.inj (found.symm.trans present))
    refine ⟨before.small, ?_, ?_, before.awaited⟩
    · simp [Dispatcher.bind, Dispatcher.changeWaiter, same, before.own]
    · simp [Dispatcher.bind, Dispatcher.changeWaiter, same, lastBound, distinct, before.last]

theorem Awaited.rebind (awaited : Awaited history d) (present : ∀ key ∈ keys, ∃ p, d.pending key = some p) :
    Awaited (keys.map (.bound me · sender) ++ history) (d.rebind sender keys) := by
  induction keys generalizing d history with
  | nil => exact awaited
  | cons first keys ih =>
    obtain ⟨p, found⟩ := present first List.mem_cons_self
    have rest := @ih _ (.bound me first sender :: history) (awaited.bind found)
      (fun key member => present key (List.mem_cons_of_mem _ member))
    intro key q held
    rw [Dispatcher.rebind, found] at held ⊢
    have bound := rest key q held
    refine ⟨bound.small, bound.own, ?_, bound.awaited⟩
    rw [← bound.last, lastBound_map, lastBound_map, lastBound]
    by_cases same : first = key
    · simp [same]
    · simp [same, Ne.symm same]

theorem Dispatcher.moves_pending (member : key ∈ d.moves identity) : ∃ p, d.pending key = some p := by
  unfold Dispatcher.moves at member
  split at member <;> try contradiction
  rw [List.mem_insertionSort, List.mem_filter] at member
  obtain ⟨-, wanted⟩ := member
  split at wanted <;> try contradiction
  exact ⟨_, ‹_›⟩

theorem Awaited.release (awaited : Awaited history d) : Awaited history (d.release key) := by
  rcases d.release_cases key with same | ⟨_, changed⟩
  · rw [same]
    exact awaited
  · rw [changed]
    exact awaited.changeWaiter fun _ => ⟨rfl, rfl⟩

theorem Awaited.deregister (awaited : Awaited history d) : Awaited history (d.deregister p) := by
  simp only [Dispatcher.deregister]
  split
  · intro key q found
    by_cases same : key = (d.waiters p).key
    · simp [same] at found
    · have before := awaited key q (by simpa [same] using found)
      exact ⟨before.small, before.own, before.last, by simp [same, before.awaited]⟩
  · exact awaited

theorem Awaited.deliver (awaited : Awaited history d) : Awaited history (d.deliver p state) := by
  refine awaited.changeWaiter fun waiter => ?_
  split <;> exact ⟨rfl, rfl⟩

theorem Move.awaited (move : Move me d thread after next events) (awaited : Awaited history d) :
    Awaited (events ++ history) after := by
  cases move with
  | framed frame _ _ silent =>
    refine frame.toSameTable.preserves (awaited.quiet ?_)
    rcases silent with rfl | ⟨_, _, rfl⟩ <;> simp
  | opened identity =>
    have registered : SameTable d (d.withStream identity) := ⟨rfl, rfl, rfl, rfl⟩
    have noted : Awaited ([.handover me d.identities.length identity (d.movedRobots (d.moves identity)),
        .opened d.identities.length identity] ++ history) (d.withStream identity) :=
      registered.preserves (awaited.quiet (by simp))
    rw [List.append_assoc]
    exact noted.rebind fun key member => Dispatcher.moves_pending (d := d) member
  | ackTaken | heldPushed =>
    refine Awaited.quiet ?_ (by simp)
    split
    · exact awaited
    · exact awaited.changeWaiter fun _ => ⟨rfl, rfl⟩
  | registered =>
    exact awaited.release.addWaiter
  | delivered => exact awaited.deliver
  | left => exact awaited.deregister
  | rebound found => exact awaited.bind found
  | resent => exact awaited.addWaiter
  | undelivered | expired | acknowledged | confirmed | refused =>
    exact (awaited.quiet (by simp)).changeWaiter fun _ => ⟨rfl, rfl⟩
  | heldExpired | delivering | heldDelivering | stopping | heldAnswered =>
    exact awaited.changeWaiter fun _ => ⟨rfl, rfl⟩
  | startedList | startedResend | listed =>
    exact SameTable.preserves (d := d) ⟨rfl, rfl, rfl, rfl⟩ (awaited.quiet (by simp))
  | moved => exact SameTable.preserves (d := d) ⟨rfl, rfl, rfl, rfl⟩ awaited
  | listFailed | ackDropped | pushed | movedPushed | repushed => exact awaited.quiet (by simp)
  | _ => exact awaited

end Swarmada.Delivery
