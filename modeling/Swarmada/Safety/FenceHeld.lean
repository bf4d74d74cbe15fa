import Swarmada.Safety.Unrecorded

namespace Swarmada.Safety

open Api Transition

variable {derive : Option (Robot → List CapabilityStatusEntry)} {me : Nat} {shared after : Shared}

/-- A fence operation that has yet to add the stop to the robot's stops in force. -/
def Thread.carries : Thread → String → Bool
  | .fence (.sending id), other => id = other
  | .fence (.registering robot), other => (Command.recordedInForce robot).contains other
  | _, _ => false

def Forgotten (history : List Event) (version : Nat) (id : String) : Prop :=
  ∃ ids, .heldCleared version ids ∈ history ∧ id ∈ ids

/-- Once no fence operation of a forgotten stop is pending, the stop holds the robot's
work no more. -/
def FenceForgets (history : List Event) (config : Config Shared Thread) : Prop :=
  ∀ version id, Forgotten history version id → (∀ i, (config.threads i).carries id = false) →
    id ∉ config.shared.held

/-- When a clear ends the stops in force, no fence operation of them is pending; no fence of a forgotten stop is sent,
and none from a cached Robot older than the clear's write. -/
structure FencesSettled (history : List Event) (config : Config Shared Thread) (label : Nat × Act) : Prop where
  ending : ∀ call write, config.threads label.1 = .clear (.ending call write) →
    config.shared.order.lastStop < call.epoch →
      ∀ id ∈ write.ended, ∀ i, (config.threads i).carries id = false
  sending : ∀ id, label.2 = .sendFence id → ∀ version, ¬ Forgotten history version id
  assigning : ∀ age copy, label.2 = .roundTripAssign age → config.shared.cached age = some copy →
    ∀ version id, Forgotten history version id → version ≤ copy.version

inductive HeldEffect (shared after : Shared) : Thread → List Event → Prop
  | same {thread : Thread} {events : List Event} (held : after.held = shared.held)
      (quiet : ∀ version ids, .heldCleared version ids ∉ events) : HeldEffect shared after thread events
  | added {thread : Thread} (held : ∀ id, id ∈ after.held ↔ thread.carries id = true ∨ id ∈ shared.held) :
      HeldEffect shared after thread []
  | cleared (held : after.held = []) (latest : shared.order.lastStop < call.epoch) :
      HeldEffect shared after (.clear (.ending call write)) [.heldCleared write.version write.ended]

variable {thread next : Thread} {act : Act} {events : List Event}

variable (move : Move derive me shared thread act after next events)

include move in
theorem Move.held : HeldEffect shared after thread events := by
  cases move with
  | @fence fencer =>
    refine .added fun id => ?_
    cases fencer with
    | sending =>
      simp only [Fencer.add, Command.mem_addHeld, Thread.carries, decide_eq_true_eq]
      exact or_congr_left eq_comm
    | registering => simp [Fencer.add, Command.mem_addRecorded, Thread.carries]
  | write move =>
    cases move with
    | refused _ warned => rcases warned with rfl | rfl <;> exact .same rfl (by simp)
    | found => exact .same rfl (by split <;> simp)
    | _ => exact .same rfl (by simp)
  | clear move =>
    cases move with
    | heldCleared latest => exact .cleared rfl latest
    | _ => exact .same rfl (by simp)
  | record move =>
    cases move with
    | @edited _ untracks => cases untracks <;> exact .same rfl (by simp)
    | @finished _ untracks _ full =>
      rcases full with rfl | ⟨_, rfl⟩ <;> cases untracks <;> exact .same rfl (by simp)
    | _ => exact .same rfl (by simp)
  | _ => exact .same rfl (by simp)

include move in
theorem Move.carries {id : String} (carries : next.carries id = true) : events = [] ∧ (act = .sendFence id ∨
      (∃ copy, (copy = shared.cell ∨ ∃ age, act = .roundTripAssign age ∧ shared.cached age = some copy) ∧
        id ∈ copy.value.unclearedStops)) := by
  have listed (robot : Robot) (member : (Command.recordedInForce robot).contains id = true) :
      id ∈ robot.unclearedStops :=
    (Command.mem_recordedInForce (List.contains_iff_mem.mp member)).2
  cases move with
  | @fencing stop =>
    have same : stop = id := by simpa [Thread.carries] using carries
    exact ⟨rfl, .inl (by rw [same])⟩
  | registering => exact ⟨rfl, .inr ⟨_, .inl rfl, listed _ carries⟩⟩
  | @assigning age copy found => exact ⟨rfl, .inr ⟨copy, .inr ⟨age, rfl, found⟩, listed _ carries⟩⟩
  | @write _ _ _ next | @clear _ _ _ next | @record _ _ _ next => cases next <;> contradiction
  | clearing led => rcases led with rfl | rfl <;> contradiction
  | _ => contradiction

def EndsRecorded (history : List Event) : Thread → Prop
  | .clear (.closing _ _ write true _) | .clear (.ending _ write) =>
    .ended write.version write.ended ∈ history
  | _ => True

structure HeldForgotten (history : List Event) (shared : Shared) : Prop where
  ended : ∀ version ids, .heldCleared version ids ∈ history → .ended version ids ∈ history
  held : ∀ version id, Forgotten history version id → id ∉ shared.held

structure SettledThread (history : List Event) (thread : Thread) : Prop where
  ends : EndsRecorded history thread
  carries : ∀ version id, Forgotten history version id → thread.carries id = false

variable {history : List Event}

include move in
theorem Move.endsRecorded (ends : EndsRecorded history thread) : EndsRecorded (events ++ history) next := by
  cases move with
  | clear move =>
    cases move with
    | landed => exact List.mem_cons_of_mem _ List.mem_cons_self
    | closed => exact ends
    | _ => trivial
  | @write _ _ _ next | @record _ _ _ next => cases next <;> trivial
  | clearing led => rcases led with rfl | rfl <;> trivial
  | _ => trivial

theorem EndsRecorded.later (ends : EndsRecorded history thread) : EndsRecorded (events ++ history) thread := by
  unfold EndsRecorded at ends ⊢
  split
  · exact List.mem_append_right _ ends
  · exact List.mem_append_right _ ends
  · trivial

theorem HeldEffect.forgotten {id : String}
    (effect : HeldEffect shared after thread events) (forgotten : Forgotten (events ++ history) version id) :
    Forgotten history version id ∨
      ∃ call write, thread = .clear (.ending call write) ∧ shared.order.lastStop < call.epoch ∧
        version = write.version ∧ id ∈ write.ended ∧ after.held = [] := by
  obtain ⟨ids, member, inside⟩ := forgotten
  rcases List.mem_append.mp member with new | old
  · cases effect with
    | same _ quiet => exact absurd new (quiet version ids)
    | added => contradiction
    | cleared held latest =>
      cases List.mem_singleton.mp new
      exact .inr ⟨_, _, rfl, latest, rfl, inside, held⟩
  · exact .inl ⟨ids, old, inside⟩

include move in
theorem Move.heldForgotten (settled : SettledThread history thread) (forgotten : HeldForgotten history shared) :
    HeldForgotten (events ++ history) after := by
  have effect := move.held
  refine ⟨fun version ids member => ?_, fun version id gone listed => ?_⟩
  · rcases List.mem_append.mp member with new | old
    · cases effect with
      | same _ quiet => exact absurd new (quiet version ids)
      | added => contradiction
      | cleared =>
        cases List.mem_singleton.mp new
        exact List.mem_append_right _ settled.ends
    · exact List.mem_append_right _ (forgotten.ended version ids old)
  · rcases effect.forgotten gone with before | ⟨-, -, -, -, -, -, empty⟩
    · cases effect with
      | same held => exact forgotten.held version id before (held ▸ listed)
      | added held =>
        rcases (held id).mp listed with carried | old
        · rw [settled.carries version id before] at carried
          contradiction
        · exact forgotten.held version id before old
      | cleared held =>
        rw [held] at listed
        contradiction
    · rw [empty] at listed
      contradiction

theorem Move.settledThread (move : Move derive me config.shared (config.threads me) act after next events)
    (permitted : FencesSettled history config (me, act)) (gone : EndedGone history config.shared)
    (forgotten : HeldForgotten history config.shared) (settled : SettledThread history (config.threads me)) :
    SettledThread (events ++ history) next := by
  refine ⟨move.endsRecorded settled.ends, fun version id forgot => ?_⟩
  cases carries : next.carries id with
  | false => rfl
  | true =>
    exfalso
    obtain ⟨rfl, source⟩ := move.carries carries
    obtain ⟨ids, member, inside⟩ := forgot
    have ended := forgotten.ended version ids member
    rcases source with sent | ⟨copy, read, listed⟩
    · exact permitted.sending id sent version ⟨ids, member, inside⟩
    rcases read with rfl | ⟨age, assign, found⟩
    · exact gone.gone version ids ended _ List.mem_cons_self (gone.written version ids ended) id inside
        listed
    · have recent := permitted.assigning age copy assign found version id ⟨ids, member, inside⟩
      exact gone.gone version ids ended copy (List.mem_of_getElem? found) recent id inside listed

/-- In every run whose fence operations are settled when a clear ends the stops in force,
a stop that the clear ended never holds the robot's work again. -/
theorem fence_forgets_cleared_stops (robot : Robot) {history : List Event} {config : Config Shared Thread}
    (run : (dispatchers derive).machine.Reaches FencesSettled (takeover robot) history config) :
    FenceForgets history config := by
  have holds := Pool.assertions_hold HeldForgotten (fun history _ _ thread => SettledThread history thread)
    ?_ ?_ ?_ ?_ run
  · exact fun version id forgotten _ => holds.1.held version id forgotten
  · refine ⟨nofun, fun version id forgotten => ?_⟩
    obtain ⟨_, _, -⟩ := forgotten
    contradiction
  · exact fun i => ⟨trivial, fun version id forgotten => rfl⟩
  · intro history config me act shared thread events run forgotten settled permitted taken
    have move := dispatch_move taken
    exact ⟨move.heldForgotten (settled me) forgotten,
      move.settledThread permitted (endedGone_everywhere run) forgotten (settled me)⟩
  · intro history config me act shared thread events other run forgotten settled permitted taken different
    have move := dispatch_move taken
    refine ⟨(settled other).ends.later, fun version id forgot => ?_⟩
    rcases move.held.forgotten forgot with before | ⟨call, write, ending, latest, -, inside, -⟩
    · exact (settled other).carries version id before
    · exact permitted.ending call write ending latest id inside other

def Event.endsHeld : Event → Bool
  | .heldCleared _ _ => true
  | _ => false

def settledBelow (n : Nat) (history : List Event) (config : Config Shared Thread) (label : Nat × Act) : Bool :=
  (match config.threads label.1 with
    | .clear (.ending _ write) =>
      write.ended.all fun id => (List.range n).all fun i => !(config.threads i).carries id
    | _ => true) &&
  match label.2 with
  | .sendFence _ | .roundTripAssign _ => history.all fun event => !event.endsHeld
  | _ => true

theorem settledBelow_sound (history : List Event) (config : Config Shared Thread) (label : Nat × Act)
    (untouched : ∀ i, n ≤ i → config.threads i = (takeover robot).threads i)
    (checked : settledBelow n history config label = true) : FencesSettled history config label := by
  obtain ⟨quiet, fresh⟩ := Bool.and_eq_true_iff.mp checked
  have unforgotten (none : (history.all fun event => !event.endsHeld) = true)
      (version : Nat) (id : String) : ¬ Forgotten history version id := by
    rintro ⟨_, member, -⟩
    have absent := List.all_eq_true.mp none _ member
    contradiction
  constructor
  case ending =>
    intro call write ending _ id member i
    rw [ending] at quiet
    by_cases small : i < n
    · have checkedThread := List.all_eq_true.mp (List.all_eq_true.mp quiet id member) i
        (List.mem_range.mpr small)
      simpa using checkedThread
    · rw [untouched i (by omega)]
      rfl
  case sending =>
    intro id sends version
    rw [sends] at fresh
    exact unforgotten fresh version id
  case assigning =>
    intro age copy assigns _ version id forgotten
    rw [assigns] at fresh
    exact absurd forgotten (unforgotten fresh version id)

def unconfirmedStop : List (Nat × Act) :=
  [(0, .trigger), (0, .write (.lookup 0 false)), (1, .track 0 "s1" .robot none 0), (2, .sendFence "s1")] ++
    writesOutcome 0 .failed

def clearsUnrecorded : List (Nat × Act) :=
  [(3, .clearEstop {}), (3, .clear (.read true)), (3, .clear .lock), (3, .clear (.guard 5)),
    (3, .clear .mark), (3, .clear (.patch false)), (3, .clear .close)]

theorem fence_forgets_cleared_stops_run : ∃ history config, .heldCleared 2 ["s1"] ∈ history ∧ config.shared.held = [] ∧
      FenceForgets history config := by
  have permitted : (dispatchers none).machine.Permitted
      (fun history config label => settledBelow 4 history config label = true)
      (takeover { ns := "default", name := "r1" }, [])
      (unconfirmedStop ++ clearsUnrecorded ++ [(2, .addHeld), (3, .clear .finish)]) := by
    decide +kernel
  have ran : ((dispatchers none).machine.run (takeover { ns := "default", name := "r1" }, [])
      (unconfirmedStop ++ clearsUnrecorded ++ [(2, .addHeld), (3, .clear .finish)])).map
        (fun last => (last.2.head?, last.1.shared.held)) = some (some (.heldCleared 2 ["s1"]), []) := by
    decide +kernel
  obtain ⟨⟨config, history⟩, reached, shape⟩ := Option.map_eq_some_iff.mp ran
  obtain ⟨latest, held⟩ := Prod.mk.inj shape
  have run := Pool.reaches_below settledBelow_sound (by decide) (fun _ _ => rfl) .start permitted reached
  exact ⟨history, config, List.mem_of_mem_head? latest, held,
    fence_forgets_cleared_stops { ns := "default", name := "r1" } run⟩

/-- The fence's goroutine waits for the robot's send lock until the stop has been cleared,
and then puts the stop in force again, with no fence operation left. -/
theorem cleared_stop_held_again : ∃ history config, (dispatchers none).machine.Reaches Machine.unrestricted
        (takeover { ns := "default", name := "r1" }) history config ∧ ¬ FenceForgets history config := by
  have ran : ((dispatchers none).machine.run (takeover { ns := "default", name := "r1" }, [])
      (unconfirmedStop ++ clearsUnrecorded ++ [(3, .clear .finish), (2, .addHeld)])).map
        (fun last => (last.2.head?, last.1.shared.held,
          (List.range 4).all fun i => !(last.1.threads i).carries "s1")) =
      some (some (.heldCleared 2 ["s1"]), ["s1"], true) := by
    decide +kernel
  obtain ⟨⟨config, history⟩, reached, shape⟩ := Option.map_eq_some_iff.mp ran
  simp only [Prod.mk.injEq] at shape
  obtain ⟨latest, held, quiet⟩ := shape
  refine ⟨history, config, Machine.run_reaches_from .start (Machine.permitted_unrestricted _ _ _) reached,
    fun forgets => ?_⟩
  have still : "s1" ∉ config.shared.held := by
    refine forgets 2 "s1" ⟨["s1"], List.mem_of_mem_head? latest, by simp⟩ fun i => ?_
    by_cases small : i < 4
    · simpa using List.all_eq_true.mp quiet i (List.mem_range.mpr small)
    · rw [@Pool.run_untouched _ _ _ _ _ 4 _ (by decide) _ _ reached i (by omega)]
      rfl
  rw [held] at still
  simp at still

end Swarmada.Safety
