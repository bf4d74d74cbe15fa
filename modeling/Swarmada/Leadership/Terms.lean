import Swarmada.Leadership.Floor

namespace Swarmada.Leadership

open Api Transition

variable {ns : String} {me : Nat} {shared after : Shared} {process next : Process} {act : Act}
  {events history : List (Issued Note)} {config : Transition.Config Shared Process}

def heldFloor (read : Option (Versioned DecimalAnnotation)) : Nat :=
  match read with
  | some ⟨.number value, _⟩ => value
  | _ => 0

def Shared.high (shared : Shared) : Nat := heldFloor shared.floor.stored

def Call.taken : Call → Option Nat
  | .recorded term => some term
  | _ => none

/-- A computed term is above the floor that was read, and what was read is a copy of the
Lease. -/
def Current (shared : Shared) (call : Call) : Prop :=
  ∀ attempt read term, call = .computed attempt read term →
    heldFloor read < term ∧ ∀ copy ∈ read, Revisions.Copy copy shared.floor

theorem heldFloor_le {read : Option (Versioned DecimalAnnotation)}
    (found : floorOf ns ((read.map Versioned.value).getD .absent) = .ok floor) : heldFloor read ≤ floor := by
  rcases read with - | ⟨held, _⟩
  · exact Nat.zero_le _
  cases held with
  | absent | text => exact Nat.zero_le _
  | number =>
    cases found
    exact Nat.le_refl _

theorem current_computed (found : floorOf ns ((shared.floor.stored.map Versioned.value).getD .absent) = .ok floor) :
    Current shared (.computed attempt shared.floor.stored (max floor count + 1)) := by
  rintro _ _ _ ⟨rfl, rfl, rfl⟩
  have low := heldFloor_le found
  exact ⟨by omega, fun copy stored => Revisions.copy_stored stored⟩

theorem Current.moves (current : Current shared call) (moves : Revisions.Moves shared.floor after.floor) :
    Current after call := by
  intro attempt read term computed
  obtain ⟨above, copied⟩ := current attempt read term computed
  exact ⟨above, fun copy member => (copied copy member).moves moves⟩

theorem Current.raises {read : Option (Versioned DecimalAnnotation)} (current : Current shared (.computed attempt read term))
    (written : shared.floor.replace read (.number term) = some floor) :
    shared.high < term ∧ floor = shared.floor.put (.number term) := by
  obtain ⟨above, copied⟩ := current attempt read term rfl
  obtain ⟨rfl, put⟩ := Revisions.replace_eq_some copied written
  exact ⟨above, put⟩

inductive Effect (me : Nat) (shared : Shared) (process : Process) : Shared → Process → List (Issued Note) → Prop
  | asks (free : process.call.taken = none) :
      Effect me shared process shared { process with call := .asking 0 } [.began me]
  | quiet {events : List (Issued Note)} (free : process.call.taken = none) (still : call.taken = none)
      (current : Current shared call) (silent : events = [] ∨ events = [.other (.failed me)]) :
      Effect me shared process shared { process with call } events
  | raises {read : Option (Versioned DecimalAnnotation)} {floor : Revisions DecimalAnnotation}
      (computed : process.call = .computed attempt read term)
      (written : shared.floor.replace read (.number term) = some floor) :
      Effect me shared process { shared with floor } { process with call := .recorded term } []
  | loses {read : Option (Versioned DecimalAnnotation)} {floor : Revisions DecimalAnnotation}
      (computed : process.call = .computed attempt read term)
      (written : shared.floor.replace read (.number term) = some floor) :
      Effect me shared process { shared with floor } { process with call := .idle } [.other (.failed me)]
  | hands (recorded : process.call = .recorded term) :
      Effect me shared process shared { process with call := .returned term } [.handed me term]
  | acquires (free : process.call.taken = none) (above : process.state.term < term) :
      Effect me shared process shared { call := .idle, state := { leading := true, term } } [.other (.leads me term)]
  | releases (free : process.call.taken = none) :
      Effect me shared process shared { process with state := process.state.release } [.other (.released me)]
  | elects (lease : Option (Option Int32)) : Effect me shared process { shared with election := lease } process []
  | touches (stored : shared.floor.stored = some present) :
      Effect me shared process { shared with floor := shared.floor.put present.value } process []

theorem current_of_ne (other : ∀ attempt read term, call ≠ .computed attempt read term) : Current shared call :=
  fun attempt read term computed => absurd computed (other attempt read term)

theorem step_effect (taken : (processes ns).step me shared process act = some (after, next, events)) :
    Effect me shared process after next events := by
  obtain ⟨call, _⟩ := process
  unfold processes at taken
  cases call with
  | idle =>
    cases act with
    | next =>
      dsimp only at taken
      split at taken <;> try contradiction
      cases taken
      exact .asks rfl
    | release =>
      dsimp only at taken
      split at taken <;> try contradiction
      cases taken
      exact .releases rfl
    | elect =>
      cases taken
      exact .elects _
    | touch =>
      dsimp only at taken
      split at taken <;> try contradiction
      rename_i present stored
      cases taken
      exact .touches stored
    | _ => contradiction
  | asking =>
    cases act with
    | readElection =>
      dsimp only at taken
      split at taken
      · cases taken
        exact .quiet rfl rfl (current_of_ne (by simp)) (.inl rfl)
      · cases taken
        exact .quiet rfl rfl (current_of_ne (by simp)) (.inr rfl)
    | _ => contradiction
  | counted =>
    cases act with
    | readFloor =>
      dsimp only at taken
      split at taken
      · split at taken
        next floor found =>
          cases taken
          exact .quiet rfl rfl (current_computed found) (.inl rfl)
        · cases taken
          exact .quiet rfl rfl (current_of_ne (by simp)) (.inr rfl)
      · cases taken
        exact .quiet rfl rfl (current_of_ne (by simp)) (.inr rfl)
    | _ => contradiction
  | computed =>
    cases act with
    | write =>
      dsimp only at taken
      split at taken
      · cases taken
        exact .quiet rfl rfl (current_of_ne (by simp)) (.inr rfl)
      split at taken
      · cases taken
        unfold retry
        split
        · exact .quiet rfl rfl (current_of_ne (by simp)) (.inl rfl)
        · exact .quiet rfl rfl (current_of_ne (by simp)) (.inr rfl)
      rename_i floor written
      split at taken
      · cases taken
        exact .raises rfl written
      · cases taken
        exact .loses rfl written
    | _ => contradiction
  | recorded =>
    cases act with
    | giveBack =>
      cases taken
      exact .hands rfl
    | _ => contradiction
  | returned =>
    cases act with
    | acquire =>
      cases taken
      unfold State.acquire
      split
      · exact .quiet rfl rfl (current_of_ne (by simp)) (.inl rfl)
      rename_i accepted
      simp only [not_or] at accepted
      exact .acquires rfl (Nat.lt_of_not_le accepted.2.2)
    | _ => contradiction

theorem high_touch (stored : shared.floor.stored = some present) :
    ({ shared with floor := shared.floor.put present.value } : Shared).high = shared.high := by
  rw [Shared.high, Shared.high, stored]
  obtain ⟨held, _⟩ := present
  cases held <;> rfl

variable (effect : Effect me shared process after next events)
include effect

theorem Effect.issuing (mine : taken me = process.call.taken) (current : Current shared process.call)
    (issuing : Issuing shared.high taken history) :
    Issuing after.high (Function.update taken me next.call.taken) (events ++ history) := by
  have kept (call : Call) (same : call.taken = process.call.taken) : Function.update taken me call.taken = taken :=
    Function.update_eq_self_iff.mpr (same.trans mine.symm)
  cases effect with
  | asks free =>
    rw [kept (.asking 0) free.symm]
    exact issuing.begin_ (mine.trans free)
  | quiet free still _ silent =>
    rw [kept _ (still.trans free.symm)]
    rcases silent with rfl | rfl
    · exact issuing
    · exact issuing.note _
  | raises computed written =>
    rw [computed] at current
    obtain ⟨above, rfl⟩ := current.raises written
    exact issuing.take above
  | loses computed written =>
    rw [kept .idle (computed ▸ rfl)]
    rw [computed] at current
    obtain ⟨above, rfl⟩ := current.raises written
    exact (issuing.raise (Nat.le_of_lt above)).note _
  | hands recorded => exact issuing.hand (mine.trans (congrArg Call.taken recorded))
  | acquires free =>
    rw [kept .idle free.symm]
    exact issuing.note _
  | releases =>
    rw [kept _ rfl]
    exact issuing.note _
  | elects =>
    rw [kept _ rfl]
    exact issuing
  | touches stored =>
    rw [kept _ rfl, high_touch stored]
    exact issuing

theorem Effect.moves (current : Current shared process.call) : Revisions.Moves shared.floor after.floor := by
  cases effect with
  | raises computed written | loses computed written =>
    exact (computed ▸ current : Current _ (.computed _ _ _)).raises written |>.2 ▸ .written _
  | touches => exact .written _
  | _ => exact .same

theorem Effect.current (current : Current shared process.call) : Current after next.call := by
  have moved := current.moves (effect.moves current)
  cases effect with
  | quiet _ _ own => exact own
  | releases => exact current
  | elects | touches => exact moved
  | _ => exact current_of_ne (by simp)

theorem Effect.leads :
    (∀ i term, .other (.leads i term) ∉ events) ∧ next.state.term = process.state.term ∨
      events = [.other (.leads me next.state.term)] ∧ process.state.term < next.state.term := by
  cases effect with
  | quiet _ _ _ silent =>
    left
    rcases silent with rfl | rfl <;> simp
  | acquires _ above => exact .inr ⟨rfl, above⟩
  | _ => exact .inl ⟨by simp, rfl⟩

omit effect

def Rising (older : List (Issued Note)) : Issued Note → Prop
  | .other (.leads process term) => ∀ earlier, .other (.leads process earlier) ∈ older → earlier < term
  | _ => True

theorem rising_of_ne (quiet : ∀ i term, event ≠ .other (.leads i term)) : Rising older event := by
  unfold Rising
  split
  · exact absurd rfl (quiet _ _)
  · trivial

structure Sound (history : List (Issued Note)) (config : Transition.Config Shared Process) : Prop where
  issuing : Issuing config.shared.high (fun i => (config.threads i).call.taken) history
  current : ∀ i, Current config.shared (config.threads i).call
  reported : ∀ i term, .other (.leads i term) ∈ history → term ≤ (config.threads i).state.term
  rising : Always Rising history

theorem Sound.start : Sound [] { shared, threads := fun _ => {} } where
  issuing := Issuing.start (fun _ => rfl) shared.high
  current i := current_of_ne (by simp)
  reported := by
    intro i term member
    contradiction
  rising := trivial

theorem Sound.step (sound : Sound history config) {config' : Transition.Config Shared Process} {label : Nat × Act}
    (taken : (processes ns).machine.step config label = some (config', events)) : Sound (events ++ history) config' := by
  obtain ⟨me, _⟩ := label
  obtain ⟨_, stepped, threads⟩ := Pool.machine_step taken
  have effect := step_effect stepped
  have takes := Pool.view_threads (fun process => process.call.taken) threads
  refine ⟨takes ▸ effect.issuing rfl (sound.current me) sound.issuing, ?_, fun i term => ?_, ?_⟩
  · exact Pool.forall_threads (fun _ process => Current config'.shared process.call) threads
      (effect.current (sound.current me)) fun i _ => (sound.current i).moves (effect.moves (sound.current me))
  · refine Pool.forall_threads
      (fun i process => .other (.leads i term) ∈ events ++ history → term ≤ process.state.term) threads ?_ ?_ i
    · intro member
      rcases effect.leads with ⟨silent, same⟩ | ⟨rfl, above⟩
      · rw [same]
        exact sound.reported me term ((List.mem_append.mp member).resolve_left (silent me term))
      rcases List.mem_cons.mp member with new | old
      · cases new
        exact Nat.le_refl _
      · exact Nat.le_of_lt (Nat.lt_of_le_of_lt (sound.reported me term old) above)
    · intro other different member
      rcases effect.leads with ⟨silent, -⟩ | ⟨rfl, -⟩
      · exact sound.reported other term ((List.mem_append.mp member).resolve_left (silent other term))
      rcases List.mem_cons.mp member with new | old
      · cases new
        exact absurd rfl different
      · exact sound.reported other term old
  · rcases effect.leads with ⟨silent, -⟩ | ⟨rfl, above⟩
    · refine sound.rising.extend fun event member older => rising_of_ne ?_
      rintro i term rfl
      exact silent i term member
    · refine ⟨fun earlier member => ?_, sound.rising⟩
      exact Nat.lt_of_le_of_lt (sound.reported me earlier member) above

/-- Terms are handed out once, above every term handed out before the call began, and a
process leads under larger and larger terms. -/
theorem terms_never_go_back {start : Shared}
    (reached : Machine.Reaches (processes ns).machine Machine.unrestricted { shared := start, threads := fun _ => {} } history
      config) :
    Always (fun older event => Issued.InOrder older event ∧ Rising older event) history := by
  have sound : Sound history config := by
    refine reached.invariant Sound Sound.start ?_
    intro history config label config' events _ sound _ taken
    exact sound.step taken
  exact sound.issuing.ordered.and sound.rising

/-- Process 1 overtakes process 0, whose write conflicts; the election Lease is deleted
before process 0 asks again. -/
def overtaken : List (Nat × Act) :=
  [(2, .elect (some (some 7))), (0, .next), (0, .readElection true), (0, .readFloor true), (1, .next),
    (1, .readElection true), (1, .readFloor true), (1, .write .answered), (1, .giveBack), (1, .acquire),
    (0, .write .answered), (2, .elect none), (0, .readElection true), (0, .readFloor true), (0, .write .answered),
    (0, .giveBack), (0, .acquire)]

theorem terms_never_go_back_overtaken :
    (processes "swarmada-system").machine.history { shared := {}, threads := fun _ => {} } overtaken =
        some [.other (.leads 0 9), .handed 0 9, .other (.leads 1 8), .handed 1 8, .began 1, .began 0] ∧
      Always (fun older event => Issued.InOrder older event ∧ Rising older event)
        [.other (.leads 0 9), .handed 0 9, .other (.leads 1 8), .handed 1 8, .began 1, .began 0] := by
  have ran : (processes "swarmada-system").machine.history { shared := {}, threads := fun _ => {} } overtaken =
      some [.other (.leads 0 9), .handed 0 9, .other (.leads 1 8), .handed 1 8, .began 1, .began 0] := by
    decide +kernel
  obtain ⟨_, reached⟩ := Machine.history_reaches ran
  exact ⟨ran, terms_never_go_back reached⟩

end Swarmada.Leadership
