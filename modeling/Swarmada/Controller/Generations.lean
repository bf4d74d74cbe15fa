import Swarmada.Controller.FencingStore

namespace Swarmada.FencingStore

open Api Executorguard Transition

variable {me : Nat} {shared after : Shared} {process next : Process} {act : Act}
  {events history : List (Issued Note)} {config : Transition.Config Shared Process}

theorem generationFloor_ge {minted : Nat} {listing : Actions} :
    minted ≤ generationFloor minted listing ∧ ∀ held ∈ listing, held.2 ≤ generationFloor minted listing := by
  unfold generationFloor
  induction listing generalizing minted with
  | nil => simp
  | cons first rest ih =>
    obtain ⟨_, others⟩ := @ih (max minted first.2)
    rw [List.foldl_cons, List.forall_mem_cons]
    exact ⟨by omega, by omega, others⟩

theorem reserveBelowCeiling_reserve (decided : reserveBelowCeiling mark previous = .reserve generation) :
    mark < generation ∧ generation ≤ generationCeiling := by
  unfold reserveBelowCeiling nextGeneration at decided
  dsimp only at decided
  split at decided <;> try contradiction
  cases decided
  omega

theorem plan_reserve (decided : plan floor previous now store = .reserve generation) :
    generation ≤ generationCeiling ∧ (store.bind readMark).getD 0 < generation ∧
      (store.bind readMark = none → floor < generation) := by
  unfold plan at decided
  split at decided
  next unreadable =>
    obtain ⟨above, ceiling⟩ := reserveBelowCeiling_reserve decided
    unfold seedGeneration at above
    simp only [unreadable, Option.getD_none]
    exact ⟨ceiling, by omega, fun _ => by omega⟩
  rename_i mark readable
  split at decided <;> try contradiction
  split at decided <;> try contradiction
  obtain ⟨above, ceiling⟩ := reserveBelowCeiling_reserve decided
  simp only [readable, Option.getD_some]
  exact ⟨ceiling, above, by simp⟩

theorem plan_raise
    (decided : plan floor previous now store = .raise mark target) : (store.bind readMark).getD 0 < target := by
  unfold plan reserveBelowCeiling at decided
  dsimp only at decided
  split at decided
  · split at decided <;> contradiction
  rename_i found readable
  split at decided <;> try contradiction
  split at decided
  · cases decided
    rw [readable]
    assumption
  · split at decided <;> contradiction

theorem writeMark_ok {read : Option (Versioned DecimalAnnotation)}
    (copied : ∀ copy ∈ read, Revisions.Copy copy shared.store) (written : writeMark shared read mark = .ok after) :
    read = shared.store.stored ∧ after.store = shared.store.put (.number mark) := by
  unfold writeMark at written
  split at written <;> try contradiction
  rename_i store replaced
  cases written
  exact Revisions.replace_eq_some copied replaced

def Call.taken : Call → Option Nat
  | .reserved _ generation => some generation
  | _ => none

/-- The highest mark the store has held since it was last lost. -/
def Shared.high (shared : Shared) : Nat := ((shared.store.stored.map Versioned.value).bind readMark).getD 0

inductive Effect (me : Nat) (shared : Shared) (process : Process) (act : Act) :
    Shared → Process → List (Issued Note) → Prop
  | asks (free : process.call.taken = none) (still : call.taken = none)
      (reads : ∀ action previous listing store, call ≠ .read action previous listing store) :
      Effect me shared process act shared { process with call } [.began me]
  | quiet {after : Shared} {events : List (Issued Note)} (free : process.call.taken = none)
      (still : call.taken = none) (stored : after.store = shared.store)
      (reads : ∀ action previous listing store, call = .read action previous listing store → store = shared.store.stored)
      (silent : events = [] ∨ ∃ error, events = [.other (.refused me error)]) :
      Effect me shared process act after { process with call } events
  | raises {after : Shared} (read : process.call = .read action previous listing store)
      (decided : plan (generationFloor process.minted listing) previous now (store.map Versioned.value) =
        .raise mark floor)
      (written : writeMark shared store floor = .ok after) :
      Effect me shared process act after { process with call := .idle } [.other (.refused me error)]
  | loses {after : Shared} (read : process.call = .read action previous listing store)
      (decided : plan (generationFloor process.minted listing) previous now (store.map Versioned.value) =
        .reserve generation)
      (written : writeMark shared store generation = .ok after) :
      Effect me shared process act after { process with call := .idle } [.other (.refused me error)]
  | reserves {after : Shared} (read : process.call = .read action previous listing store)
      (decided : plan (generationFloor process.minted listing) previous now (store.map Versioned.value) =
        .reserve generation)
      (written : writeMark shared store generation = .ok after) :
      Effect me shared process act after { call := .reserved action generation, minted := max process.minted generation } []
  | hands (reserved : process.call = .reserved action generation) :
      Effect me shared process act shared { process with call := .minted action generation } [.handed me generation]
  | deletes (asked : act = .deleteStore) :
      Effect me shared process act { shared with store := shared.store.remove } process []
  | garbles (asked : act = .garbleStore text) :
      Effect me shared process act { shared with store := shared.store.put (.text text) } process []

theorem step_effect (taken : processes.step me shared process act = some (after, next, events)) :
    Effect me shared process act after next events := by
  obtain ⟨_, _⟩ := process
  unfold processes at taken
  dsimp only at taken
  split at taken
  · split at taken <;> try contradiction
    cases taken
    exact .asks rfl rfl (by simp)
  · split at taken <;> try contradiction
    cases taken
    exact .quiet rfl rfl rfl (by simp) (.inl rfl)
  · cases taken
    exact .quiet rfl rfl rfl (by simp) (.inr ⟨_, rfl⟩)
  · cases taken
    refine .quiet rfl rfl rfl ?_ (.inl rfl)
    intro action previous listing store same
    cases same
    rfl
  · cases taken
    exact .quiet rfl rfl rfl (by simp) (.inr ⟨_, rfl⟩)
  next action previous listing store now answer =>
    split at taken
    · cases taken
      exact .quiet rfl rfl rfl (by simp) (.inr ⟨_, rfl⟩)
    next mark floor decided =>
      split at taken
      · cases taken
        exact .quiet rfl rfl rfl (by simp) (.inr ⟨_, rfl⟩)
      rename_i after' written
      split at written <;> try contradiction
      cases taken
      exact .raises rfl decided written
    next generation decided =>
      split at taken
      · cases taken
        exact .quiet rfl rfl rfl (by simp) (.inr ⟨_, rfl⟩)
      rename_i after' written
      split at written <;> try contradiction
      split at taken
      · cases taken
        exact .reserves rfl decided written
      · cases taken
        exact .loses rfl decided written
  · cases taken
    exact .hands rfl
  · cases taken
    refine .quiet rfl rfl ?_ (by simp) (.inl rfl)
    split <;> rfl
  · cases taken
    exact .deletes rfl
  · cases taken
    exact .garbles rfl
  · cases taken
    exact .quiet rfl rfl rfl (by simp) (.inl rfl)
  · cases taken
    exact .quiet rfl rfl rfl (by simp) (.inl rfl)
  · contradiction

def Current (shared : Shared) (call : Call) : Prop :=
  ∀ action previous listing store, call = .read action previous listing store →
    ∀ copy ∈ store, Revisions.Copy copy shared.store

theorem Effect.moves (effect : Effect me shared process act after next events) (current : Current shared process.call) :
    Revisions.Moves shared.store after.store := by
  cases effect with
  | asks | hands => exact .same
  | quiet _ _ stored => exact stored ▸ .same
  | raises read _ written | loses read _ written | reserves read _ written =>
    exact (writeMark_ok (current _ _ _ _ read) written).2 ▸ .written _
  | deletes => exact .removed
  | garbles => exact .written _

theorem Current.moves (current : Current shared call) (moves : Revisions.Moves shared.store after.store) :
    Current after call :=
  fun action previous listing store read copy member => (current action previous listing store read copy member).moves moves

theorem Effect.current (effect : Effect me shared process act after next events) (current : Current shared process.call) :
    Current after next.call := by
  have moved := current.moves (effect.moves current)
  intro action previous listing store read copy member
  cases effect with
  | asks _ _ reads => exact absurd read (reads _ _ _ _)
  | quiet _ _ stored reads =>
    rw [reads _ _ _ _ read] at member
    rw [stored]
    exact Revisions.copy_stored member
  | deletes | garbles => exact moved action previous listing store read copy member
  | _ => contradiction

theorem high_put (stored : after.store = shared.store.put (.number mark)) : after.high = mark := by
  rw [Shared.high, stored]
  rfl

/-- While the store is kept, a step reserves a generation above its mark, hands out the one
it reserved, or leaves both. -/
theorem Effect.issuing (effect : Effect me shared process act after next events)
    (kept : act ≠ .deleteStore ∧ ∀ text, act ≠ .garbleStore text) (mine : taken me = process.call.taken)
    (current : Current shared process.call) (issuing : Issuing shared.high taken history) :
    Issuing after.high (Function.update taken me next.call.taken) (events ++ history) := by
  have same (call : Call) (equal : call.taken = process.call.taken) : Function.update taken me call.taken = taken :=
    Function.update_eq_self_iff.mpr (equal.trans mine.symm)
  cases effect with
  | asks free still =>
    rw [same _ (still.trans free.symm)]
    exact issuing.begin_ (mine.trans free)
  | quiet free still stored _ silent =>
    have high : after.high = shared.high := by rw [Shared.high, stored, Shared.high]
    rw [same _ (still.trans free.symm), high]
    rcases silent with rfl | ⟨_, rfl⟩
    · exact issuing
    · exact issuing.note _
  | raises read decided written =>
    obtain ⟨stored, put⟩ := writeMark_ok (current _ _ _ _ read) written
    have above := plan_raise decided
    rw [stored] at above
    rw [same .idle (read ▸ rfl), high_put put]
    exact (issuing.raise (Nat.le_of_lt above)).note _
  | loses read decided written =>
    obtain ⟨stored, put⟩ := writeMark_ok (current _ _ _ _ read) written
    have above := (plan_reserve decided).2.1
    rw [stored] at above
    rw [same .idle (read ▸ rfl), high_put put]
    exact (issuing.raise (Nat.le_of_lt above)).note _
  | reserves read decided written =>
    obtain ⟨stored, put⟩ := writeMark_ok (current _ _ _ _ read) written
    have above := (plan_reserve decided).2.1
    rw [stored] at above
    rw [high_put put]
    exact issuing.take above
  | hands reserved => exact issuing.hand (mine.trans (congrArg Call.taken reserved))
  | deletes asked => exact absurd asked kept.1
  | garbles asked => exact absurd asked (kept.2 _)

def opening (mark : Option DecimalAnnotation) (actions : Actions) : Transition.Config Shared Process :=
  { shared := { store := .start mark, actions }, threads := fun _ => {} }

structure Sound (history : List (Issued Note)) (config : Transition.Config Shared Process) : Prop where
  current : ∀ i, Current config.shared (config.threads i).call
  reserved : ∀ i generation, (config.threads i).call.taken = some generation →
    generation ≤ (config.threads i).minted ∧ generation ≤ generationCeiling
  handed : ∀ i generation, .handed i generation ∈ history →
    generation ≤ (config.threads i).minted ∧ generation ≤ generationCeiling

theorem Sound.start : Sound [] (opening mark actions) where
  current i := by
    intro action previous listing store read
    contradiction
  reserved i generation taken := by contradiction
  handed i generation member := by contradiction

theorem Effect.own (effect : Effect me shared process act after next events) : process.minted ≤ next.minted ∧
      (∀ generation, next.call.taken = some generation → process.call.taken = some generation ∨
        generation ≤ next.minted ∧ generation ≤ generationCeiling) ∧
      ∀ i generation, .handed i generation ∈ events → i = me ∧ process.call.taken = some generation := by
  cases effect with
  | asks => exact ⟨Nat.le_refl _, fun _ taken => .inl (by simp_all), by simp⟩
  | quiet _ _ _ _ silent =>
    refine ⟨Nat.le_refl _, fun _ taken => .inl (by simp_all), ?_⟩
    rcases silent with rfl | ⟨_, rfl⟩ <;> simp
  | raises | loses => exact ⟨Nat.le_refl _, nofun, by simp⟩
  | reserves _ decided =>
    refine ⟨Nat.le_max_left _ _, ?_, by simp⟩
    rintro _ ⟨rfl⟩
    exact .inr ⟨Nat.le_max_right _ _, (plan_reserve decided).1⟩
  | hands reserved =>
    refine ⟨Nat.le_refl _, nofun, ?_⟩
    intro i generation member
    cases List.mem_singleton.mp member
    exact ⟨rfl, congrArg Call.taken reserved⟩
  | deletes | garbles => exact ⟨Nat.le_refl _, fun _ taken => .inl taken, by simp⟩

variable {config' : Transition.Config Shared Process}

theorem Sound.step (sound : Sound history config) {label : Nat × Act}
    (taken : processes.machine.step config label = some (config', events)) : Sound (events ++ history) config' := by
  obtain ⟨me, _⟩ := label
  obtain ⟨_, stepped, threads⟩ := Pool.machine_step taken
  have effect := step_effect stepped
  obtain ⟨remembers, reserves, hands⟩ := effect.own
  have minted (i : Nat) : (config.threads i).minted ≤ (config'.threads i).minted :=
    Pool.forall_threads (fun i process => (config.threads i).minted ≤ process.minted)
      threads remembers (fun _ _ => Nat.le_refl _) i
  refine ⟨?_, fun i generation => ?_, fun i generation member => ?_⟩
  · exact Pool.forall_threads (fun _ process => Current config'.shared process.call) threads
      (effect.current (sound.current me)) fun i _ => (sound.current i).moves (effect.moves (sound.current me))
  · refine Pool.forall_threads (fun _ process => process.call.taken = some generation →
      generation ≤ process.minted ∧ generation ≤ generationCeiling) threads (fun has => ?_)
      (fun other _ => sound.reserved other generation) i
    rcases reserves generation has with old | new
    · exact ⟨Nat.le_trans (sound.reserved me generation old).1 remembers, (sound.reserved me generation old).2⟩
    · exact new
  · rcases List.mem_append.mp member with new | old
    · obtain ⟨rfl, has⟩ := hands i generation new
      exact ⟨Nat.le_trans (sound.reserved i generation has).1 (minted i), (sound.reserved i generation has).2⟩
    · exact ⟨Nat.le_trans (sound.handed i generation old).1 (minted i), (sound.handed i generation old).2⟩

theorem Sound.of_reaches
    (reached : Machine.Reaches processes.machine allowed (opening mark actions) history config) : Sound history config := by
  refine reached.invariant Sound Sound.start ?_
  intro history config label config' events _ sound _ taken
  exact sound.step taken

def Kept (_ : List (Issued Note)) (_ : Transition.Config Shared Process) (label : Nat × Act) : Prop :=
  match label.2 with
  | .deleteStore => False
  | .garbleStore _ => False
  | _ => True

theorem Kept.ne (kept : Kept history config label) : label.2 ≠ .deleteStore ∧ ∀ text, label.2 ≠ .garbleStore text := by
  unfold Kept at kept
  constructor
  · intro deletes
    simp [deletes] at kept
  · intro text garbles
    simp [garbles] at kept

theorem Sound.issuing (sound : Sound history config)
    (issuing : Issuing config.shared.high (fun i => (config.threads i).call.taken) history)
    (kept : Kept history config label) (taken : processes.machine.step config label = some (config', events)) :
    Issuing config'.shared.high (fun i => (config'.threads i).call.taken) (events ++ history) := by
  obtain ⟨me, _⟩ := label
  obtain ⟨_, stepped, threads⟩ := Pool.machine_step taken
  have takes := Pool.view_threads (fun process => process.call.taken) threads
  rw [takes]
  exact (step_effect stepped).issuing kept.ne rfl (sound.current me) issuing

theorem issuing_of_kept (reached : Machine.Reaches processes.machine Kept (opening mark actions) history config) :
    Issuing config.shared.high (fun i => (config.threads i).call.taken) history := by
  refine reached.invariant
    (fun history config => Issuing config.shared.high (fun i => (config.threads i).call.taken) history)
    (Issuing.start (fun _ => rfl) _) ?_
  intro history config label config' events before issuing kept taken
  exact (Sound.of_reaches before).issuing issuing kept taken

theorem generationFromToken_fencingToken (below : generation ≤ generationCeiling) :
    generationFromToken (fencingToken generation) = some (generation : Int) := by
  have small : ¬ generation > 2 ^ 63 - 1 := by
    unfold generationCeiling at below
    omega
  have token : fencingToken generation = generation := by
    rw [fencingToken, if_neg (by omega), Int.toNat_natCast]
  rw [token, generationFromToken, if_neg small]

theorem Sound.seeded (sound : Sound history config)
    (read : (config.threads i).call = .read action previous listing store)
    (unreadable : (store.map Versioned.value).bind readMark = none)
    (taken : processes.machine.step config (i, .write now answer) = some (config', events))
    (reserved : (config'.threads i).call = .reserved action generation) :
    (∀ earlier, .handed i earlier ∈ history → earlier < generation) ∧ ∀ held ∈ listing, held.2 < generation := by
  obtain ⟨_, stepped, threads⟩ := Pool.machine_step taken
  rw [threads, Function.update_self] at reserved
  have effect := step_effect stepped
  have above : generationFloor (config.threads i).minted listing < generation := by
    generalize config'.shared = after at effect
    cases effect with
    | reserves own decided =>
      cases reserved
      rw [read] at own
      cases own
      exact (plan_reserve decided).2.2 unreadable
    | asks _ still | quiet _ still =>
      dsimp only at reserved
      rw [reserved] at still
      contradiction
    | _ => contradiction
  obtain ⟨_, listed⟩ := @generationFloor_ge (config.threads i).minted listing
  refine ⟨fun earlier member => ?_, fun held member => Nat.lt_of_le_of_lt (listed held member) above⟩
  have remembered := (sound.handed i earlier member).1
  omega

/-- While the store is kept, generations are handed out once, above those handed out before the call began. A call
that finds the store lost reserves above everything its process issued and every generation an action holds, if its
listing is current. -/
theorem generations_increase (mark : Option DecimalAnnotation) (actions : Actions) :
    (∀ history config, Machine.Reaches processes.machine Kept (opening mark actions) history config →
      Always Issued.InOrder history) ∧
    (∀ history config, Machine.Reaches processes.machine Machine.unrestricted (opening mark actions) history config →
      ∀ i generation, .handed i generation ∈ history →
        generation ≤ generationCeiling ∧ generationFromToken (fencingToken generation) = some (generation : Int)) ∧
    ∀ history config, Machine.Reaches processes.machine Machine.unrestricted (opening mark actions) history config →
      ∀ i action previous listing store, (config.threads i).call = .read action previous listing store →
        (store.map Versioned.value).bind readMark = none →
        (∀ held ∈ config.shared.actions, held ∈ listing) →
        ∀ now answer config' events generation,
          processes.machine.step config (i, .write now answer) = some (config', events) →
          (config'.threads i).call = .reserved action generation →
          (∀ earlier, .handed i earlier ∈ history → earlier < generation) ∧
            ∀ held ∈ config.shared.actions, held.2 < generation := by
  refine ⟨fun history config reached => (issuing_of_kept reached).ordered, ?_, ?_⟩
  · intro history config reached i generation member
    have below := ((Sound.of_reaches reached).handed i generation member).2
    exact ⟨below, generationFromToken_fencingToken below⟩
  intro history config reached i action previous listing store read unreadable shown now answer config' events
    generation taken reserved
  obtain ⟨own, listed⟩ := (Sound.of_reaches reached).seeded read unreadable taken reserved
  exact ⟨own, fun held member => listed held (shown held member)⟩

def twoActions : Actions := [("a1", 0), ("a2", 0)]

/-- Process 0 assigns `a1`, the store is deleted, and process 1 assigns `a2` on a listing
that is `age` writes old. -/
def lostStore (age : Nat) : List (Nat × Act) :=
  [(0, .mint "a1" 0), (0, .list 0), (0, .get), (0, .write 100 .answered), (0, .giveBack), (0, .commit true),
    (2, .deleteStore), (1, .mint "a2" 0), (1, .list age), (1, .get)]

theorem generations_increase_lost_store :
    ∃ config config', Machine.Reaches processes.machine Machine.unrestricted (opening none twoActions)
        [.began 1, .handed 0 101, .began 0] config ∧
      processes.machine.step config (1, .write 50 .answered) = some (config', []) ∧
      (config'.threads 1).call = .reserved "a2" 102 ∧ ∀ held ∈ config.shared.actions, held.2 < 102 := by
  have ran : ∃ config config', processes.machine.run (opening none twoActions, []) (lostStore 0) =
        some (config, [.began 1, .handed 0 101, .began 0]) ∧
      (config.threads 1).call = .read "a2" 0 [("a1", 101), ("a2", 0)] none ∧
      config.shared.actions = [("a1", 101), ("a2", 0)] ∧
      processes.machine.step config (1, .write 50 .answered) = some (config', []) ∧
      (config'.threads 1).call = .reserved "a2" 102 :=
    ⟨_, _, rfl, rfl, rfl, rfl, rfl⟩
  obtain ⟨config, config', ran, read, held, taken, reserved⟩ := ran
  have reached := Machine.run_reaches_from .start
    (Machine.permitted_unrestricted processes.machine (opening none twoActions, []) (lostStore 0)) ran
  refine ⟨config, config', reached, taken, reserved, ?_⟩
  exact ((generations_increase none twoActions).2.2 _ _ reached 1 _ _ _ _ read rfl (by simp [held]) _ _ _ _ _ taken
    reserved).2

/-- Process 1 lists the actions as they were before `a1` was assigned, and its clock is
behind: it issues a generation below the one `a1` holds. -/
theorem stale_listing_undercuts : ∃ config, processes.machine.run (opening none twoActions, [])
        (lostStore 1 ++ [(1, .write 50 .answered), (1, .giveBack)]) =
        some (config, [.handed 1 51, .began 1, .handed 0 101, .began 0]) ∧
      config.shared.actions = [("a1", 101), ("a2", 0)] :=
  ⟨_, rfl, rfl⟩

end Swarmada.FencingStore
