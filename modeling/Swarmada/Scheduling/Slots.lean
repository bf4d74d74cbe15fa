import Swarmada.Tde.Engine
import Swarmada.Transition.Pool
import Swarmada.Transition.Versioned

/-! # Scheduling passes and their zone slots

A pass over a pending action takes a slot for the robot it selected, commits the action on
the version it read, and gives the slot back when a later step fails.  The slot is given
back by the action's name.
-/

namespace Swarmada.Scheduling

open Tde Transition

structure Setting where
  gated : Bool := true
  actionID : String
  zone : String
  priority : ActionPriority := .normal
  mayEvict : String → Bool := fun _ => true
  specs : ZoneSpecs
  config : Tde.Config := defaultConfig

abbrev Assignment := Option String

structure Shared where
  action : Versioned Assignment := ⟨none, 0⟩
  past : List (Versioned Assignment) := []
  engine : Engine := {}
  now : Nat := 0

inductive Pass where
  | idle
  | scheduled (read : Versioned Assignment) (robot : String)
  /-- past the gate; `reserved` is whether it took a slot -/
  | gated (read : Versioned Assignment) (robot : String) (reserved : Bool)
  | committed (own : Versioned Assignment) (robot : String) (reserved : Bool)
  | reverting (own : Versioned Assignment)
  | dispatched (robot : String) (reserved : Bool)
  | ended
deriving DecidableEq

inductive Act where
  | read (age : Nat) (robot : String)
  | request
  | giveUp (listed : List String)
  | commit (listed : List String)
  | commitRobot (landed : Bool) (listed : List String)
  | revert
  | touch
  | advance (by_ : Nat)
deriving DecidableEq

inductive Note where
  | denied | conflict | dispatched (robot : String)
deriving DecidableEq

def Shared.write (shared : Shared) (next : Assignment) : Shared :=
  { shared with action := shared.action.write next, past := shared.action :: shared.past }

def Shared.patch (shared : Shared) (read : Versioned Assignment) (next : Assignment) : Option Shared :=
  if read.version = shared.action.version then some (shared.write next) else none

def unreserveOnFailure (setting : Setting) (reserved : Bool) (listed : List String) (shared : Shared) : Shared :=
  if reserved then
    { shared with
      engine := releaseReservation setting.specs shared.now listed setting.zone setting.actionID shared.engine }
  else shared

def Setting.request (setting : Setting) (robot : String) : ReservationRequest :=
  { actionID := setting.actionID, robotID := robot, targetZone := setting.zone, priority := setting.priority,
    mayEvict := setting.mayEvict }

def reconcileAction (setting : Setting) : Pool Shared Pass Act Note where
  step _ shared pass act :=
    match pass, act with
    | .idle, .read age robot =>
      match (shared.action :: shared.past)[age]? with
      | some read => if read.value = none then some (shared, .scheduled read robot, []) else none
      | none => none
    | .scheduled read robot, .request =>
      if setting.gated ∧ setting.zone ≠ "" then
        let served := requestReservation setting.specs setting.config shared.now (setting.request robot) shared.engine
        if served.2.status = .denied then
          -- the message that the action awaits zone capacity
          some ((({ shared with engine := served.1 }).patch read none).getD { shared with engine := served.1 },
            .ended, [.denied])
        else some ({ shared with engine := served.1 }, .gated read robot true, [])
      else some (shared, .gated read robot false, [])
    | .gated _ _ reserved, .giveUp listed => some (unreserveOnFailure setting reserved listed shared, .ended, [])
    | .gated read robot reserved, .commit listed =>
      match shared.patch read (some robot) with
      | some after => some (after, .committed after.action robot reserved, [])
      | none => some (unreserveOnFailure setting reserved listed shared, .ended, [.conflict])
    | .committed own robot reserved, .commitRobot landed listed =>
      if landed then some (shared, .dispatched robot reserved, [.dispatched robot])
      else some (unreserveOnFailure setting reserved listed shared, .reverting own, [])
    | .reverting own, .revert => some ((shared.patch own none).getD shared, .ended, [])
    | .idle, .touch => some (shared.write shared.action.value, .idle, [])
    | .idle, .advance by_ => some ({ shared with now := shared.now + by_ }, .idle, [])
    | _, _ => none

def Pass.slot : Pass → Option String
  | .gated _ robot true => some robot
  | .committed _ robot true => some robot
  | .dispatched robot true => some robot
  | _ => none

def Setting.slots (setting : Setting) (shared : Shared) : List ZoneReservation :=
  (shared.engine.zones setting.zone).reservations.filter (fun entry => entry.actionID = setting.actionID)

/-- A pass asks for a slot only while the engine holds none of the action. -/
def OneSlot (setting : Setting) (_ : List Note) (config : Transition.Config Shared Pass) (label : Nat × Act) : Prop :=
  label.2 = .request → setting.slots config.shared = []

instance (setting : Setting) (history : List Note) (config : Transition.Config Shared Pass) (label : Nat × Act) :
    Decidable (OneSlot setting history config label) :=
  inferInstanceAs (Decidable (label.2 = .request → setting.slots config.shared = []))

variable {setting : Setting} {shared after : Shared} {pass next : Pass} {act : Act} {me : Nat} {notes : List Note}

theorem slots_patch {read : Versioned Assignment} (patched : shared.patch read value = some after) :
    setting.slots after = setting.slots shared := by
  unfold Shared.patch at patched
  split at patched <;> try contradiction
  cases patched
  rfl

theorem slots_patch_getD {read : Versioned Assignment} :
    setting.slots ((shared.patch read value).getD shared) = setting.slots shared := by
  cases patched : shared.patch read value with
  | none => rfl
  | some => exact slots_patch patched

theorem slots_granted (placed : setting.zone ≠ "")
    (taken : (requestReservation setting.specs setting.config shared.now (setting.request robot) shared.engine).2.status ≠
      .denied) :
    ∃ entry ∈ setting.slots { shared with
        engine := (requestReservation setting.specs setting.config shared.now (setting.request robot) shared.engine).1 },
      entry.robotID = robot := by
  refine ⟨granted setting.config shared.now (setting.request robot), ?_, rfl⟩
  refine List.mem_filter.mpr ⟨?_, decide_eq_true rfl⟩
  obtain ⟨denied, -⟩ | ⟨-, appended, -⟩ | ⟨-, _, appended⟩ :=
    @requestReservation_cases setting.specs setting.config shared.now shared.engine (setting.request robot) placed
  · exact absurd denied taken
  · exact appended ▸ List.mem_append_right _ (List.mem_singleton_self _)
  · exact appended ▸ List.mem_append_right _ (List.mem_singleton_self _)

theorem engine_denied (placed : setting.zone ≠ "")
    (denied : (requestReservation setting.specs setting.config shared.now (setting.request robot) shared.engine).2.status =
      .denied) :
    (requestReservation setting.specs setting.config shared.now (setting.request robot) shared.engine).1 =
      shared.engine := by
  obtain ⟨-, same⟩ | ⟨granted, -⟩ | ⟨granted, -⟩ :=
    @requestReservation_cases setting.specs setting.config shared.now shared.engine (setting.request robot) placed
  · exact same
  · simp [granted] at denied
  · simp [granted] at denied

inductive Effect (setting : Setting) (act : Act) (shared after : Shared) (pass next : Pass) : Prop
  | keeps (slots : setting.slots after = setting.slots shared) (own : next.slot = pass.slot ∨ next.slot = none)
  | takes (asked : act = .request) {robot : String} (own : next.slot = some robot)
      (held : ∃ entry ∈ setting.slots after, entry.robotID = robot)
  | ends (held : pass.slot ≠ none) (gone : next.slot = none)

theorem unreserve_effect
    (holds : pass.slot = if reserved then some robot else none) (gone : next.slot = none) :
    Effect setting act shared (unreserveOnFailure setting reserved listed shared) pass next := by
  cases reserved with
  | false => exact .keeps rfl (.inr gone)
  | true => exact .ends (by simp [holds]) gone

theorem step_effect (stepped : (reconcileAction setting).step me shared pass act = some (after, next, notes)) :
    Effect setting act shared after pass next := by
  unfold reconcileAction at stepped
  dsimp only at stepped
  split at stepped
  · split at stepped <;> try contradiction
    split at stepped <;> try contradiction
    cases stepped
    exact .keeps rfl (.inr rfl)
  · split at stepped
    next gate =>
      split at stepped
      next denied =>
        cases stepped
        rw [engine_denied gate.2 denied]
        exact .keeps slots_patch_getD (.inr rfl)
      next taken =>
        cases stepped
        exact .takes rfl rfl (slots_granted gate.2 taken)
    · cases stepped
      exact .keeps rfl (.inr rfl)
  next reserved _ =>
    cases stepped
    exact unreserve_effect (by cases reserved <;> rfl) rfl
  next robot reserved _ =>
    split at stepped
    next patched =>
      cases stepped
      exact .keeps (slots_patch patched) (.inl (by cases reserved <;> rfl))
    · cases stepped
      exact unreserve_effect (by cases reserved <;> rfl) rfl
  next robot reserved landed _ =>
    split at stepped
    · cases stepped
      exact .keeps rfl (.inl (by cases reserved <;> rfl))
    · cases stepped
      exact unreserve_effect (by cases reserved <;> rfl) rfl
  · cases stepped
    exact .keeps slots_patch_getD (.inr rfl)
  · cases stepped
    exact .keeps rfl (.inr rfl)
  · cases stepped
    exact .keeps rfl (.inr rfl)
  · contradiction

structure Exclusive (setting : Setting) (config : Transition.Config Shared Pass) : Prop where
  one : ∀ i j, (config.threads i).slot ≠ none → (config.threads j).slot ≠ none → i = j
  held : ∀ i robot, (config.threads i).slot = some robot →
    ∃ entry ∈ setting.slots config.shared, entry.robotID = robot

theorem Exclusive.step {config later : Transition.Config Shared Pass} {label : Nat × Act} {history : List Note}
    (exclusive : Exclusive setting config) (permitted : OneSlot setting history config label)
    (taken : (reconcileAction setting).machine.step config label = some (later, notes)) : Exclusive setting later := by
  obtain ⟨me, _⟩ := label
  obtain ⟨next, stepped, threads⟩ := Pool.machine_step taken
  have mine : later.threads me = next := by rw [threads, Function.update_self]
  have others {i : Nat} (other : i ≠ me) : later.threads i = config.threads i := by
    rw [threads, Function.update_of_ne other]
  cases step_effect stepped with
  | keeps slots own =>
    have before (i : Nat) (robot : String) (slot : (later.threads i).slot = some robot) :
        (config.threads i).slot = some robot := by
      by_cases same : i = me
      · subst same
        rw [mine] at slot
        rcases own with kept | gone
        · exact kept ▸ slot
        · simp [gone] at slot
      · exact others same ▸ slot
    refine ⟨fun i j first second => ?_, fun i robot slot => slots ▸ exclusive.held i robot (before i robot slot)⟩
    obtain ⟨robot, held⟩ := Option.ne_none_iff_exists'.mp first
    obtain ⟨other, heldToo⟩ := Option.ne_none_iff_exists'.mp second
    exact exclusive.one i j (by simp [before i robot held]) (by simp [before j other heldToo])
  | takes asked own held =>
    -- the engine held no slot of the action, so no pass did
    have free (i : Nat) : (config.threads i).slot = none := by
      by_contra slot
      obtain ⟨robot, holds⟩ := Option.ne_none_iff_exists'.mp slot
      obtain ⟨entry, member, -⟩ := exclusive.held i robot holds
      rw [permitted asked] at member
      contradiction
    have only {i : Nat} (slot : (later.threads i).slot ≠ none) : i = me := by
      by_contra other
      exact slot (others other ▸ free i)
    refine ⟨fun i j first second => (only first).trans (only second).symm, fun i robot slot => ?_⟩
    have same : i = me := only (by simp [slot])
    rw [same, mine, own] at slot
    cases slot
    exact held
  | ends held gone =>
    have none_ (i : Nat) : (later.threads i).slot = none := by
      by_cases same : i = me
      · subst same
        exact mine ▸ gone
      rw [others same]
      by_contra slot
      exact same (exclusive.one i me slot held)
    exact ⟨fun i j first => absurd (none_ i) first, fun i robot slot => by simp [none_ i] at slot⟩

/-- The slot a pass dispatched under stays in the engine, as long as a pass asks for a slot only while the engine
holds none of the action. -/
theorem winner_keeps_slot {config : Transition.Config Shared Pass} {history : List Note} {start : Shared} {i : Nat}
    {robot : String}
    (reached : Machine.Reaches (reconcileAction setting).machine (OneSlot setting)
      { shared := start, threads := fun _ => .idle } history config)
    (won : config.threads i = .dispatched robot true) :
    ∃ entry ∈ (config.shared.engine.zones setting.zone).reservations,
      entry.actionID = setting.actionID ∧ entry.robotID = robot := by
  have exclusive : Exclusive setting config := by
    refine reached.invariant (fun _ config => Exclusive setting config) ?_ ?_
    · exact ⟨fun i j first => absurd rfl first, fun i robot slot => by simp [Pass.slot] at slot⟩
    · intro history config label later notes _ exclusive permitted taken
      exact exclusive.step permitted taken
  obtain ⟨entry, member, same⟩ := exclusive.held i robot (by rw [won]; rfl)
  obtain ⟨listed, own⟩ := List.mem_filter.mp member
  exact ⟨entry, listed, of_decide_eq_true own, same⟩

def dockSetting : Setting :=
  { actionID := "a1", zone := "dock",
    specs := fun zone => if zone = "dock" then some { maxConcurrentRobots := 2 } else none }

def separatePasses : List (Nat × Act) :=
  [(0, .read 0 "r1"), (1, .read 0 "r2"), (2, .read 0 "r3"), (1, .request), (1, .giveUp []), (0, .request),
    (0, .commit []), (0, .commitRobot true [])]

theorem winner_keeps_slot_dock : ∃ config, Machine.Reaches (reconcileAction dockSetting).machine (OneSlot dockSetting)
        { shared := {}, threads := fun _ => .idle } [.dispatched "r1"] config ∧
      config.threads 0 = .dispatched "r1" true ∧
      ∃ entry ∈ (config.shared.engine.zones "dock").reservations, entry.actionID = "a1" ∧ entry.robotID = "r1" := by
  have permitted : (reconcileAction dockSetting).machine.Permitted (OneSlot dockSetting)
      ({ shared := {}, threads := fun _ => .idle }, []) separatePasses := by
    decide +kernel
  have ran : ∃ config, (reconcileAction dockSetting).machine.run
        ({ shared := {}, threads := fun _ => .idle }, []) separatePasses = some (config, [.dispatched "r1"]) ∧
      config.threads 0 = .dispatched "r1" true := by
    exact ⟨_, rfl, by decide +kernel⟩
  obtain ⟨config, ran, won⟩ := ran
  have reached := Machine.run_reaches_from .start permitted ran
  exact ⟨config, reached, won, winner_keeps_slot reached won⟩

def stalePass : List (Nat × Act) :=
  [(0, .read 0 "r1"), (0, .request), (0, .commit []), (0, .commitRobot true []), (1, .read 1 "r2"), (1, .request),
    (1, .commit [])]

/-- The action stays assigned to `r1`, which is dispatched, and the engine holds no
reservation of it. -/
theorem stale_pass_frees_winner :
    ∃ config, (reconcileAction dockSetting).machine.run ({ shared := {}, threads := fun _ => .idle }, []) stalePass =
        some (config, [.conflict, .dispatched "r1"]) ∧
      config.threads 0 = .dispatched "r1" true ∧ config.shared.action.value = some "r1" ∧
      (config.shared.engine.zones "dock").reservations = [] := by
  refine ⟨_, rfl, ?_, ?_, ?_⟩ <;> decide +kernel

end Swarmada.Scheduling
