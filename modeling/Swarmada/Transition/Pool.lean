import Swarmada.Transition.Machine

/-! # Pools of threads over one shared state

A pool runs any number of threads, each with a local state of its own.  One step
of one thread reads and writes the shared state and its own local state, and no
other thread's.  Invariants of such a pool are proved in the manner of Owicki and
Gries: one assertion about the shared state, one about each thread, and no step of
one thread may falsify the assertion of another.
-/

namespace Swarmada.Transition

universe u v w x

structure Pool (σ : Type u) (θ : Type v) (ι : Type w) (ε : Type x) where
  step : Nat → σ → θ → ι → Option (σ × θ × List ε)

structure Config (σ : Type u) (θ : Type v) where
  shared : σ
  threads : Nat → θ

variable {σ : Type u} {θ : Type v} {ι : Type w} {ε : Type x}

namespace Pool

/-- The pool as a machine; the label says which thread moves. -/
def machine (pool : Pool σ θ ι ε) : Machine (Config σ θ) (Nat × ι) ε where
  step config label :=
    match pool.step label.1 config.shared (config.threads label.1) label.2 with
    | none => none
    | some (shared, thread, events) =>
      some ({ shared, threads := Function.update config.threads label.1 thread }, events)

variable {pool : Pool σ θ ι ε} {config after : Config σ θ}

theorem machine_step (taken : pool.machine.step config (me, act) = some (after, events)) :
    ∃ thread, pool.step me config.shared (config.threads me) act = some (after.shared, thread, events) ∧
      after.threads = Function.update config.threads me thread := by
  unfold machine at taken
  cases moved : pool.step me config.shared (config.threads me) act with
  | none => simp [moved] at taken
  | some result =>
    obtain ⟨_, thread, _⟩ := result
    simp only [moved, Option.some.injEq, Prod.mk.injEq] at taken
    obtain ⟨rfl, rfl⟩ := taken
    exact ⟨thread, rfl, rfl⟩

/-- What the moving thread re-establishes for itself and leaves standing for the others
holds of every thread. -/
theorem forall_threads (assertion : Nat → θ → Prop)
    (threads : after.threads = Function.update config.threads me thread) (own : assertion me thread)
    (others : ∀ i, i ≠ me → assertion i (config.threads i)) (i : Nat) : assertion i (after.threads i) := by
  rw [threads]
  by_cases same : i = me
  · rw [same, Function.update_self]
    exact own
  · rw [Function.update_of_ne same]
    exact others i same

theorem view_threads (view : θ → β) (threads : after.threads = Function.update config.threads me thread) :
    (fun i => view (after.threads i)) = Function.update (fun i => view (config.threads i)) me (view thread) := by
  rw [threads]
  exact Function.comp_update view config.threads me thread

/-- Assertions that hold at the start, that the moving thread re-establishes, and that it leaves standing for every
other thread, hold of every reachable configuration. -/
theorem assertions_hold (common : List ε → σ → Prop) (assertion : List ε → σ → Nat → θ → Prop)
    (commonInitially : common [] start.shared) (initially : ∀ i, assertion [] start.shared i (start.threads i))
    (own : ∀ {history config me act shared thread events},
      pool.machine.Reaches allowed start history config →
      common history config.shared →
      (∀ i, assertion history config.shared i (config.threads i)) →
      allowed history config (me, act) →
      pool.step me config.shared (config.threads me) act = some (shared, thread, events) →
      common (events ++ history) shared ∧ assertion (events ++ history) shared me thread)
    (others : ∀ {history config me act shared thread events other},
      pool.machine.Reaches allowed start history config →
      common history config.shared →
      (∀ i, assertion history config.shared i (config.threads i)) →
      allowed history config (me, act) →
      pool.step me config.shared (config.threads me) act = some (shared, thread, events) →
      other ≠ me →
      assertion (events ++ history) shared other (config.threads other))
    (run : pool.machine.Reaches allowed start history config) :
    common history config.shared ∧ ∀ i, assertion history config.shared i (config.threads i) := by
  refine run.invariant
    (fun history config => common history config.shared ∧
      ∀ i, assertion history config.shared i (config.threads i))
    ⟨commonInitially, initially⟩ ?_
  intro history config label after events reached holds permitted taken
  obtain ⟨_, moved, threads⟩ := machine_step taken
  obtain ⟨kept, mine⟩ := own reached holds.1 holds.2 permitted moved
  exact ⟨kept, forall_threads (assertion (events ++ history) after.shared) threads mine fun i same =>
    others reached holds.1 holds.2 permitted moved same⟩

theorem machine_step_untouched (taken : pool.machine.step config label = some (after, events))
    (other : i ≠ label.1) : after.threads i = config.threads i := by
  obtain ⟨_, -, threads⟩ := machine_step taken
  rw [threads, Function.update_of_ne other]

theorem run_untouched {pool : Pool σ θ ι ε} {n : Nat} {labels : List (Nat × ι)}
    (small : ∀ label ∈ labels, label.1 < n) {before after : Config σ θ × List ε}
    (ran : pool.machine.run before labels = some after) {i : Nat} (large : n ≤ i) :
    after.1.threads i = before.1.threads i := by
  induction labels generalizing before with
  | nil =>
    cases ran
    rfl
  | cons label labels ih =>
    unfold Machine.run at ran
    split at ran <;> try contradiction
    rename_i next events taken
    have first := small label List.mem_cons_self
    have rest := ih (fun later member => small later (List.mem_cons_of_mem _ member)) ran
    rw [rest]
    exact machine_step_untouched taken (by omega)

/-- A condition that quantifies over every thread can be checked on the first `n`, in a
run that moves no other. -/
theorem reaches_below
    (sound : ∀ history config label, (∀ i, n ≤ i → config.threads i = start.threads i) →
      bounded history config label → allowed history config label)
    {labels : List (Nat × ι)} (small : ∀ label ∈ labels, label.1 < n) {before after : Config σ θ × List ε}
    (untouched : ∀ i, n ≤ i → before.1.threads i = start.threads i)
    (reached : pool.machine.Reaches allowed start before.2 before.1)
    (permitted : pool.machine.Permitted bounded before labels) (ran : pool.machine.run before labels = some after) :
    pool.machine.Reaches allowed start after.2 after.1 := by
  induction labels generalizing before with
  | nil =>
    cases ran
    exact reached
  | cons label labels ih =>
    unfold Machine.run at ran
    obtain ⟨first, rest⟩ := permitted
    split at ran <;> try contradiction
    rename_i next events taken
    simp only [taken] at rest
    have bound := small label List.mem_cons_self
    have moved : pool.machine.Reaches allowed start (events ++ before.2) next :=
      .step reached (sound _ _ _ untouched first) taken
    refine @ih (fun later member => small later (List.mem_cons_of_mem _ member))
      (next, events ++ before.2) (fun i large => ?_) moved rest ran
    rw [machine_step_untouched taken (by omega)]
    exact untouched i large

end Pool

end Swarmada.Transition
