import Mathlib.Logic.Function.Basic
import Mathlib.Data.List.Basic

/-! # Labelled machines and their histories

A machine takes one atomic step for each label its environment picks, and each
step may emit events.  A history is the list of the events of a run, the latest
first, so the tail of a history is what had happened when its head was emitted.
-/

namespace Swarmada.Transition

universe u v w

/-- A deterministic machine: the environment's choice is in the label. -/
structure Machine (σ : Type u) (ι : Type v) (ε : Type w) where
  step : σ → ι → Option (σ × List ε)

variable {σ : Type u} {ι : Type v} {ε : Type w}

namespace Machine

/-- `Reaches m allowed start history state`: a run of `m` from `start` whose
every step meets `allowed` has emitted `history` and stands in `state`. -/
inductive Reaches (m : Machine σ ι ε) (allowed : List ε → σ → ι → Prop) (start : σ) :
    List ε → σ → Prop
  | start : Reaches m allowed start [] start
  | step {history : List ε} {state after : σ} {label : ι} {events : List ε}
      (before : Reaches m allowed start history state)
      (permitted : allowed history state label)
      (taken : m.step state label = some (after, events)) :
      Reaches m allowed start (events ++ history) after

def unrestricted : List ε → σ → ι → Prop := fun _ _ _ => True

variable {m : Machine σ ι ε} {allowed : List ε → σ → ι → Prop} {start : σ}

/-- Every reachable state satisfies what holds at the start and is kept by each
permitted step. -/
theorem Reaches.invariant (holds : List ε → σ → Prop) (initially : holds [] start)
    (kept : ∀ {history state label after events}, Reaches m allowed start history state →
      holds history state → allowed history state label →
      m.step state label = some (after, events) → holds (events ++ history) after)
    (run : Reaches m allowed start history state) :
    holds history state := by
  induction run with
  | start => exact initially
  | step before permitted taken ih => exact kept before ih permitted taken

/-- A run goes on from where another ended. -/
theorem Reaches.trans
    (first : Reaches m unrestricted start earlier middle) (second : Reaches m unrestricted middle later last) :
    Reaches m unrestricted start (later ++ earlier) last := by
  induction second with
  | start => exact first
  | step before permitted taken ih =>
    rw [List.append_assoc]
    exact .step ih trivial taken

def run (m : Machine σ ι ε) : σ × List ε → List ι → Option (σ × List ε)
  | config, [] => some config
  | config, label :: labels =>
    match m.step config.1 label with
    | none => none
    | some (after, events) => m.run (after, events ++ config.2) labels

/-- Every step of the run over these labels meets `allowed`. -/
def Permitted (m : Machine σ ι ε) (allowed : List ε → σ → ι → Prop) : σ × List ε → List ι → Prop
  | _, [] => True
  | config, label :: labels =>
    allowed config.2 config.1 label ∧
      match m.step config.1 label with
      | none => True
      | some (after, events) => m.Permitted allowed (after, events ++ config.2) labels

instance decidablePermitted (m : Machine σ ι ε) (allowed : List ε → σ → ι → Prop)
    [∀ history state label, Decidable (allowed history state label)] :
    ∀ (config : σ × List ε) (labels : List ι), Decidable (m.Permitted allowed config labels)
  | _, [] => isTrue trivial
  | config, label :: labels =>
    have rest : Decidable
        (match m.step config.1 label with
          | none => True
          | some (after, events) => m.Permitted allowed (after, events ++ config.2) labels) :=
      match m.step config.1 label with
      | none => isTrue trivial
      | some (after, events) => decidablePermitted m allowed (after, events ++ config.2) labels
    inferInstanceAs (Decidable (_ ∧ _))

variable {labels : List ι}

theorem run_reaches_from (reached : Reaches m allowed start before.2 before.1)
    (permitted : m.Permitted allowed before labels) (ran : m.run before labels = some after) :
    Reaches m allowed start after.2 after.1 := by
  induction labels generalizing before with
  | nil =>
    cases ran
    exact reached
  | cons label labels ih =>
    unfold run at ran
    obtain ⟨first, rest⟩ := permitted
    split at ran <;> try contradiction
    rename_i next events taken
    simp only [taken] at rest
    have moved : Reaches m allowed start (events ++ before.2) next := .step reached first taken
    exact @ih (next, events ++ before.2) moved rest ran

/-- A run is permitted when each of its labels is, whatever came before. -/
theorem permitted_of_labels
    (each : ∀ label ∈ labels, ∀ history state, allowed history state label) (config : σ × List ε) :
    m.Permitted allowed config labels := by
  induction labels generalizing config with
  | nil => trivial
  | cons label labels ih =>
    refine ⟨each label List.mem_cons_self _ _, ?_⟩
    split
    · trivial
    · exact ih (fun other member => each other (List.mem_cons_of_mem _ member)) _

theorem permitted_unrestricted (m : Machine σ ι ε) (config : σ × List ε) (labels : List ι) :
    m.Permitted unrestricted config labels :=
  permitted_of_labels (fun _ _ _ _ => trivial) config

/-- A run over these labels and what is read off its end. -/
theorem run_reaches_reading
    (permitted : m.Permitted allowed (start, []) labels)
    (ran : (m.run (start, []) labels).map reading = some value) :
    ∃ state history, Reaches m allowed start history state ∧ reading (state, history) = value := by
  obtain ⟨⟨state, history⟩, completed, read⟩ := Option.map_eq_some_iff.mp ran
  exact ⟨state, history, run_reaches_from .start permitted completed, read⟩

def history (m : Machine σ ι ε) (start : σ) (labels : List ι) : Option (List ε) :=
  (m.run (start, []) labels).map Prod.snd

theorem history_reaches_permitted (permitted : m.Permitted allowed (start, []) labels)
    (ran : m.history start labels = some events) : ∃ state, Reaches m allowed start events state := by
  obtain ⟨⟨state, _⟩, completed, rfl⟩ := Option.map_eq_some_iff.mp ran
  exact ⟨state, run_reaches_from .start permitted completed⟩

theorem history_reaches (ran : m.history start labels = some events) :
    ∃ state, Reaches m unrestricted start events state :=
  history_reaches_permitted (m.permitted_unrestricted _ _) ran

end Machine

/-- Each event of the history meets `holds` together with what came before it. -/
def Always (holds : List ε → ε → Prop) : List ε → Prop
  | [] => True
  | event :: older => holds older event ∧ Always holds older

theorem Always.and (one : Always first history)
    (two : Always second history) : Always (fun older event => first older event ∧ second older event) history := by
  induction history with
  | nil => trivial
  | cons event older ih => exact ⟨⟨one.1, two.1⟩, ih one.2 two.2⟩

theorem Always.extend
    (fresh : ∀ event ∈ events, ∀ older, holds older event) (all : Always holds history) :
    Always holds (events ++ history) := by
  induction events with
  | nil => exact all
  | cons event events ih =>
    refine ⟨fresh event List.mem_cons_self _, ih fun earlier member => ?_⟩
    exact fresh earlier (List.mem_cons_of_mem _ member)

end Swarmada.Transition
