import Mathlib.Logic.Basic

/-! # Programs that call their surroundings

A program is a tree: each call names an operation, and each reply has a rest of its own.
Between two calls the surroundings move on.  An outline proves a program the way Owicki
and Gries annotate one: before each call stands an assertion that no move of the
surroundings falsifies, and each reply takes it to the assertion of the next call.
-/

namespace Swarmada.Transition

inductive Program (Op : Type) (Reply : Op → Type) (α : Type) : Type
  | done (value : α)
  | call (op : Op) (next : Reply op → Program Op Reply α)

namespace Program

variable {Op : Type} {Reply : Op → Type} {α β : Type}

def bind : Program Op Reply α → (α → Program Op Reply β) → Program Op Reply β
  | .done value, rest => rest value
  | .call op next, rest => .call op fun reply => (next reply).bind rest

instance : Monad (Program Op Reply) where
  pure := .done
  bind := .bind

def perform (op : Op) : Program Op Reply (Reply op) := .call op .done

end Program

/-- What a program runs in: the invariant of the whole, the moves of the surroundings
while the program runs, and what a call may reply. -/
structure Surroundings (Op : Type) (Reply : Op → Type) (γ : Type) where
  invariant : γ → Prop
  drifts : γ → γ → Prop
  replies : (op : Op) → γ → Reply op → γ → Prop

namespace Surroundings

variable {Op : Type} {Reply : Op → Type} {γ α β : Type}

/-- No move of the surroundings falsifies the assertion. -/
def Stable (around : Surroundings Op Reply γ) (assertion : γ → Prop) : Prop :=
  ∀ ⦃before after⦄, around.invariant before → around.drifts before after → assertion before → assertion after

/-- From `assertion` the program keeps the invariant, call by call, and ends in `post`. -/
def Outline (around : Surroundings Op Reply γ) (assertion : γ → Prop) : Program Op Reply α → (α → γ → Prop) → Prop
  | .done value, post => ∀ state, around.invariant state → assertion state → post value state
  | .call op next, post => ∀ reply, ∃ after : γ → Prop, around.Stable after ∧
      (∀ state state', around.invariant state → assertion state → around.replies op state reply state' →
        around.invariant state' ∧ after state') ∧
      Outline around after (next reply) post

variable {around : Surroundings Op Reply γ} {assertion weaker : γ → Prop} {program : Program Op Reply α}
  {post : α → γ → Prop}

theorem Stable.and (first : around.Stable assertion) (second : around.Stable other) :
    around.Stable fun state => assertion state ∧ other state :=
  fun _ _ invariant move both => ⟨first invariant move both.1, second invariant move both.2⟩

theorem Stable.const (fact : Prop) : around.Stable fun _ => fact :=
  fun _ _ _ _ holds => holds

theorem Outline.strengthen (outline : around.Outline weaker program post)
    (implied : ∀ state, around.invariant state → assertion state → weaker state) :
    around.Outline assertion program post := by
  cases program with
  | done => exact fun state invariant holds => outline state invariant (implied state invariant holds)
  | call =>
    intro reply
    obtain ⟨after, stable, kept, rest⟩ := outline reply
    exact ⟨after, stable, fun state state' invariant holds =>
      kept state state' invariant (implied state invariant holds), rest⟩

theorem Outline.left (outline : around.Outline assertion program post) :
    around.Outline (fun state => assertion state ∧ weaker state) program post :=
  outline.strengthen fun _ _ both => both.1

theorem Outline.weaken (outline : around.Outline assertion program post)
    (implies : ∀ value state, post value state → other value state) : around.Outline assertion program other := by
  induction program generalizing assertion with
  | done value => exact fun state invariant holds => implies value state (outline state invariant holds)
  | call op next ih =>
    intro reply
    obtain ⟨after, stable, kept, rest⟩ := outline reply
    exact ⟨after, stable, kept, ih reply rest⟩

theorem Outline.bind (first : around.Outline assertion program post)
    (second : ∀ value, around.Outline (post value) (rest value) last) :
    around.Outline assertion (program >>= rest) last := by
  induction program generalizing assertion with
  | done value => exact (second value).strengthen first
  | call op next ih =>
    intro reply
    obtain ⟨after, stable, kept, outline⟩ := first reply
    exact ⟨after, stable, kept, ih reply outline⟩

theorem Outline.pure (holds : ∀ state, around.invariant state → assertion state → post value state) :
    around.Outline assertion (Pure.pure value : Program Op Reply α) post :=
  holds

theorem Outline.done : around.Outline assertion (Pure.pure value : Program Op Reply α) fun _ _ => True :=
  .pure fun _ _ _ => trivial

/-- One call whose reply leaves `after`. -/
theorem Outline.perform {after : Reply op → γ → Prop} (stable : ∀ reply, around.Stable (after reply))
    (kept : ∀ state reply state', around.invariant state → assertion state → around.replies op state reply state' →
      around.invariant state' ∧ after reply state') :
    around.Outline assertion (Program.perform op) after :=
  fun reply => ⟨after reply, stable reply, fun state state' => kept state reply state', fun _ _ holds => holds⟩

theorem Outline.unreached (program : Program Op Reply α) (never : ∀ state, ¬ assertion state) :
    around.Outline assertion program post := by
  induction program generalizing assertion with
  | done => exact fun state _ holds => absurd holds (never state)
  | call op next ih =>
    intro reply
    exact ⟨fun _ => False, .const False, fun state _ _ holds => absurd holds (never state), ih reply fun _ => id⟩

/-- What the assertion says of no state is known outright. -/
theorem Outline.known (outline : fact → around.Outline assertion program post) :
    around.Outline (fun state => assertion state ∧ fact) program post := by
  by_cases holds : fact
  · exact (outline holds).left
  · exact .unreached program fun _ both => holds both.2

/-- The program stands at a point of some outline. -/
def Running (around : Surroundings Op Reply γ) (program : Program Op Reply α) (state : γ) : Prop :=
  ∃ assertion, around.Stable assertion ∧ assertion state ∧ around.Outline assertion program fun _ _ => True

theorem Outline.running (outline : around.Outline (fun _ => True) program fun _ _ => True) (state : γ) :
    around.Running program state :=
  ⟨_, .const True, trivial, outline⟩

theorem Running.done (value : α) (state : γ) : around.Running (.done value : Program Op Reply α) state :=
  ⟨_, .const True, trivial, fun _ _ _ => trivial⟩

theorem Running.drift (running : around.Running program before) (invariant : around.invariant before)
    (move : around.drifts before after) : around.Running program after := by
  obtain ⟨assertion, stable, holds, outline⟩ := running
  exact ⟨assertion, stable, stable invariant move holds, outline⟩

theorem Running.reply {reply : Reply op}
    (running : around.Running (.call op next) before) (invariant : around.invariant before)
    (replied : around.replies op before reply after) : around.invariant after ∧ around.Running (next reply) after := by
  obtain ⟨_, _, holds, outline⟩ := running
  obtain ⟨later, stable, kept, rest⟩ := outline reply
  obtain ⟨invariant', holds'⟩ := kept before after invariant holds replied
  exact ⟨invariant', later, stable, holds', rest⟩

end Surroundings

end Swarmada.Transition
