import Swarmada.Controlstream.Session

/-! # Presence of one adapter identity

The ControlStream handlers of the identity, with the reports they make to the presence sink.
The reports are made outside the lock of the session map.
-/

namespace Swarmada.Controlstream.Presence

open Transition

inductive Report where
  | adapterConnected | adapterDisconnected
deriving DecidableEq, Repr

/-- The identity's entry of the session map, and the sessions that were closed for a newer one. -/
structure Sessions where
  live : Option Nat := none
  superseded : Nat → Bool := fun _ => false

inductive Stage where
  | opening
  | claimed (replaced : Option Nat)
  | connected (replaced : Option Nat)
  | serving
  | ended
  | released
  | closed
deriving DecidableEq, Repr

inductive Step where
  | claim
  | connect
  | supersede
  | finish (why : Ending)
  | release
  | disconnect
deriving DecidableEq, Repr

def Sessions.supersede (sessions : Sessions) : Option Nat → Sessions
  | some replaced => { sessions with superseded := Function.update sessions.superseded replaced true }
  | none => sessions

def Stage.step (me : Nat) (sessions : Sessions) : Stage → Step → Option (Sessions × Stage × List Report)
  | .opening, .claim => some ({ sessions with live := some me }, .claimed sessions.live, [])
  | .claimed replaced, .connect => some (sessions, .connected replaced, [.adapterConnected])
  | .connected replaced, .supersede => some (sessions.supersede replaced, .serving, [])
  | .serving, .finish why =>
    if why = .superseded ∧ sessions.superseded me = false then none else some (sessions, .ended, [])
  | .ended, .release =>
    if sessions.live = some me then some ({ sessions with live := none }, .released, [])
    else some (sessions, .closed, [])
  | .released, .disconnect => some (sessions, .closed, [.adapterDisconnected])
  | _, _ => none

def controlStreams : Pool Sessions Stage Step Report where
  step := Stage.step

def noStreams : Config Sessions Stage where
  shared := {}
  threads := fun _ => .opening

/-- The handler has not begun, waits in its receive loop or has returned. -/
def Stage.waits : Stage → Bool
  | .opening | .serving | .closed => true
  | .claimed _ | .connected _ | .ended | .released => false

/-- No report is overtaken: a stream still holds the identity when one is reported connected, and none
has claimed it again when one is reported disconnected. -/
def InOrder (_ : List Report) (config : Config Sessions Stage) (label : Nat × Step) : Prop :=
  match label.2 with
  | .connect => config.shared.live.isSome = true
  | .disconnect => config.shared.live.isNone = true
  | _ => True

instance (history : List Report) (config : Config Sessions Stage) (label : Nat × Step) :
    Decidable (InOrder history config label) := by
  unfold InOrder
  split <;> infer_instance

/-- The last report says what the session map does, or the report that will is still to come. -/
def Due (history : List Report) (config : Config Sessions Stage) : Prop :=
  match config.shared.live with
  | some current => history.head? = some .adapterConnected ∨ ∃ replaced, config.threads current = .claimed replaced
  | none => history.head? ≠ some .adapterConnected ∨ ∃ leaving, config.threads leaving = .released

variable {history events : List Report} {config after : Config Sessions Stage} {me : Nat} {act : Step}
  {shared : Sessions} {stage next : Stage}

/-- Who owes no report may go on. -/
theorem Due.kept (due : Due history config) (same : shared.live = config.shared.live) (here : config.threads me = stage)
    (quiet : ∀ replaced, stage ≠ .claimed replaced) (stays : stage ≠ .released) :
    Due history { shared, threads := Function.update config.threads me next } := by
  subst here
  have other : ∀ i found, config.threads i = found → config.threads me ≠ found →
      Function.update config.threads me next i = found := by
    intro i found at_ apart
    rwa [Function.update_of_ne (by rintro rfl; exact apart at_)]
  unfold Due at due ⊢
  rw [same]
  split at due
  · exact due.imp_right fun ⟨replaced, owes⟩ => ⟨replaced, other _ _ owes (quiet replaced)⟩
  · exact due.imp_right fun ⟨leaving, owes⟩ => ⟨leaving, other _ _ owes stays⟩

theorem Due.step (due : Due history config) (order : InOrder history config (me, act)) (here : config.threads me = stage)
    (moved : stage.step me config.shared act = some (shared, next, events)) :
    Due (events ++ history) { shared, threads := Function.update config.threads me next } := by
  unfold Stage.step at moved
  split at moved
  next =>
    cases moved
    exact .inr ⟨_, Function.update_self ..⟩
  next =>
    cases moved
    obtain ⟨_, live⟩ := Option.isSome_iff_exists.mp order
    simp [Due, live]
  next replaced =>
    cases moved
    exact due.kept (by cases replaced <;> rfl) here nofun nofun
  next =>
    split at moved <;> cases moved
    exact due.kept rfl here nofun nofun
  next =>
    split at moved <;> cases moved
    · exact .inr ⟨me, Function.update_self ..⟩
    · exact due.kept rfl here nofun nofun
  next =>
    cases moved
    have free : config.shared.live = none := Option.isNone_iff_eq_none.mp order
    simp [Due, free]
  next => contradiction

/-- Once every handler waits or has returned, the last report is that a stream is connected exactly if the
session map holds one. -/
theorem presence_matches (run : controlStreams.machine.Reaches InOrder noStreams history config)
    (waits : ∀ i, (config.threads i).waits = true) :
    match config.shared.live with
    | some _ => history.head? = some .adapterConnected
    | none => history = [] ∨ history.head? = some .adapterDisconnected := by
  have due : Due history config := by
    refine run.invariant Due (show Due [] noStreams from .inl nofun) ?_
    intro history config label after events _ due order taken
    obtain ⟨_, moved, threads⟩ := Pool.machine_step taken
    have step := due.step order rfl moved
    rwa [← threads] at step
  unfold Due at due
  split at due
  next current _ =>
    refine due.resolve_right fun ⟨replaced, owes⟩ => ?_
    have := waits current
    rw [owes] at this
    contradiction
  next =>
    rcases due with other | ⟨leaving, owes⟩
    · match history with
      | [] => exact .inl rfl
      | .adapterConnected :: _ => exact absurd rfl other
      | .adapterDisconnected :: _ => exact .inr rfl
    · have := waits leaving
      rw [owes] at this
      contradiction

def opens (me : Nat) : List (Nat × Step) := [(me, .claim), (me, .connect), (me, .supersede)]

/-- What a run comes to, when only the first two handlers move. -/
theorem comesTo {allowed : List Report → Config Sessions Stage → Nat × Step → Prop} {labels : List (Nat × Step)}
    {reports : List Report} {live : Option Nat} (few : ∀ label ∈ labels, label.1 < 2)
    (permitted : controlStreams.machine.Permitted allowed (noStreams, []) labels)
    (ran : (controlStreams.machine.run (noStreams, []) labels).map (fun last =>
      (last.2, last.1.shared.live, (last.1.threads 0).waits && (last.1.threads 1).waits)) = some (reports, live, true)) :
    ∃ config, controlStreams.machine.Reaches allowed noStreams reports config ∧ config.shared.live = live ∧
      ∀ i, (config.threads i).waits = true := by
  obtain ⟨⟨config, _⟩, reached, shape⟩ := Option.map_eq_some_iff.mp ran
  simp only [Prod.mk.injEq, Bool.and_eq_true] at shape
  obtain ⟨rfl, live, first, second⟩ := shape
  refine ⟨config, Machine.run_reaches_from .start permitted reached, live, fun i => ?_⟩
  match i with
  | 0 => exact first
  | 1 => exact second
  | i + 2 =>
    rw [Pool.run_untouched few reached (Nat.le_add_left 2 i)]
    rfl

/-- A reconnect: the second stream replaces the first, which reports nothing more. -/
theorem presence_matches_reconnect :
    ∃ history config, controlStreams.machine.Reaches InOrder noStreams history config ∧ config.shared.live = some 1 ∧
      history.head? = some .adapterConnected := by
  have permitted : controlStreams.machine.Permitted InOrder (noStreams, [])
      (opens 0 ++ opens 1 ++ [(0, .finish .superseded), (0, .release)]) := by
    decide +kernel
  obtain ⟨config, reached, live, waits⟩ := @comesTo _ _
    [.adapterConnected, .adapterConnected] (some 1) (by decide) permitted (by decide +kernel)
  have matched := presence_matches reached waits
  rw [live] at matched
  exact ⟨_, config, reached, live, matched⟩

/-- The first stream ends, and reports so only once the adapter has reconnected. -/
theorem disconnect_reported_late :
    ∃ history config, controlStreams.machine.Reaches Machine.unrestricted noStreams history config ∧
      (∀ i, (config.threads i).waits = true) ∧ config.shared.live = some 1 ∧
      history.head? = some .adapterDisconnected := by
  obtain ⟨config, reached, live, waits⟩ := @comesTo Machine.unrestricted
    (opens 0 ++ [(0, .finish .received), (0, .release)] ++ opens 1 ++ [(0, .disconnect)])
    [.adapterDisconnected, .adapterConnected, .adapterConnected] (some 1) (by decide)
    (Machine.permitted_unrestricted _ _ _) (by decide +kernel)
  exact ⟨_, config, reached, waits, live, rfl⟩

end Swarmada.Controlstream.Presence
