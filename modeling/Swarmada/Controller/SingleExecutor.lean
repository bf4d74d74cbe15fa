import Swarmada.Controller.Passes

namespace Swarmada.Controller

open Api Executorguard Transition

variable {settings : Settings}

structure Kept (settings : Settings) (history : List Event) (s : System) : Prop where
  sound : Sound settings ⟨history, s.cluster⟩
  running : (around settings).Running s.pass ⟨history, s.cluster⟩

theorem sound_empty (settings : Settings) : Sound settings ⟨[], Cluster.empty⟩ where
  action := fun _ stored => by contradiction
  gone := fun _ _ => Or.inl rfl
  wellformed :=
    ⟨fun _ _ stored => by contradiction, fun _ _ stored => by contradiction, fun _ _ stored => by contradiction,
      fun _ stored => by contradiction, fun _ _ stored => by contradiction, fun _ member => by contradiction⟩
  timely := ⟨rfl, fun _ _ written => by contradiction, fun _ since => by contradiction⟩
  single := trivial

theorem Kept.step {history events : List Event} {s after : System} {label : Label} (kept : Kept settings history s)
    (founded : founded settings history s label) (taken : System.step settings s label = some (after, events)) :
    Kept settings (events ++ history) after := by
  cases label with
  | start =>
    simp only [System.step] at taken
    split at taken <;> try contradiction
    cases taken
    exact ⟨kept.sound, outline_reconcileAction.running _⟩
  | answer =>
    simp only [System.step] at taken
    split at taken <;> try contradiction
    rename_i op next pass
    split at taken <;> try contradiction
    rename_i cluster reply emitted performed
    cases taken
    have running := kept.running
    simp only [Controller.founded, pass] at founded
    rw [pass] at running
    obtain ⟨sound, rest⟩ := running.reply kept.sound ⟨founded, @perform_replied _ ⟨history, _⟩ _ _ _ _ _ performed⟩
    exact ⟨sound, rest⟩
  | abort =>
    cases taken
    exact ⟨kept.sound, .done () _⟩
  | restart =>
    cases taken
    exact ⟨kept.sound.restarted, .done () _⟩
  | act =>
    simp only [System.step] at taken
    split at taken
    · split at taken <;> try contradiction
      rename_i free
      obtain ⟨⟨_, _⟩, moved, same⟩ := Option.map_eq_some_iff.mp taken
      cases same
      have moves := Act.moves kept.sound (by simpa using free) founded moved
      exact ⟨moves.sound, kept.running.drift kept.sound moves.drift⟩
    next pass =>
      obtain ⟨⟨_, _⟩, moved, same⟩ := Option.map_eq_some_iff.mp taken
      cases same
      refine ⟨Act.sound kept.sound founded moved, ?_⟩
      rw [pass]
      exact .done () _

/-- Whenever a robot is given the action, every other robot is off it. -/
theorem single_executor (settings : Settings) {history : List Event} {s : System}
    (run : (controller settings).Reaches (founded settings) System.empty history s) :
    SingleExecutor settings.skew history := by
  have kept : Kept settings history s := by
    refine run.invariant (Kept settings) ⟨sound_empty settings, .done () _⟩ ?_
    intro history s label after events _ kept allowed taken
    exact kept.step allowed taken
  exact kept.sound.single

private def scheduling : List Label :=
  [.start, .answer .plain, .answer .plain, .answer (.answer false), .answer (.duration 30), .answer .plain,
    .answer .plain, .answer .plain]

private def committing (robot : String) (generation : Nat) (rejected : Bool) : List Label :=
  [.answer (.answer false), .answer (.answer false), .answer (.answer false), .answer (.robot (some robot)),
    .answer (.answer false), .answer (.answer false), .answer (.answer true), .answer .plain,
    .answer (.generation (some generation)), .answer .plain, .answer .landed, .answer .landed,
    .answer (.rejected rejected)]

private def robotNamed (name : String) : Robot := { ns := "fleet", name := name }

private def twoRobots : List Label :=
  [.act (.createRobot (robotNamed "r1") .idle), .act (.createRobot (robotNamed "r2") .idle),
    .act (.syncRobot "r1"), .act (.syncRobot "r2"), .act (.create {}), .act .syncAction]

private def carry : Settings := { task := "carry", skew := 5, named := by decide, admitted := by decide }

/-- The first robot refuses, acknowledges a cancel once the cache shows its record, and the
second is given the action. -/
theorem single_executor_refused :
    ∃ history, history = [.recorded "r2", .assigned "r2" 30, .acknowledged "r1", .refused "r1", .recorded "r1",
        .assigned "r1" 30] ∧ SingleExecutor carry.skew history := by
  have permitted : (controller carry).Permitted (founded carry) (.empty, [])
      (twoRobots ++ scheduling ++ committing "r1" 1 true ++
        [.answer .plain, .answer (.stops []), .answer .landed, .answer .plain, .act .syncAction, .act (.syncRobot "r1")] ++
        scheduling ++ [.answer .plain, .answer (.stops []), .answer (.cancel true .stoppedSafely), .answer .plain,
          .answer .landed] ++ committing "r2" 2 false) := by decide +kernel
  have ran : (controller carry).history .empty
      (twoRobots ++ scheduling ++ committing "r1" 1 true ++
        [.answer .plain, .answer (.stops []), .answer .landed, .answer .plain, .act .syncAction, .act (.syncRobot "r1")] ++
        scheduling ++ [.answer .plain, .answer (.stops []), .answer (.cancel true .stoppedSafely), .answer .plain,
          .answer .landed] ++ committing "r2" 2 false) =
      some [.recorded "r2", .assigned "r2" 30, .acknowledged "r1", .refused "r1", .recorded "r1",
        .assigned "r1" 30] := by decide +kernel
  obtain ⟨s, reached⟩ := Machine.history_reaches_permitted permitted ran
  exact ⟨_, rfl, single_executor carry reached⟩

/-- The cache has not seen the first robot's record when the action, deleted and created again, is scheduled: a second
robot is given it under the first one's live lease. -/
theorem two_executors_behind_the_cache :
    ∃ history s, (controller carry).Reaches Machine.unrestricted System.empty history s ∧
      history = [.recorded "r2", .assigned "r2" 30, .recorded "r1", .assigned "r1" 30] ∧
      off carry.skew "r1" [.recorded "r1", .assigned "r1" 30] = false ∧ ¬ SingleExecutor carry.skew history := by
  have ran : (controller carry).history .empty
      (twoRobots ++ scheduling ++ committing "r1" 1 false ++ [.act .delete, .act (.create {}), .act .syncAction] ++
        scheduling ++ committing "r2" 2 false) =
      some [.recorded "r2", .assigned "r2" 30, .recorded "r1", .assigned "r1" 30] := by decide +kernel
  obtain ⟨s, reached⟩ := Machine.history_reaches ran
  refine ⟨_, s, reached, rfl, by decide, fun single => ?_⟩
  have wrong := single.2.1 "r2" rfl "r1" (by decide)
  revert wrong
  decide

end Swarmada.Controller
