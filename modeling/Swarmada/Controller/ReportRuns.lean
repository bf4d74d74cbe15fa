import Swarmada.Controller.ReportHandlers

namespace Swarmada.ActionReports

open Api Transition

variable {setting : Setting} {me : Nat} {shared after : Shared} {handling next : Handling} {act : Act}
  {events history : List Note} {report : ActionStatusUpdate} {status : ActionStatus}

/-- The report passed the checks on `status`: its stream serves the robot, its token is the
run's, and the phase is one it may leave. -/
structure Checked (history : List Note) (me : Nat) (report : ActionStatusUpdate) (status : ActionStatus) : Prop where
  served : .served me status.assignedRobot ∈ history
  token : tokenMatches status report = true
  unfinished : ended status.phase = false
  live : report.retained = false → advanceable status.phase = true

/-- A failure is written on `before` only where no stop was read and the report names none. -/
def Unstopped (history : List Note) (me : Nat) (report : ActionStatusUpdate) (before : Versioned ActionStatus)
    (phase : ActionPhase) : Prop :=
  phase = .failed → .stopsRead me before.version before.value.assignedRobot [] ∈ history ∧ report.endCause ≠ .estop

def Justified (report : ActionStatusUpdate) (history : List Note) (shared : Shared) (me : Nat) : Handling → Prop
  | .authorizing _ copy startOnly => Revisions.Copy copy shared.action ∧ Admitted report copy.value startOnly
  | .deciding _ copy => Revisions.Copy copy shared.action ∧ Checked history me report copy.value
  | .writing _ copy next =>
    Revisions.Copy copy shared.action ∧
      (next.phase ≠ copy.value.phase →
        Checked history me report copy.value ∧ Unstopped history me report copy next.phase) ∧
      (report.retained = true → Records report next.phase)
  | _ => True

theorem Checked.mono (checked : Checked history me report status) (events : List Note) :
    Checked (events ++ history) me report status :=
  { checked with served := List.mem_append_right events checked.served }

theorem Unstopped.mono (unstopped : Unstopped history me report before phase) (events : List Note) :
    Unstopped (events ++ history) me report before phase := by
  intro failed
  obtain ⟨read, named⟩ := unstopped failed
  exact ⟨List.mem_append_right events read, named⟩

theorem Justified.mono (justified : Justified report history shared me handling)
    (moves : Revisions.Moves shared.action after.action) (events : List Note) :
    Justified report (events ++ history) after me handling := by
  cases handling with
  | waiting | reading | done => trivial
  | authorizing => exact ⟨justified.1.moves moves, justified.2⟩
  | deciding => exact ⟨justified.1.moves moves, justified.2.mono events⟩
  | writing =>
    obtain ⟨copied, checked, records⟩ := justified
    refine ⟨copied.moves moves, fun changes => ?_, records⟩
    obtain ⟨checked, unstopped⟩ := checked changes
    exact ⟨checked.mono events, unstopped.mono events⟩

def Remembered (shared : Shared) : Prop :=
  ∀ copy, some copy ∈ shared.action.stored :: shared.past → Revisions.Copy copy shared.action

theorem Remembered.write (remembered : Remembered shared) {action : Revisions ActionStatus}
    (moves : Revisions.Moves shared.action action) : Remembered (shared.write action) := by
  intro copy member
  rcases List.mem_cons.mp member with present | past
  · exact Revisions.copy_stored present.symm
  · exact (remembered copy past).moves moves

theorem change_moves (changed : shared.change change = some after) :
    Revisions.Moves shared.action after.action ∧ (Remembered shared → Remembered after) := by
  unfold Shared.change at changed
  split at changed
  · split at changed <;> try contradiction
    cases changed
    exact ⟨.written _, fun remembered => remembered.write (.written _)⟩
  · split at changed <;> try contradiction
    cases changed
    exact ⟨.written _, fun remembered => remembered.write (.written _)⟩
  · cases changed
    exact ⟨.removed, fun remembered => remembered.write .removed⟩
  · cases changed
    exact ⟨.same, fun remembered => remembered⟩

theorem swap_moves
    (swapped : cell.swap copy written = some action) : Revisions.Moves cell action := by
  obtain ⟨_, _, _, rfl⟩ := Revisions.swap_eq_some swapped
  exact .written _

theorem Effect.moves (effect : Effect setting me shared handling act after next events) :
    Revisions.Moves shared.action after.action ∧ (Remembered shared → Remembered after) := by
  cases effect with
  | writes _ swapped => exact ⟨swap_moves swapped, fun remembered => remembered.write (swap_moves swapped)⟩
  | changes _ changed => exact change_moves changed
  | _ => exact ⟨.same, fun remembered => remembered⟩

theorem Effect.justified (effect : Effect setting me shared handling act after next events)
    (remembered : Remembered shared) (justified : Justified (setting.reports me) history shared me handling) :
    Justified (setting.reports me) (events ++ history) after me next := by
  cases effect with
  | rests still =>
    rcases still with rfl | ⟨_, rfl⟩ <;> trivial
  | gone | late | leaves | writes => trivial
  | reads shown admits => exact ⟨remembered _ shown, admitted_of_check admits⟩
  | serves was token =>
    subst was
    obtain ⟨copied, admits⟩ := justified
    refine ⟨copied, List.mem_append_left _ List.mem_cons_self, ?_, admits.unfinished rfl, admits.live rfl⟩
    cases retained : (setting.reports me).retained with
    | true => exact (admits.token retained).1
    | false => exact token retained
  | starts was =>
    subst was
    obtain ⟨copied, admits⟩ := justified
    refine ⟨copied, fun changes => absurd rfl changes, fun retained => ?_⟩
    exact absurd (admits.token retained).2 (by simp)
  | decides was failure records =>
    subst was
    obtain ⟨copied, checked⟩ := justified
    refine ⟨copied, fun _ => ⟨checked.mono _, fun fails => ?_⟩, records⟩
    obtain ⟨read, named⟩ := failure fails
    exact ⟨List.mem_append_left _ read, named⟩
  | changes _ changed => exact justified.mono (change_moves changed).1 []

def opening (action : Option ActionStatus) (robots : String → Option String)
    (streams : Nat → Option (String → Bool)) (stops : String → List String) : Transition.Config Shared Handling :=
  { shared := { action := .start action, robots, streams, stops }, threads := fun _ => .waiting }

variable {action : Option ActionStatus} {robots : String → Option String} {streams : Nat → Option (String → Bool)}
  {stops : String → List String} {config config' : Transition.Config Shared Handling}

theorem justified_of_reaches
    (reached : Machine.Reaches (handlers setting).machine Machine.unrestricted (opening action robots streams stops)
      history config) :
    Remembered config.shared ∧
      ∀ i, Justified (setting.reports i) history config.shared i (config.threads i) := by
  refine Pool.assertions_hold (fun _ => Remembered)
    (fun history shared i => Justified (setting.reports i) history shared i) ?_ ?_ ?_ ?_ reached
  · intro copy member
    rcases List.mem_cons.mp member with present | _
    · exact Revisions.copy_stored present.symm
    · contradiction
  · exact fun _ => trivial
  · intro history config me act shared thread events _ remembered justified _ moved
    have effect := step_effect moved
    exact ⟨effect.moves.2 remembered, effect.justified remembered (justified me)⟩
  · intro history config me act shared thread events other _ _ justified _ moved _
    exact (justified other).mono (step_effect moved).moves.1 events

/-- Why a retained outcome may be acknowledged. -/
inductive Acknowledgeable (report : ActionStatusUpdate) (before : Shared) (handling : Handling) (after : Shared) : Prop
  | written {next : ActionStatus} (present : before.action.stored.isSome = true)
      (landed : after.action = before.action.put next) (records : Records report next.phase)
  | decided (deciding : handling = .deciding attempt copy) (failed : report.state = .failed)
      (stopped : before.stops copy.value.assignedRobot ≠ [] ∨ report.endCause = .estop)
  | ended (stored : before.action.stored = some present) (finished : ended present.value.phase = true)
  | gone (absent : before.action.stored = none)

theorem Effect.acknowledges (effect : Effect setting me shared handling act after next events)
    (justified : Justified (setting.reports me) history shared me handling) (acknowledged : .acknowledged me ∈ events) :
    (setting.reports me).retained = true ∧ Acknowledgeable (setting.reports me) shared handling after := by
  cases effect with
  | rests _ silent | decides _ _ _ silent => exact absurd acknowledged silent
  | gone retained absent => exact ⟨retained, .gone absent⟩
  | late retained stored over_ => exact ⟨retained, .ended stored over_⟩
  | leaves retained was failed stopped => exact ⟨retained, .decided was failed stopped⟩
  | writes was swapped own =>
    subst was
    obtain ⟨copied, -, records⟩ := justified
    obtain ⟨stored, rfl⟩ := copied.of_swap swapped
    have retained := own acknowledged
    exact ⟨retained, .written (by rw [stored]; rfl) rfl (records retained)⟩
  | _ => simp at acknowledged

theorem Effect.inside (effect : Effect setting me shared handling act after next events)
    (justified : Justified (setting.reports me) history shared me handling) (handles : ∀ change, act ≠ .change change) :
    after.action.stored.isSome = shared.action.stored.isSome ∧
      ∀ before written, shared.action.stored = some before → after.action.stored = some written →
        written.value.phase ≠ before.value.phase →
        Checked history me (setting.reports me) before.value ∧
          Unstopped history me (setting.reports me) before written.value.phase := by
  cases effect with
  | changes asked => exact absurd asked (handles _)
  | writes was swapped =>
    subst was
    obtain ⟨copied, checked, -⟩ := justified
    obtain ⟨stored, rfl⟩ := copied.of_swap swapped
    refine ⟨by rw [stored]; rfl, fun before written present put changes => ?_⟩
    obtain rfl := Option.some.inj (stored.symm.trans present)
    obtain rfl := Option.some.inj put
    exact checked changes
  | _ =>
    refine ⟨rfl, fun before written present put changes => ?_⟩
    obtain rfl := Option.some.inj (present.symm.trans put)
    exact absurd rfl changes

/-- A report moves an action's phase only over a stream that serves its robot, with the run's token, and not once the
action has ended; to Failed only if no stop was read over the robot. Only a retained outcome is acknowledged, once it
was written, decided under a stop, or overtaken by the action's end. -/
theorem reports_stay_inside_run (setting : Setting) (action : Option ActionStatus) (robots : String → Option String)
    (streams : Nat → Option (String → Bool)) (stops : String → List String) (history : List Note)
    (config : Transition.Config Shared Handling)
    (reached : Machine.Reaches (handlers setting).machine Machine.unrestricted (opening action robots streams stops)
      history config)
    (i : Nat) (act : Act) (config' : Transition.Config Shared Handling) (events : List Note)
    (taken : (handlers setting).machine.step config (i, act) = some (config', events)) :
    ((∀ change, act ≠ .change change) →
      config'.shared.action.stored.isSome = config.shared.action.stored.isSome ∧
      ∀ before after, config.shared.action.stored = some before → config'.shared.action.stored = some after →
        after.value.phase ≠ before.value.phase →
        Checked history i (setting.reports i) before.value ∧
          Unstopped history i (setting.reports i) before after.value.phase) ∧
    (.acknowledged i ∈ events → (setting.reports i).retained = true ∧
      Acknowledgeable (setting.reports i) config.shared (config.threads i) config'.shared) ∧
    ∀ note ∈ events, note.Holds config.shared i := by
  obtain ⟨_, stepped, -⟩ := Pool.machine_step taken
  have justified := (justified_of_reaches reached).2 i
  have effect := step_effect stepped
  exact ⟨effect.inside justified, effect.acknowledges justified, step_holds stepped⟩

def oneRobot (action : ActionStatus) (stops : List String) : Transition.Config Shared Handling :=
  opening (some action) (fun name => if name = "r1" then some "unit-1" else none) (fun _ => some (· == "unit-1"))
    fun name => if name = "r1" then stops else []

def reporting (report : ActionStatusUpdate) : Setting := { ns := "fleet", name := "a1", reports := fun _ => report }

def liftOff : ActionStatus := { phase := .assigned, assignedRobot := "r1", assignmentGeneration := 7 }

/-- A live failure is decided on a cached copy, loses to the controller's write, and is
decided again on the action as it is. -/
def overtaken : List (Nat × Act) :=
  [(1, .change (.control { liftOff with phase := .inProgress, startedAt := some 3 })), (0, .receive), (0, .read 1),
    (0, .authorize 10), (0, .decide 11 none), (0, .write true), (0, .read 0), (0, .authorize 12), (0, .decide 13 none)]

theorem reports_stay_inside_run_overtaken : let setting := reporting { state := .failed, fencingToken := some 7 }
    ∃ history config config' before after,
      Machine.Reaches (handlers setting).machine Machine.unrestricted (oneRobot liftOff []) history config ∧
      (handlers setting).machine.step config (0, .write true) = some (config', []) ∧
      config.shared.action.stored = some before ∧ config'.shared.action.stored = some after ∧
      before.value.phase = .inProgress ∧ after.value.phase = .failed ∧ .served 0 "r1" ∈ history ∧
      .stopsRead 0 before.version "r1" [] ∈ history := by
  intro setting
  have ran : ∃ history config config' before after,
      (handlers setting).machine.run (oneRobot liftOff [], []) overtaken = some (config, history) ∧
      (handlers setting).machine.step config (0, .write true) = some (config', []) ∧
      config.shared.action.stored = some before ∧ config'.shared.action.stored = some after ∧
      before.value.phase = .inProgress ∧ before.value.assignedRobot = "r1" ∧ after.value.phase = .failed :=
    ⟨_, _, _, _, _, rfl, rfl, rfl, rfl, rfl, rfl, rfl⟩
  obtain ⟨history, config, config', before, after, ran, taken, stored, put, was, robot, is⟩ := ran
  have reached := Machine.run_reaches_from .start
    (Machine.permitted_unrestricted (handlers setting).machine (oneRobot liftOff [], []) overtaken) ran
  obtain ⟨checked, unstopped⟩ := ((reports_stay_inside_run setting _ _ _ _ history config reached 0 _ config' []
    taken).1 (by simp)).2 before after stored put (by simp [was, is])
  refine ⟨history, config, config', before, after, reached, taken, stored, put, was, is, ?_, ?_⟩
  · exact robot ▸ checked.served
  · exact robot ▸ (unstopped is).1

/-- A retained failure that a stop caused is acknowledged on a paused action with no stop anywhere, and nothing is
written; and a failure under a stop is written Failed when the stop is cleared before it is decided. -/
theorem estop_outcome_acknowledged_unwritten : (∃ before after,
      (handlers (reporting { retained := true, state := .failed, fencingToken := some 7, endCause := .estop })).machine.run
        (oneRobot { liftOff with phase := .paused } [], []) [(0, .receive), (0, .read 0), (0, .authorize 10)] =
          some before ∧
      (handlers (reporting { retained := true, state := .failed, fencingToken := some 7, endCause := .estop })).machine.step
        before.1 (0, .decide 11 none) = some (after, [.acknowledged 0, .stopsRead 0 0 "r1" []]) ∧
      before.1.shared.action.stored = some ⟨{ liftOff with phase := .paused }, 0⟩ ∧
      after.shared.action.stored = before.1.shared.action.stored ∧ before.1.shared.stops "r1" = []) ∧
    ∃ received after,
      (handlers (reporting { state := .failed, fencingToken := some 7 })).machine.run (oneRobot liftOff ["fleet/e1"], [])
        [(0, .receive)] = some received ∧ received.1.shared.stops "r1" = ["fleet/e1"] ∧
      (handlers (reporting { state := .failed, fencingToken := some 7 })).machine.run received
        [(1, .change (.surroundings received.1.shared.robots received.1.shared.streams fun _ => [])), (0, .read 0),
          (0, .authorize 10), (0, .decide 11 none), (0, .write true)] = some after ∧
      (after.1.shared.action.stored.map fun stored => stored.value.phase) = some .failed :=
  ⟨⟨_, _, rfl, rfl, rfl, rfl, rfl⟩, _, _, rfl, rfl, rfl, rfl⟩

end Swarmada.ActionReports
