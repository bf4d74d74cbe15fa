import Swarmada.Saga.Passes

namespace Swarmada.Saga

open Api Graph Transition
open TaskController (isGroupTerminal childName)

def Ready (state : State) (a : FleetTaskAction) : Prop :=
  a.trigger ≠ .onEvent ∧ (state.objects (childName state.task.name a.name)).isNone ∧
    dependenciesMet a (childrenOf state.task state.objects) = true

instance (state : State) (a : FleetTaskAction) : Decidable (Ready state a) := inferInstanceAs (Decidable (_ ∧ _))

/-- Passes read every child of the task.  While it compensates nothing else makes a member ready,
and the task is not made a draft again. -/
def Settling (_ : List Event) (state : State) : Label → Prop
  | .pass answers => ∀ a ∈ state.task.actions, answers.unseen (childName state.task.name a.name) = true →
      (childrenOf state.task state.objects a.name).isNone
  | .setDraft draft => state.task.status.phase = .compensating → draft = false
  | label => state.task.status.phase = .compensating →
      match step state label with
      | none => True
      | some (after, _) => ∀ a ∈ after.task.actions, Ready after a → a ∈ state.task.actions ∧ Ready state a

instance (history : List Event) (state : State) (label : Label) : Decidable (Settling history state label) := by
  cases label <;> unfold Settling <;> first
    | infer_instance
    | refine @instDecidableForall _ _ _ ?_
      split <;> infer_instance

variable {answers : Answers} {state after start : State} {events history : List Event} {a : FleetTaskAction} {task : FleetTask}
  {objects : Objects} {member : String}

theorem dependenciesMet_mono (met : dependenciesMet a children = true)
    (grown : ∀ dep child, children dep = some child → a.need ≤ startRank child.phase →
      ∃ other, more dep = some other ∧ other.phase = child.phase) : dependenciesMet a more = true := by
  refine dependenciesMet_iff.mpr fun dep depends => ?_
  obtain ⟨pred, read, reached⟩ := dependenciesMet_iff.mp met dep depends
  obtain ⟨other, found, phase⟩ := grown dep pred read reached
  exact ⟨other, found, phase ▸ reached⟩

theorem Effects.ready (effects : Effects answers state after events) (started : .started member ∈ events) :
    ∃ a ∈ state.task.actions, Ready state a := by
  obtain ⟨a, listed, rfl, may⟩ := effects.started member started
  simp only [eligible, Bool.and_eq_true] at may
  obtain ⟨⟨_, trigger⟩, met⟩ := may
  refine ⟨a, listed, by simpa using trigger, ?_, dependenciesMet_mono met fun dep child read _ => ?_⟩
  · rw [(effects.grown.backed _ started _ rfl).1]
    rfl
  · obtain ⟨known, object, found, owned, rfl⟩ := childrenOf_eq_some read
    exact ⟨object.action, childrenOf_of_owned known (shown_eq_some found) owned, rfl⟩

theorem Effects.ready_before (effects : Effects answers state after events) (ready : Ready after a) : Ready state a := by
  obtain ⟨trigger, absent, met⟩ := ready
  rw [effects.task] at absent met
  refine ⟨trigger, ?_, dependenciesMet_mono met fun dep child read reached => ?_⟩
  · cases found : state.objects (childName state.task.name a.name) with
    | none => rfl
    | some =>
      obtain ⟨_, now, _⟩ := effects.grown.found found
      rw [now] at absent
      contradiction
  obtain ⟨known, object, found, owned, rfl⟩ := childrenOf_eq_some read
  have reported : object.action.phase ≠ .unset := by
    intro unset
    rw [unset] at reached
    exact absurd (Nat.lt_of_lt_of_le (need_pos a) reached) (by decide)
  obtain ⟨old, was, controller, phase⟩ := effects.grown.of_phase found reported
  exact ⟨old.action, childrenOf_of_owned known was (controller.trans owned), phase⟩

theorem eligible_of_ready (shows : Settling history state (.pass answers)) (ready : Ready state a) :
    eligible state.task (answers.shown state.objects) a = true := by
  obtain ⟨trigger, absent, met⟩ := ready
  have shown : answers.shown state.objects (childName state.task.name a.name) = none := by
    rw [Answers.shown, Option.isNone_iff_eq_none.mp absent, ite_self]
  simp only [eligible, Bool.and_eq_true]
  refine ⟨⟨⟨by simp [childrenOf, shown], by simp [taken, shown]⟩, by simpa using trigger⟩,
    dependenciesMet_mono met fun dep child read _ => ⟨child, ?_, rfl⟩⟩
  obtain ⟨known, _, found, owned, rfl⟩ := childrenOf_eq_some read
  refine childrenOf_of_owned known ?_ owned
  obtain ⟨b, member, rfl⟩ := List.mem_map.mp known
  have seen : answers.unseen (childName state.task.name b.name) ≠ true := by
    intro unseen
    have hidden := shows b member unseen
    rw [read] at hidden
    contradiction
  rw [Answers.shown, if_neg seen]
  exact found

/-- The later event starts no member once Compensating was written. -/
def Apart (later earlier : Event) : Prop := ∀ member, later = .started member → earlier ≠ .wrote .compensating

instance (later earlier : Event) : Decidable (Apart later earlier) := by
  cases later with
  | started member => exact decidable_of_iff (earlier ≠ .wrote .compensating) (by simp [Apart])
  | undone member => exact isTrue (by simp [Apart])
  | wrote phase => exact isTrue (by simp [Apart])

/-- What a run that settles keeps. -/
structure Rolling (history : List Event) (state : State) : Prop where
  distinct : (state.task.actions.map FleetTaskAction.name).Nodup
  undoing : .wrote .compensating ∈ history → StillUndoing state.task.status.phase
  active : state.task.status.phase = .compensating → state.task.draft = false
  unready : state.task.status.phase = .compensating → ∀ a ∈ state.task.actions, ¬ Ready state a
  apart : history.Pairwise Apart

theorem Rolling.initial (fresh : Fresh start) : Rolling [] start where
  distinct := fresh.distinct
  undoing absent := absurd absent List.not_mem_nil
  active compensating := by rw [fresh.unwritten] at compensating; contradiction
  unready compensating := by rw [fresh.unwritten] at compensating; contradiction
  apart := .nil

theorem Rolling.no_start (rolling : Rolling history state) (effects : Effects answers state after events)
    (compensating : state.task.status.phase = .compensating) : .started member ∉ events := by
  intro started
  obtain ⟨a, listed, ready⟩ := effects.ready started
  exact rolling.unready compensating a listed ready

theorem Rolling.unwritten (rolling : Rolling history state) (running : isGroupTerminal state.task.status.phase = false)
    (other : state.task.status.phase ≠ .compensating) : .wrote .compensating ∉ history := by
  intro written
  rcases rolling.undoing written with compensating | ended
  · exact other compensating
  · rw [running] at ended
    contradiction

theorem Passes.apart (passes : Passes answers state after events)
    (other : .wrote .compensating ∉ first) : (events ++ first).Pairwise Apart := by
  obtain ⟨_, ⟨_, undone, started, rfl, wrote, _⟩, _⟩ := passes
  have onward : ∀ earlier ∈ undos undone ++ starts started ++ first, earlier ≠ .wrote .compensating := by
    rintro _ emitted rfl
    simp [undos, starts, other] at emitted
  have rest : (undos undone ++ starts started ++ first).Pairwise Apart :=
    List.pairwise_of_forall_mem_list fun _ _ earlier emitted _ _ => onward earlier emitted
  rcases wrote with ⟨_, rfl⟩ | rfl
  · exact rest
  · exact List.pairwise_cons.mpr ⟨fun _ _ _ same => Event.noConfusion same, rest⟩

theorem Passes.entered (passes : Passes answers state after events) (wrote : .wrote .compensating ∈ events) :
    after.task.status.phase = .compensating := by
  obtain ⟨_, ⟨written, _, _, rfl, writes, _⟩, _⟩ := passes
  have among : Event.wrote .compensating ∈ written := by simpa [undos, starts] using wrote
  rcases writes with ⟨_, rfl⟩ | rfl
  · contradiction
  · exact (Event.wrote.inj (List.mem_singleton.mp among)).symm

theorem Rolling.pass (rolling : Rolling history state) (permitted : Settling history state (.pass answers))
    (reconciled : Reconciles answers state after events) : Rolling (events ++ history) after := by
  have effects := reconciled.effects
  have distinct : (after.task.actions.map FleetTaskAction.name).Nodup := by
    rw [effects.task]
    exact rolling.distinct
  cases reconciled with
  | idle => exact rolling
  | @drafted status running draft phase =>
    have before : state.task.status.phase ≠ .compensating := fun compensating => by
      rw [rolling.active compensating] at draft
      contradiction
    have outside : (state.withStatus status).task.status.phase ≠ .compensating := by
      rw [show (state.withStatus status).task.status.phase = .draft from phase]
      decide
    have unwritten := rolling.unwritten running before
    refine ⟨distinct, fun entered => ?_, fun compensating => absurd compensating outside,
      fun compensating => absurd compensating outside, List.pairwise_cons.mpr ⟨fun _ _ _ same => (nomatch same), rolling.apart⟩⟩
    simp [phase, unwritten] at entered
  | @passed _ first _ events running active agrees activation passes =>
    have stillActive : after.task.draft = false := by
      rw [effects.task]
      exact active
    by_cases compensating : state.task.status.phase = .compensating
    · have still := passes.onward (agrees.mpr compensating)
      have silent : ∀ later ∈ events ++ first, ∀ earlier, Apart later earlier := by
        rintro _ emitted _ _ rfl
        exact absurd emitted (rolling.no_start effects compensating)
      refine ⟨distinct, fun _ => still, fun _ => stillActive, fun _ a listed ready => ?_, ?_⟩
      · rw [effects.task] at listed
        exact rolling.unready compensating a listed (effects.ready_before ready)
      · exact List.pairwise_append.mpr ⟨List.pairwise_of_forall_mem_list fun later emitted earlier _ => silent later emitted earlier,
          rolling.apart, fun later emitted earlier _ => silent later emitted earlier⟩
    · have unwritten := rolling.unwritten running compensating
      have other : Event.wrote .compensating ∉ first := by
        rcases activation with rfl | rfl
        · exact List.not_mem_nil
        · intro same
          exact compensating (agrees.mp (Event.wrote.inj (List.mem_singleton.mp same)).symm)
      refine ⟨distinct, fun entered => .inl (passes.entered ?_), fun _ => stillActive, fun now a listed ready => ?_, ?_⟩
      · simpa [other, unwritten] using entered
      · rw [effects.task] at listed
        have eligible := eligible_of_ready permitted (effects.ready_before ready)
        have present : (after.objects (childName state.task.name a.name)).isSome :=
          passes.complete (mt agrees.mp compensating) now a listed eligible
        have absent : (after.objects (childName after.task.name a.name)).isNone := ready.2.1
        rw [effects.task] at absent
        exact absurd (Option.isNone_iff_eq_none.mp absent) (Option.isSome_iff_ne_none.mp present)
      · refine List.pairwise_append.mpr ⟨passes.apart other, rolling.apart, fun later _ earlier emitted _ _ same => ?_⟩
        exact unwritten (same ▸ emitted)

theorem Rolling.move (rolling : Rolling history state) (distinct : (after.task.actions.map FleetTaskAction.name).Nodup)
    (status : after.task.status = state.task.status)
    (draft : state.task.status.phase = .compensating → after.task.draft = false)
    (unready : state.task.status.phase = .compensating →
      ∀ a ∈ after.task.actions, Ready after a → a ∈ state.task.actions ∧ Ready state a) : Rolling history after where
  distinct := distinct
  undoing written := by
    rw [status]
    exact rolling.undoing written
  active compensating := draft (status ▸ compensating)
  unready compensating a listed ready := by
    rw [status] at compensating
    obtain ⟨before, was⟩ := unready compensating a listed ready
    exact rolling.unready compensating a before was
  apart := rolling.apart

theorem Rolling.step {label : Label} (rolling : Rolling history state) (permitted : Settling history state label)
    (taken : step state label = some (after, events)) : Rolling (events ++ history) after := by
  have distinct := step_distinct rolling.distinct taken
  cases label with
  | pass => exact rolling.pass permitted (step_pass rolling.distinct taken)
  | setDraft =>
    cases taken
    refine rolling.move distinct rfl permitted fun compensating a listed ready => ⟨listed, ready⟩
  | report | create | append =>
    simp only [Settling, taken] at permitted
    simp only [Saga.step] at taken
    split at taken <;> try contradiction
    cases taken
    exact rolling.move distinct rfl rolling.active permitted
  | delete | desire =>
    cases taken
    exact rolling.move distinct rfl rolling.active permitted

/-- Once Compensating was written, no member is started. -/
theorem no_forward_work (fresh : Fresh start) (run : sagaRuns.Reaches Settling start history state) :
    history.Pairwise Apart :=
  (run.invariant Rolling (Rolling.initial fresh) fun _ rolling permitted taken => rolling.step permitted taken).apart

/-- `lift` has an undo, `next` waits for `first`, and `other` is to fail. -/
def relayTask : FleetTask where
  name := "t"
  uid := "u"
  actions := [{ name := "lift", compensation := some {} }, { name := "first" }, { name := "other" },
    { name := "next", dependsOn := ["first"] }]
  failurePolicy := .compensate

def relay : State := { task := relayTask, objects := fun _ => none }

theorem relay_fresh : Fresh relay := ⟨by decide, rfl, fun _ _ absent => nomatch absent⟩

def reporting (phase : ActionPhase) : FleetAction := { name := "", created := 0, phase := phase }

def relayRun (phase : ActionPhase) : List Label :=
  [.pass {}, .report "t-lift" (reporting .succeeded), .report "t-other" (reporting .failed), .pass {},
    .report "t-first" (reporting phase), .pass {}]

theorem no_forward_work_relay : ∃ history state, sagaRuns.Reaches Settling relay history state ∧
    .wrote .compensating ∈ history ∧ history.Pairwise Apart := by
  have ran : (sagaRuns.run (relay, []) (relayRun .cancelled)).map (fun config => decide (.wrote .compensating ∈ config.2)) =
      some true := by decide +kernel
  have permitted : sagaRuns.Permitted Settling (relay, []) (relayRun .cancelled) := by decide +kernel
  obtain ⟨state, history, reached, written⟩ := Machine.run_reaches_reading permitted ran
  exact ⟨history, state, reached, of_decide_eq_true written, no_forward_work relay_fresh reached⟩

/-- `first` succeeds before its cancel reaches it, and the compensating task starts `next`. -/
theorem next_starts_while_compensating : ∃ history state, Fresh relay ∧
    sagaRuns.Reaches Machine.unrestricted relay history state ∧
      ∃ later earlier, history = later ++ .started "next" :: earlier ∧ .wrote .compensating ∈ earlier := by
  have ran : (sagaRuns.run (relay, []) (relayRun .succeeded)).map Prod.snd =
      some [.wrote .compensating, .started "next", .wrote .compensating, .undone "lift", .wrote .running, .started "other",
        .started "lift", .started "first"] := by decide +kernel
  obtain ⟨state, _, reached, rfl⟩ := Machine.run_reaches_reading (Machine.permitted_unrestricted _ _ _) ran
  exact ⟨_, state, relay_fresh, reached, [.wrote .compensating], _, rfl, by decide⟩

def firstDone : State :=
  { relay with objects := fun name => if name = "t-first" then some ⟨"u", reporting .succeeded⟩ else none }

theorem need_le (a : FleetTaskAction) : a.need ≤ startRank .succeeded := by
  unfold FleetTaskAction.need
  cases a.startCondition <;> decide

/-- On an accepted graph, once all children have succeeded, there is a member to create while one is left. -/
theorem toCreate_of_valid (valid : validateGraph task.actions = none)
    (done : ∀ member child, childrenOf task objects member = some child → child.phase = .succeeded)
    (free : ∀ a ∈ task.actions, taken task objects (childName task.name a.name) = false ∧ a.trigger ≠ .onEvent)
    (left : a ∈ task.actions) (unmade : childrenOf task objects a.name = none) : toCreate task objects ≠ [] := by
  obtain ⟨known, acyclic⟩ := validateGraph_eq_none_iff.mp valid
  let waiting := task.actions.filter fun a => (childrenOf task objects a.name).isNone
  have reversed : Acyclic fun b => waiting.filter fun a => b.name ∈ a.dependsOn := by
    intro node around
    refine acyclic node.name (Relation.transGen_swap.mp (around.lift FleetTaskAction.name fun b a edge => ?_))
    obtain ⟨among, depends⟩ := List.mem_filter.mp edge
    exact mem_edges.mpr ⟨a, List.mem_of_mem_filter among, rfl, of_decide_eq_true depends⟩
  have nonempty : waiting ≠ [] := List.ne_nil_of_mem (List.mem_filter.mpr ⟨left, by simp [unmade]⟩)
  -- a member that waits for no other left
  obtain ⟨b, among, first⟩ := reversed.exists_first nonempty
  obtain ⟨listed, missing⟩ := List.mem_filter.mp among
  have met : dependenciesMet b (childrenOf task objects) = true := by
    refine dependenciesMet_iff.mpr fun dep depends => ?_
    cases read : childrenOf task objects dep with
    | none =>
      obtain ⟨c, cIn, rfl⟩ := List.mem_map.mp (known b listed dep depends)
      have waits : c ∈ waiting := List.mem_filter.mpr ⟨cIn, by simp [read]⟩
      exact absurd (List.mem_filter.mpr ⟨among, decide_eq_true depends⟩) (first c waits)
    | some child => exact ⟨child, rfl, done dep child read ▸ need_le b⟩
  refine List.ne_nil_of_mem (mem_toCreate.mpr ⟨listed, ?_⟩)
  simp [eligible, missing, met, free b listed]

theorem toCreate_of_valid_relay : toCreate relayTask relay.objects ≠ [] :=
  toCreate_of_valid (by decide +kernel) (fun _ _ read => by simp [childrenOf, relay] at read) (by decide)
    (show { name := "first" } ∈ relayTask.actions by decide) rfl

end Swarmada.Saga
