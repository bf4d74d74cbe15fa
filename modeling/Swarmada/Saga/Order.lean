import Swarmada.Saga.Passes

namespace Swarmada.Saga

open Api Transition
open TaskController (isTerminal childName compChildName childName_inj compChildName_eq)

/-- A member between one that has an undo and a further one has an undo as well, and the further one
starts on its success. -/
def Handed (actions : List FleetTaskAction) : Prop :=
  ∀ a ∈ actions, ∀ b ∈ actions, ∀ c ∈ actions, a.compensation.isSome = true → a.name ∈ b.dependsOn → b.name ∈ c.dependsOn →
    b.compensation.isSome = true ∧ c.need = startRank .succeeded

/-- No member has the name of an undo. -/
def UndoNamesFree (actions : List FleetTaskAction) : Prop :=
  ∀ a ∈ actions, ∀ b ∈ actions, b.name ≠ a.name ++ "-comp"

def Event.isUndo : Event → Bool
  | .undone _ => true
  | _ => false

/-- What a FleetAction may report: success is final, and from the first undo on every end is. -/
def Lasting (history : List Event) (before after : ActionPhase) : Prop :=
  (before = .succeeded → after = .succeeded) ∧
    (history.any Event.isUndo = true → isTerminal before = true → after = before)

instance (history : List Event) (before after : ActionPhase) : Decidable (Lasting history before after) :=
  inferInstanceAs (Decidable (_ ∧ _))

/-- Ends last, the task's FleetActions are not deleted, and members are appended only before the
first undo. -/
def Orderly (history : List Event) (state : State) : Label → Prop
  | .report name reported => ∀ object ∈ state.objects name, object.controller = state.task.uid →
      Lasting history object.action.phase reported.phase
  | .delete name => ∀ object ∈ state.objects name, object.controller ≠ state.task.uid
  | .append actions => history.any Event.isUndo = false ∧ Handed (state.task.actions ++ actions) ∧
      UndoNamesFree (state.task.actions ++ actions)
  | _ => True

instance (actions : List FleetTaskAction) : Decidable (Handed actions) :=
  inferInstanceAs (Decidable (∀ a ∈ actions, ∀ b ∈ actions, ∀ c ∈ actions, _ → _ → _ → _ ∧ _))

instance (actions : List FleetTaskAction) : Decidable (UndoNamesFree actions) :=
  inferInstanceAs (Decidable (∀ a ∈ actions, ∀ b ∈ actions, _))

instance (history : List Event) (state : State) : ∀ label, Decidable (Orderly history state label)
  | .report _ _ | .delete _ | .append _ => by unfold Orderly; infer_instance
  | .pass _ | .create _ _ | .desire _ | .setDraft _ => isTrue trivial

variable {answers : Answers} {state after start : State} {events history : List Event} {a b c : FleetTaskAction}
  {task : FleetTask} {objects before later : Objects} {member name dep : String}

theorem any_isUndo (undone : .undone member ∈ history) : history.any Event.isUndo = true :=
  List.any_eq_true.mpr ⟨_, undone, rfl⟩

theorem phase_of_startRank (reached : startRank .succeeded ≤ startRank phase) : phase = .succeeded := by
  cases phase <;> first | rfl | exact absurd reached (by decide)

theorem named_unique (distinct : (task.actions.map FleetTaskAction.name).Nodup) (first : a ∈ task.actions)
    (second : b ∈ task.actions) (same : a.name = b.name) : a = b := by
  have found := find_named distinct first
  rw [same, find_named distinct second, Option.some.injEq] at found
  exact found.symm

def Owned (task : FleetTask) (objects : Objects) (name : String) (holds : ActionPhase → Prop) : Prop :=
  ∃ object, objects name = some object ∧ object.controller = task.uid ∧ holds object.action.phase

structure Ordered (history : List Event) (state : State) : Prop where
  distinct : (state.task.actions.map FleetTaskAction.name).Nodup
  handed : Handed state.task.actions
  free : UndoNamesFree state.task.actions
  traced : ∀ name, Owned state.task state.objects name (fun _ => True) → ∃ a ∈ state.task.actions,
    name = childName state.task.name a.name ∧ .started a.name ∈ history ∨
      name = compChildName state.task.name a.name ∧ .undone a.name ∈ history
  started : ∀ member, .started member ∈ history → ∃ a ∈ state.task.actions, a.name = member ∧
    Owned state.task state.objects (childName state.task.name member) fun _ => True
  order : ∀ c ∈ state.task.actions, .started c.name ∈ history → ∀ dep ∈ c.dependsOn, .started dep ∈ history ∧
    (c.need = startRank .succeeded → Owned state.task state.objects (childName state.task.name dep) (· = .succeeded))
  undone : ∀ member, .undone member ∈ history → ∃ a, a.name = member ∧ MayUndo state.task state.objects a

namespace Ordered

theorem initial (fresh : Fresh start) (handed : Handed start.task.actions) (free : UndoNamesFree start.task.actions) :
    Ordered [] start where
  distinct := fresh.distinct
  handed := handed
  free := free
  traced name owned := by
    obtain ⟨object, found, controller, _⟩ := owned
    exact absurd controller (fresh.childless name object found)
  started _ absent := absurd absent List.not_mem_nil
  order _ _ absent := absurd absent List.not_mem_nil
  undone _ absent := absurd absent List.not_mem_nil

variable (ordered : Ordered history state)
include ordered

theorem started_of_child (known : member ∈ state.task.actions.map FleetTaskAction.name)
    (owned : Owned state.task state.objects (childName state.task.name member) fun _ => True) : .started member ∈ history := by
  obtain ⟨a, listed, ⟨same, _⟩ | ⟨same, _⟩⟩ := ordered.traced _ owned
  · rwa [childName_inj same]
  obtain ⟨b, member, rfl⟩ := List.mem_map.mp known
  rw [compChildName_eq] at same
  exact absurd (childName_inj same) (ordered.free a listed b member)

theorem undone_of_undo (listed : b ∈ state.task.actions)
    (owned : Owned state.task state.objects (compChildName state.task.name b.name) fun _ => True) :
    .undone b.name ∈ history := by
  rw [compChildName_eq] at owned
  obtain ⟨a, member, ⟨same, _⟩ | ⟨same, _⟩⟩ := ordered.traced _ owned
  · exact absurd (childName_inj same).symm (ordered.free b listed a member)
  rw [compChildName_eq] at same
  have names := TaskController.append_right_inj (childName_inj same)
  rwa [names]

theorem started_back
    (path : Relation.ReflTransGen (fun a b => a ∈ edges state.task.actions b) far near) (started : .started near ∈ history) :
    .started far ∈ history := by
  induction path with
  | refl => exact started
  | tail _ edge ih =>
    obtain ⟨c, listed, rfl, depends⟩ := mem_edges.mp edge
    exact ih (ordered.order c listed started _ depends).1

theorem settled (listed : c ∈ state.task.actions) (started : .started c.name ∈ history)
    (path : Relation.TransGen (fun a b => a ∈ edges state.task.actions b) member c.name) (undone : .undone member ∈ history) :
    Settled state.task state.objects c := by
  induction path using Relation.TransGen.head_induction_on with
  | single edge =>
    obtain ⟨m, mIn, same, depends⟩ := mem_edges.mp edge
    obtain rfl := named_unique ordered.distinct mIn listed same
    obtain ⟨a, rfl, _, _, dependents⟩ := ordered.undone _ undone
    exact dependents m mIn depends
  | head edge beyond ih =>
    obtain ⟨b, bIn, rfl, depends⟩ := mem_edges.mp edge
    obtain ⟨a, rfl, aIn, declares, dependents⟩ := ordered.undone _ undone
    -- the next member on the way was started on the success of `b`
    obtain ⟨_, nextEdge, rest⟩ := Relation.TransGen.head'_iff.mp beyond
    obtain ⟨d, dIn, rfl, dDepends⟩ := mem_edges.mp nextEdge
    obtain ⟨undoable, strict⟩ := ordered.handed a aIn b bIn d dIn declares depends dDepends
    obtain ⟨child, found, _, success⟩ := (ordered.order d dIn (ordered.started_back rest started) b.name dDepends).2 strict
    obtain ⟨same, sameFound, _, _, undo⟩ := dependents b bIn depends
    rw [found, Option.some.injEq] at sameFound
    subst sameFound
    obtain ⟨object, undoFound, owned, _⟩ := undo success undoable
    exact ih (ordered.undone_of_undo bIn ⟨object, undoFound, owned, trivial⟩)

end Ordered

theorem Owned.grown (owned : Owned task before name holds) (grown : Grown task events before later) :
    Owned task later name holds := by
  obtain ⟨_, found, controller, phase⟩ := owned
  obtain ⟨new, now, sameController, samePhase⟩ := grown.found found
  exact ⟨new, now, sameController.trans controller, samePhase ▸ phase⟩

theorem Ordered.pass (ordered : Ordered history state) (effects : Effects answers state after events) :
    Ordered (events ++ history) after := by
  obtain ⟨task, grown, chosen, undoes⟩ := effects
  have made : ∀ event ∈ events, ∀ name, event.makes state.task = some name →
      Owned state.task after.objects name fun _ => True := by
    intro event emitted name makes
    obtain ⟨absent, present⟩ := grown.backed event emitted name makes
    obtain ⟨object, found⟩ := Option.isSome_iff_exists.mp present
    have outlines := (grown.made name object absent found).1
    rw [Object.outline, Prod.mk.injEq] at outlines
    exact ⟨object, found, outlines.1, trivial⟩
  refine ⟨?_, ?_, ?_, ?_, ?_, ?_, ?_⟩ <;> rw [task]
  · exact ordered.distinct
  · exact ordered.handed
  · exact ordered.free
  · rintro name ⟨object, found, controller, _⟩
    cases was : state.objects name with
    | some old =>
      obtain ⟨_, now, sameController, _⟩ := grown.found was
      rw [found, Option.some.injEq] at now
      subst now
      obtain ⟨a, listed, traced⟩ := ordered.traced name ⟨old, was, sameController ▸ controller, trivial⟩
      exact ⟨a, listed, traced.imp (And.imp_right (List.mem_append_right events)) (And.imp_right (List.mem_append_right events))⟩
    | none =>
      obtain ⟨_, event, emitted, makes⟩ := grown.made name object was found
      cases event with
      | started member =>
        obtain ⟨a, listed, rfl, _⟩ := chosen member emitted
        exact ⟨a, listed, .inl ⟨(Option.some.inj makes).symm, List.mem_append_left _ emitted⟩⟩
      | undone member =>
        obtain ⟨a, rfl, listed, _⟩ := undoes member emitted
        exact ⟨a, listed, .inr ⟨(Option.some.inj makes).symm, List.mem_append_left _ emitted⟩⟩
      | wrote => contradiction
  · intro member emitted
    rcases List.mem_append.mp emitted with now | earlier
    · obtain ⟨a, listed, named, _⟩ := chosen member now
      exact ⟨a, listed, named, made _ now _ rfl⟩
    · obtain ⟨a, listed, named, owned⟩ := ordered.started member earlier
      exact ⟨a, listed, named, owned.grown grown⟩
  · intro c listed emitted dep depends
    rcases List.mem_append.mp emitted with now | earlier
    · obtain ⟨_, sameListed, named, may⟩ := chosen c.name now
      obtain rfl := named_unique ordered.distinct sameListed listed named
      simp only [eligible, Bool.and_eq_true] at may
      obtain ⟨_, read, reached⟩ := dependenciesMet_iff.mp may.2 dep depends
      obtain ⟨known, object, found, owned, rfl⟩ := childrenOf_eq_some read
      have found := shown_eq_some found
      refine ⟨List.mem_append_right _ (ordered.started_of_child known ⟨object, found, owned, trivial⟩), fun strict => ?_⟩
      have success : Owned state.task state.objects (childName state.task.name dep) (· = .succeeded) :=
        ⟨object, found, owned, phase_of_startRank (strict ▸ reached)⟩
      exact success.grown grown
    · obtain ⟨started, owned⟩ := ordered.order c listed earlier dep depends
      exact ⟨List.mem_append_right _ started, fun strict => (owned strict).grown grown⟩
  · intro member emitted
    rcases List.mem_append.mp emitted with now | earlier
    · exact undoes member now
    · obtain ⟨a, named, may⟩ := ordered.undone member earlier
      exact ⟨a, named, may.grown grown⟩

/-- The task's objects before and after a move that is orderly. -/
structure Keeps (history : List Event) (task : FleetTask) (before after : Objects) : Prop where
  kept : ∀ name object, before name = some object → object.controller = task.uid →
    ∃ new, after name = some new ∧ new.controller = task.uid ∧ Lasting history object.action.phase new.action.phase
  old : ∀ name object, after name = some object → object.controller = task.uid →
    ∃ was, before name = some was ∧ was.controller = task.uid

theorem Owned.kept {holds : ActionPhase → Prop} (owned : Owned task before name holds) (keeps : Keeps history task before later)
    (lasting : ∀ {phase after}, holds phase → Lasting history phase after → holds after) : Owned task later name holds := by
  obtain ⟨object, found, controller, phase⟩ := owned
  obtain ⟨new, now, sameController, lasts⟩ := keeps.kept name object found controller
  exact ⟨new, now, sameController, lasting phase lasts⟩

theorem Settled.kept (settled : Settled task before b) (keeps : Keeps history task before later)
    (undoing : history.any Event.isUndo = true) : Settled task later b := by
  obtain ⟨child, found, controller, terminal, undone⟩ := settled
  obtain ⟨new, now, sameController, lasts⟩ := keeps.kept _ child found controller
  have same := lasts.2 undoing terminal
  refine ⟨new, now, sameController, same ▸ terminal, fun succeeded declares => ?_⟩
  have undo : Owned task before (compChildName task.name b.name) (· = .succeeded) := undone (same ▸ succeeded) declares
  exact undo.kept keeps fun done lasts => lasts.1 done

theorem Ordered.keeps (ordered : Ordered history state) (keeps : Keeps history state.task state.objects later) :
    Ordered history { state with objects := later } where
  distinct := ordered.distinct
  handed := ordered.handed
  free := ordered.free
  traced name owned := by
    obtain ⟨object, found, controller, _⟩ := owned
    obtain ⟨was, before, owned⟩ := keeps.old name object found controller
    exact ordered.traced name ⟨was, before, owned, trivial⟩
  started member emitted := by
    obtain ⟨a, listed, named, owned⟩ := ordered.started member emitted
    exact ⟨a, listed, named, owned.kept keeps fun _ _ => trivial⟩
  order c listed emitted dep depends := by
    obtain ⟨started, owned⟩ := ordered.order c listed emitted dep depends
    exact ⟨started, fun strict => (owned strict).kept keeps fun done lasts => lasts.1 done⟩
  undone member emitted := by
    obtain ⟨a, named, listed, declares, dependents⟩ := ordered.undone member emitted
    exact ⟨a, named, listed, declares, fun b bIn depends => (dependents b bIn depends).kept keeps (any_isUndo emitted)⟩

theorem Keeps.update
    (kept : ∀ object, objects name = some object → object.controller = task.uid →
      ∃ new, value = some new ∧ new.controller = task.uid ∧ Lasting history object.action.phase new.action.phase)
    (old : ∀ object, value = some object → object.controller = task.uid →
      ∃ was, objects name = some was ∧ was.controller = task.uid) :
    Keeps history task objects (Function.update objects name value) where
  kept other object found controller := by
    by_cases same : other = name
    · subst same
      rw [Function.update_self]
      exact kept object found controller
    · rw [Function.update_of_ne same]
      exact ⟨object, found, controller, id, fun _ _ => rfl⟩
  old other object found controller := by
    by_cases same : other = name
    · subst same
      rw [Function.update_self] at found
      exact old object found controller
    · rw [Function.update_of_ne same] at found
      exact ⟨object, found, controller⟩

theorem Ordered.append (ordered : Ordered history state)
    (distinct : ((state.task.actions ++ actions).map FleetTaskAction.name).Nodup)
    (permitted : Orderly history state (.append actions)) :
    Ordered history { state with task := { state.task with actions := state.task.actions ++ actions } } where
  distinct := distinct
  handed := permitted.2.1
  free := permitted.2.2
  traced name owned := by
    obtain ⟨a, listed, traced⟩ := ordered.traced name owned
    exact ⟨a, List.mem_append_left _ listed, traced⟩
  started member emitted := by
    obtain ⟨a, listed, named, owned⟩ := ordered.started member emitted
    exact ⟨a, List.mem_append_left _ listed, named, owned⟩
  order c listed emitted := by
    obtain ⟨a, member, named, _⟩ := ordered.started c.name emitted
    have same := @named_unique a c { state.task with actions := state.task.actions ++ actions } distinct
      (List.mem_append_left _ member) listed named
    subst same
    exact ordered.order a member emitted
  undone member emitted := by
    have undoing := any_isUndo emitted
    rw [permitted.1] at undoing
    contradiction

theorem Ordered.step {label : Label} (ordered : Ordered history state) (permitted : Orderly history state label)
    (taken : step state label = some (after, events)) : Ordered (events ++ history) after := by
  cases label with
  | pass => exact ordered.pass (step_pass ordered.distinct taken).effects
  | report =>
    simp only [Saga.step] at taken
    split at taken <;> try contradiction
    rename_i object found
    cases taken
    refine ordered.keeps (Keeps.update (fun same sameFound controller => ?_) fun new now controller => ?_)
    · rw [found, Option.some.injEq] at sameFound
      subst sameFound
      exact ⟨_, rfl, controller, permitted object found controller⟩
    · cases now
      exact ⟨object, found, controller⟩
  | create =>
    simp only [Saga.step] at taken
    split at taken <;> try contradiction
    rename_i allowed
    obtain ⟨absent, foreign⟩ := not_or.mp allowed
    cases taken
    refine ordered.keeps (Keeps.update (fun old found _ => ?_) fun new now controller => ?_)
    · rw [found] at absent
      contradiction
    · cases now
      exact absurd controller foreign
  | delete =>
    cases taken
    refine ordered.keeps (Keeps.update (fun old found controller => ?_) fun new now _ => by contradiction)
    exact absurd controller (permitted old found)
  | append =>
    simp only [Saga.step] at taken
    split at taken <;> try contradiction
    rename_i distinct
    cases taken
    exact ordered.append distinct permitted
  | desire | setDraft =>
    cases taken
    exact ⟨ordered.distinct, ordered.handed, ordered.free, ordered.traced, ordered.started, ordered.order, ordered.undone⟩

/-- Whatever was started beyond an undone member is terminal, and undone itself when it had to be. -/
theorem undo_in_reverse_order (fresh : Fresh start) (handed : Handed start.task.actions)
    (free : UndoNamesFree start.task.actions) (run : sagaRuns.Reaches Orderly start history state)
    (undone : .undone member ∈ history) (listed : c ∈ state.task.actions) (started : .started c.name ∈ history)
    (beyond : Relation.TransGen (fun a b => a ∈ edges state.task.actions b) member c.name) :
    Settled state.task state.objects c :=
  (run.invariant Ordered (Ordered.initial fresh handed free) fun _ ordered permitted taken =>
    ordered.step permitted taken).settled listed started beyond undone

/-- `shelve` depends on `carry` and `carry` on `lift`; `carry` may have no undo. -/
def chainTask (undo : Option ActionSpec) : FleetTask where
  name := "t"
  uid := "u"
  actions := [{ name := "lift", compensation := some {} }, { name := "carry", dependsOn := ["lift"], compensation := undo },
    { name := "shelve", dependsOn := ["carry"], compensation := some {} }, { name := "other" }]
  failurePolicy := .compensate

def chain (undo : Option ActionSpec) : State := { task := chainTask undo, objects := fun _ => none }

theorem chain_fresh (undo : Option ActionSpec) : Fresh (chain undo) := by
  refine ⟨?_, rfl, fun _ _ absent => nomatch absent⟩
  change ["lift", "carry", "shelve", "other"].Nodup
  decide

def succeedsThenPass (name : String) : List Label :=
  [.report name { name := "", created := 0, phase := .succeeded }, .pass {}]

def chainRun (undos : List String) : List Label :=
  [.pass {}] ++ ["t-lift", "t-carry"].flatMap succeedsThenPass ++
    [.report "t-other" { name := "", created := 0, phase := .failed }] ++ (["t-shelve"] ++ undos).flatMap succeedsThenPass

theorem chain_beyond (actions : state.task.actions = (chainTask undo).actions) :
    Relation.TransGen (fun a b => a ∈ edges state.task.actions b) "lift" "shelve" := by
  rw [actions]
  exact .tail (.single (show "lift" ∈ edges (chainTask undo).actions "carry" by simp [edges, chainTask]))
    (by simp [edges, chainTask])

theorem undo_in_reverse_order_chain : ∃ history state, sagaRuns.Reaches Orderly (chain (some {})) history state ∧
    .undone "lift" ∈ history ∧ .started "shelve" ∈ history ∧
      Settled state.task state.objects { name := "shelve", dependsOn := ["carry"], compensation := some {} } := by
  have ran : (sagaRuns.run (chain (some {}), []) (chainRun ["t-shelve-comp", "t-carry-comp"])).map
      (fun config => decide (.undone "lift" ∈ config.2 ∧ .started "shelve" ∈ config.2 ∧
        config.1.task.actions = (chainTask (some {})).actions)) = some true := by decide +kernel
  have permitted : sagaRuns.Permitted Orderly (chain (some {}), []) (chainRun ["t-shelve-comp", "t-carry-comp"]) := by
    decide +kernel
  obtain ⟨state, history, reached, read⟩ := Machine.run_reaches_reading permitted ran
  obtain ⟨undone, started, actions⟩ := of_decide_eq_true read
  have listed : { name := "shelve", dependsOn := ["carry"], compensation := some {} } ∈ state.task.actions := by
    rw [actions]
    decide
  exact ⟨history, state, reached, undone, started, undo_in_reverse_order (chain_fresh _) (by decide) (by decide) reached
    undone listed started (chain_beyond actions)⟩

def LiftFirst (config : State × List Event) : Prop :=
  .undone "lift" ∈ config.2 ∧ .started "shelve" ∈ config.2 ∧ config.1.task.actions = (chainTask none).actions ∧
    (config.1.objects (childName config.1.task.name "shelve")).map (·.action.phase) = some .succeeded ∧
    (config.1.objects (compChildName config.1.task.name "shelve")).map (·.action.phase) = some .unset

instance (config : State × List Event) : Decidable (LiftFirst config) :=
  inferInstanceAs (Decidable (_ ∧ _ ∧ _ ∧ _ ∧ _))

/-- `lift` is undone in the pass in which the undo of `shelve` is only created. -/
theorem lift_undone_before_shelve : ∃ history state, Fresh (chain none) ∧
    sagaRuns.Reaches Machine.unrestricted (chain none) history state ∧ .undone "lift" ∈ history ∧
      .started "shelve" ∈ history ∧ Relation.TransGen (fun a b => a ∈ edges state.task.actions b) "lift" "shelve" ∧
      ¬ Settled state.task state.objects { name := "shelve", dependsOn := ["carry"], compensation := some {} } := by
  have ran : (sagaRuns.run (chain none, []) (chainRun [])).map (fun config => decide (LiftFirst config)) = some true := by
    decide +kernel
  obtain ⟨state, history, reached, read⟩ := Machine.run_reaches_reading (Machine.permitted_unrestricted _ _ _) ran
  obtain ⟨undone, started, actions, child, undo⟩ := of_decide_eq_true read
  refine ⟨history, state, chain_fresh none, reached, undone, started, chain_beyond actions, ?_⟩
  rintro ⟨_, found, _, _, needs⟩
  rw [found, Option.map_some, Option.some.injEq] at child
  obtain ⟨_, undoFound, _, done⟩ := needs child rfl
  rw [undoFound, Option.map_some, Option.some.injEq, done] at undo
  exact absurd undo (by decide)

end Swarmada.Saga
