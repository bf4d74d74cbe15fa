import Swarmada.Saga.Reconcile

namespace Swarmada.Saga

open Api Transition
open TaskController (FleetTaskPhase isTerminal isGroupTerminal childName compChildName)

def Object.outline (object : Object) : String × ActionPhase := (object.controller, object.action.phase)

def Event.makes (task : FleetTask) : Event → Option String
  | .started member => some (childName task.name member)
  | .undone member => some (compChildName task.name member)
  | .wrote _ => none

variable (members : List FleetTaskAction)

def starts : List Event := members.map fun a => .started a.name

def undos : List Event := members.map fun a => .undone a.name

structure Grown (task : FleetTask) (events : List Event) (before after : Objects) : Prop where
  kept : ∀ name object, before name = some object → (after name).map Object.outline = some object.outline
  made : ∀ name object, before name = none → after name = some object →
    object.outline = (task.uid, .unset) ∧ ∃ event ∈ events, event.makes task = some name
  backed : ∀ event ∈ events, ∀ name, event.makes task = some name → before name = none ∧ (after name).isSome

variable {task : FleetTask} {answers : Answers} {events earlier later : List Event} {objects before middle after : Objects}
  {name member : String} {object : Object} {children : Children} {made : Made} {a b : FleetTaskAction}

namespace Grown

theorem refl : Grown task [] objects objects where
  kept _ _ found := by rw [found]; rfl
  made _ _ absent found := by rw [absent] at found; contradiction
  backed _ absent := absurd absent List.not_mem_nil

theorem of_outlines (same : ∀ name, (after name).map Object.outline = (before name).map Object.outline) :
    Grown task [] before after where
  kept name object found := by rw [same, found]; rfl
  made name object absent found := by
    have outlines := same name
    rw [absent, found] at outlines
    contradiction
  backed _ absent := absurd absent List.not_mem_nil

theorem found (grown : Grown task events before after) (old : before name = some object) :
    ∃ new, after name = some new ∧ new.controller = object.controller ∧ new.action.phase = object.action.phase := by
  obtain ⟨new, now, outlines⟩ := Option.map_eq_some_iff.mp (grown.kept name object old)
  rw [Object.outline, Object.outline, Prod.mk.injEq] at outlines
  exact ⟨new, now, outlines⟩

theorem of_phase (grown : Grown task events before after) (now : after name = some object)
    (reported : object.action.phase ≠ .unset) :
    ∃ old, before name = some old ∧ old.controller = object.controller ∧ old.action.phase = object.action.phase := by
  cases found : before name with
  | none =>
    have outlines := (grown.made name object found now).1
    rw [Object.outline, Prod.mk.injEq] at outlines
    exact absurd outlines.2 reported
  | some old =>
    obtain ⟨_, same, controller, phase⟩ := grown.found found
    rw [now, Option.some.injEq] at same
    subst same
    exact ⟨old, rfl, controller.symm, phase.symm⟩

theorem trans (first : Grown task earlier before middle) (second : Grown task later middle after) :
    Grown task (later ++ earlier) before after where
  kept name object old := by
    obtain ⟨new, now, controller, phase⟩ := first.found old
    rw [second.kept name new now, Object.outline, Object.outline, controller, phase]
  made name object absent now := by
    cases found : middle name with
    | none =>
      obtain ⟨outlines, event, emitted, makes⟩ := second.made name object found now
      exact ⟨outlines, event, List.mem_append_left _ emitted, makes⟩
    | some new =>
      obtain ⟨outlines, event, emitted, makes⟩ := first.made name new absent found
      have kept := second.kept name new found
      rw [now, Option.map_some, Option.some.injEq] at kept
      exact ⟨kept.trans outlines, event, List.mem_append_right _ emitted, makes⟩
  backed event emitted name makes := by
    rcases List.mem_append.mp emitted with recent | old
    · obtain ⟨absent, present⟩ := second.backed event recent name makes
      refine ⟨?_, present⟩
      cases found : before name with
      | none => rfl
      | some =>
        obtain ⟨_, now, _⟩ := first.found found
        rw [absent] at now
        contradiction
    · obtain ⟨absent, present⟩ := first.backed event old name makes
      obtain ⟨_, found⟩ := Option.isSome_iff_exists.mp present
      obtain ⟨_, now, _⟩ := second.found found
      exact ⟨absent, by rw [now]; rfl⟩

theorem create {event : Event} {child : FleetAction} (makes : event.makes task = some name) (absent : objects name = none)
    (unset : child.phase = .unset) : Grown task [event] objects (Function.update objects name (some ⟨task.uid, child⟩)) where
  kept other object found := by
    have distinct : other ≠ name := by
      rintro rfl
      rw [absent] at found
      contradiction
    rw [Function.update_of_ne distinct, found]
    rfl
  made other object missing found := by
    by_cases same : other = name
    · subst same
      rw [Function.update_self, Option.some.injEq] at found
      subst found
      exact ⟨by rw [Object.outline, unset], event, List.mem_singleton_self event, makes⟩
    · rw [Function.update_of_ne same, missing] at found
      contradiction
  backed other emitted named makesNamed := by
    rw [List.mem_singleton] at emitted
    subst emitted
    rw [makes, Option.some.injEq] at makesNamed
    subst makesNamed
    exact ⟨absent, by rw [Function.update_self]; rfl⟩

end Grown

def Backed (task : FleetTask) (children : Children) (objects : Objects) : Prop :=
  ∀ member child, children member = some child → member ∈ task.actions.map FleetTaskAction.name ∧
    ∃ object, objects (childName task.name member) = some object ∧ object.controller = task.uid ∧
      object.action.phase = child.phase

theorem childrenOf_eq_some (read : childrenOf task objects member = some child) :
    member ∈ task.actions.map FleetTaskAction.name ∧
      ∃ object, objects (childName task.name member) = some object ∧ object.controller = task.uid ∧ object.action = child := by
  unfold childrenOf at read
  split at read <;> try contradiction
  rename_i known
  obtain ⟨object, found, same⟩ := Option.map_eq_some_iff.mp read
  obtain ⟨found, owned⟩ := Option.filter_eq_some_iff.mp found
  exact ⟨known, object, found, by simpa using owned, same⟩

theorem childrenOf_of_owned (known : member ∈ task.actions.map FleetTaskAction.name)
    (found : objects (childName task.name member) = some object) (owned : object.controller = task.uid) :
    childrenOf task objects member = some object.action := by
  rw [childrenOf, if_pos known, found]
  simp [Option.filter, owned]

theorem shown_eq_some (shown : answers.shown objects name = some object) : objects name = some object := by
  unfold Answers.shown at shown
  split at shown <;> try contradiction
  exact shown

theorem backed_childrenOf : Backed task (childrenOf task (answers.shown objects)) objects := by
  intro member child read
  obtain ⟨known, object, found, owned, rfl⟩ := childrenOf_eq_some read
  exact ⟨known, object, shown_eq_some found, owned, rfl⟩

theorem Backed.grown (backed : Backed task children before) (grown : Grown task events before after) :
    Backed task children after := by
  intro member child read
  obtain ⟨known, _, found, owned, phase⟩ := backed member child read
  obtain ⟨new, now, controller, same⟩ := grown.found found
  exact ⟨known, new, now, controller.trans owned, same.trans phase⟩

structure Creates (task : FleetTask) (list : List FleetTaskAction) (progress : Progress) (before after : Made) : Prop where
  events : ∃ started : List FleetTaskAction, started ⊆ list ∧
    after.events = starts started ++ before.events ∧
    Grown task (starts started) before.objects after.objects
  backed : Backed task before.children before.objects → Backed task after.children after.objects
  complete : progress = .done → ∀ a ∈ list, (after.objects (childName task.name a.name)).isSome

theorem starts_concat : starts (members ++ [a]) = starts members ++ [.started a.name] :=
  List.map_append

variable {now : Nat}

theorem start_grown (absent : made.objects (childName task.name a.name) = none) :
    Grown task [.started a.name] made.objects (made.start task now a).objects :=
  Grown.create rfl absent rfl

theorem Backed.start (backed : Backed task made.children made.objects) (member : a ∈ task.actions)
    (absent : made.objects (childName task.name a.name) = none) :
    Backed task (made.start task now a).children (made.start task now a).objects := by
  intro other child read
  by_cases same : other = a.name
  · subst same
    have created : newChild task now a = child := by simpa [Made.start] using read
    exact ⟨List.mem_map_of_mem member, _, Function.update_self .., rfl, by rw [created]⟩
  · have earlier : made.children other = some child := by simpa [Made.start, same] using read
    exact (backed.grown (start_grown absent)) other child earlier

theorem createChildren_creates {list : List FleetTaskAction} (members : ∀ a ∈ list, a ∈ task.actions) (made : Made) :
    Creates task list (createChildren task answers list made).1 made (createChildren task answers list made).2 := by
  induction list generalizing made with
  | nil => exact ⟨⟨[], List.nil_subset _, rfl, Grown.refl⟩, id, fun _ _ absent => absurd absent List.not_mem_nil⟩
  | cons a rest ih =>
    have rest := ih fun b member => members b (List.mem_cons_of_mem a member)
    simp only [createChildren]
    split
    next present =>
      obtain ⟨⟨started, among, events, grown⟩, backed, complete⟩ := rest made
      refine ⟨⟨started, fun _ member => List.mem_cons_of_mem a (among member), events, grown⟩, backed, fun done => ?_⟩
      obtain ⟨_, found⟩ := Option.isSome_iff_exists.mp present
      obtain ⟨_, now, _⟩ := grown.found found
      exact List.forall_mem_cons.mpr ⟨by rw [now]; rfl, complete done⟩
    rename_i present
    have absent : made.objects (childName task.name a.name) = none := by simpa using present
    split
    · obtain ⟨⟨started, among, events, grown⟩, backed, complete⟩ := rest (made.start task answers.now a)
      refine ⟨⟨started ++ [a], ?_, ?_, ?_⟩, fun before => backed ?_, fun done => ?_⟩
      · intro b member
        rcases List.mem_append.mp member with later | this
        · exact List.mem_cons_of_mem a (among later)
        · rw [List.mem_singleton.mp this]
          exact List.mem_cons_self
      · rw [events, starts_concat, List.append_assoc]
        rfl
      · rw [starts_concat]
        exact (start_grown absent).trans grown
      · exact before.start (members a List.mem_cons_self) absent
      · obtain ⟨_, now, _⟩ := @Grown.found _ _ _ _ (childName task.name a.name) _ grown (Function.update_self ..)
        exact List.forall_mem_cons.mpr ⟨by rw [now]; rfl, complete done⟩
    · exact ⟨⟨[], List.nil_subset _, rfl, Grown.refl⟩, id, fun done => by contradiction⟩
    · exact ⟨⟨[], List.nil_subset _, rfl, Grown.refl⟩, id, fun done => by contradiction⟩

variable {reached : String → Bool} {desired : DesiredState}

theorem writtenObjects_outline (name : String) :
    (writtenObjects task reached desired children objects name).map Object.outline =
      (objects name).map Object.outline := by
  unfold writtenObjects
  generalize task.actions = actions
  induction actions generalizing objects with
  | nil => rfl
  | cons a rest ih =>
    rw [List.foldl_cons, ih]
    split
    · by_cases same : name = childName task.name a.name
      · subst same
        rw [Function.update_self, Option.map_map]
        rfl
      · rw [Function.update_of_ne same]
    · rfl

theorem writtenChildren_phase (member : String) :
    (writtenChildren reached desired children member).map FleetAction.phase = (children member).map FleetAction.phase := by
  unfold writtenChildren
  split
  · rw [Option.map_map]
    rfl
  · rfl

theorem propagate_grown : Grown task [] made.objects (propagate task reached desired made).2.objects :=
  Grown.of_outlines fun name => writtenObjects_outline name

theorem Backed.propagate (backed : Backed task made.children made.objects) :
    Backed task (Saga.propagate task reached desired made).2.children (Saga.propagate task reached desired made).2.objects := by
  intro member child read
  have phases := @writtenChildren_phase made.children reached desired member
  rw [show writtenChildren reached desired made.children member = some child from read] at phases
  obtain ⟨old, found, phase⟩ := Option.map_eq_some_iff.mp phases.symm
  obtain ⟨known, object, present, owned, same⟩ := (backed.grown propagate_grown) member old found
  exact ⟨known, object, present, owned, same.trans phase⟩

/-- The member's child is terminal, and what it has to undo is undone. -/
def Settled (task : FleetTask) (objects : Objects) (b : FleetTaskAction) : Prop :=
  ∃ child, objects (childName task.name b.name) = some child ∧ child.controller = task.uid ∧
    isTerminal child.action.phase = true ∧
    (child.action.phase = .succeeded → b.compensation.isSome = true →
      ∃ undo, objects (compChildName task.name b.name) = some undo ∧ undo.controller = task.uid ∧
        undo.action.phase = .succeeded)

theorem Settled.grown (settled : Settled task before b) (grown : Grown task events before after) :
    Settled task after b := by
  obtain ⟨_, found, owned, terminal, undone⟩ := settled
  obtain ⟨new, now, controller, phase⟩ := grown.found found
  refine ⟨new, now, controller.trans owned, phase ▸ terminal, fun succeeded declares => ?_⟩
  obtain ⟨_, undoFound, undoOwned, done⟩ := undone (phase ▸ succeeded) declares
  obtain ⟨newUndo, undoNow, undoController, undoPhase⟩ := grown.found undoFound
  exact ⟨newUndo, undoNow, undoController.trans undoOwned, undoPhase.trans done⟩

def MayUndo (task : FleetTask) (objects : Objects) (a : FleetTaskAction) : Prop :=
  a ∈ task.actions ∧ a.compensation.isSome = true ∧ ∀ b ∈ task.actions, a.name ∈ b.dependsOn → Settled task objects b

theorem MayUndo.grown (may : MayUndo task before a) (grown : Grown task events before after) : MayUndo task after a :=
  ⟨may.1, may.2.1, fun b member depends => (may.2.2 b member depends).grown grown⟩

theorem find_named (distinct : (task.actions.map FleetTaskAction.name).Nodup) (known : a ∈ task.actions) :
    (task.actions.find? fun b => b.name = a.name) = some a := by
  generalize task.actions = actions at distinct known
  induction actions with
  | nil => contradiction
  | cons first rest ih =>
    rw [List.map_cons, List.nodup_cons] at distinct
    rcases List.mem_cons.mp known with rfl | later
    · simp
    have other : first.name ≠ a.name := fun same => distinct.1 (same ▸ List.mem_map_of_mem later)
    rw [List.find?_cons_of_neg (by simpa using other)]
    exact ih distinct.2 later

theorem compPhases_named (distinct : (task.actions.map FleetTaskAction.name).Nodup) (known : a ∈ task.actions) :
    compPhases task objects children a.name = compPhaseOf task objects children a := by
  rw [compPhases, find_named distinct known]

theorem compPhaseOf_succeeded (done : compPhaseOf task objects children a = .succeeded) :
    ∃ undo, objects (compChildName task.name a.name) = some undo ∧ undo.controller = task.uid ∧
      undo.action.phase = .succeeded := by
  unfold compPhaseOf at done
  split at done <;> try contradiction
  split at done <;> try contradiction
  rename_i undo found
  split at done <;> try contradiction
  rename_i owned
  refine ⟨undo, found, not_not.mp owned, ?_⟩
  generalize undo.action.phase = phase at done ⊢
  cases phase <;> first | rfl | contradiction

theorem needsCompensation_of_pending (pending : compPhaseOf task objects children a = .pending) :
    needsCompensation a children = true := by
  unfold compPhaseOf at pending
  split at pending <;> try contradiction
  assumption

def Known (task : FleetTask) (children : Children) (objects : Objects) (compPhase : String → CompensationPhase) : Prop :=
  ∀ b ∈ task.actions,
    (compPhase b.name = .succeeded → ∃ undo, objects (compChildName task.name b.name) = some undo ∧
      undo.controller = task.uid ∧ undo.action.phase = .succeeded) ∧
    (compPhase b.name = .pending → needsCompensation b children = true)

theorem known_compPhases (distinct : (task.actions.map FleetTaskAction.name).Nodup) :
    Known task children objects (compPhases task (answers.shown objects) children) := by
  intro b member
  rw [compPhases_named distinct member]
  refine ⟨fun done => ?_, needsCompensation_of_pending⟩
  obtain ⟨undo, found, owned, succeeded⟩ := compPhaseOf_succeeded done
  exact ⟨undo, shown_eq_some found, owned, succeeded⟩

variable {compPhase : String → CompensationPhase}

theorem Known.update (known : Known task children objects compPhase)
    (member : String) : Known task children objects (Function.update compPhase member .inProgress) := by
  intro b listed
  by_cases same : b.name = member
  · rw [same, Function.update_self]
    exact ⟨by simp, by simp⟩
  · rw [Function.update_of_ne same]
    exact known b listed

theorem Known.grown (known : Known task children before compPhase)
    (grown : Grown task events before after) : Known task children after compPhase := by
  intro b listed
  refine ⟨fun done => ?_, (known b listed).2⟩
  obtain ⟨_, found, owned, succeeded⟩ := (known b listed).1 done
  obtain ⟨new, now, controller, phase⟩ := grown.found found
  exact ⟨new, now, controller.trans owned, phase.trans succeeded⟩

theorem mayUndo_of_eligible (backed : Backed task children objects)
    (known : Known task children objects compPhase) (listed : a ∈ task.actions) (pending : compPhase a.name = .pending)
    (may : compensationEligible task.actions a.name children compPhase = true) : MayUndo task objects a := by
  refine ⟨listed, (needsCompensation_iff.mp ((known a listed).2 pending)).1, fun b member depends => ?_⟩
  obtain ⟨child, read, terminal, undone⟩ := compensationEligible_iff.mp may b member depends
  obtain ⟨_, object, found, owned, phase⟩ := backed b.name child read
  refine ⟨object, found, owned, phase ▸ terminal, fun succeeded declares => ?_⟩
  exact (known b member).1 (undone (needsCompensation_iff.mpr ⟨declares, child, read, phase ▸ succeeded⟩))

theorem undos_concat : undos (members ++ [a]) = undos members ++ [.undone a.name] :=
  List.map_append

/-- The part of a pass from `before` to `after` undoes these members and writes no phase. -/
structure Undoes (task : FleetTask) (undone : List FleetTaskAction) (events : List Event) (before : Objects)
    (allEvents : List Event) (after : Objects) : Prop where
  events : allEvents = undos undone ++ events
  grown : Grown task (undos undone) before after
  allowed : ∀ a ∈ undone, MayUndo task after a

theorem Undoes.of_grown (grown : Grown task [] before after) : Undoes task [] events before events after :=
  ⟨rfl, grown, fun _ absent => absurd absent List.not_mem_nil⟩

variable {undone : List FleetTaskAction}

theorem Undoes.after_grown (grown : Grown task [] before middle)
    (undoes : Undoes task undone earlier middle later after) : Undoes task undone earlier before later after where
  events := undoes.events
  grown := List.append_nil (undos undone) ▸ grown.trans undoes.grown
  allowed := undoes.allowed

theorem Undoes.after_undo (created : Grown task [.undone a.name] before middle)
    (may : MayUndo task before a) (undoes : Undoes task undone (.undone a.name :: earlier) middle later after) :
    Undoes task (undone ++ [a]) earlier before later after where
  events := by
    rw [undoes.events, undos_concat, List.append_assoc]
    rfl
  grown := by
    rw [undos_concat]
    exact created.trans undoes.grown
  allowed := by
    intro b member
    rcases List.mem_append.mp member with later | this
    · exact undoes.allowed b later
    · rw [List.mem_singleton.mp this]
      exact (may.grown created).grown undoes.grown

theorem createUndos_undoes {held : FleetTaskAction → Bool} {list : List FleetTaskAction}
    (members : ∀ a ∈ list, a ∈ task.actions) {undoing : Undoing} (backed : Backed task children undoing.objects)
    (known : Known task children undoing.objects undoing.compPhase) :
    ∃ undone, Undoes task undone undoing.events undoing.objects
      (createUndos task answers children held list undoing).2.events
      (createUndos task answers children held list undoing).2.objects := by
  induction list generalizing undoing with
  | nil => exact ⟨[], Undoes.of_grown Grown.refl⟩
  | cons a rest ih =>
    have rest := @ih fun b member => members b (List.mem_cons_of_mem a member)
    simp only [createUndos]
    split
    · exact rest backed known
    rename_i pending
    split
    · exact rest backed known
    rename_i may
    split
    · exact @rest { undoing with compPhase := Function.update undoing.compPhase a.name .inProgress } backed
        (known.update a.name)
    rename_i absent
    split
    · have created : Grown task [.undone a.name] undoing.objects (undoing.undo task answers.now a).objects :=
        Grown.create rfl (by simpa using absent) rfl
      have allowed : MayUndo task undoing.objects a := mayUndo_of_eligible backed known (members a List.mem_cons_self)
        (by simpa using (not_or.mp pending).1) (by simpa using may)
      obtain ⟨undone, undoes⟩ := @rest (undoing.undo task answers.now a) (backed.grown created)
        ((known.grown created).update a.name)
      exact ⟨undone ++ [a], Undoes.after_undo created allowed undoes⟩
    · exact ⟨[], Undoes.of_grown Grown.refl⟩

def StillUndoing (phase : FleetTaskPhase) : Prop := phase = .compensating ∨ isGroupTerminal phase = true

variable {status : FleetTaskStatus}

theorem aggregate_compensating (compensating : status.phase = .compensating) :
    aggregate task children status = (status, false) := by
  rw [aggregate, if_pos (.inl compensating)]

theorem judge_grown {status : FleetTaskStatus} : (judge task answers status made).2.events = made.events ∧
      Grown task [] made.objects (judge task answers status made).2.objects ∧
      (Backed task made.children made.objects →
        Backed task (judge task answers status made).2.children (judge task answers status made).2.objects) := by
  unfold judge
  split
  · exact ⟨rfl, Grown.refl, id⟩
  · exact ⟨rfl, propagate_grown, Backed.propagate⟩

theorem judge_compensating (compensating : status.phase = .compensating) :
    judge task answers status made = (some status, made) := by
  rw [judge, aggregate_compensating compensating]

variable {failedClosed : Bool}

theorem resolve_phase : StillUndoing (resolve failedClosed status).phase := by
  unfold resolve
  split
  · exact .inr rfl
  split
  · exact .inr rfl
  · exact .inl rfl

theorem reportUndos_phase : StillUndoing (reportUndos task stored failedClosed held compPhase status).phase := by
  unfold reportUndos
  split <;> exact resolve_phase

theorem mem_undoOrder (member : a ∈ undoOrder task failedClosed) : a ∈ task.actions := by
  unfold undoOrder at member
  split at member <;> try contradiction
  exact (List.perm_insertionSort _ _).mem_iff.mp member

theorem driveCompensation_undoes {stored : Option Condition} {status : FleetTaskStatus}
    (distinct : (task.actions.map FleetTaskAction.name).Nodup) (backed : Backed task made.children made.objects) :
    (∃ undone, Undoes task undone made.events made.objects (driveCompensation task answers stored status made).2.events
        (driveCompensation task answers stored status made).2.objects) ∧
      ∀ settled, (driveCompensation task answers stored status made).1 = some settled → StillUndoing settled.phase := by
  unfold driveCompensation
  split
  · exact ⟨⟨[], Undoes.of_grown Grown.refl⟩, fun _ absent => by contradiction⟩
  obtain ⟨undone, undoes⟩ := @createUndos_undoes task answers made.children
    (undoTaken task (answers.shown made.objects) made.children) _ (fun a => mem_undoOrder)
    { objects := made.objects, compPhase := compPhases task (answers.shown made.objects) made.children
      events := made.events } backed (known_compPhases distinct)
  refine ⟨⟨undone, undoes⟩, fun settled same => ?_⟩
  simp only at same
  split at same <;> try contradiction
  cases same
  exact reportUndos_phase

theorem drive_undoes {stored : Option Condition} {status : FleetTaskStatus}
    (distinct : (task.actions.map FleetTaskAction.name).Nodup) (backed : Backed task made.children made.objects) :
    (∃ undone, Undoes task undone made.events made.objects (drive task answers stored (judge task answers status made)).2.events
        (drive task answers stored (judge task answers status made)).2.objects) ∧
      (status.phase = .compensating →
        ∀ settled, (drive task answers stored (judge task answers status made)).1 = some settled →
          StillUndoing settled.phase) := by
  obtain ⟨events, grown, kept⟩ := @judge_grown task answers made status
  constructor
  · generalize judge task answers status made = judged at events grown kept ⊢
    obtain ⟨settled, middle⟩ := judged
    cases settled with
    | none => exact ⟨[], events ▸ Undoes.of_grown grown⟩
    | some status =>
      rw [drive]
      split
      · obtain ⟨⟨undone, undoes⟩, _⟩ := @driveCompensation_undoes task answers middle stored status distinct (kept backed)
        exact ⟨undone, events ▸ undoes.after_grown grown⟩
      · exact ⟨[], events ▸ Undoes.of_grown grown⟩
  · intro compensating
    rw [judge_compensating compensating, drive, if_pos compensating]
    exact (driveCompensation_undoes distinct backed).2

def Written (state after : State) (written : List Event) : Prop :=
  after.task.status = state.task.status ∧ written = [] ∨ written = [.wrote after.task.status.phase]

structure Rest (state : State) (made : Made) (after : State) (events : List Event) : Prop where
  task : after.task = { state.task with status := after.task.status }
  parts : ∃ (written others : List Event) (undone : List FleetTaskAction), events = written ++ others ∧
    Written state after written ∧ Undoes state.task undone made.events made.objects others after.objects
  onward : state.task.status.phase = .compensating → StillUndoing after.task.status.phase

theorem patchStatus_cases (patched : Bool) (state : State) (status : FleetTaskStatus) :
    patchStatus patched state status = (state, []) ∨
      patchStatus patched state status =
        ({ state with task := { state.task with status := status } }, [.wrote status.phase]) := by
  unfold patchStatus
  split
  · exact .inl rfl
  split
  · exact .inr rfl
  · exact .inl rfl

variable {state final : State} {status : FleetTaskStatus}

theorem Rest.patched {patched : Bool} (undoes : Undoes state.task undone made.events made.objects events objects)
    (onward : state.task.status.phase = .compensating → StillUndoing status.phase) :
    Rest state made (patchStatus patched { state with objects := objects } status).1
      ((patchStatus patched { state with objects := objects } status).2 ++ events) := by
  rcases patchStatus_cases patched { state with objects := objects } status with same | same <;> rw [same]
  · exact ⟨rfl, ⟨[], events, undone, rfl, .inl ⟨rfl, rfl⟩, undoes⟩, .inl⟩
  · exact ⟨rfl, ⟨[.wrote status.phase], events, undone, rfl, .inr rfl, undoes⟩, onward⟩

theorem Rest.ended (undoes : Undoes state.task undone made.events made.objects events objects) :
    Rest state made { state with objects := objects } events :=
  ⟨rfl, ⟨[], events, undone, rfl, .inl ⟨rfl, rfl⟩, undoes⟩, .inl⟩

theorem finishIfTerminal_phase : (finishIfTerminal now status).phase = status.phase := by
  unfold finishIfTerminal
  split <;> rfl

variable (distinct : (state.task.actions.map FleetTaskAction.name).Nodup)

include distinct in
theorem conclude_rest
    (backed : Backed state.task made.children made.objects) (same : status.phase = state.task.status.phase) :
    Rest state made (conclude answers state status made).1 (conclude answers state status made).2 := by
  unfold conclude
  obtain ⟨⟨_, undoes⟩, onward⟩ := @drive_undoes state.task answers made state.task.status.childrenAdmitted
    { status with actions := rebuildActionStatus state.task made.children } distinct backed
  simp only at onward ⊢
  generalize drive state.task answers _ _ = driven at undoes onward ⊢
  obtain ⟨settled, _⟩ := driven
  cases settled with
  | none => exact Rest.ended undoes
  | some settled =>
    refine Rest.patched undoes fun compensating => ?_
    rw [finishIfTerminal_phase]
    exact onward (same.trans compensating) settled rfl

theorem recordHeld_rest (grown : Grown state.task [] made.objects objects) :
    Rest state made (recordHeld answers reason message { state with objects := objects }).1
      ((recordHeld answers reason message { state with objects := objects }).2 ++ made.events) := by
  unfold recordHeld
  split
  · split
    · exact Rest.ended (Undoes.of_grown grown)
    · exact Rest.patched (Undoes.of_grown grown) .inl
  · exact Rest.patched (Undoes.of_grown grown) .inl

theorem recordHeld_phase : (recordHeld answers reason message state).1.task.status.phase = state.task.status.phase := by
  have patched : ∀ condition, (patchStatus answers.patch state
      { state.task.status with childrenAdmitted := condition }).1.task.status.phase = state.task.status.phase := by
    intro condition
    rcases patchStatus_cases answers.patch state { state.task.status with childrenAdmitted := condition } with same | same <;>
      rw [same]
  unfold recordHeld
  split
  · split
    · rfl
    · exact patched _
  · exact patched _

include distinct in
theorem fanOut_rest {conflict : Option FleetTaskAction}
    (backed : Backed state.task made.children made.objects) (same : status.phase = state.task.status.phase) :
    Rest state made (fanOut answers state status refused conflict made).1
      (fanOut answers state status refused conflict made).2 := by
  have grown := @propagate_grown state.task made answers.propagate (fanoutState state.task)
  unfold fanOut
  simp only
  split
  · exact Rest.ended (Undoes.of_grown grown)
  split
  · exact recordHeld_rest grown
  · exact recordHeld_rest grown
  have admitted : (markChildrenAdmitted status).phase = state.task.status.phase := by
    unfold markChildrenAdmitted
    split <;> exact same
  obtain ⟨task, ⟨written, others, undone, events, wrote, undoes⟩, onward⟩ :=
    @conclude_rest answers _ state (markChildrenAdmitted status) distinct backed.propagate admitted
  exact ⟨task, ⟨written, others, undone, events, wrote, undoes.after_grown grown⟩, onward⟩

theorem fanOut_phase {conflict : Option FleetTaskAction}
    (held : refused ≠ none ∨ conflict ≠ none) :
    (fanOut answers state status refused conflict made).1.task.status.phase = state.task.status.phase := by
  unfold fanOut
  simp only
  split
  · rfl
  split
  · exact recordHeld_phase
  · exact recordHeld_phase
  · simp at held

structure Passes (answers : Answers) (state after : State) (events : List Event) : Prop where
  task : after.task = { state.task with status := after.task.status }
  parts : ∃ (written : List Event) (undone started : List FleetTaskAction), events =
      written ++ (undos undone ++ starts started) ∧
    Written state after written ∧
    Grown state.task (undos undone ++ starts started) state.objects
      after.objects ∧
    (∀ a ∈ undone, MayUndo state.task after.objects a) ∧
    ∀ a ∈ started, a ∈ state.task.actions ∧ eligible state.task (answers.shown state.objects) a = true
  onward : state.task.status.phase = .compensating → StillUndoing after.task.status.phase
  complete : state.task.status.phase ≠ .compensating → after.task.status.phase = .compensating →
    ∀ a ∈ state.task.actions, eligible state.task (answers.shown state.objects) a = true →
      (after.objects (childName state.task.name a.name)).isSome

theorem Passes.of_status (same : final.objects = state.objects) (task : final.task = { state.task with status := final.task.status })
    {written : List Event} (wrote : Written state final written)
    (onward : state.task.status.phase = .compensating → StillUndoing final.task.status.phase)
    (outside : final.task.status.phase = .compensating → state.task.status.phase = .compensating) :
    Passes answers state final written where
  task := task
  parts := ⟨written, [], [], (List.append_nil written).symm, wrote, by rw [same]; exact Grown.refl, fun _ absent => absurd absent List.not_mem_nil,
    fun _ absent => absurd absent List.not_mem_nil⟩
  onward := onward
  complete other compensating := absurd (outside compensating) other

theorem mem_toCreate : a ∈ toCreate task objects ↔ a ∈ task.actions ∧ eligible task objects a = true := by
  rw [toCreate, (List.perm_insertionSort _ _).mem_iff, List.mem_filter]

theorem Passes.of_parts
    (creates : Creates state.task (toCreate state.task (answers.shown state.objects)) progress
      { objects := state.objects, children := childrenOf state.task (answers.shown state.objects) } made)
    (rest : Rest state made final events)
    (held : progress ≠ .done → final.task.status.phase = state.task.status.phase) : Passes answers state final events := by
  obtain ⟨⟨started, among, startedEvents, grown⟩, _, complete⟩ := creates
  obtain ⟨task, ⟨written, _, undone, rfl, wrote, ⟨undoneEvents, later, allowed⟩⟩, onward⟩ := rest
  rw [startedEvents, List.append_nil] at undoneEvents
  refine ⟨task, ⟨written, undone, started, by rw [undoneEvents], wrote, grown.trans later, allowed, ?_⟩, onward, ?_⟩
  · exact fun a member => mem_toCreate.mp (among member)
  intro other compensating a member may
  by_cases done : progress = .done
  · obtain ⟨_, found⟩ := Option.isSome_iff_exists.mp (complete done a (mem_toCreate.mpr ⟨member, may⟩))
    obtain ⟨_, now, _⟩ := later.found found
    rw [now]
    rfl
  · exact absurd ((held done).symm.trans compensating) other

include distinct in
theorem dependsOnPass_passes : Passes answers state (dependsOnPass answers state).1 (dependsOnPass answers state).2 := by
  have unchanged : Passes answers state state [] :=
    Passes.of_status rfl rfl (.inl ⟨rfl, rfl⟩) .inl id
  unfold dependsOnPass
  split
  next message _ =>
    generalize written : finishIfTerminal answers.now
      { state.task.status with dependencyGraphValid := some ⟨false, "InvalidGraph", message⟩, phase := .failed } = status
    have failed : status.phase = .failed := by rw [← written, finishIfTerminal_phase]
    rcases patchStatus_cases answers.patch state status with same | same <;> rw [same]
    · exact unchanged
    refine @Passes.of_status answers state { state with task := { state.task with status := status } } rfl rfl _ (.inr rfl)
      (fun _ => .inr ?_) fun compensating => ?_
    · simp [failed, isGroupTerminal]
    · exact absurd (failed.symm.trans compensating) (by decide)
  · split
    · exact unchanged
    have creates := @createChildren_creates state.task answers (toCreate state.task (answers.shown state.objects))
      (fun a member => (mem_toCreate.mp member).1)
      { objects := state.objects, children := childrenOf state.task (answers.shown state.objects) }
    simp only
    generalize createChildren state.task answers _ _ = created at creates ⊢
    obtain ⟨progress, made⟩ := created
    have backed : Backed state.task made.children made.objects := creates.backed backed_childrenOf
    cases progress with
    | failed => exact Passes.of_parts creates (Rest.ended (Undoes.of_grown Grown.refl)) fun _ => rfl
    | refused =>
      exact Passes.of_parts creates (fanOut_rest distinct backed rfl) fun _ => fanOut_phase (.inl (by simp))
    | done => exact Passes.of_parts creates (fanOut_rest distinct backed rfl) fun absurd => by contradiction

def State.withStatus (state : State) (status : FleetTaskStatus) : State :=
  { state with task := { state.task with status := status } }

/-- A reconcile does nothing, holds a draft, or makes a pass, perhaps after it took the task out of
the draft. -/
inductive Reconciles (answers : Answers) (state : State) : State → List Event → Prop
  | idle : Reconciles answers state state []
  | drafted {status : FleetTaskStatus} (running : isGroupTerminal state.task.status.phase = false)
      (draft : state.task.draft = true) (phase : status.phase = .draft) :
      Reconciles answers state (state.withStatus status) [.wrote status.phase]
  | passed {status : FleetTaskStatus} {first : List Event} {after : State} {events : List Event}
      (running : isGroupTerminal state.task.status.phase = false) (active : state.task.draft = false)
      (agrees : status.phase = .compensating ↔ state.task.status.phase = .compensating)
      (activation : first = [] ∨ first = [.wrote status.phase])
      (passes : Passes answers (state.withStatus status) after events) : Reconciles answers state after (events ++ first)

theorem activatedStatus_phase : (activatedStatus status).phase = .compensating ↔ status.phase = .compensating := by
  unfold activatedStatus
  split
  · by_cases draft : status.phase = .draft <;> simp [draft]
  · rfl

include distinct in
theorem reconcile_reconciles : Reconciles answers state (reconcile answers state).1 (reconcile answers state).2 := by
  unfold reconcile
  split
  · exact .idle
  rename_i running
  have running : isGroupTerminal state.task.status.phase = false := by simpa using running
  split
  next draft =>
    unfold holdAsDraft
    simp only
    split
    · exact .idle
    rcases patchStatus_cases answers.patch state { state.task.status with
      phase := .draft
      awaitingActivation := some ⟨true, "DraftAwaitingActivation", "composed but not dispatched; clear spec.draft to " ++
        "activate. No child actions exist and no robot has been asked to do anything."⟩ } with same | same <;> rw [same]
    · exact .idle
    · exact .drafted running draft rfl
  next active =>
    have active : state.task.draft = false := by simpa using active
    split
    · have passed := Reconciles.passed running active Iff.rfl (.inl rfl) (@dependsOnPass_passes answers state distinct)
      rwa [List.append_nil] at passed
    rename_i changed
    split
    · rw [patchStatus, if_neg changed, if_pos rfl]
      exact .passed running active activatedStatus_phase (.inr rfl)
        (@dependsOnPass_passes answers (state.withStatus (activatedStatus state.task.status)) distinct)
    · exact .idle

theorem Grown.withStatus (grown : Grown { task with status := status } events before after) : Grown task events before after :=
  ⟨grown.kept, grown.made, grown.backed⟩

theorem Grown.padded (grown : Grown task events before after) (idle : ∀ event ∈ earlier ++ later, event.makes task = none) :
    Grown task (later ++ (events ++ earlier)) before after where
  kept := grown.kept
  made name object absent now := by
    obtain ⟨outlines, event, emitted, makes⟩ := grown.made name object absent now
    exact ⟨outlines, event, by simp [emitted], makes⟩
  backed event emitted name makes := by
    by_cases among : event ∈ events
    · exact grown.backed event among name makes
    have other : event ∈ earlier ++ later := by simp_all [or_comm]
    rw [idle event other] at makes
    contradiction

structure Effects (answers : Answers) (state after : State) (events : List Event) : Prop where
  task : after.task = { state.task with status := after.task.status }
  grown : Grown state.task events state.objects after.objects
  started : ∀ member, .started member ∈ events → ∃ a ∈ state.task.actions, a.name = member ∧
    eligible state.task (answers.shown state.objects) a = true
  undone : ∀ member, .undone member ∈ events → ∃ a, a.name = member ∧ MayUndo state.task after.objects a

theorem Written.makes (wrote : Written state final written) : ∀ event ∈ written, event.makes task = none := by
  rcases wrote with ⟨_, rfl⟩ | rfl
  · exact nofun
  · exact fun event emitted => by rw [List.mem_singleton.mp emitted]; rfl

theorem Reconciles.effects (reconciled : Reconciles answers state final events) : Effects answers state final events := by
  cases reconciled with
  | idle => exact ⟨rfl, Grown.refl, nofun,
      nofun⟩
  | drafted =>
    refine ⟨rfl, ?_, fun _ absent => by simp at absent, fun _ absent => by simp at absent⟩
    exact @Grown.padded state.task [] [] [.wrote _] _ _ Grown.refl fun event emitted => by
      rw [List.mem_singleton.mp emitted]
      rfl
  | @passed _ first _ _ _ _ _ activation passes =>
    obtain ⟨task, ⟨written, undone, started, rfl, wrote, grown, allowed, chosen⟩, _, _⟩ := passes
    have silent : ∀ event ∈ first, event.makes state.task = none := by
      rcases activation with rfl | rfl
      · exact nofun
      · exact fun event emitted => by rw [List.mem_singleton.mp emitted]; rfl
    have writes : ∀ event ∈ first ++ written, event.makes state.task = none := fun event emitted =>
      (List.mem_append.mp emitted).elim (silent event) (wrote.makes event)
    refine ⟨task, ?_, fun member emitted => ?_, fun member emitted => ?_⟩
    · rw [List.append_assoc]
      exact Grown.padded (Grown.withStatus grown) writes
    · have unwritten : Event.started member ∉ first ++ written := fun among => nomatch writes _ among
      have among : Event.started member ∈ starts started := by simpa [undos, not_or.mp (mt List.mem_append.mpr unwritten)] using emitted
      obtain ⟨a, chose, same⟩ := List.mem_map.mp among
      exact ⟨a, (chosen a chose).1, Event.started.inj same, (chosen a chose).2⟩
    · have unwritten : Event.undone member ∉ first ++ written := fun among => nomatch writes _ among
      have among : Event.undone member ∈ undos undone := by simpa [starts, not_or.mp (mt List.mem_append.mpr unwritten)] using emitted
      obtain ⟨a, may, same⟩ := List.mem_map.mp among
      exact ⟨a, Event.undone.inj same, allowed a may⟩

include distinct in
theorem step_pass (taken : step state (.pass answers) = some (final, events)) : Reconciles answers state final events := by
  have reconciled := @reconcile_reconciles answers state distinct
  rw [step, Option.some.injEq] at taken
  rwa [taken] at reconciled

include distinct in
theorem step_distinct
    (taken : step state label = some (final, events)) : (final.task.actions.map FleetTaskAction.name).Nodup := by
  cases label with
  | pass =>
    rw [(step_pass distinct taken).effects.task]
    exact distinct
  | report | create =>
    simp only [step] at taken
    split at taken <;> try contradiction
    cases taken
    exact distinct
  | append =>
    simp only [step] at taken
    split at taken <;> try contradiction
    rename_i unique
    cases taken
    exact unique
  | delete | desire | setDraft =>
    cases taken
    exact distinct

theorem reaches_distinct (fresh : Fresh start)
    (run : sagaRuns.Reaches allowed start events state) : (state.task.actions.map FleetTaskAction.name).Nodup :=
  run.invariant (fun _ state => (state.task.actions.map FleetTaskAction.name).Nodup) fresh.distinct
    fun _ distinct _ taken => step_distinct distinct taken

end Swarmada.Saga
