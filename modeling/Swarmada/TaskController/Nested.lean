import Swarmada.TaskController.Children
import Swarmada.TaskController.Counted

namespace Swarmada.TaskController

open Api Flow Transition

def createdOf (a : String) (history : List Event) : List Nat :=
  history.filterMap fun
    | .created ref => if ref.member = a then some ref.iteration else none
    | _ => none

def succeededOf (a : String) (history : List Event) : List Nat :=
  history.filterMap fun
    | .finished ref .succeeded => if ref.member = a then some ref.iteration else none
    | _ => none

theorem createdOf_append (a : String) (later earlier : List Event) :
    createdOf a (later ++ earlier) = createdOf a later ++ createdOf a earlier := by
  unfold createdOf
  rw [List.filterMap_append]

theorem succeededOf_append (a : String) (later earlier : List Event) :
    succeededOf a (later ++ earlier) = succeededOf a later ++ succeededOf a earlier := by
  unfold succeededOf
  rw [List.filterMap_append]

theorem createdOf_created (a : String) (created : List Ref) : createdOf a (created.map .created) = createdIn a created := by
  induction created with
  | nil => rfl
  | cons ref created ih =>
    by_cases own : ref.member = a
    · simp only [createdOf, createdIn, List.map_cons, own, if_true, List.filterMap_cons] at ih ⊢
      simp [own, ih]
    · simp only [createdOf, createdIn, List.map_cons, own, if_false, List.filterMap_cons] at ih ⊢
      simp [own, ih]

theorem succeededOf_created (a : String) (created : List Ref) : succeededOf a (created.map .created) = [] := by
  induction created with
  | nil => rfl
  | cons ref created ih => exact ih

theorem quiet_of_status (a : String) (effects : List Effect) :
    createdOf a (((settlements effects).map Event.counted).reverse ++
      ((starts effects).map fun (a, n) => Event.started a n).reverse) = [] ∧
    succeededOf a (((settlements effects).map Event.counted).reverse ++
      ((starts effects).map fun (a, n) => Event.started a n).reverse) = [] := by
  simp [createdOf, succeededOf, List.filterMap_append, List.filterMap_reverse, List.filterMap_map]

variable {ν : Type}

/-- A loop of `n` rounds whose body needs a loop of `m` rounds of member `a`, and nothing else in
the tree runs `a` or counts on it. -/
structure Nested (members : List String) (flow : FlowNode ν) (a : String) (n m : Nat) (outer : LoopSpec × FlowNode ν)
    (inner : LoopSpec) : Prop where
  admitted : validateStructure (fun member => members.contains member) flow = .ok ()
  named : a ≠ ""
  outerMode : outer.1.mode = .times
  outerTimes : outer.1.times = some (n : Int)
  outerPositive : 1 ≤ n
  innerMode : inner.mode = .times
  innerTimes : inner.times = some (m : Int)
  innerPositive : 1 ≤ m
  placed : outer ∈ loops flow
  demanded : Demands (inner, .run a) outer.2
  own : ∀ loop ∈ loops flow, anchorMember loop.2 = a → loop = (inner, .run a) ∨ loop = outer
  confined : confined a false flow = true

/-- The iterations the two loops come to: those of one counter. -/
def rounds (a : String) (n m : Nat) (outer : LoopSpec × FlowNode ν) : Nat :=
  if anchorMember outer.2 = a then max n m else m

theorem rounds_eq_mul_iff (positive : 1 ≤ n) (inside : 1 ≤ m) :
    rounds a n m outer = n * m ↔ n = 1 ∨ (m = 1 ∧ anchorMember outer.2 = a) := by
  unfold rounds
  split_ifs with shared
  · constructor
    · intro same
      by_contra neither
      rw [not_or] at neither
      have two : 2 ≤ n := by omega
      have inner : 2 ≤ m := by
        have : m ≠ 1 := fun one => neither.2 ⟨one, shared⟩
        omega
      have left : 2 * m ≤ n * m := Nat.mul_le_mul_right m two
      have right : n * 2 ≤ n * m := Nat.mul_le_mul_left n inner
      omega
    · rintro (rfl | ⟨rfl, _⟩)
      · omega
      · omega
  · constructor
    · intro same
      exact .inl (Nat.eq_of_mul_eq_mul_right inside (by omega))
    rintro (rfl | ⟨_, own⟩)
    · omega
    · exact absurd own shared

/-- Children succeed or go on. -/
def Succeeding (_ : List Event) (_ : State ν) : Label → Prop
  | .child _ next => next.phase ≠ .failed ∧ next.phase ≠ .cancelled
  | .pass _ => True

theorem countdown_pred (positive : 0 < n) : countdown n = n :: countdown (n - 1) := by
  obtain ⟨k, rfl⟩ := Nat.exists_eq_succ_of_ne_zero (Nat.pos_iff_ne_zero.mp positive)
  rfl

/-- What has happened to member `a` when the child of the current iteration is in this phase. -/
structure Tracked (a : String) (current : Nat) (phase : Option ActionPhase) (history : List Event) : Prop where
  created : createdOf a history = countdown (if phase = none then current - 1 else current)
  finished : succeededOf a history = countdown (if phase = some .succeeded then current else current - 1)

namespace Tracked

variable {a : String} {current : Nat} {phase : Option ActionPhase} {history later : List Event}

theorem quiet (tracked : Tracked a current phase history) (noneCreated : createdOf a later = [])
    (noneFinished : succeededOf a later = []) : Tracked a current phase (later ++ history) where
  created := by rw [createdOf_append, noneCreated, List.nil_append, tracked.created]
  finished := by rw [succeededOf_append, noneFinished, List.nil_append, tracked.finished]

theorem creates (tracked : Tracked a current none history) (started : 0 < current)
    (one : createdOf a later = [current]) (noneFinished : succeededOf a later = []) :
    Tracked a current (some .unset) (later ++ history) where
  created := by
    rw [createdOf_append, one, tracked.created, if_pos rfl, if_neg (Option.some_ne_none _), countdown_pred started]
    rfl
  finished := by
    rw [succeededOf_append, noneFinished, tracked.finished, if_neg (by decide), if_neg (by decide)]
    rfl

theorem goesOn (tracked : Tracked a current (some before) history)
    (running : before ≠ .succeeded) (still : after ≠ .succeeded) : Tracked a current (some after) history where
  created := by rw [tracked.created, if_neg (Option.some_ne_none _), if_neg (Option.some_ne_none _)]
  finished := by
    rw [tracked.finished, if_neg fun same => running (Option.some.inj same), if_neg fun same => still (Option.some.inj same)]

theorem finishes (tracked : Tracked a current (some before) history) (started : 0 < current)
    (running : before ≠ .succeeded) :
    Tracked a current (some .succeeded) (.finished ⟨a, current⟩ .succeeded :: history) where
  created := by
    have same : createdOf a (.finished ⟨a, current⟩ .succeeded :: history) = createdOf a history := rfl
    rw [same, tracked.created, if_neg (Option.some_ne_none _), if_neg (Option.some_ne_none _)]
  finished := by
    have more : succeededOf a (.finished ⟨a, current⟩ .succeeded :: history) = current :: succeededOf a history := by
      simp [succeededOf]
    rw [more, tracked.finished, if_neg fun same => running (Option.some.inj same), if_pos rfl, countdown_pred started]

theorem advances (tracked : Tracked a current phase history)
    (done : (current = 0 ∧ phase = none) ∨ phase = some .succeeded) : Tracked a (current + 1) none history := by
  rcases done with ⟨rfl, rfl⟩ | rfl <;> exact ⟨tracked.created, tracked.finished⟩

end Tracked

structure Rounds (members : List String) (flow : FlowNode ν) (a : String) (n m : Nat) (outer : LoopSpec × FlowNode ν)
    (history : List Event) (state : State ν) : Prop where
  tree : state.task.flow = flow
  names : state.task.members = members
  bound : (state.task.actions a).iteration ≤ rounds a n m outer
  family : Family a (state.task.actions a).iteration state.children
  tracked : Tracked a (state.task.actions a).iteration (phaseAt a (state.task.actions a).iteration state.children) history

namespace Family

variable {a : String} {current : Nat} {children : Children}

theorem advance (family : Family a current children) (done : current = 0 ∨ phaseAt a current children = some .succeeded) :
    Family a (current + 1) children where
  ordered := family.ordered
  bounded := by
    intro entry member own
    obtain ⟨lower, upper⟩ := family.bounded entry member own
    exact ⟨lower, upper.trans (Nat.le_succ _)⟩
  earlier := by
    intro entry member own below
    rcases Nat.lt_or_ge entry.1.iteration current with earlier | last
    · exact family.earlier entry member own earlier
    have here : entry.1 = ⟨a, current⟩ := by
      obtain ⟨ref, _⟩ := entry
      obtain ⟨_, iteration⟩ := ref
      dsimp only at own last below ⊢
      subst own
      rw [show iteration = current by omega]
    rcases done with _ | succeeded
    · have lower := (family.bounded entry member own).1
      rw [here] at lower
      dsimp only at lower
      omega
    · have found := family.lineage.get_of_mem own member
      rw [here] at found
      rw [phaseAt, found] at succeeded
      exact Option.some.inj succeeded
  clean := family.clean

theorem phaseAt_next (family : Family a current children) : phaseAt a (current + 1) children = none := by
  rw [phaseAt, Option.map_eq_none_iff, get_eq_none]
  intro entry member same
  have upper := (family.bounded entry member (by rw [same])).2
  rw [same] at upper
  dsimp only at upper
  omega

theorem phaseAt_zero (family : Family a 0 children) : phaseAt a 0 children = none := by
  rw [phaseAt, Option.map_eq_none_iff, get_eq_none]
  intro entry member same
  have lower := (family.bounded entry member (by rw [same])).1
  rw [same] at lower
  dsimp only at lower
  omega

end Family

theorem uncancelled_of_family {state : State ν} (family : Family a current state.children)
    (parseFloat : String → Option ν) (now : Nat) : Uncancelled (state.context parseFloat now) := by
  intro member iteration
  unfold State.context
  dsimp only
  cases found : state.children.get ⟨member, iteration⟩ with
  | none => exact Outcome.noConfusion
  | some =>
    have clean := (family.clean _ (mem_of_get found)).2
    intro same
    simp only [childStateOf, ChildState.outcome, if_true] at same
    split at same
    · cases same
    · cases same
    · exact clean ‹_›
    · cases same

variable {members : List String} {flow : FlowNode ν} {a : String} {n m : Nat} {outer : LoopSpec × FlowNode ν}
  {inner : LoopSpec} {history : List Event} {state : State ν}

theorem Rounds.child (rounds : Rounds members flow a n m outer history state) {child next : Child}
    (found : state.children.get ref = some child) (running : isTerminal child.phase = false)
    (clean : next.phase ≠ .failed ∧ next.phase ≠ .cancelled) :
    Rounds members flow a n m outer ((if isTerminal next.phase then [.finished ref next.phase] else []) ++ history)
      { state with
        children := state.children.modify ref fun child => { next with desiredState := child.desiredState } } := by
  have entry := mem_of_get found
  have current (own : ref.member = a) : ref.iteration = (state.task.actions a).iteration := by
    by_contra other
    have bound := (rounds.family.bounded _ entry own).2
    have done := rounds.family.earlier _ entry own (lt_of_le_of_ne bound other)
    rw [done] at running
    cases running
  have family : Family a (state.task.actions a).iteration
      (state.children.modify ref fun child => { next with desiredState := child.desiredState }) := by
    refine rounds.family.modify (fun _ _ => clean) fun own below => ?_
    rw [current own] at below
    exact absurd below (Nat.lt_irrefl _)
  refine ⟨rounds.tree, rounds.names, rounds.bound, family, ?_⟩
  have notFinished : child.phase ≠ .succeeded := by
    rintro same
    rw [same] at running
    cases running
  have terminal : isTerminal next.phase = true → next.phase = .succeeded := by
    intro settled
    cases phase : next.phase <;> simp [phase, isTerminal] at settled clean ⊢
  by_cases own : ref.member = a
  · have here : ref = ⟨a, (state.task.actions a).iteration⟩ := by
      rw [← current own, ← own]
    have started := (rounds.family.bounded _ entry own).1
    rw [current own] at started
    have before : phaseAt a (state.task.actions a).iteration state.children = some child.phase := by
      rw [phaseAt, ← here, found]
      rfl
    have after : phaseAt a (state.task.actions a).iteration
        (state.children.modify ref fun child => { next with desiredState := child.desiredState }) = some next.phase := by
      rw [phaseAt, get_modify, if_pos here.symm, ← here, found]
      rfl
    have tracked := rounds.tracked
    rw [before] at tracked
    rw [after]
    split_ifs with settled
    · rw [terminal settled, here]
      exact tracked.finishes started notFinished
    · exact tracked.goesOn notFinished fun same => settled (by rw [same]; rfl)
  · have after : phaseAt a (state.task.actions a).iteration
        (state.children.modify ref fun child => { next with desiredState := child.desiredState }) =
        phaseAt a (state.task.actions a).iteration state.children := by
      rw [phaseAt, get_modify, if_neg fun same => own (congrArg Ref.member same).symm]
      rfl
    rw [after]
    refine rounds.tracked.quiet ?_ ?_
    · split_ifs <;> rfl
    split_ifs with settled
    · rw [terminal settled]
      simp [succeededOf, own]
    · rfl

theorem Nested.anchor (nested : Nested members flow a n m outer inner) : anchorMember outer.2 ≠ "" :=
  nested.demanded.anchor nested.named

variable [LT ν] [LE ν] [DecidableRel fun a b : ν => a < b] [DecidableRel fun a b : ν => a ≤ b]
  {parseFloat : String → Option ν} {answers : Answers} {now : Nat}

theorem phaseAt_of_succeeded (succeeded : (evalNode (state.context parseFloat now) (.run a) iteration).1 = .succeeded) :
    phaseAt a iteration state.children = some .succeeded := by
  rw [evalNode] at succeeded
  unfold evalRun State.context at succeeded
  dsimp only at succeeded
  unfold phaseAt
  cases found : state.children.get ⟨a, iteration⟩ with
  | none =>
    rw [found] at succeeded
    cases succeeded
  | some =>
    rw [found] at succeeded
    simp only [childStateOf, ChildState.outcome, if_true] at succeeded
    split at succeeded
    next phase =>
      rw [Option.map_some, phase]
    all_goals cases succeeded

theorem Nested.inner_succeeded (nested : Nested members flow a n m outer inner)
    (uncancelled : Uncancelled (state.context parseFloat now))
    (succeeded : (evalNode (state.context parseFloat now) outer.2 iter).1 = .succeeded) :
    phaseAt a (state.task.actions a).iteration state.children = some .succeeded ∧
      m ≤ (state.task.actions a).iteration := by
  have named : anchorMember (.run a : FlowNode ν) ≠ "" := nested.named
  have reached := nested.demanded.succeeded uncancelled named succeeded
  obtain ⟨_, child, bound⟩ := loop_succeeded uncancelled named reached
  have least := bound nested.innerMode
  rw [nested.innerTimes, Option.getD_some] at least
  exact ⟨phaseAt_of_succeeded child, Int.ofNat_le.mp least⟩

/-- A started iteration of the member is the next one: the child before it has succeeded, and the
counter stays within the bound of one of the two loops. -/
theorem Nested.start (nested : Nested members flow a n m outer inner) (tree : state.task.flow = flow)
    (uncancelled : Uncancelled (state.context parseFloat now)) {start : String × Nat}
    (started : start ∈ startsAt a (evaluate (state.context parseFloat now) state.task.flow).2) :
    start.2 = (state.task.actions a).iteration + 1 ∧ start.2 ≤ rounds a n m outer ∧
    ((state.task.actions a).iteration = 0 ∨
      phaseAt a (state.task.actions a).iteration state.children = some .succeeded) := by
  obtain ⟨inEffects, same⟩ := List.mem_filter.mp started
  obtain ⟨anchor, iteration⟩ := start
  obtain rfl : anchor = a := by simpa using same
  obtain ⟨_, sub, reported⟩ := evalNode_reports (state.context parseFloat now) state.task.flow 0
  rw [← starts_reports] at inEffects
  unfold evaluate at inEffects
  rw [reported] at inEffects
  obtain ⟨effect, fromLoop, isStart⟩ := List.mem_filterMap.mp inEffects
  obtain ⟨loop, evaluated, reports⟩ := List.mem_flatMap.mp fromLoop
  have exact : effect = .startIteration anchor iteration := by
    cases effect <;> simp at isStart
    rw [isStart.1, isStart.2]
  subst exact
  obtain ⟨own, cases⟩ := loopReport_start uncancelled reports
  have positive : 1 ≤ rounds anchor n m outer := by
    have := nested.innerPositive
    unfold rounds
    split_ifs <;> omega
  rcases cases with ⟨zero, first⟩ | ⟨next, succeeded, short⟩
  · have zero : (state.task.actions anchor).iteration = 0 := zero
    exact ⟨by rw [zero]; exact first, first ▸ positive, .inl zero⟩
  have next : iteration = (state.task.actions anchor).iteration + 1 := next
  rcases nested.own loop (tree ▸ sub.subset evaluated) own with rfl | rfl
  · have below := short nested.innerMode
    rw [nested.innerTimes, Option.getD_some] at below
    have below : (state.task.actions anchor).iteration < m := Int.ofNat_lt.mp below
    refine ⟨next, ?_, .inr (phaseAt_of_succeeded succeeded)⟩
    unfold rounds
    split_ifs <;> omega
  have below := short nested.outerMode
  rw [nested.outerTimes, Option.getD_some] at below
  refine ⟨next, ?_, .inr (nested.inner_succeeded uncancelled succeeded).1⟩
  unfold rounds
  rw [if_pos own]
  omega

namespace Rounds

variable (nested : Nested members flow a n m outer inner) (held : Rounds members flow a n m outer history state)

include nested held

theorem asked : ∀ ref ∈ ensures (evaluate (state.context parseFloat answers.now) state.task.flow).2, ref.member = a →
    ref.iteration = (state.task.actions a).iteration ∧ 0 < (state.task.actions a).iteration :=
  fun _ member own => ensures_current (held.tree ▸ nested.confined) member own

theorem ensured (steps : Reworked state.task
      (settlements (evaluate (state.context parseFloat answers.now) state.task.flow).2)
      (passEnsured parseFloat answers state).children children) :
    Family a (state.task.actions a).iteration children ∧
    Tracked a (state.task.actions a).iteration (phaseAt a (state.task.actions a).iteration children)
      ((passEnsured parseFloat answers state).created.map Event.created ++ history) ∧
    (phaseAt a (state.task.actions a).iteration state.children = some .succeeded →
      phaseAt a (state.task.actions a).iteration children = some .succeeded) := by
  have valid : validateStructure (fun member => state.task.members.contains member) state.task.flow = .ok () := by
    rw [held.names, held.tree]
    exact nested.admitted
  obtain ⟨family, grown⟩ : Family a (state.task.actions a).iteration (passEnsured parseFloat answers state).children ∧
      Grown a (state.task.actions a).iteration state.children (passEnsured parseFloat answers state).children []
        (passEnsured parseFloat answers state).created := ensureChildren_grown held.family (asked nested held)
  obtain ⟨family, phase⟩ := family.reworked (keepsChildren valid a) steps
  have tracked := held.tracked
  have created := createdOf_created a (passEnsured parseFloat answers state).created
  rw [phase]
  cases grown with
  | same phase quiet =>
    rw [phase]
    exact ⟨family, tracked.quiet (created.trans quiet) (succeededOf_created a _), id⟩
  | created started absent phase one =>
    rw [absent] at tracked ⊢
    rw [phase]
    exact ⟨family, tracked.creates started (created.trans one) (succeededOf_created a _), fun same => by cases same⟩

theorem pass (taken : PassCases parseFloat answers state after events) :
    Rounds members flow a n m outer (events ++ history) after := by
  cases taken with
  | refused sameFlow members actions children _ emitted =>
    subst emitted
    refine ⟨sameFlow.trans held.tree, members.trans held.names, ?_, ?_, ?_⟩
    · rw [actions]
      exact held.bound
    · rw [actions, children]
      exact held.family
    · rw [actions, children]
      exact held.tracked
  | unwritten task children emitted =>
    subst emitted
    obtain ⟨family, tracked, _⟩ := ensured nested held children
    refine ⟨task ▸ held.tree, task ▸ held.names, task ▸ held.bound, ?_, ?_⟩
    · rw [task]
      exact family
    · rw [task]
      exact tracked
  | written read sameFlow members actions children _ emitted =>
    subst emitted
    obtain ⟨family, tracked, kept⟩ := ensured nested held children
    obtain ⟨noneCreated, noneFinished⟩ := quiet_of_status a (evaluate (state.context parseFloat answers.now) state.task.flow).2
    have tracked := tracked.quiet noneCreated noneFinished
    rw [← List.append_assoc] at tracked
    have advanced := (written_advanced state.task read answers.now state.task.actions
      (evaluate (state.context parseFloat answers.now) state.task.flow).2 a).iteration
    rw [← actions] at advanced
    cases last : (startsAt a (evaluate (state.context parseFloat answers.now) state.task.flow).2).getLast? with
    | none =>
      rw [last] at advanced
      have same : (after.task.actions a).iteration = (state.task.actions a).iteration := advanced
      refine ⟨sameFlow.trans held.tree, members.trans held.names, ?_, ?_, ?_⟩
      · rw [same]
        exact held.bound
      · rw [same]
        exact family
      · rw [same]
        exact tracked
    | some =>
      rw [last] at advanced
      obtain ⟨next, within, done⟩ := nested.start held.tree
        (uncancelled_of_family held.family parseFloat answers.now) (List.mem_of_getLast? last)
      have same : (after.task.actions a).iteration = (state.task.actions a).iteration + 1 := advanced.trans next
      refine ⟨sameFlow.trans held.tree, members.trans held.names, ?_, ?_, ?_⟩
      · rw [same, ← next]
        exact within
      · rw [same]
        exact family.advance (done.imp_right kept)
      rw [same, family.phaseAt_next]
      refine tracked.advances ?_
      rcases done with zero | succeeded
      · refine .inl ⟨zero, ?_⟩
        rw [zero] at family ⊢
        exact family.phaseAt_zero
      · exact .inr (kept succeeded)

end Rounds

theorem rounds_of_reaches (nested : Nested members flow a n m outer inner)
    (run : (flowRuns parseFloat).Reaches Succeeding (fresh members flow) history state) :
    Rounds members flow a n m outer history state := by
  refine flowRuns_invariant (Rounds members flow a n m outer) ?_ ?_ ?_ run
  · exact
      { tree := rfl
        names := rfl
        bound := Nat.zero_le _
        family := ⟨.nil, nofun, nofun,
          nofun⟩
        tracked := ⟨rfl, rfl⟩ }
  · intro history state ref next child held clean found running
    exact held.child found running clean
  · intro history state answers after events held _ _ taken
    exact Rounds.pass nested held taken

def innerSpec (m : Nat) : LoopSpec :=
  { mode := .times, times := some (m : Int), retention := some { keepIterationRecords := 1 } }

def outerLoop (n m : Nat) : LoopSpec × FlowNode Nat :=
  ({ mode := .times, times := some (n : Int) }, .sequence [.run "b", .loop (innerSpec m) (.run "a")])

def rondo (n m : Nat) : FlowNode Nat := .loop (outerLoop n m).1 (outerLoop n m).2

theorem nested_rondo (outer : 1 ≤ n) (inner : 1 ≤ m)
    (admitted : validateStructure (fun member => ["a", "b"].contains member) (rondo n m) = .ok ()) :
    Nested ["a", "b"] (rondo n m) "a" n m (outerLoop n m) (innerSpec m) where
  admitted := admitted
  named := by decide
  outerMode := rfl
  outerTimes := rfl
  outerPositive := outer
  innerMode := rfl
  innerTimes := rfl
  innerPositive := inner
  placed := by simp [rondo, loops]
  demanded := .sequence (List.mem_cons_of_mem _ List.mem_cons_self) .here
  own := by
    intro loop member own
    simp only [rondo, outerLoop, loops, loopsOfNodes, List.nil_append, List.append_nil, List.mem_append,
      List.mem_singleton] at member
    rcases member with rfl | rfl
    · exact .inl rfl
    · exact .inr rfl
  confined := rfl

def comesTo (n m : Nat) (config : State Nat × List Event) : Outcome × List Nat × List Nat :=
  ((evalNode (config.1.context (fun _ => none) 0) (rondo n m) 0).1, createdOf "a" config.2, succeededOf "a" config.2)

end Swarmada.TaskController
