import Swarmada.Flow.Accepted
import Swarmada.Flow.Demand
import Swarmada.TaskController.Passes

namespace Swarmada.TaskController

open Api Flow Transition

variable {ν : Type}

variable {members : String → Bool} {node : FlowNode ν}

variable {spec : LoopSpec}

theorem validateLoop_retention (valid : validateLoop members spec = .ok ()) :
    validateRetention spec.retention = .ok () := by
  unfold validateLoop at valid
  split at valid
  · cases valid
  split_ifs at valid
  split at valid
  · cases valid
  · assumption

/-- Both windows of a retention keep a child. -/
def Keeps (retention : FlowRetention) : Prop := 0 < retention.keepFailedChildren ∧ 0 < retention.keepChildren

theorem keeps_of_valid (valid : validateLoop members spec = .ok ()) : Keeps (effectiveRetention (some spec)) := by
  have valid := validateLoop_retention valid
  unfold effectiveRetention Keeps
  cases kept : spec.retention with
  | none =>
    simp only [kept]
    decide
  | some =>
    rw [kept] at valid
    simp only [kept]
    unfold validateRetention at valid
    dsimp only at valid
    split_ifs at valid with records children failed
    have least (value fallback : Int) (nonneg : ¬ value < 0) (positive : 0 < fallback) :
        0 < if value = 0 then fallback else value := by
      split_ifs with zero
      · exact positive
      · omega
    exact ⟨least _ _ failed (by decide), least _ _ children (by decide)⟩

variable {anchor : String}

def loopOver (anchor : String) : FlowNode ν → Option LoopSpec
  | .loop spec body => if anchorMember body = anchor then some spec else none
  | _ => none

theorem findLoopNodeIn_eq
    (each : ∀ node ∈ nodes, findLoopNode node anchor = (subnodes node).findSome? (loopOver anchor)) :
    findLoopNodeIn nodes anchor = (subnodesOf nodes).findSome? (loopOver anchor) := by
  induction nodes with
  | nil => rfl
  | cons node nodes ih =>
    rw [findLoopNodeIn, subnodesOf, List.findSome?_append, each node List.mem_cons_self]
    rw [ih fun other member => each other (List.mem_cons_of_mem _ member)]

theorem findLoopNodeInCases_eq {cases : List (SelectCase ν × FlowNode ν)}
    (each : ∀ case ∈ cases, findLoopNode case.2 anchor = (subnodes case.2).findSome? (loopOver anchor)) :
    findLoopNodeInCases cases anchor = (subnodesOfCases cases).findSome? (loopOver anchor) := by
  induction cases with
  | nil => rfl
  | cons case cases ih =>
    rw [findLoopNodeInCases, subnodesOfCases, List.findSome?_append, each case List.mem_cons_self]
    rw [ih fun other member => each other (List.mem_cons_of_mem _ member)]

theorem findLoopNode_eq (node : FlowNode ν) (anchor : String) :
    findLoopNode node anchor = (subnodes node).findSome? (loopOver anchor) := by
  induction node using FlowNode.children_induction with
  | empty | run => rfl
  | sequence nodes ih | parallel spec nodes ih =>
    rw [findLoopNode, findLoopNodeIn_eq ih]
    rfl
  | loop spec body ih =>
    rw [findLoopNode, subnodes, List.findSome?_cons, ih, loopOver]
    split_ifs <;> rfl
  | select subject cases default ih fallback =>
    rw [findLoopNode, findLoopNodeInCases_eq ih, fallback, ← List.findSome?_append]
    rfl

variable {task : FleetTask ν}

theorem keepsChildren
    (valid : validateStructure (fun member => task.members.contains member) task.flow = .ok ()) (anchor : String) :
    Keeps (effectiveRetention (findLoopNode task.flow anchor)) := by
  cases found : findLoopNode task.flow anchor with
  | none => exact ⟨by decide, by decide⟩
  | some spec =>
    rw [findLoopNode_eq] at found
    obtain ⟨node, member, here⟩ := List.exists_of_findSome?_eq_some found
    have passes := validateStructure_subnodes valid member
    unfold loopOver at here
    split at here <;> try contradiction
    split_ifs at here
    cases here
    exact keeps_of_valid passes

theorem get_cons (entry : Ref × Child) (rest : Children) (ref : Ref) :
    Children.get (entry :: rest) ref = if entry.1 = ref then some entry.2 else Children.get rest ref := by
  unfold Children.get
  by_cases same : entry.1 = ref
  · rw [List.find?_cons_of_pos (by simpa using same), if_pos same]
    rfl
  · rw [List.find?_cons_of_neg (by simpa using same), if_neg same]

variable {children : Children} {ref : Ref}

theorem mem_of_get (found : children.get ref = some child) : (ref, child) ∈ children := by
  obtain ⟨entry, located, same⟩ := Option.map_eq_some_iff.mp found
  have here : entry.1 = ref := by simpa using List.find?_some located
  subst here same
  exact List.mem_of_find?_eq_some located

theorem get_eq_none : children.get ref = none ↔ ∀ entry ∈ children, entry.1 ≠ ref := by
  unfold Children.get
  rw [Option.map_eq_none_iff, List.find?_eq_none]
  simp only [decide_eq_true_eq]

theorem get_modify (children : Children) (ref other : Ref) (change : Child → Child) :
    (children.modify ref change).get other =
      if other = ref then (children.get other).map change else children.get other := by
  induction children with
  | nil => simp [Children.modify, Children.get]
  | cons entry rest ih =>
    rw [Children.modify, List.map_cons]
    by_cases changed : entry.1 = ref
    · rw [if_pos changed, get_cons, get_cons, ← Children.modify, ih]
      by_cases same : entry.1 = other
      · rw [if_pos same, if_pos same, if_pos (same.symm.trans changed)]
        rfl
      · rw [if_neg same, if_neg same]
    · rw [if_neg changed, get_cons, get_cons, ← Children.modify, ih]
      by_cases same : entry.1 = other
      · rw [if_pos same, if_pos same, if_neg fun equal => changed (same.trans equal)]
      · rw [if_neg same, if_neg same]

theorem prune_sublist (member : String) (keepFailed keep : Nat) (children : Children) :
    (pruneIterationChildren member keepFailed keep children).Sublist children := by
  fun_induction pruneIterationChildren member keepFailed keep children with
  | case1 => exact .slnil
  | case2 _ _ _ _ _ _ ih | case4 _ _ _ _ _ _ _ ih | case6 _ _ _ _ _ _ _ ih => exact ih.cons_cons _
  | case3 _ _ _ _ _ _ ih | case5 _ _ _ _ _ _ ih => exact ih.cons _

theorem get_prune_other (other : ref.member ≠ member) (keepFailed keep : Nat)
    (children : Children) : (pruneIterationChildren member keepFailed keep children).get ref = children.get ref := by
  have passed {entry : Ref} {child : Child} (rest : Children) (dropped : ¬ (entry.member ≠ member ∨ isTerminal child.phase = false)) :
      Children.get ((entry, child) :: rest) ref = Children.get rest ref := by
    rw [get_cons, if_neg]
    rintro rfl
    exact dropped (.inl other)
  fun_induction pruneIterationChildren member keepFailed keep children with
  | case1 => rfl
  | case2 _ _ _ _ _ _ ih | case4 _ _ _ _ _ _ _ ih | case6 _ _ _ _ _ _ _ ih => rw [get_cons, get_cons, ih]
  | case3 _ _ _ rest dropped _ ih | case5 _ _ _ rest dropped _ ih => rw [ih, passed rest dropped]

theorem mem_prune_of_running (member : String) (keepFailed keep : Nat)
    (found : entry ∈ children) (running : isTerminal entry.2.phase = false) :
    entry ∈ pruneIterationChildren member keepFailed keep children := by
  have elsewhere {ref : Ref} {child : Child} {rest : Children} (found : entry ∈ (ref, child) :: rest)
      (past : ¬ (ref.member ≠ member ∨ isTerminal child.phase = false)) : entry ∈ rest := by
    rcases List.mem_cons.mp found with rfl | later
    · exact absurd (.inr running) past
    · exact later
  fun_induction pruneIterationChildren member keepFailed keep children with
  | case1 => exact found
  | case2 _ _ _ _ _ _ ih =>
    rcases List.mem_cons.mp found with rfl | later
    · exact List.mem_cons_self
    · exact List.mem_cons_of_mem _ (ih later)
  | case3 _ _ _ _ past _ ih | case5 _ _ _ _ past _ ih => exact ih (elsewhere found past)
  | case4 _ _ _ _ past _ _ ih | case6 _ _ _ _ past _ _ ih => exact List.mem_cons_of_mem _ (ih (elsewhere found past))

/-- The iterations of member `a` among the children, when that of its loop is `current`: the newer the
later. -/
structure Lineage (a : String) (current : Nat) (children : Children) : Prop where
  ordered : children.Pairwise fun newer older =>
    newer.1.member = a → older.1.member = a → older.1.iteration < newer.1.iteration
  bounded : ∀ entry ∈ children, entry.1.member = a → 1 ≤ entry.1.iteration ∧ entry.1.iteration ≤ current

namespace Lineage

variable {a : String} {current : Nat} {children : Children} (lineage : Lineage a current children)

include lineage

theorem sublist (sub : fewer.Sublist children) : Lineage a current fewer where
  ordered := lineage.ordered.sublist sub
  bounded := fun entry member => lineage.bounded entry (sub.subset member)

theorem modify (ref : Ref) (change : Child → Child) : Lineage a current (children.modify ref change) := by
  have same (entry : Ref × Child) : (if entry.1 = ref then (entry.1, change entry.2) else entry).1 = entry.1 := by
    split_ifs <;> rfl
  refine ⟨List.pairwise_map.mpr ?_, fun entry member => ?_⟩
  · simp only [same]
    exact lineage.ordered
  obtain ⟨before, found, rfl⟩ := List.mem_map.mp member
  rw [same]
  exact lineage.bounded before found

theorem cons {ref : Ref} {child : Child} (absent : children.get ref = none)
    (asked : ref.member = a → ref.iteration = current ∧ 0 < current) : Lineage a current ((ref, child) :: children) where
  ordered := by
    refine List.pairwise_cons.mpr ⟨fun older member own ownOlder => ?_, lineage.ordered⟩
    obtain ⟨_, _⟩ := asked own
    have bound := (lineage.bounded older member ownOlder).2
    have apart : older.1.iteration ≠ ref.iteration := fun equal =>
      get_eq_none.mp absent older member (by rw [Ref.mk.injEq]; exact ⟨ownOlder.trans own.symm, equal⟩)
    dsimp only
    omega
  bounded := by
    intro entry member own
    rcases List.mem_cons.mp member with rfl | later
    · obtain ⟨_, _⟩ := asked own
      dsimp only
      omega
    · exact lineage.bounded entry later own

theorem mono (le : current ≤ more) : Lineage a more children :=
  ⟨lineage.ordered, fun entry member own =>
    have bound := lineage.bounded entry member own
    ⟨bound.1, bound.2.trans le⟩⟩

theorem get_of_mem (own : ref.member = a) (found : (ref, child) ∈ children) : children.get ref = some child := by
  induction children with
  | nil => cases found
  | cons entry rest ih =>
    rw [get_cons]
    rcases List.mem_cons.mp found with rfl | later
    · exact if_pos rfl
    rw [if_neg]
    · exact ih (lineage.sublist (List.sublist_cons_self _ _)) later
    intro same
    have older := (List.pairwise_cons.mp lineage.ordered).1 _ later (by rw [same]; exact own) own
    rw [same] at older
    exact absurd older (Nat.lt_irrefl _)

theorem get_prune_current (keepFailed keep : Nat) :
    (pruneIterationChildren a (keepFailed + 1) (keep + 1) children).get ⟨a, current⟩ = children.get ⟨a, current⟩ := by
  induction children with
  | nil => rfl
  | cons entry rest ih =>
    obtain ⟨ref, _⟩ := entry
    unfold pruneIterationChildren
    split_ifs with stays failed
    · rw [get_cons, get_cons, ih (lineage.sublist (List.sublist_cons_self _ _))]
    all_goals
      have own : ref.member = a := by
        by_contra other
        exact stays (.inl other)
      rw [get_cons, get_cons]
      split_ifs with here
      · rfl
      -- an earlier child stands first, so none of the current iteration follows
      have none (entry : Ref × Child) (member : entry ∈ rest) : entry.1 ≠ ⟨a, current⟩ := by
        intro same
        have bound := (lineage.bounded _ List.mem_cons_self own).2
        have older := (List.pairwise_cons.mp lineage.ordered).1 entry member own (by rw [same])
        rw [same] at older
        dsimp only at older bound
        omega
      rw [get_eq_none.mpr none,
        get_eq_none.mpr fun entry member => none entry ((prune_sublist _ _ _ rest).subset member)]

/-- A child that is no longer there had ended, and was not of the current iteration. -/
theorem get_prune (keepFailed keep : Nat) (ref : Ref) :
    (pruneIterationChildren a (keepFailed + 1) (keep + 1) children).get ref = children.get ref ∨
    (pruneIterationChildren a (keepFailed + 1) (keep + 1) children).get ref = none ∧ ref.member = a ∧
      ref.iteration ≠ current ∧ ∃ child, children.get ref = some child ∧ isTerminal child.phase = true := by
  by_cases own : ref.member = a
  swap
  · exact .inl (get_prune_other own _ _ _)
  have sub := prune_sublist a (keepFailed + 1) (keep + 1) children
  cases found : children.get ref with
  | none => exact .inl (get_eq_none.mpr fun entry member => get_eq_none.mp found entry (sub.subset member))
  | some child =>
    cases kept : (pruneIterationChildren a (keepFailed + 1) (keep + 1) children).get ref with
    | some =>
      rw [lineage.get_of_mem own (sub.subset (mem_of_get kept))] at found
      exact .inl found
    | none =>
      refine .inr ⟨rfl, own, fun same => ?_, child, rfl, ?_⟩
      · obtain ⟨_, _⟩ := ref
        subst own same
        rw [lineage.get_prune_current, found] at kept
        cases kept
      · by_contra running
        have stays := mem_prune_of_running a (keepFailed + 1) (keep + 1) (mem_of_get found) (by simpa using running)
        exact get_eq_none.mp kept _ stays rfl

omit lineage in
theorem get_taskPrune (lineage : Lineage settlement.anchorMember current children)
    (keeps : Keeps (effectiveRetention (findLoopNode task.flow settlement.anchorMember))) (ref : Ref) :
    (task.prune children settlement).get ref = children.get ref ∨
    (task.prune children settlement).get ref = none ∧ ref.member = settlement.anchorMember ∧ ref.iteration ≠ current ∧
      ∃ child, children.get ref = some child ∧ isTerminal child.phase = true := by
  obtain ⟨_, _⟩ := keeps
  obtain ⟨keepFailed, failed⟩ :
      ∃ n, (effectiveRetention (findLoopNode task.flow settlement.anchorMember)).keepFailedChildren.toNat = n + 1 :=
    Nat.exists_eq_succ_of_ne_zero (by omega)
  obtain ⟨keep, others⟩ :
      ∃ n, (effectiveRetention (findLoopNode task.flow settlement.anchorMember)).keepChildren.toNat = n + 1 :=
    Nat.exists_eq_succ_of_ne_zero (by omega)
  unfold FleetTask.prune
  dsimp only
  rw [failed, others]
  exact lineage.get_prune keepFailed keep ref

end Lineage

/-- The children of member `a` when the current iteration of its loop is `current`: the newer the
later its iteration, all earlier ones succeeded.  No child of any member has failed or was
cancelled. -/
structure Family (a : String) (current : Nat) (children : Children) : Prop where
  ordered : children.Pairwise fun newer older =>
    newer.1.member = a → older.1.member = a → older.1.iteration < newer.1.iteration
  bounded : ∀ entry ∈ children, entry.1.member = a → 1 ≤ entry.1.iteration ∧ entry.1.iteration ≤ current
  earlier : ∀ entry ∈ children, entry.1.member = a → entry.1.iteration < current → entry.2.phase = .succeeded
  clean : ∀ entry ∈ children, entry.2.phase ≠ .failed ∧ entry.2.phase ≠ .cancelled

def phaseAt (a : String) (current : Nat) (children : Children) : Option ActionPhase :=
  (children.get ⟨a, current⟩).map Child.phase

variable {settled : List IterationSettlement}

namespace Family

variable {a : String} {current : Nat} {children : Children} (family : Family a current children)

include family

theorem lineage : Lineage a current children := ⟨family.ordered, family.bounded⟩

theorem sublist (sub : fewer.Sublist children) : Family a current fewer :=
  have lineage := family.lineage.sublist sub
  ⟨lineage.ordered, lineage.bounded, fun entry member => family.earlier entry (sub.subset member),
    fun entry member => family.clean entry (sub.subset member)⟩

theorem modify (clean : ∀ child, child.phase ≠ .failed ∧ child.phase ≠ .cancelled →
      (change child).phase ≠ .failed ∧ (change child).phase ≠ .cancelled)
    (earlier : ref.member = a → ref.iteration < current → ∀ child, (change child).phase = child.phase) :
    Family a current (children.modify ref change) := by
  have lineage := family.lineage.modify ref change
  refine ⟨lineage.ordered, lineage.bounded, ?_, ?_⟩
  · intro entry member
    obtain ⟨before, found, rfl⟩ := List.mem_map.mp member
    split_ifs with changed
    · intro own below
      rw [earlier (changed ▸ own) (changed ▸ below)]
      exact family.earlier before found own below
    · exact family.earlier before found
  · intro entry member
    obtain ⟨before, found, rfl⟩ := List.mem_map.mp member
    split_ifs
    · exact clean before.2 (family.clean before found)
    · exact family.clean before found

theorem cancel (ref : Ref) :
    Family a current (children.modify ref fun child => { child with desiredState := some .cancelled }) :=
  family.modify (fun _ clean => clean) fun _ _ _ => rfl

theorem reworked (keeps : Keeps (effectiveRetention (findLoopNode task.flow a)))
    (steps : Reworked task settled children after) :
    Family a current after ∧ phaseAt a current after = phaseAt a current children := by
  induction steps with
  | refl => exact ⟨family, rfl⟩
  | cancel ref _ ih =>
    refine ⟨ih.1.cancel ref, ?_⟩
    rw [← ih.2, phaseAt, get_modify]
    split_ifs
    · rw [Option.map_map]
      rfl
    · rfl
  | @prune after settlement _ _ ih =>
    refine ⟨ih.1.sublist (prune_sublist _ _ _ _), ?_⟩
    rw [← ih.2, phaseAt, phaseAt]
    by_cases own : settlement.anchorMember = a
    · subst own
      rcases ih.1.lineage.get_taskPrune keeps ⟨_, current⟩ with same | ⟨_, _, apart, _⟩
      · rw [same]
      · exact absurd rfl apart
    · unfold FleetTask.prune
      rw [get_prune_other fun same => own same.symm]

theorem cons {ref : Ref} {child : Child} (absent : children.get ref = none)
    (asked : ref.member = a → ref.iteration = current ∧ 0 < current)
    (clean : child.phase ≠ .failed ∧ child.phase ≠ .cancelled) : Family a current ((ref, child) :: children) := by
  have lineage : Lineage a current ((ref, child) :: children) := family.lineage.cons absent asked
  refine ⟨lineage.ordered, lineage.bounded, ?_, ?_⟩
  · intro found member own below
    rcases List.mem_cons.mp member with rfl | later
    · exact absurd (asked own).1 (Nat.ne_of_lt below)
    · exact family.earlier found later own below
  · intro found member
    rcases List.mem_cons.mp member with rfl | later
    · exact clean
    · exact family.clean found later

end Family

def createdIn (a : String) (created : List Ref) : List Nat :=
  (created.filter fun ref => ref.member = a).map Ref.iteration

/-- What creating children did to those of member `a`: nothing, or it created the current one. -/
inductive Grown (a : String) (current : Nat) (before after : Children) (earlier created : List Ref) : Prop
  | same (phase : phaseAt a current after = phaseAt a current before) (none : createdIn a created = createdIn a earlier)
  | created (started : 0 < current) (absent : phaseAt a current before = none)
      (phase : phaseAt a current after = some .unset) (one : createdIn a created = current :: createdIn a earlier)

variable {current : Nat}

theorem Grown.trans {first second third : Children} {none earlier later : List Ref}
    (before : Grown a current first second none earlier) (after : Grown a current second third earlier later) :
    Grown a current first third none later := by
  cases before with
  | same phase quiet =>
    cases after with
    | same phase' quiet' => exact .same (phase'.trans phase) (quiet'.trans quiet)
    | created started absent phase' one =>
      exact .created started (phase.symm.trans absent) phase' (one.trans (by rw [quiet]))
  | created started absent phase one =>
    cases after with
    | same phase' quiet => exact .created started absent (phase'.trans phase) (quiet.trans one)
    | created _ gone =>
      rw [phase] at gone
      cases gone

theorem Family.create {a : String} {current : Nat} {children : Children} {ref : Ref} {created : List Ref}
    {desired : Option DesiredState} (family : Family a current children) (absent : children.get ref = none)
    (asked : ref.member = a → ref.iteration = current ∧ 0 < current) :
    Family a current ((ref, { desiredState := desired }) :: children) ∧
    Grown a current children ((ref, { desiredState := desired }) :: children) created (ref :: created) := by
  have clean : ActionPhase.unset ≠ .failed ∧ ActionPhase.unset ≠ .cancelled := by decide
  by_cases own : ref.member = a
  · obtain ⟨rfl, started⟩ := asked own
    subst own
    refine ⟨family.cons absent asked clean, .created started ?_ ?_ ?_⟩
    · rw [phaseAt, absent]
      rfl
    · rw [phaseAt, get_cons, if_pos rfl]
      rfl
    · rw [createdIn, List.filter_cons_of_pos (by simp), List.map_cons]
      rfl
  · refine ⟨family.cons absent asked clean, .same ?_ ?_⟩
    · rw [phaseAt, get_cons, if_neg fun same => own (congrArg Ref.member same)]
      rfl
    · rw [createdIn, List.filter_cons_of_neg (by simpa using own)]
      rfl

/-- What holds of the children and of those created so far, and is kept by each create, holds in the end. -/
theorem ensureChildren_invariant (P : Children → List Ref → Prop) (initially : P children created)
    (create : ∀ ref ∈ refs, ∀ children created, children.get ref = none → P children created →
      P ((ref, { desiredState := task.desiredState }) :: children) (ref :: created)) :
    P (ensureChildren task answers refs children created).children (ensureChildren task answers refs children created).created := by
  induction refs generalizing children created with
  | nil => exact initially
  | cons ref refs ih =>
    have later := fun other member => create other (List.mem_cons_of_mem ref member)
    rw [ensureChildren]
    split_ifs with skipped
    · exact ih initially later
    have absent : children.get ref = none := by
      cases found : children.get ref with
      | none => rfl
      | some => simp [found] at skipped
    have one := create ref List.mem_cons_self children created absent initially
    split
    · exact ih one later
    · exact ih initially later
    · exact initially
    · exact initially
    · exact one

theorem ensureChildren_grown (family : Family a current children)
    (asked : ∀ ref ∈ refs, ref.member = a → ref.iteration = current ∧ 0 < current) :
    Family a current (ensureChildren task answers refs children created).children ∧
    Grown a current children (ensureChildren task answers refs children created).children created
      (ensureChildren task answers refs children created).created := by
  refine ensureChildren_invariant (fun after made => Family a current after ∧ Grown a current children after created made)
    ⟨family, .same rfl rfl⟩ fun ref member after made absent ⟨family, grown⟩ => ?_
  obtain ⟨next, one⟩ := @Family.create a current after ref made task.desiredState family absent (asked ref member)
  exact ⟨next, grown.trans one⟩

theorem mem_ensures : ref ∈ ensures effects ↔ .ensure ref ∈ effects := by
  unfold ensures
  rw [List.mem_filterMap]
  constructor
  · rintro ⟨effect, member, same⟩
    cases effect <;> simp at same
    exact same ▸ member
  · exact fun member => ⟨_, member, rfl⟩

theorem ensures_current [LT ν] [LE ν] [DecidableRel fun a b : ν => a < b] [DecidableRel fun a b : ν => a ≤ b]
    {parseFloat : String → Option ν} {now : Nat} {state : State ν} (own : confined a false state.task.flow = true)
    (member : ref ∈ ensures (evaluate (state.context parseFloat now) state.task.flow).2) (named : ref.member = a) :
    ref.iteration = (state.task.actions a).iteration ∧ 0 < (state.task.actions a).iteration := by
  obtain ⟨name, iteration⟩ := ref
  obtain rfl : name = a := named
  obtain ⟨current, started⟩ := evalNode_ensures own (fun outside => by cases outside) iteration (mem_ensures.mp member)
  have same : iteration = (state.task.actions name).iteration := current
  exact ⟨same, same ▸ started⟩

theorem Lineage.reworked (lineage : Lineage a current children) (steps : Reworked task settled children after) :
    Lineage a current after := by
  induction steps with
  | refl => exact lineage
  | cancel ref _ ih => exact ih.modify _ _
  | prune settlement _ _ ih => exact ih.sublist (prune_sublist _ _ _ _)

theorem childStateOf_settled (child : Child) : (childStateOf (some child)).outcome.settled = isTerminal child.phase := by
  obtain ⟨phase, _, _, _, _, _⟩ := child
  cases phase <;> rfl

/-- A child that a pass deleted had ended, and was not of the current iteration. -/
theorem Reworked.get {after : Children} {current : String → Nat}
    (lineage : ∀ settlement ∈ settled, Lineage settlement.anchorMember (current settlement.anchorMember) children)
    (keeps : ∀ anchor, Keeps (effectiveRetention (findLoopNode task.flow anchor)))
    (steps : Reworked task settled children after) (ref : Ref) :
    childStateOf (after.get ref) = childStateOf (children.get ref) ∨
    after.get ref = none ∧ (∃ settlement ∈ settled, settlement.anchorMember = ref.member) ∧
      ref.iteration ≠ current ref.member ∧ (childStateOf (children.get ref)).outcome.settled = true := by
  induction steps with
  | refl => exact .inl rfl
  | @cancel after other _ ih =>
    rw [get_modify]
    split_ifs
    · cases found : after.get ref with
      | none => rwa [found] at ih
      | some =>
        rw [found] at ih
        rcases ih with same | ⟨gone, _⟩
        · exact .inl same
        · cases gone
    · exact ih
  | @prune after settlement member before ih =>
    have own := (lineage settlement member).reworked before
    rcases own.get_taskPrune (keeps settlement.anchorMember) ref with same | ⟨gone, mine, apart, _, there, ended⟩
    · rw [same]
      exact ih
    rw [there] at ih
    rcases ih with same | ⟨absent, _⟩
    · refine .inr ⟨gone, ⟨settlement, member, mine.symm⟩, mine ▸ apart, ?_⟩
      rw [← same, childStateOf_settled, ended]
    · cases absent

end Swarmada.TaskController
