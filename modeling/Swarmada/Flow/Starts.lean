import Swarmada.Flow.Accepted

/-! # What an evaluation starts and stops -/

namespace Swarmada.Flow

variable {ν : Type} {ctx : Context ν} {nodes : List (FlowNode ν)} {cases : List (SelectCase ν × FlowNode ν)}
  {node inner : FlowNode ν} {iter turn : Nat} {effect : Effect} {ref : Ref}

def Effect.starts : Effect → Bool
  | .ensure _ | .startIteration _ _ => true
  | _ => false

/-- The member is run or read somewhere in the node. -/
def FlowNode.Mentions (node : FlowNode ν) (member : String) : Prop := ∃ inner ∈ subnodes node, inner.reads = some member

theorem mem_collectCancels : effect ∈ collectCancels ctx nodes iter ↔
    ∃ node ∈ nodes, effect ∈ collectCancel ctx node iter := by
  induction nodes with
  | nil => simp [collectCancels]
  | cons node nodes ih => simp [collectCancels, ih]

theorem mem_collectCancelCases : effect ∈ collectCancelCases ctx cases iter ↔
    ∃ case ∈ cases, effect ∈ collectCancel ctx case.2 iter := by
  induction cases with
  | nil => simp [collectCancelCases]
  | cons case cases ih => simp [collectCancelCases, ih]

theorem collectCancel_nonTerminal (found : .cancel ref ∈ collectCancel ctx node iter) :
    (ctx.child ref.member ref.iteration).nonTerminal = true := by
  induction node using FlowNode.children_induction generalizing iter with
  | empty => simp [collectCancel] at found
  | run member =>
    rw [collectCancel] at found
    split_ifs at found with running
    · cases List.mem_singleton.mp found
      exact running
    · cases found
  | sequence nodes ih | parallel _ nodes ih =>
    obtain ⟨node, member, inside⟩ := mem_collectCancels.mp (by simpa only [collectCancel] using found)
    exact ih node member inside
  | loop spec body ih =>
    rw [collectCancel] at found
    dsimp only at found
    split_ifs at found
    · cases found
    · exact ih found
    · cases found
  | select subject cases default ih fallback =>
    rw [collectCancel, List.mem_append, mem_collectCancelCases] at found
    rcases found with ⟨case, member, inside⟩ | inside
    · exact ih case member inside
    · exact fallback inside

variable [LT ν] [LE ν] [DecidableRel fun a b : ν => a < b] [DecidableRel fun a b : ν => a ≤ b]

theorem mem_cancelUnsettled : effect ∈ cancelUnsettled ctx nodes (branchOutcomes ctx nodes iter) iter ↔
    ∃ node ∈ nodes, (evalNode ctx node iter).1.settled = false ∧ effect ∈ collectCancel ctx node iter := by
  rw [branchOutcomes_eq_map, cancelUnsettled]
  induction nodes with
  | nil => simp
  | cons node nodes ih => cases settled : (evalNode ctx node iter).1.settled <;> simp [settled, ih]

theorem cancel_of_asked (found : .cancel ref ∈ asked ctx node iter) :
    (ctx.child ref.member ref.iteration).nonTerminal = true := by
  cases node with
  | empty | sequence => cases found
  | run member =>
    unfold asked evalRun at found
    dsimp only at found
    split_ifs at found <;> simp at found
  | parallel spec branches =>
    unfold asked at found
    dsimp only at found
    split_ifs at found
    · obtain ⟨_, _, _, inside⟩ := mem_cancelUnsettled.mp found
      exact collectCancel_nonTerminal inside
    · cases found
  | loop spec body =>
    rcases List.mem_append.mp found with interrupted | reported
    · split_ifs at interrupted
      · exact collectCancel_nonTerminal interrupted
      · cases interrupted
    · rw [← loopReport_reports] at reported
      cases (List.mem_filter.mp reported).2
  | select subject =>
    rw [asked] at found
    split at found
    next result waiting => rcases selectValues_waiting ctx waiting with rfl | ⟨_, rfl⟩ | ⟨rfl, _⟩ <;> simp at found
    · cases found

theorem Visits.subnodes (visits : Visits ctx node iter inner turn) : inner ∈ subnodes node := by
  induction visits with
  | @here node =>
    cases node with
    | empty | run => exact List.mem_singleton.mpr rfl
    | _ => exact List.mem_cons_self
  | sequence _ _ ih => exact subnodes_sequence (by simp) ih
  | parallel member _ ih => exact subnodes_parallel member ih
  | loop _ _ _ ih => exact subnodes_loop ih
  | case _ chosen _ _ ih => exact subnodes_case (List.mem_of_find?_eq_some chosen) ih
  | default _ _ _ ih => exact subnodes_default ih

theorem mentions_of_ensure (found : .ensure ref ∈ (evalNode ctx node iter).2) :
    node.Mentions ref.member ∧ (ctx.child ref.member ref.iteration).exist = false := by
  rcases visited_of_mem found with ⟨_, same⟩ | ⟨inner, turn, visits, own⟩
  · cases same
  obtain ⟨named, rfl, absent⟩ := ensure_mem_asked.mp own
  exact ⟨⟨inner, visits.subnodes, named⟩, absent⟩

theorem nonTerminal_of_cancel (found : .cancel ref ∈ (evalNode ctx node iter).2) :
    (ctx.child ref.member ref.iteration).nonTerminal = true := by
  rcases visited_of_mem found with ⟨_, same⟩ | ⟨inner, turn, _, own⟩
  · cases same
  · exact cancel_of_asked own

/-- What is asked for is consistent: only children that do not exist are created, only running ones are cancelled,
and a sequence starts a member of its later nodes only once the earlier ones have succeeded. -/
theorem decisions_well_formed (ctx : Context ν) (root : FlowNode ν) :
    (∀ ref, .ensure ref ∈ (evaluate ctx root).2 → (ctx.child ref.member ref.iteration).exist = false) ∧
    (∀ ref, .cancel ref ∈ (evaluate ctx root).2 → (ctx.child ref.member ref.iteration).nonTerminal = true) ∧
    (∀ ref, .ensure ref ∈ (evaluate ctx root).2 → .cancel ref ∉ (evaluate ctx root).2) ∧
    ∀ nodes iter k ref, .sequence nodes ∈ subnodes root → .ensure ref ∈ (evalNode ctx (.sequence nodes) iter).2 →
      (∀ node ∈ nodes.take k, ¬ node.Mentions ref.member) →
      ∀ node ∈ nodes.take k, (evalNode ctx node iter).1 = .succeeded := by
  refine ⟨fun ref found => (mentions_of_ensure found).2, fun ref => nonTerminal_of_cancel, ?_, ?_⟩
  · intro ref created cancelled
    have absent := (mentions_of_ensure created).2
    have running := nonTerminal_of_cancel cancelled
    simp [ChildState.nonTerminal, absent] at running
  · intro nodes iter k ref _ found unmentioned node member
    rw [evalNode, mem_evalSequence] at found
    obtain ⟨before, asking, after, rfl, earlier, inside⟩ := found
    have outside : asking ∉ (before ++ asking :: after).take k := fun early =>
      unmentioned asking early (mentions_of_ensure inside).1
    have short : k ≤ before.length := by
      by_contra beyond
      refine outside ?_
      rw [List.take_append]
      refine List.mem_append_right _ ?_
      obtain ⟨more, same⟩ := Nat.exists_eq_add_of_lt (Nat.lt_of_not_le beyond)
      rw [show k - before.length = more + 1 by omega, List.take_succ_cons]
      exact List.mem_cons_self
    rw [List.take_append_of_le_length short] at member
    exact earlier node (List.mem_of_mem_take member)

variable (ctx) in
/-- The node itself waits, for a child or for the next iteration. -/
def FlowNode.Blocks : FlowNode ν → Nat → Prop
  | .run member, iter => (ctx.child member iter).outcome.settled = false
  | .select subject _ _, iter => ∃ result, selectValues ctx subject iter = .inl result ∧ result.1.settled = false
  | .loop spec body, _ => ∃ next, .startIteration (anchorMember body) next ∈ loopReport ctx (spec, body)
  | _, _ => False

theorem unsettled_in_sequence (unsettled : (evalSequence ctx nodes iter).1.settled = false) :
    ∃ before node after, nodes = before ++ node :: after ∧
      (∀ other ∈ before, (evalNode ctx other iter).1 = .succeeded) ∧ (evalNode ctx node iter).1.settled = false := by
  induction nodes with
  | nil => cases unsettled
  | cons first nodes ih =>
    rw [evalSequence] at unsettled
    split_ifs at unsettled with done
    · obtain ⟨before, node, after, rfl, earlier, waits⟩ := ih unsettled
      exact ⟨first :: before, node, after, rfl, List.forall_mem_cons.mpr ⟨done, earlier⟩, waits⟩
    · exact ⟨[], first, nodes, rfl, List.forall_mem_nil _, unsettled⟩

omit [LT ν] [LE ν] [DecidableRel fun a b : ν => a < b] [DecidableRel fun a b : ν => a ≤ b] in
theorem joined_settled (some_ : outcomes ≠ [])
    (all : ∀ outcome ∈ outcomes, outcome.settled = true) : (joined spec outcomes).settled = true := by
  have settled : outcomes.countP Outcome.settled = outcomes.length := List.countP_eq_length.mpr all
  have decided : ∃ outcome, join spec outcomes = some outcome ∧ outcome.settled = true := by
    unfold join
    cases spec.mode with
    | first =>
      obtain ⟨first, rest, rfl⟩ := List.exists_cons_of_ne_nil some_
      have lead := all first List.mem_cons_self
      exact ⟨first, by simp [lead], lead⟩
    | _ => grind [Outcome.settled]
  obtain ⟨outcome, decided, ends⟩ := decided
  rw [joined, decided]
  dsimp only
  rwa [if_pos (List.all_eq_true.mpr all)]

/-- A node that has not settled waits for something that the evaluation comes to. -/
theorem blocks_of_unsettled (passes : ∀ inner ∈ subnodes node, inner.Passes members)
    (unsettled : (evalNode ctx node iter).1.settled = false) :
    ∃ inner turn, Visits ctx node iter inner turn ∧ inner.Blocks ctx turn := by
  induction node using FlowNode.children_induction generalizing iter with
  | empty =>
    cases unsettled
  | run member =>
    exact ⟨_, _, .here, unsettled⟩
  | sequence nodes ih =>
    obtain ⟨before, node, after, rfl, earlier, waits⟩ := unsettled_in_sequence unsettled
    obtain ⟨inner, turn, visits, blocks⟩ := ih node (by simp)
      (fun inner inside => passes inner (subnodes_sequence (by simp) inside)) waits
    exact ⟨inner, turn, .sequence earlier visits, blocks⟩
  | parallel spec branches ih =>
    rw [evalNode_parallel_fst, branchOutcomes_eq_map] at unsettled
    by_contra none
    have own := passes _ List.mem_cons_self
    have some_ : branches ≠ [] := by
      rintro rfl
      cases own
    refine absurd unsettled (Bool.not_eq_false _ ▸ joined_settled (by simpa using some_) ?_)
    intro outcome found
    obtain ⟨branch, member, rfl⟩ := List.mem_map.mp found
    by_contra waits
    obtain ⟨inner, turn, visits, blocks⟩ := ih branch member
      (fun inner inside => passes inner (subnodes_parallel member inside)) (by simpa using waits)
    exact none ⟨inner, turn, .parallel member visits, blocks⟩
  | loop spec body ih =>
    have evaluated := evalNode_loop_cases ctx spec body iter
    generalize evalNode ctx (.loop spec body) iter = result at evaluated unsettled
    cases evaluated with
    | nameless => cases unsettled
    | unstarted named zero => exact ⟨_, iter, .here, 1, by simp [loopReport, named, zero]⟩
    | running named started _ _ waits =>
      obtain ⟨inner, turn, visits, blocks⟩ := ih (fun inner inside => passes inner (subnodes_loop inside)) waits
      exact ⟨inner, turn, .loop named started visits, blocks⟩
    | settled named started _ _ ended _ advance =>
      subst advance
      rcases loopNext_effects spec _ _ _ _ with ⟨_, ends⟩ | again
      · rw [ends] at unsettled
        cases unsettled
      · exact ⟨_, iter, .here, _, by simp [loopReport, named, started, ended, again]; rfl⟩
  | select subject cases default ih fallback =>
    obtain ⟨_, same⟩ := evalNode_select ctx subject cases default iter
    rw [same] at unsettled
    cases valued : selectValues ctx subject iter with
    | inl result =>
      rw [valued] at unsettled
      exact ⟨_, iter, .here, result, valued, unsettled⟩
    | inr values =>
      rw [valued] at unsettled
      dsimp only at unsettled
      cases chosen : decidingCase ctx cases subject.field values with
      | none =>
        rw [chosen] at unsettled
        obtain ⟨inner, turn, visits, blocks⟩ :=
          fallback (fun inner inside => passes inner (subnodes_default inside)) unsettled
        exact ⟨inner, turn, .default valued chosen visits, blocks⟩
      | some case =>
        rw [chosen] at unsettled
        dsimp only at unsettled
        split_ifs at unsettled with clause
        · cases unsettled
        have member := List.mem_of_find?_eq_some chosen
        obtain ⟨inner, turn, visits, blocks⟩ :=
          ih case member (fun inner inside => passes inner (subnodes_case member inside)) unsettled
        exact ⟨inner, turn, .case valued chosen (by simpa using clause) visits, blocks⟩

theorem ensure_of_absent (named : node.reads = some member)
    (absent : (ctx.child member iter).exist = false) : .ensure ⟨member, iter⟩ ∈ asked ctx node iter :=
  ensure_mem_asked.mpr ⟨named, rfl, absent⟩

/-- A flow whose children have all ended settles or starts something. -/
theorem never_stuck {members : String → Bool} {root : FlowNode ν} (valid : validateStructure members root = .ok ())
    (ended : ∀ member iteration, (ctx.child member iteration).exist = true →
      (ctx.child member iteration).outcome.settled = true) :
    (evaluate ctx root).1.settled = true ∨ ∃ effect ∈ (evaluate ctx root).2, effect.starts = true := by
  refine Bool.eq_false_or_eq_true _ |>.imp id fun unsettled => ?_
  obtain ⟨inner, turn, visits, blocks⟩ :=
    blocks_of_unsettled (fun inner inside => validateStructure_subnodes valid inside) unsettled
  have absent {member : String} (waits : (ctx.child member turn).outcome.settled = false) :
      (ctx.child member turn).exist = false := by
    by_contra present
    rw [ended member turn (by simpa using present)] at waits
    cases waits
  cases inner with
  | empty | sequence | parallel => cases blocks
  | run member =>
    exact ⟨_, visits.mem_effects (ensure_of_absent rfl (absent blocks)), rfl⟩
  | loop spec body =>
    obtain ⟨next, starts⟩ := blocks
    exact ⟨_, visits.mem_effects (List.mem_append_right _ starts), rfl⟩
  | select subject =>
    obtain ⟨result, waiting, waits⟩ := blocks
    rcases selectValues_waiting ctx waiting with rfl | ⟨_, rfl⟩ | ⟨rfl, _⟩
    · exact ⟨.ensure ⟨subject.Producer, turn⟩, visits.mem_effects (by simp [asked, waiting]), rfl⟩
    · cases waits
    · exact ⟨_, visits.mem_effects (ensure_of_absent rfl (absent waits)), rfl⟩

def losing : FlowNode Nat := .sequence [.run "scan", .run "lift"]

def joinContext : Context Nat where
  now := 0
  child member _ := { exist := member ≠ "lift", phase := .succeeded }
  loopProgress _ := { iteration := 1 }
  parseFloat _ := none

theorem never_stuck_lift : (evaluate joinContext losing).1.settled = true ∨
    ∃ effect ∈ (evaluate joinContext losing).2, effect.starts = true :=
  @never_stuck Nat joinContext _ _ _ _ (fun _ => true) losing rfl fun member _ present => by
    simp only [joinContext] at present ⊢
    simp [ChildState.outcome, present]

variable (ctx) in
/-- What the node itself waits for has been started. -/
def FlowNode.Underway : FlowNode ν → Nat → Prop
  | .run member, iter => (ctx.child member iter).exist = true
  | .select subject _ _, iter => (ctx.child subject.Producer iter).exist = true
  | .loop spec body, _ =>
    let progress := ctx.loopProgress (anchorMember body)
    let ended := (evalNode ctx body progress.iteration).1
    anchorMember body ≠ "" → progress.iteration ≠ 0 ∧ (ended.settled = true →
      (loopNext spec (anchorMember body) progress.iteration (loopBoundSatisfied ctx spec progress) ended).1.settled = true)
  | _, _ => True

theorem asked_starts_nothing_iff : (∀ effect ∈ asked ctx node iter, effect.starts = false) ↔ node.Underway ctx iter := by
  cases node with
  | empty | sequence => simp [asked, FlowNode.Underway]
  | run member => cases present : (ctx.child member iter).exist <;> simp [asked, evalRun, FlowNode.Underway, present, Effect.starts]
  | parallel spec branches =>
    refine iff_of_true (fun effect found => ?_) trivial
    obtain ⟨_, rfl⟩ := asked_parallel spec branches iter effect found
    rfl
  | loop spec body =>
    rw [asked, List.forall_mem_append, and_iff_right]
    · unfold loopReport FlowNode.Underway
      by_cases nameless : anchorMember body = ""
      · simp [nameless]
      by_cases unstarted : (ctx.loopProgress (anchorMember body)).iteration = 0
      · simp [nameless, unstarted, Effect.starts]
      by_cases running : (evalNode ctx body (ctx.loopProgress (anchorMember body)).iteration).1.settled = false
      · simp [nameless, unstarted, running]
      rcases loopNext_effects spec (anchorMember body) (ctx.loopProgress (anchorMember body)).iteration
        (loopBoundSatisfied ctx spec (ctx.loopProgress (anchorMember body)))
        (evalNode ctx body (ctx.loopProgress (anchorMember body)).iteration).1 with ⟨nothing, ends⟩ | again
      · simp [nameless, unstarted, running, nothing, ends, Effect.starts]
      · simp [nameless, unstarted, running, again, Effect.starts]
    · split_ifs
      · intro effect found
        obtain ⟨_, rfl⟩ := collectCancel_cancels ctx body _ effect found
        rfl
      · exact List.forall_mem_nil _
  | select subject =>
    unfold FlowNode.Underway
    constructor
    · intro quiet
      by_contra absent
      cases quiet _ (ensure_of_absent rfl (by simpa using absent))
    · intro present effect found
      cases effect with
      | ensure ref =>
        obtain ⟨named, rfl, absent⟩ := ensure_mem_asked.mp found
        rw [← Option.some.inj named, present] at absent
        cases absent
      | startIteration =>
        rw [asked] at found
        split at found
        next result waiting => rcases selectValues_waiting ctx waiting with rfl | ⟨_, rfl⟩ | ⟨rfl, _⟩ <;> simp at found
        · cases found
      | _ => rfl

theorem starts_nothing_iff : (∀ effect ∈ (evalNode ctx node iter).2, effect.starts = false) ↔
    ∀ inner turn, Visits ctx node iter inner turn → inner.Underway ctx turn := by
  constructor
  · exact fun quiet inner turn visits => asked_starts_nothing_iff.mp fun effect own => quiet effect (visits.mem_effects own)
  · intro underway effect found
    rcases visited_of_mem found with ⟨_, rfl⟩ | ⟨inner, turn, visits, own⟩
    · rfl
    · exact asked_starts_nothing_iff.mpr (underway inner turn visits) effect own

variable (ctx) in
/-- The node waits for the child. -/
def Waits (node : FlowNode ν) (iter : Nat) (ref : Ref) : Prop :=
  ∃ inner, Visits ctx node iter inner ref.iteration ∧ inner.reads = some ref.member ∧ inner.Blocks ctx ref.iteration

theorem Visits.collectCancel (visits : Visits ctx node iter inner turn) (found : effect ∈ collectCancel ctx inner turn) :
    effect ∈ collectCancel ctx node iter := by
  induction visits with
  | here => exact found
  | sequence _ _ ih =>
    rw [Flow.collectCancel, mem_collectCancels]
    exact ⟨_, by simp, ih found⟩
  | parallel member _ ih =>
    rw [Flow.collectCancel, mem_collectCancels]
    exact ⟨_, member, ih found⟩
  | loop named started _ ih =>
    rw [Flow.collectCancel]
    rw [if_neg named, if_pos (Nat.pos_of_ne_zero started)]
    exact ih found
  | case _ chosen _ _ ih =>
    exact List.mem_append_left _ (mem_collectCancelCases.mpr ⟨_, List.mem_of_find?_eq_some chosen, ih found⟩)
  | default _ _ _ ih =>
    exact List.mem_append_right _ (ih found)

section
variable {spec : ParallelSpec} {branches : List (FlowNode ν)} (cancels : spec.cancelsSiblings = true)
  (satisfied : (join spec (branchOutcomes ctx branches iter)).isSome = true)
include cancels satisfied

theorem mem_evalParallel : effect ∈ (evalNode ctx (.parallel spec branches) iter).2 ↔
    ∃ other ∈ branches, effect ∈ (evalNode ctx other iter).2 ∨
      (evalNode ctx other iter).1.settled = false ∧ effect ∈ collectCancel ctx other iter := by
  have joined : ((join spec (branchOutcomes ctx branches iter)).isSome && spec.cancelsSiblings) = true := by
    rw [satisfied, cancels]
    rfl
  change effect ∈ (evalBranches ctx branches iter).flatMap Prod.snd ++
    (if ((join spec (branchOutcomes ctx branches iter)).isSome && spec.cancelsSiblings) = true then
      cancelUnsettled ctx branches (branchOutcomes ctx branches iter) iter else []) ↔ _
  rw [if_pos joined, List.mem_append, mem_evalBranches, mem_cancelUnsettled]
  simp only [and_or_left, exists_or]

end

def routed : FlowNode Nat :=
  .select { member := "detect", field := "kind" } [({ equals := some "box" }, .run "lift")] .empty

def routeContext : Context Nat where
  now := 0
  child member _ := { exist := true, phase := if member = "detect" then .inProgress else .succeeded }
  loopProgress _ := {}
  parseFloat _ := none

def lastRound : LoopSpec := { mode := .forever, interruptRunning := true, maxIterations := some 1 }

end Swarmada.Flow
