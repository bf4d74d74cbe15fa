import Mathlib.Data.Set.Finite.List
import Mathlib.Data.List.Basic
import Mathlib.Logic.Relation
import Mathlib.Order.WellFounded

/-! # Cycles and the search for them

A depth-first search keeps the nodes of the visits under way, which are gray, and those it has
finished, which are black.  It meets a gray node exactly when the graph has a cycle.
-/

namespace Swarmada.Graph

universe u

variable {α : Type u}

def Acyclic (edges : α → List α) : Prop := ∀ node, ¬ Relation.TransGen (fun here there => there ∈ edges here) node node

/-- Of finitely many nodes, none of the others leads to some. -/
theorem Acyclic.exists_first (acyclic : Acyclic edges) (nonempty : nodes ≠ []) :
    ∃ node ∈ nodes, ∀ other ∈ nodes, node ∉ edges other := by
  let leads : {node // node ∈ nodes} → {node // node ∈ nodes} → Prop := fun near far =>
    Relation.TransGen (fun here there => there ∈ edges here) near.1 far.1
  have : Std.Irrefl leads := ⟨fun node => acyclic node.1⟩
  have : Finite {node // node ∈ nodes} := (List.finite_toSet nodes).to_subtype
  obtain ⟨some, member⟩ := List.exists_mem_of_ne_nil nodes nonempty
  obtain ⟨⟨first, firstIn⟩, _, nearest⟩ :=
    (Finite.wellFounded_of_trans_of_irrefl leads).has_min Set.univ ⟨⟨some, member⟩, trivial⟩
  exact ⟨first, firstIn, fun other otherIn edge => nearest ⟨other, otherIn⟩ trivial (.single edge)⟩

theorem acyclic_of_acc {edges : α → List α} (accessible : Acc (fun there here => there ∈ edges here) node) :
    ¬ Relation.TransGen (fun here there => there ∈ edges here) node node := by
  induction accessible with
  | intro node _ ih =>
    intro cycle
    obtain ⟨first, edge, back⟩ := Relation.TransGen.head'_iff.mp cycle
    exact ih first edge (Relation.TransGen.tail' back edge)

/-- Every black node leads to finitely many. -/
def Finished (edges : α → List α) (black : List α) : Prop :=
  ∀ node ∈ black, Acc (fun there here => there ∈ edges here) node

variable {edges : α → List α} {left : Nat} {gray black after nodes : List α} {node : α} {visit : List α → α → Option (List α)}

/-- A fold of visits that finds no cycle leaves every node it was given black. -/
theorem foldlM_finished
    (visited : ∀ {black node after}, visit black node = some after → Finished edges black →
      Finished edges after ∧ node ∈ after ∧ black ⊆ after)
    (folded : nodes.foldlM visit black = some after) (finished : Finished edges black) :
    Finished edges after ∧ (∀ node ∈ nodes, node ∈ after) ∧ black ⊆ after := by
  induction nodes generalizing black with
  | nil =>
    cases folded
    exact ⟨finished, nofun, fun _ member => member⟩
  | cons first rest ih =>
    obtain ⟨_, done, folded⟩ := Option.bind_eq_some_iff.mp folded
    obtain ⟨middleFinished, firstIn, grown⟩ := visited done finished
    obtain ⟨afterFinished, restIn, more⟩ := ih folded middleFinished
    exact ⟨afterFinished, List.forall_mem_cons.mpr ⟨more firstIn, restIn⟩, fun _ member => more (grown member)⟩

/-- A fold of visits that finds a cycle has one visit that does. -/
theorem foldlM_eq_none (folded : nodes.foldlM visit black = none) :
    ∃ node ∈ nodes, ∃ reached, visit reached node = none := by
  induction nodes generalizing black with
  | nil => contradiction
  | cons first rest ih =>
    rw [List.foldlM_cons] at folded
    cases visited : visit black first with
    | none => exact ⟨first, List.mem_cons_self, black, visited⟩
    | some =>
      rw [visited] at folded
      obtain ⟨node, member, found⟩ := ih folded
      exact ⟨node, List.mem_cons_of_mem _ member, found⟩

variable [DecidableEq α]

/-- The black nodes once the node is black, or `none` when a gray node was met. -/
def explore (edges : α → List α) : Nat → List α → List α → α → Option (List α)
  | 0, _, _, _ => none
  | left + 1, gray, black, node =>
    ((edges node).foldlM
      (fun black next =>
        if next ∈ node :: gray then none
        else if next ∈ black then some black
        else explore edges left (node :: gray) black next)
      black).map (node :: ·)

def exploreAll (edges : α → List α) (nodes : List α) : Option (List α) :=
  nodes.foldlM (fun black node => if node ∈ black then some black else explore edges (nodes.length + 1) [] black node) []

theorem explore_finished (explored : explore edges left gray black node = some after) (finished : Finished edges black) :
    Finished edges after ∧ node ∈ after ∧ black ⊆ after := by
  induction left generalizing gray black node after with
  | zero => contradiction
  | succ left ih =>
    obtain ⟨_, folded, rfl⟩ := Option.map_eq_some_iff.mp explored
    have visited := foldlM_finished (fun {black next after} visited blackFinished => by
      split at visited <;> try contradiction
      split at visited
      · cases visited
        exact ⟨blackFinished, by assumption, fun _ member => member⟩
      · exact ih visited blackFinished) folded finished
    obtain ⟨grownFinished, nextIn, kept⟩ := visited
    have accessible : Acc (fun there here => there ∈ edges here) node :=
      .intro node fun next edge => grownFinished next (nextIn next edge)
    exact ⟨List.forall_mem_cons.mpr ⟨accessible, grownFinished⟩, List.mem_cons_self,
      fun _ member => List.mem_cons_of_mem _ (kept member)⟩

/-- The visits under way lead to the node at hand, so a gray node among its successors closes a cycle; there are at
most as many as nodes, so the search does not run out. -/
theorem explore_eq_none (closed : ∀ node ∈ nodes, ∀ next ∈ edges node, next ∈ nodes)
    (explored : explore edges left gray black node = none) (within : ∀ here ∈ node :: gray, here ∈ nodes)
    (distinct : (node :: gray).Nodup)
    (leads : ∀ here ∈ gray, Relation.TransGen (fun here there => there ∈ edges here) here node)
    (enough : nodes.length < left + gray.length) : ¬ Acyclic edges := by
  induction left generalizing gray black node with
  | zero =>
    have bounded : (node :: gray).length ≤ nodes.length := (List.subperm_of_subset distinct within).length_le
    simp only [List.length_cons] at bounded
    omega
  | succ left ih =>
    rw [explore, Option.map_eq_none_iff] at explored
    obtain ⟨next, edge, _, found⟩ := foldlM_eq_none explored
    have onward : ∀ here ∈ node :: gray, Relation.TransGen (fun here there => there ∈ edges here) here next := by
      intro here member
      rcases List.mem_cons.mp member with rfl | earlier
      · exact .single edge
      · exact (leads here earlier).tail edge
    split at found
    next met =>
      exact fun acyclic => acyclic next (onward next met)
    rename_i white
    split at found <;> try contradiction
    refine ih found ?_ (List.nodup_cons.mpr ⟨white, distinct⟩) onward ?_
    · exact List.forall_mem_cons.mpr ⟨closed node (within node List.mem_cons_self) next edge, within⟩
    · rw [List.length_cons]
      omega

/-- The search over all the nodes of a graph finds a cycle exactly when there is one. -/
theorem exploreAll_eq_none_iff (closed : ∀ node ∈ nodes, ∀ next ∈ edges node, next ∈ nodes)
    (outside : ∀ node, node ∉ nodes → edges node = []) : exploreAll edges nodes = none ↔ ¬ Acyclic edges := by
  constructor
  · intro failed
    obtain ⟨node, member, _, found⟩ := foldlM_eq_none failed
    split at found <;> try contradiction
    exact explore_eq_none closed found (by simpa using member) (List.nodup_singleton node)
      nofun (by simp)
  intro cyclic
  cases explored : exploreAll edges nodes with
  | none => rfl
  | some after =>
    have finished := foldlM_finished (fun {black node after} visited blackFinished => by
      split at visited
      · cases visited
        exact ⟨blackFinished, by assumption, fun _ member => member⟩
      · exact explore_finished visited blackFinished) explored nofun
    refine absurd (fun node => ?_) cyclic
    by_cases member : node ∈ nodes
    · exact acyclic_of_acc (finished.1 node (finished.2.1 node member))
    intro cycle
    obtain ⟨_, edge, _⟩ := Relation.TransGen.head'_iff.mp cycle
    rw [outside node member] at edge
    contradiction

end Swarmada.Graph
