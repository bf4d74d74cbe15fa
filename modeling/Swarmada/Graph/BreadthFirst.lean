import Mathlib.Data.List.Basic

/-! # Breadth-first listing of what lies below a node

The listing grows while it is read: node `i` of it is expanded by appending its
children.  A child met a second time, or a listing longer than `bound`, ends it.
-/

namespace Swarmada.Graph

universe u

variable {α : Type u} [DecidableEq α]

inductive WalkError (α : Type u) where
  | repeated (node : α)
  | tooMany
deriving DecidableEq, Repr

def visit (seen : List α) : List α → Except (WalkError α) (List α)
  | [] => .ok seen
  | child :: rest => if child ∈ seen then .error (.repeated child) else visit (seen ++ [child]) rest

/-- Expand the listing from position `i` on.  The last argument but one counts down from
`bound + 1` as `i` counts up, so that it is spent only when the listing has been read. -/
def expand (children : α → List α) (bound : Nat) : Nat → List α → Nat → Except (WalkError α) (List α)
  | 0, out, _ => .ok out
  | left + 1, out, i =>
    match out[i]? with
    | none => .ok out
    | some node =>
      match visit out (children node) with
      | .error error => .error error
      | .ok grown => if bound < grown.length then .error .tooMany else expand children bound left grown (i + 1)

def breadthFirst (children : α → List α) (bound : Nat) (root : α) : Except (WalkError α) (List α) :=
  expand children bound (bound + 1) [root] 0

variable {children : α → List α} {bound : Nat} {out result : List α}

theorem visit_ok (visited : visit seen nodes = .ok out) : out = seen ++ nodes := by
  induction nodes generalizing seen with
  | nil =>
    cases visited
    simp
  | cons child rest ih =>
    rw [visit] at visited
    split at visited <;> try contradiction
    rw [ih visited]
    simp

/-- The children of the first `i` nodes are in the listing. -/
def Expanded (children : α → List α) (out : List α) (i : Nat) : Prop :=
  ∀ j node, j < i → out[j]? = some node → ∀ child ∈ children node, child ∈ out

omit [DecidableEq α] in
theorem Expanded.closed {i : Nat} (expanded : Expanded children out i) (read : out.length ≤ i) :
    ∀ node ∈ out, ∀ child ∈ children node, child ∈ out := by
  intro node member child below
  obtain ⟨j, bounded, found⟩ := List.getElem_of_mem member
  have listed : out[j]? = some node := by rw [List.getElem?_eq_getElem bounded, found]
  exact expanded j node (by omega) listed child below

omit [DecidableEq α] in
theorem Expanded.grow {i : Nat} {node : α} (expanded : Expanded children out i)
    (present : out[i]? = some node) : Expanded children (out ++ children node) (i + 1) := by
  have position : i < out.length := (List.getElem?_eq_some_iff.mp present).1
  intro j other bounded found child below
  rw [List.getElem?_append_left (by omega)] at found
  by_cases last : j = i
  · subst last
    have same : node = other := Option.some.inj (present.symm.trans found)
    exact List.mem_append_right _ (same ▸ below)
  · exact List.mem_append_left _ (expanded j other (by omega) found child below)

theorem expand_closed (counted : i + left = bound + 1) (short : out.length ≤ bound)
    (expanded : Expanded children out i) (ran : expand children bound left out i = .ok result) :
    (∀ node ∈ out, node ∈ result) ∧ ∀ node ∈ result, ∀ child ∈ children node, child ∈ result := by
  induction left generalizing out i with
  | zero =>
    cases ran
    exact ⟨fun _ member => member, expanded.closed (by omega)⟩
  | succ left ih =>
    rw [expand] at ran
    split at ran
    next absent =>
      cases ran
      exact ⟨fun _ member => member, expanded.closed (List.getElem?_eq_none_iff.mp absent)⟩
    rename_i node present
    split at ran <;> try contradiction
    rename_i grown visited
    have appended := visit_ok visited
    subst appended
    split at ran <;> try contradiction
    obtain ⟨kept, closed⟩ := ih (by omega) (by omega) (expanded.grow present) ran
    exact ⟨fun other member => kept other (List.mem_append_left _ member), closed⟩

/-- A completed listing holds its root, and with each node the node's children. -/
theorem breadthFirst_closed (positive : 0 < bound) (ran : breadthFirst children bound root = .ok result) :
    root ∈ result ∧ ∀ node ∈ result, ∀ child ∈ children node, child ∈ result := by
  obtain ⟨kept, closed⟩ := expand_closed (by omega) positive (by simp [Expanded]) ran
  exact ⟨kept root (by simp), closed⟩

end Swarmada.Graph
