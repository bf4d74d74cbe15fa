import Swarmada.Estopscope.Walks

namespace Swarmada.Estopscope

open Api Graph

namespace Tree

/-- Whether the stop reaches each zone, and the positions of the zones whose chain cannot be
walked. -/
def fanOutScope (tree : Tree) (carrier : String) (zones : List String) (toChildren : Bool) : List Bool × List Nat :=
  (zones.map fun zone => (tree.covers carrier zone toChildren).toOption.getD true,
    zones.zipIdx.filterMap fun (zone, index) =>
      match tree.covers carrier zone toChildren with
      | .error _ => some index
      | .ok _ => none)

/-- The zone is reached from the carrier over any number of child links. -/
def ReachedFrom (tree : Tree) (carrier zone : String) : Prop :=
  Relation.ReflTransGen (fun parent child => child ∈ tree.children parent) carrier zone

variable {tree : Tree} {carrier zone : String} {zones : List String} {toChildren : Bool} {index : Nat}

theorem mem_children_iff {parent : String} : zone ∈ tree.children parent ↔ tree.parent zone = some parent := by
  constructor
  · intro member
    obtain ⟨_, below⟩ := List.mem_filter.mp member
    cases found : tree.zone zone with
    | none => simp [found] at below
    | some =>
      simp only [found, Bool.and_eq_true, decide_eq_true_eq] at below
      rw [parent_of_zone found, named_of_ne below.1, below.2]
  · intro step
    obtain ⟨held, found, above⟩ := Option.bind_eq_some_iff.mp step
    by_cases root : held.parentZone = ""
    · simp [named, root] at above
    · rw [named_of_ne root, Option.some.injEq] at above
      exact above ▸ mem_children found root

theorem reachedFrom_iff : tree.ReachedFrom carrier zone ↔ zone = carrier ∨ Beyond tree.parent zone carrier := by
  unfold ReachedFrom Beyond
  simp only [mem_children_iff]
  rw [← Relation.transGen_swap, Relation.reflTransGen_iff_eq_or_transGen]

theorem fanOutScope_at (asked : zones[index]? = some zone) :
    (tree.fanOutScope carrier zones toChildren).1[index]? = some ((tree.covers carrier zone toChildren).toOption.getD true) := by
  simp [fanOutScope, asked]

theorem mem_undecided (asked : zones[index]? = some zone) :
    index ∈ (tree.fanOutScope carrier zones toChildren).2 ↔ (tree.covers carrier zone toChildren).toOption = none := by
  simp only [fanOutScope, List.mem_filterMap, List.mem_zipIdx_iff_getElem?]
  constructor
  · rintro ⟨⟨_, _⟩, placed, found⟩
    split at found <;> try contradiction
    rename_i failed
    cases found
    cases placed.symm.trans asked
    rw [failed]
    rfl
  · intro failed
    refine ⟨(zone, index), asked, ?_⟩
    cases answer : tree.covers carrier zone toChildren with
    | error => rfl
    | ok => simp [answer, Except.toOption] at failed

theorem covers_cases (held : ∃ found, tree.zone carrier = some found) (placed : zone ≠ "") :
    ((tree.covers carrier zone toChildren).toOption = none ↔
        zone ≠ carrier ∧ toChildren = true ∧ chain tree.parent maxAncestors (tree.parent zone) = none) ∧
      ∀ covered, tree.covers carrier zone toChildren = .ok covered →
        (covered = true ↔ zone = carrier ∨ toChildren = true ∧ Beyond tree.parent zone carrier) := by
  unfold covers
  rw [if_neg placed]
  by_cases own : zone = carrier
  · rw [if_pos own]
    exact ⟨by simp [own, Except.toOption], fun covered same => by cases same; simp [own]⟩
  rw [if_neg own]
  cases toChildren with
  | false => exact ⟨by simp [Except.toOption], fun covered same => by cases same; simp [own]⟩
  | true =>
    have walked := ancestors_eq_chain tree zone
    cases climbed : tree.ancestors zone with
    | error =>
      rw [climbed] at walked
      have endless := Option.map_eq_none_iff.mp walked.symm
      exact ⟨by simp [own, endless, Except.toOption], fun covered same => by cases same⟩
    | ok =>
      rw [climbed] at walked
      obtain ⟨_, met, _⟩ := Option.map_eq_some_iff.mp walked.symm
      refine ⟨by simp [met, Except.toOption], fun covered same => ?_⟩
      cases same
      simp only [List.any_eq_true, decide_eq_true_eq, mem_ancestors climbed, own, held, and_true, true_and, false_or]

def halls : Tree where
  zones := [{ name := "site" }, { name := "hall", parentZone := "site" }, { name := "yard", parentZone := "lot" }]
  distinct := by decide

end Tree

end Swarmada.Estopscope
