import Swarmada.Api.Zone
import Swarmada.Graph.BreadthFirst

namespace Swarmada.Estopscope

open Api Graph

def maxAncestors : Nat := 64

structure Tree where
  zones : List FleetZone
  distinct : (zones.map FleetZone.name).Nodup

structure TooDeepError where
  zone : String
  depth : Nat
deriving DecidableEq, Repr

namespace Tree

def zone (tree : Tree) (name : String) : Option FleetZone :=
  tree.zones.find? (fun zone => zone.name = name)

def names (tree : Tree) : List String := (tree.zones.map FleetZone.name).insertionSort (· ≤ ·)

def withZone (tree : Tree) (newZone : FleetZone) : Tree where
  zones := newZone :: tree.zones.filter (fun zone => zone.name ≠ newZone.name)
  distinct := by
    have others : ((tree.zones.filter (fun zone => zone.name ≠ newZone.name)).map FleetZone.name).Nodup :=
      tree.distinct.sublist (List.filter_sublist.map _)
    simpa using others

def climb (tree : Tree) (start : String) : Nat → List String → String → Except TooDeepError (List FleetZone)
  | left, seen, name =>
    if name = "" then .ok []
    else
      match left with
      | 0 => .error { zone := start, depth := maxAncestors }
      | left + 1 =>
        if name ∈ seen then .error { zone := start, depth := maxAncestors - (left + 1) }
        else
          match tree.zone name with
          | none => .ok []
          | some parent =>
            match climb tree start left (name :: seen) parent.parentZone with
            | .error error => .error error
            | .ok above => .ok (parent :: above)

def ancestors (tree : Tree) (name : String) : Except TooDeepError (List FleetZone) :=
  match tree.zone name with
  | none => .ok []
  | some zone => tree.climb name maxAncestors [name] zone.parentZone

/-- The names of the zones whose stop, as `stopped` selects it, reaches a robot standing
in the zone: the zone itself whatever its policy, and each ancestor that propagates. -/
def reaching (tree : Tree) (name : String) (stopped : FleetZone → Bool) : Except TooDeepError (List String) :=
  match tree.zone name with
  | none => .ok []
  | some zone =>
    match tree.ancestors name with
    | .error error => .error error
    | .ok above =>
      .ok ((if stopped zone then [zone.name] else []) ++
        (above.filter (fun ancestor => stopped ancestor && propagatesDown ancestor)).map FleetZone.name)

def children (tree : Tree) (parent : String) : List String :=
  tree.names.filter fun name =>
    match tree.zone name with
    | none => false
    | some zone => zone.parentZone ≠ "" && zone.parentZone = parent

def subtree (tree : Tree) (root : String) : Except TooDeepError (List String) :=
  match breadthFirst tree.children (tree.zones.length + 1) root with
  | .ok names => .ok names
  | .error (.repeated zone) => .error { zone, depth := maxAncestors }
  | .error .tooMany => .error { zone := root, depth := maxAncestors }

variable {tree : Tree} {name : String} {zone : FleetZone}

theorem zone_name (found : tree.zone name = some zone) : zone.name = name := by
  have matched := List.find?_some found
  simpa using matched

theorem mem_names (found : tree.zone name = some zone) : name ∈ tree.names := by
  have listed : zone ∈ tree.zones := List.mem_of_find?_eq_some found
  rw [names, List.mem_insertionSort, List.mem_map]
  exact ⟨zone, listed, zone_name found⟩

theorem mem_children (found : tree.zone name = some zone)
    (below : zone.parentZone ≠ "") : name ∈ tree.children zone.parentZone := by
  refine List.mem_filter.mpr ⟨mem_names found, ?_⟩
  simp [found, below]

theorem zone_withZone_of_ne (other : name ≠ newZone.name) : (tree.withZone newZone).zone name = tree.zone name := by
  have skipped : newZone.name ≠ name := Ne.symm other
  simp only [zone, withZone, List.find?_cons, List.find?_filter]
  simp only [skipped, decide_false]
  congr 1
  funext zone
  by_cases same : zone.name = name
  · simp [same, other]
  · simp [same]

theorem subtree_closed {names : List String} (listed : tree.subtree root = .ok names) :
    root ∈ names ∧ ∀ name ∈ names, ∀ child ∈ tree.children name, child ∈ names := by
  unfold subtree at listed
  split at listed
  next completed =>
    cases listed
    exact breadthFirst_closed (by omega) completed
  · contradiction
  · contradiction

end Tree

end Swarmada.Estopscope
