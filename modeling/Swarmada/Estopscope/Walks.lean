import Swarmada.Estopscope.Holder
import Swarmada.Estopscope.Tree
import Swarmada.Graph.Chain

namespace Swarmada.Estopscope

open Api Graph

/-- What a `parentZone` names. -/
def named (name : String) : Option String := if name = "" then none else some name

theorem named_of_ne (placed : name ≠ "") : named name = some name := if_neg placed

namespace Tree

/-- The zone a zone names as its parent, whether or not the tree holds it. -/
def parent (tree : Tree) (name : String) : Option String :=
  (tree.zone name).bind fun zone => named zone.parentZone

/-- The stops from `name` up.  `own` is whether the zone's own policy does not count, and
`left` how many more zones the bound admits. -/
def stopsFrom (tree : Tree) (start : String) (stopped : FleetZone → Bool) :
    Bool → Nat → String → Except String (List String)
  | own, left, name =>
    if name = "" then .ok []
    else
      match left with
      | 0 => .error ("the parentZone chain above zone " ++ quote start ++ " is deeper than " ++
          toString maxAncestors ++ " zones; it cannot be checked for a stop still being applied")
      | left + 1 =>
        match tree.zone name with
        | none => .ok []
        | some zone =>
          (stopsFrom tree start stopped false left zone.parentZone).map
            ((if stopped zone && (own || propagatesDown zone) then [zone.name] else []) ++ ·)

def stopsOver (tree : Tree) (start : String) (self : Bool) (stopped : FleetZone → Bool) : Except String (List String) :=
  tree.stopsFrom start stopped self (maxAncestors + 1) start

def covers (tree : Tree) (carrier zone : String) (toChildren : Bool) : Except TooDeepError Bool :=
  if zone = "" then .ok false
  else if zone = carrier then .ok true
  else if !toChildren then .ok false
  else
    match tree.ancestors zone with
    | .error error => .error error
    | .ok above => .ok (above.any (fun ancestor => ancestor.name = carrier))

/-- The carrier's stop reaches what stands in the zone: it is the zone's own, or the carrier
lies above the zone and propagates. -/
def Over (tree : Tree) (stopped : FleetZone → Bool) (zone carrier : String) : Prop :=
  ∃ found, tree.zone carrier = some found ∧ stopped found = true ∧
    (carrier = zone ∨ Beyond tree.parent zone carrier ∧ propagatesDown found = true)

variable {tree : Tree} {name carrier : String} {zone : FleetZone} {above : List FleetZone} {stopped : FleetZone → Bool}

theorem parent_of_zone (found : tree.zone name = some zone) : tree.parent name = named zone.parentZone := by
  simp [parent, found]

theorem parent_of_missing (missing : tree.zone name = none) : tree.parent name = none := by
  simp [parent, missing]

theorem toOption_map (walked : Except ε β) (add : β → γ) :
    (walked.map add).toOption = walked.toOption.map add := by
  cases walked <;> rfl

theorem climb_succ (placed : name ≠ "") (fresh : name ∉ seen) (found : tree.zone name = some zone) :
    tree.climb start (left + 1) seen name = (tree.climb start left (name :: seen) zone.parentZone).map (zone :: ·) := by
  rw [climb]
  simp only [placed, fresh, found, if_false]
  cases tree.climb start left (name :: seen) zone.parentZone <;> rfl

theorem climb_eq_guardedChain (start : String) (left : Nat) (seen : List String) (name : String) :
    (tree.climb start left seen name).toOption =
      (guardedChain tree.parent left seen (named name)).map (List.filterMap tree.zone) := by
  induction left generalizing seen name with
  | zero => by_cases last : name = "" <;> simp [climb, named, last, guardedChain, Except.toOption]
  | succ left ih =>
    by_cases last : name = ""
    · simp [climb, named, last, guardedChain, Except.toOption]
    rw [named_of_ne last, guardedChain]
    by_cases again : name ∈ seen
    · simp [climb, last, again, Except.toOption]
    rw [if_neg again]
    cases found : tree.zone name with
    | none => simp [climb, last, again, parent_of_missing found, guardedChain, found, Except.toOption]
    | some =>
      rw [climb_succ last again found, toOption_map, ih, parent_of_zone found, Option.map_map, Option.map_map]
      simp [Function.comp_def, found]

theorem ancestors_eq_chain (tree : Tree) (name : String) : (tree.ancestors name).toOption =
      (chain tree.parent maxAncestors (tree.parent name)).map (List.filterMap tree.zone) := by
  cases found : tree.zone name with
  | none => simp [ancestors, parent_of_missing found, found, chain, Except.toOption]
  | some =>
    rw [ancestors, found]
    rw [climb_eq_guardedChain, parent_of_zone found, guardedChain_eq_chain]
    intro first step earlier member
    obtain rfl := List.mem_singleton.mp member
    exact .single ((parent_of_zone found).trans step)

def propagating (tree : Tree) (stopped : FleetZone → Bool) (names : List String) : List String :=
  ((names.filterMap tree.zone).filter (fun zone => stopped zone && propagatesDown zone)).map FleetZone.name

theorem stopsFrom_eq_chain (start : String) (left : Nat) (name : String) :
    (tree.stopsFrom start stopped false left name).toOption =
      (chain tree.parent left (named name)).map (tree.propagating stopped) := by
  induction left generalizing name with
  | zero => by_cases last : name = "" <;> simp [stopsFrom, named, last, chain, Except.toOption, propagating]
  | succ left ih =>
    by_cases last : name = ""
    · simp [stopsFrom, named, last, chain, Except.toOption, propagating]
    rw [stopsFrom, named_of_ne last, chain]
    simp only [last, if_false]
    cases found : tree.zone name with
    | none => simp [parent_of_missing found, chain, found, Except.toOption, propagating]
    | some zone =>
      rw [toOption_map, ih, parent_of_zone found, Option.map_map, Option.map_map]
      congr 1
      funext names
      by_cases stops : stopped zone && propagatesDown zone <;>
        simp [propagating, found, stops]

theorem reaching_eq_chain (found : tree.zone name = some zone) : (tree.reaching name stopped).toOption =
      (chain tree.parent maxAncestors (tree.parent name)).map fun names =>
        (if stopped zone then [zone.name] else []) ++ tree.propagating stopped names := by
  have walked := ancestors_eq_chain tree name
  unfold reaching
  rw [found]
  cases above : tree.ancestors name with
  | error =>
    rw [above] at walked
    rw [Option.map_eq_none_iff.mp walked.symm]
    rfl
  | ok =>
    rw [above] at walked
    obtain ⟨_, met, rfl⟩ := Option.map_eq_some_iff.mp walked.symm
    rw [met]
    rfl

theorem stopsOver_eq_reaching (named : tree.zone "" = none) (name : String) (stopped : FleetZone → Bool) :
    (tree.stopsOver name true stopped).toOption = (tree.reaching name stopped).toOption := by
  by_cases placed : name = ""
  · subst placed
    simp [stopsOver, stopsFrom, reaching, named, Except.toOption]
  rw [stopsOver, stopsFrom]
  simp only [placed, if_false]
  cases found : tree.zone name with
  | none => simp [reaching, found, Except.toOption]
  | some =>
    rw [toOption_map, stopsFrom_eq_chain, reaching_eq_chain found, parent_of_zone found, Option.map_map]
    simp [Function.comp_def]

theorem mem_propagating {names : List String} : carrier ∈ tree.propagating stopped names ↔
      carrier ∈ names ∧ ∃ zone, tree.zone carrier = some zone ∧ stopped zone = true ∧ propagatesDown zone = true := by
  simp only [propagating, List.mem_map, List.mem_filter, List.mem_filterMap, Bool.and_eq_true]
  constructor
  · rintro ⟨zone, ⟨⟨_, member, found⟩, selected⟩, rfl⟩
    obtain rfl := zone_name found
    exact ⟨member, zone, found, selected⟩
  · rintro ⟨member, zone, found, selected⟩
    exact ⟨zone, ⟨⟨carrier, member, found⟩, selected⟩, zone_name found⟩

theorem mem_reaching {names : List String} (reached : tree.reaching name stopped = .ok names) :
    carrier ∈ names ↔ tree.Over stopped name carrier := by
  cases found : tree.zone name with
  | none =>
    rw [reaching, found] at reached
    cases reached
    have alone : ¬ Beyond tree.parent name carrier := by
      rw [beyond_iff, parent_of_missing found]
      simp
    simp only [Over, List.not_mem_nil, alone, false_and, or_false, false_iff]
    rintro ⟨_, held, -, rfl⟩
    simp [found] at held
  | some zone =>
    have walked := @reaching_eq_chain _ _ _ stopped found
    rw [reached] at walked
    obtain ⟨_, climbed, rfl⟩ := Option.map_eq_some_iff.mp walked.symm
    obtain rfl := zone_name found
    rw [List.mem_append, mem_propagating, mem_chain climbed]
    constructor
    · rintro (own | ⟨beyond, ancestor, held, selected, propagates⟩)
      · split at own <;> try contradiction
        rename_i selected
        obtain rfl := List.mem_singleton.mp own
        exact ⟨zone, found, selected, .inl rfl⟩
      · exact ⟨ancestor, held, selected, .inr ⟨beyond, propagates⟩⟩
    · rintro ⟨ancestor, held, selected, rfl | ⟨beyond, propagates⟩⟩
      · cases found.symm.trans held
        exact .inl (by simp [selected])
      · exact .inr ⟨beyond, ancestor, held, selected, propagates⟩

theorem mem_ancestors (climbed : tree.ancestors name = .ok above) : (∃ ancestor ∈ above, ancestor.name = carrier) ↔
      Beyond tree.parent name carrier ∧ ∃ zone, tree.zone carrier = some zone := by
  have walked := ancestors_eq_chain tree name
  rw [climbed] at walked
  obtain ⟨_, met, rfl⟩ := Option.map_eq_some_iff.mp walked.symm
  rw [← mem_chain met]
  simp only [List.mem_filterMap]
  constructor
  · rintro ⟨zone, ⟨_, member, found⟩, rfl⟩
    obtain rfl := zone_name found
    exact ⟨member, zone, found⟩
  · rintro ⟨member, zone, found⟩
    exact ⟨zone, ⟨carrier, member, found⟩, zone_name found⟩

theorem reaching_ok (climbed : tree.ancestors name = .ok above) (stopped : FleetZone → Bool) :
    ∃ names, tree.reaching name stopped = .ok names := by
  unfold reaching
  rw [climbed]
  cases tree.zone name with
  | none => exact ⟨[], rfl⟩
  | some => exact ⟨_, rfl⟩

theorem reaching_error (climbed : tree.ancestors name = .error error)
    (stopped : FleetZone → Bool) : tree.reaching name stopped = .error error := by
  unfold reaching
  rw [climbed]
  cases found : tree.zone name with
  | none => simp [ancestors, found] at climbed
  | some => rfl

/-- Asked with the carrier's own policy, `Covers` answers as `Reaching` does, and is true
at the carrier itself even where its chain cannot be walked. -/
theorem covers_iff_reaching {toChildren : Bool}
    (policy : ∀ zone, tree.zone carrier = some zone → propagatesDown zone = toChildren)
    (selected : ∀ zone, tree.zone carrier = some zone → stopped zone = true) (placed : name ≠ "") :
    tree.covers carrier name toChildren = .ok true ↔
      name = carrier ∨ ∃ names, tree.reaching name stopped = .ok names ∧ carrier ∈ names := by
  by_cases same : name = carrier
  · simp [covers, same ▸ placed, same]
  have other : carrier ≠ name := Ne.symm same
  simp only [covers, placed, same, if_false, false_or]
  cases toChildren with
  | false =>
    simp only [Bool.not_false, if_true, Except.ok.injEq, Bool.false_eq_true, false_iff]
    rintro ⟨_, reached, member⟩
    obtain ⟨zone, held, -, own | ⟨-, propagates⟩⟩ := (mem_reaching reached).mp member
    · exact other own
    · simp [policy zone held] at propagates
  | true =>
    cases climbed : tree.ancestors name with
    | error => simp [reaching_error climbed]
    | ok =>
      obtain ⟨names, reached⟩ := reaching_ok climbed stopped
      have listed : (∃ names, tree.reaching name stopped = .ok names ∧ carrier ∈ names) ↔ carrier ∈ names := by
        simp [reached]
      rw [listed, mem_reaching reached]
      simp only [Over, Bool.not_true, Bool.false_eq_true, if_false, Except.ok.injEq, List.any_eq_true,
        decide_eq_true_eq, mem_ancestors climbed, other, false_or]
      constructor
      · rintro ⟨beyond, zone, held⟩
        exact ⟨zone, held, selected zone held, beyond, policy zone held⟩
      · rintro ⟨zone, held, -, beyond, -⟩
        exact ⟨beyond, zone, held⟩

theorem covers_error (failed : tree.covers carrier name toChildren = .error error)
    (stopped : FleetZone → Bool) : tree.reaching name stopped = .error error := by
  unfold covers at failed
  split at failed <;> try contradiction
  split at failed <;> try contradiction
  split at failed <;> try contradiction
  split at failed <;> try contradiction
  rename_i climbed
  cases failed
  exact reaching_error climbed stopped

end Tree

end Swarmada.Estopscope
