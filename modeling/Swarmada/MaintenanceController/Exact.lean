import Mathlib.Data.List.Nodup
import Swarmada.MaintenanceController.Scope

namespace Swarmada.MaintenanceController

open Relation (ReflTransGen)
open Api Estopscope Graph

variable {zones : List CompositeZone} {name zone : String} {left : Nat} {seen path above targets : List String}

def parentOf (zones : List CompositeZone) (name : String) : Option String :=
  (zoneNamed zones name).bind fun zone => named zone.parentZone

/-- What admission lets stand: the zones have names, and each has at most `maxAncestors` ancestors. -/
structure Admissible (zones : List CompositeZone) : Prop where
  named : ∀ zone ∈ zones, zone.name ≠ ""
  bounded : ∀ name, ∃ above, chain (parentOf zones) maxAncestors (parentOf zones name) = some above

def MemberOf (zones : List CompositeZone) (name member : String) : Prop :=
  ∃ zone, zoneNamed zones name = some zone ∧ member ∈ zone.memberZones

/-- The place or a zone above it is the target or is reached from it through members. -/
def InScope (zones : List CompositeZone) (target place : String) : Prop :=
  ∃ zone ≠ "", (zone = place ∨ Beyond (parentOf zones) place zone) ∧ ReflTransGen (MemberOf zones) target zone

/-- The path ends at a missing member, comes back to a zone, or has more than `left` zones.  The zones
in `seen` stand before it. -/
def Faulty (zones : List CompositeZone) (left : Nat) (seen path : List String) : Prop :=
  (∃ last ∈ path.getLast?, zoneNamed zones last = none ∧ 1 < path.length + seen.length) ∨
    ¬ (path ++ seen).Nodup ∨ left < path.length

theorem faulty_cons :
    Faulty zones (left + 1) seen (name :: member :: rest) ↔ Faulty zones left (name :: seen) (member :: rest) := by
  unfold Faulty
  rw [List.getLast?_cons_cons, (@List.perm_middle _ name (member :: rest) seen).nodup_iff]
  simp only [List.length_cons, List.cons_append, Nat.add_lt_add_iff_right]
  rw [show rest.length + 1 + 1 + seen.length = rest.length + 1 + (seen.length + 1) by omega]

theorem not_memberOf (missing : zoneNamed zones name = none) (member : String) : ¬ MemberOf zones name member := by
  rintro ⟨_, present, -⟩
  rw [missing] at present
  cases present

theorem memberOf_iff (present : zoneNamed zones name = some found) :
    MemberOf zones name member ↔ member ∈ found.memberZones := by
  simp only [MemberOf, present, Option.some.injEq, exists_eq_left']

/-- The expansion reports something exactly when one of the paths it can take is faulty. -/
theorem expandMembers_unresolved (distinct : seen.Nodup) : (expandMembers zones left seen name).2 ≠ [] ↔
      ∃ rest, (name :: rest).IsChain (MemberOf zones) ∧ Faulty zones left seen (name :: rest) := by
  induction left generalizing seen name with
  | zero =>
    have faulty : Faulty zones 0 seen [name] := .inr (.inr Nat.one_pos)
    refine iff_of_true ?_ ⟨[], .singleton name, faulty⟩
    unfold expandMembers
    split <;> exact List.cons_ne_nil _ _
  | succ left ih =>
    unfold expandMembers
    by_cases met : name ∈ seen
    · have faulty : Faulty zones (left + 1) seen [name] :=
        .inr (.inl fun nodup => (List.nodup_cons.mp nodup).1 met)
      rw [if_pos met]
      exact iff_of_true (List.cons_ne_nil _ _) ⟨[], .singleton name, faulty⟩
    have fresh : (name :: seen).Nodup := List.nodup_cons.mpr ⟨met, distinct⟩
    have alone : Faulty zones (left + 1) seen [name] ↔ zoneNamed zones name = none ∧ seen ≠ [] := by
      simp [Faulty, fresh, List.length_pos_iff]
    rw [if_neg met]
    cases found : zoneNamed zones name with
    | none =>
      have only : ∀ rest, (name :: rest).IsChain (MemberOf zones) → rest = [] := by
        rintro (_ | ⟨member, _⟩) walked
        · rfl
        · exact absurd (List.isChain_cons_cons.mp walked).1 (not_memberOf found member)
      simp only [found, true_and] at alone
      constructor
      · intro reported
        refine ⟨[], .singleton name, alone.mpr fun empty => reported ?_⟩
        rw [if_pos empty]
      rintro ⟨rest, walked, faulty⟩
      obtain rfl := only rest walked
      rw [if_neg (alone.mp faulty)]
      exact List.cons_ne_nil _ _
    | some =>
      simp only [found, reduceCtorEq, false_and, iff_false] at alone
      simp only [ne_eq, List.flatMap_eq_nil_iff, List.mem_map, forall_exists_index, and_imp,
        forall_apply_eq_imp_iff₂, not_forall, exists_prop]
      constructor
      · rintro ⟨member, listed, reported⟩
        obtain ⟨rest, walked, faulty⟩ := (ih fresh).mp reported
        exact ⟨member :: rest, List.isChain_cons_cons.mpr ⟨(memberOf_iff found).mpr listed, walked⟩,
          faulty_cons.mpr faulty⟩
      · rintro ⟨_ | ⟨member, rest⟩, walked, faulty⟩
        · exact absurd faulty alone
        · obtain ⟨listed, further⟩ := List.isChain_cons_cons.mp walked
          exact ⟨member, (memberOf_iff found).mp listed, (ih fresh).mpr ⟨rest, further, faulty_cons.mp faulty⟩⟩

/-- An expansion that reports nothing has reached every zone the name is composed of. -/
theorem mem_expandMembers (resolved : (expandMembers zones left seen name).2 = []) :
    zone ∈ (expandMembers zones left seen name).1 ↔ ReflTransGen (MemberOf zones) name zone := by
  induction left generalizing seen name with
  | zero =>
    unfold expandMembers at resolved
    split at resolved <;> cases resolved
  | succ left ih =>
    unfold expandMembers at resolved ⊢
    split at resolved
    · cases resolved
    next met =>
    rw [if_neg met, ReflTransGen.cases_head_iff]
    cases found : zoneNamed zones name with
    | none => simp [not_memberOf found, eq_comm]
    | some =>
      simp only [found, List.flatMap_eq_nil_iff, List.mem_map, forall_exists_index, and_imp,
        forall_apply_eq_imp_iff₂] at resolved
      simp only [List.mem_cons, List.mem_flatMap, List.mem_map, exists_exists_and_eq_and, memberOf_iff found,
        @eq_comm _ zone]
      refine or_congr_right (exists_congr fun member => and_congr_right fun listed => ih (resolved member listed))

/-- The walk looks at the zone and at as many of its ancestors as the bound leaves. -/
theorem underZones_iff (walked : chain (parentOf zones) most (parentOf zones name) = some above)
    (placed : name ≠ "") : underZones zones targets left name = true ↔ ∃ zone ∈ (name :: above).take left, zone ∈ targets := by
  induction left generalizing name above most with
  | zero => simp [underZones]
  | succ left ih =>
    rw [underZones, if_neg placed, List.take_succ_cons]
    by_cases hit : name ∈ targets
    · simp [hit]
    have stop : ∀ left, underZones zones targets left "" = false := by
      rintro (_ | _) <;> rfl
    simp only [hit, if_false, List.exists_mem_cons_iff, false_or]
    cases found : zoneNamed zones name with
    | none =>
      simp only [parentOf, found, Option.bind_none, chain, Option.some.injEq] at walked
      simp [← walked]
    | some zone =>
      simp only [parentOf, found, Option.bind_some] at walked
      by_cases root : zone.parentZone = ""
      · simp only [named, if_pos root, chain, Option.some.injEq] at walked
        simp [← walked, root, stop]
      rw [named_of_ne root] at walked
      cases most with
      | zero => cases walked
      | succ =>
        obtain ⟨_, further, rfl⟩ := chain_succ walked
        exact ih further root

theorem parentOf_ne (child : parentOf zones name = some parent) : parent ≠ "" := by
  obtain ⟨_, -, names⟩ := Option.bind_eq_some_iff.mp child
  unfold named at names
  split at names
  · cases names
  next placed =>
    cases names
    exact placed

theorem resolveScope_zone (placed : target ≠ "") : resolveScope zones (.zone target) =
      { zones := (expandMembers zones (zmExpansionDepthCap + 1) [] target).1
        unresolved := (expandMembers zones (zmExpansionDepthCap + 1) [] target).2 } :=
  if_neg placed

section Forest

variable (forest : Admissible zones)
include forest

theorem Admissible.unnamed : zoneNamed zones "" = none := by
  refine List.find?_eq_none.mpr fun zone listed => ?_
  simpa using forest.named zone listed

theorem resolveScope_unresolved (target : String) :
    (resolveScope zones (.zone target)).unresolved = (expandMembers zones (zmExpansionDepthCap + 1) [] target).2 := by
  by_cases placed : target = ""
  · subst placed
    rw [expandMembers, forest.unnamed]
    rfl
  · rw [resolveScope_zone placed]

theorem mem_resolveScope (resolved : (resolveScope zones (.zone target)).unresolved = []) (placed : zone ≠ "") :
    zone ∈ (resolveScope zones (.zone target)).zones ↔ ReflTransGen (MemberOf zones) target zone := by
  rw [resolveScope_unresolved forest] at resolved
  rw [← mem_expandMembers resolved]
  by_cases empty : target = ""
  · subst empty
    rw [expandMembers, forest.unnamed]
    simp [resolveScope, placed]
  · rw [resolveScope_zone empty]

variable {place target : String} (walked : chain (parentOf zones) maxAncestors (parentOf zones place) = some above)
include walked

omit forest in
theorem above_ne (placed : place ≠ "") : ∀ zone ∈ place :: above, zone ≠ "" := by
  intro zone member
  rcases List.mem_cons.mp member with rfl | higher
  · exact placed
  · obtain ⟨_, -, step⟩ := Relation.TransGen.tail'_iff.mp ((mem_chain walked).mp higher)
    exact parentOf_ne step

theorem inScope_iff :
    InScope zones target place ↔ place ≠ "" ∧ ∃ zone ∈ place :: above, ReflTransGen (MemberOf zones) target zone := by
  simp only [InScope, List.mem_cons, mem_chain walked]
  constructor
  · rintro ⟨zone, placed, lies, reached⟩
    refine ⟨fun empty => ?_, zone, lies, reached⟩
    rcases lies with here | higher
    · exact placed (here.trans empty)
    obtain ⟨_, step, -⟩ := beyond_iff.mp higher
    rw [empty, parentOf, forest.unnamed] at step
    cases step
  · rintro ⟨placed, zone, lies, reached⟩
    have higher : zone ∈ place :: above := List.mem_cons.mpr (lies.imp_right (mem_chain walked).mpr)
    exact ⟨zone, above_ne walked placed zone higher, lies, reached⟩

theorem robotInScope_iff (stands : reportedZone robot.toRobot = place)
    (resolved : (resolveScope zones (.zone target)).unresolved = []) :
    robotInScope zones (resolveScope zones (.zone target)) robot = true ↔
      place ≠ "" ∧ ∃ zone ∈ (place :: above).take zmAncestorWalkCap, ReflTransGen (MemberOf zones) target zone := by
  have zonal : (resolveScope zones (.zone target)).namespaceWide = false := by
    unfold resolveScope
    dsimp only
    split <;> rfl
  rw [robotInScope, zonal, stands, Bool.false_or, Bool.and_eq_true, decide_eq_true_eq]
  by_cases placed : place = ""
  · simp [placed, underZones, zmAncestorWalkCap]
  have inside : ∀ zone ∈ (place :: above).take zmAncestorWalkCap,
      (zone ∈ (resolveScope zones (.zone target)).zones ↔ ReflTransGen (MemberOf zones) target zone) :=
    fun zone member => mem_resolveScope forest resolved (above_ne walked placed zone (List.mem_of_mem_take member))
  rw [underZones_iff walked placed, and_iff_right placed]
  constructor
  · rintro ⟨-, zone, member, listed⟩
    exact ⟨zone, member, (inside zone member).mp listed⟩
  rintro ⟨zone, member, reached⟩
  have listed := (inside zone member).mpr reached
  exact ⟨List.ne_nil_of_mem listed, zone, member, listed⟩

end Forest

/-- The robot's zone or an ancestor the walk looks at is reached from the target whenever the ancestor beyond
the walk is. -/
def Nearer (zones : List CompositeZone) (target : String) (chain : List String) : Prop :=
  ∀ top, chain[zmAncestorWalkCap]? = some top → ReflTransGen (MemberOf zones) target top →
    ∃ zone ∈ chain.take zmAncestorWalkCap, ReflTransGen (MemberOf zones) target zone

/-- A window whose scope resolves covers the robots it should, but for those of which it reaches only the last of
the ancestors that admission allows.  What does not resolve is reported in every forest. -/
theorem maintenance_scope_exact (forest : Admissible zones) (robot : FleetRobot) (target : String)
    (walked : chain (parentOf zones) maxAncestors (parentOf zones (reportedZone robot.toRobot)) = some above) :
    ((resolveScope zones (.zone target)).unresolved = [] →
        ((robotInScope zones (resolveScope zones (.zone target)) robot = true ↔
          InScope zones target (reportedZone robot.toRobot)) ↔
          Nearer zones target (reportedZone robot.toRobot :: above))) ∧
      ((resolveScope zones (.zone target)).unresolved ≠ [] ↔
        ∃ rest, (target :: rest).IsChain (MemberOf zones) ∧
          Faulty zones (zmExpansionDepthCap + 1) [] (target :: rest)) := by
  constructor
  · intro resolved
    rw [robotInScope_iff forest walked rfl resolved, inScope_iff forest walked]
    have short : (reportedZone robot.toRobot :: above).length ≤ zmAncestorWalkCap + 1 :=
      Nat.succ_le_succ (chain_length walked)
    have placed : reportedZone robot.toRobot = "" → above = [] := by
      intro empty
      rw [empty, parentOf, forest.unnamed] at walked
      cases walked
      rfl
    generalize reportedZone robot.toRobot = place at placed short ⊢
    have whole : ∀ zone ∈ place :: above, zone ∈ (place :: above).take zmAncestorWalkCap ∨
        (place :: above)[zmAncestorWalkCap]? = some zone := by
      intro zone member
      obtain ⟨i, found⟩ := List.mem_iff_getElem?.mp member
      have inside := (List.getElem?_eq_some_iff.mp found).1
      rcases Nat.lt_or_ge i zmAncestorWalkCap with near | _
      · exact .inl (List.mem_iff_getElem?.mpr ⟨i, by rw [List.getElem?_take_of_lt near, found]⟩)
      · obtain rfl : i = zmAncestorWalkCap := by omega
        exact .inr found
    constructor
    · intro agrees top last reached
      have stands : place ≠ "" := fun empty => by simp [placed empty, zmAncestorWalkCap] at last
      exact (agrees.mpr ⟨stands, top, List.mem_of_getElem? last, reached⟩).2
    intro nearer
    refine and_congr_right fun _ => ⟨?_, ?_⟩
    · exact fun ⟨zone, near, reached⟩ => ⟨zone, List.mem_of_mem_take near, reached⟩
    rintro ⟨zone, member, reached⟩
    rcases whole zone member with near | last
    · exact ⟨zone, near, reached⟩
    · exact nearer zone last reached
  · rw [resolveScope_unresolved forest]
    exact expandMembers_unresolved List.nodup_nil

def tower : List CompositeZone :=
  (List.range (maxAncestors + 1)).map fun level =>
    { name := toString level, parentZone := if level = 0 then "" else toString (level - 1) }

theorem tower_admissible : Admissible tower where
  named := by decide +kernel
  bounded := by
    have inside : ∀ zone ∈ tower, (chain (parentOf tower) maxAncestors (parentOf tower zone.name)).isSome = true := by
      decide +kernel
    intro name
    cases found : zoneNamed tower name with
    | none => exact ⟨[], by simp [parentOf, found, chain]⟩
    | some zone =>
      have here : zone.name = name := by simpa using List.find?_some found
      exact Option.isSome_iff_exists.mp (here ▸ inside zone (List.mem_of_find?_eq_some found))

def standingAt (zone : String) : FleetRobot := { ns := "plant", name := "r1", zone }

/-- One level above the bottom, every window is exact. -/
theorem maintenance_scope_exact_tower :
    robotInScope tower (resolveScope tower (.zone "0")) (standingAt "63") = true ∧ InScope tower "0" "63" := by
  have walked : chain (parentOf tower) maxAncestors (parentOf tower "63") =
      some ((List.range 63).reverse.map fun level => toString level) := by
    decide +kernel
  have covered : robotInScope tower (resolveScope tower (.zone "0")) (standingAt "63") = true := by decide +kernel
  have exact := (maintenance_scope_exact tower_admissible (standingAt "63") "0" walked).1 (by decide +kernel)
  have level : ∀ top, ("63" :: (List.range 63).reverse.map fun level => toString level)[64]? ≠ some top := nofun
  exact ⟨covered, (exact.mpr fun top last => absurd last (level top)).mp covered⟩

/-- A robot at the bottom of the tower is not in the scope of a window on its root. -/
theorem maintenance_scope_misses_root :
    Admissible tower ∧ (resolveScope tower (.zone "0")).unresolved = [] ∧ InScope tower "0" "64" ∧
      robotInScope tower (resolveScope tower (.zone "0")) (standingAt "64") = false := by
  have walked : chain (parentOf tower) maxAncestors (parentOf tower "64") =
      some ((List.range maxAncestors).reverse.map fun level => toString level) := by
    decide +kernel
  refine ⟨tower_admissible, by decide +kernel, ?_, by decide +kernel⟩
  exact (inScope_iff tower_admissible walked).mpr ⟨by decide, "0", by decide +kernel, .refl⟩

end Swarmada.MaintenanceController
