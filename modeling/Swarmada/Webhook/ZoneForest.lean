import Swarmada.Transition.Machine
import Swarmada.Webhook.ZoneAdmission

/-! # The zones of a namespace over a run of admitted writes

An object with finalizers is not removed by its delete: the API server marks it and removes
it with its last finalizer.
-/

namespace Swarmada.Webhook

open Api Estopscope Graph Transition

structure ZoneWrite where
  parentZone : String := ""
  annotations : List (String × String) := []
  finalizers : List String := []
  estopPolicy : Option ZoneEstopPolicy := none
deriving DecidableEq, Repr

def ZoneWrite.apply (write : ZoneWrite) (zone : FleetZone) : FleetZone :=
  { zone with
    parentZone := write.parentZone, annotations := write.annotations, finalizers := write.finalizers,
    estopPolicy := write.estopPolicy }

inductive ZoneRequest where
  | create (name uid : String) (write : ZoneWrite) (others : OtherChecks)
  | update (name : String) (write : ZoneWrite) (requester : Requester) (others : OtherChecks)
  | delete (name : String) (robots : List Robot) (targeted : List String)
deriving DecidableEq

inductive ZoneEvent where
  | admitted
  | refused (refusal : Refusal)
deriving DecidableEq

def withoutZone (tree : Tree) (name : String) : Tree where
  zones := tree.zones.filter (fun zone => zone.name ≠ name)
  distinct := tree.distinct.sublist (List.filter_sublist.map _)

/-- The tree an admitted update leaves: a zone marked for deletion goes with its last
finalizer. -/
def stored (tree : Tree) (zone : FleetZone) : Tree :=
  if zone.deleting && zone.finalizers.isEmpty then withoutZone tree zone.name else tree.withZone zone

/-- The tree after the request and, when one refused it, the refusal.  The zones are those
the validator lists. -/
def serve (ns : String) (tree : Tree) : ZoneRequest → Except Refusal Tree
  | .create name uid write others =>
    if name = "" then .error (.failed "name or generateName is required")
    else
      match tree.zone name with
      | some _ => .error (.failed ("fleetzones.swarmada.io " ++ quote name ++ " already exists"))
      | none =>
        let zone := write.apply { name, uid }
        (validateCreate ns tree others zone).map fun _ => tree.withZone zone
  | .update name write requester others =>
    match tree.zone name with
    | none => .error (.failed ("fleetzones.swarmada.io " ++ quote name ++ " not found"))
    | some old =>
      let new := write.apply old
      if old.deleting ∧ ¬ new.finalizers ⊆ old.finalizers then
        .error (.failed "no new finalizers can be added if the object is being deleted")
      else (validateZoneUpdate ns tree requester others old new).map fun _ => stored tree new
  | .delete name robots targeted =>
    match tree.zone name with
    | none => .error (.failed ("fleetzones.swarmada.io " ++ quote name ++ " not found"))
    | some zone =>
      (validateDelete ns tree robots targeted zone).map fun _ => stored tree { zone with deleting := true }

def zoneStore (ns : String) : Machine Tree ZoneRequest ZoneEvent where
  step tree request :=
    match serve ns tree request with
    | .ok after => some (after, [.admitted])
    | .error refusal => some (tree, [.refused refusal])

def noZones : Tree := { zones := [], distinct := .nil }

/-- Acyclic, with every parent named there, and no zone deeper than the bound. -/
structure WellFormed (tree : Tree) : Prop where
  acyclic : ∀ name, ¬ Beyond tree.parent name name
  rooted : ∀ name parent, tree.parent name = some parent → ∃ zone, tree.zone parent = some zone
  shallow : ∀ name, ∃ above : List String, above.length ≤ maxAncestors ∧
    ∀ ancestor, Beyond tree.parent name ancestor → ancestor ∈ above

/-- The request puts no zone under a parent that is being deleted. -/
def NoDeletingParent (_ : List ZoneEvent) (tree : Tree) : ZoneRequest → Prop
  | .create _ _ write _ => ∀ parent ∈ tree.zone write.parentZone, parent.deleting = false
  | .update name write _ _ =>
    ∀ zone ∈ tree.zone name, write.parentZone ≠ zone.parentZone →
      ∀ parent ∈ tree.zone write.parentZone, parent.deleting = false
  | .delete _ _ _ => True

instance decidableNoDeletingParent (history : List ZoneEvent) (tree : Tree) :
    ∀ request, Decidable (NoDeletingParent history tree request)
  | .create _ _ write _ => inferInstanceAs (Decidable (∀ parent ∈ tree.zone write.parentZone, parent.deleting = false))
  | .update name write _ _ =>
    inferInstanceAs (Decidable (∀ zone ∈ tree.zone name, write.parentZone ≠ zone.parentZone →
      ∀ parent ∈ tree.zone write.parentZone, parent.deleting = false))
  | .delete _ _ _ => isTrue trivial

variable {ns : String} {tree : Tree} {zone new : FleetZone} {name : String}

theorem zone_withZone_self : (tree.withZone new).zone new.name = some new := by
  simp [Tree.zone, Tree.withZone]

theorem zone_withoutZone_of_ne (other : name ≠ zone.name) : (withoutZone tree zone.name).zone name = tree.zone name := by
  simp only [Tree.zone, withoutZone, List.find?_filter]
  congr 1
  funext candidate
  by_cases same : candidate.name = name <;> simp [same, other]

theorem zone_withoutZone_self : (withoutZone tree name).zone name = none := by
  simp [Tree.zone, withoutZone]

theorem parent_congr {after : Tree} (same : after.zone name = tree.zone name) :
    after.parent name = tree.parent name := by
  simp [Tree.parent, same]

structure Sound (tree : Tree) : Prop where
  rooted : ∀ name zone, tree.zone name = some zone → zone.parentZone ≠ "" →
    ∃ parent, tree.zone zone.parentZone = some parent ∧ parent.deleting = false
  bounded : ∀ name, ∃ above, chain tree.parent maxAncestors (tree.parent name) = some above

theorem Sound.parent (sound : Sound tree) (step : tree.parent name = some far) :
    ∃ parent, tree.zone far = some parent ∧ parent.deleting = false := by
  cases found : tree.zone name with
  | none => simp [Tree.parent_of_missing found] at step
  | some zone =>
    rw [Tree.parent_of_zone found, named] at step
    split at step <;> try contradiction
    rename_i child
    cases step
    exact sound.rooted name zone found child

theorem Sound.wellFormed (sound : Sound tree) : WellFormed tree where
  acyclic name := by
    obtain ⟨above, walked⟩ := sound.bounded name
    have longer : chain tree.parent (maxAncestors + 1) (some name) = some (name :: above) := by
      rw [chain, walked]
      rfl
    exact not_beyond_self longer
  rooted name parent step := by
    obtain ⟨zone, found, -⟩ := sound.parent step
    exact ⟨zone, found⟩
  shallow name := by
    obtain ⟨above, walked⟩ := sound.bounded name
    exact ⟨above, chain_length walked, fun ancestor => (mem_chain walked).mpr⟩

theorem bounded_of_agree {after : Tree} {inside : String → Prop} (sound : Sound tree)
    (agree : ∀ name, inside name → after.zone name = tree.zone name)
    (stays : ∀ name far, inside name → tree.parent name = some far → inside far) (here : inside name) :
    ∃ above, chain after.parent maxAncestors (after.parent name) = some above := by
  rw [parent_congr (agree name here), chain_congr (fun name here => parent_congr (agree name here)) stays]
  · exact sound.bounded name
  · exact fun far step => stays name far here step

theorem parent_cases (step : tree.parent name = some far) :
    ∃ zone, tree.zone name = some zone ∧ zone.parentZone = far ∧ far ≠ "" := by
  cases found : tree.zone name with
  | none => simp [Tree.parent_of_missing found] at step
  | some zone =>
    rw [Tree.parent_of_zone found, named] at step
    split at step <;> try contradiction
    rename_i child
    cases step
    exact ⟨zone, rfl, rfl, child⟩

theorem chain_of_walkFrom (fine : (walkFrom tree start left visited path current).2 = none) :
    ∃ above, chain tree.parent left (named current) = some above := by
  induction left generalizing visited path current with
  | zero =>
    unfold walkFrom at fine
    split at fine <;> try contradiction
    rename_i last
    exact ⟨[], by simp [named, last, chain]⟩
  | succ left ih =>
    unfold walkFrom at fine
    split at fine
    next last =>
      exact ⟨[], by simp [named, last, chain]⟩
    rename_i further
    rw [named_of_ne further, chain]
    dsimp only at fine
    split at fine <;> try contradiction
    split at fine
    next missing =>
      exact ⟨[current], by simp [Tree.parent_of_missing missing, chain]⟩
    rename_i parent found
    obtain ⟨above, walked⟩ := ih fine
    exact ⟨current :: above, by rw [Tree.parent_of_zone found, walked]; rfl⟩

theorem Sound.create (sound : Sound tree) (absent : tree.zone zone.name = none) (valid : parentErrors ns tree zone = [])
    (live : ∀ parent, tree.zone zone.parentZone = some parent → parent.deleting = false) :
    Sound (tree.withZone zone) := by
  have others {name : String} (found : ∃ held, tree.zone name = some held) : name ≠ zone.name := by
    rintro rfl
    simp [absent] at found
  have agree (name : String) (other : name ≠ zone.name) : (tree.withZone zone).zone name = tree.zone name :=
    Tree.zone_withZone_of_ne other
  have stays (name far : String) (_ : name ≠ zone.name) (step : tree.parent name = some far) : far ≠ zone.name := by
    obtain ⟨parent, found, -⟩ := sound.parent step
    exact others ⟨parent, found⟩
  refine ⟨fun name held found child => ?_, fun name => ?_⟩
  · by_cases same : name = zone.name
    · subst same
      obtain rfl := Option.some.inj (zone_withZone_self.symm.trans found)
      obtain ⟨-, ⟨parent, known⟩, -⟩ := parentErrors_nil valid child
      exact ⟨parent, (agree _ (others ⟨parent, known⟩)).trans known, live parent known⟩
    · rw [agree name same] at found
      obtain ⟨parent, known, stands⟩ := sound.rooted name held found child
      exact ⟨parent, (agree _ (others ⟨parent, known⟩)).trans known, stands⟩
  · by_cases same : name = zone.name
    · subst same
      rw [Tree.parent_of_zone zone_withZone_self]
      by_cases child : zone.parentZone = ""
      · exact ⟨[], by simp [named, child, chain]⟩
      obtain ⟨other, -, fine⟩ := parentErrors_nil valid child
      rw [chain_congr (fun name other => parent_congr (agree name other)) stays]
      · exact chain_of_walkFrom fine
      intro first step
      rw [named_of_ne child] at step
      exact Option.some.inj step ▸ other
    · exact bounded_of_agree sound agree stays same

theorem parent_withZone (found : tree.zone new.name = some zone) (same : new.parentZone = zone.parentZone) :
    (tree.withZone new).parent = tree.parent := by
  funext name
  by_cases edited : name = new.name
  · subst edited
    rw [Tree.parent_of_zone zone_withZone_self, Tree.parent_of_zone found, same]
  · exact parent_congr (Tree.zone_withZone_of_ne edited)

variable (sound : Sound tree)
include sound

theorem Sound.rewrite (found : tree.zone new.name = some zone) (same : new.parentZone = zone.parentZone)
    (live : ∀ name held, tree.zone name = some held → held.parentZone ≠ "" → held.parentZone = new.name →
      new.deleting = false) :
    Sound (tree.withZone new) := by
  refine ⟨fun name held standing child => ?_, fun name => ?_⟩
  · have before : ∃ was, tree.zone name = some was ∧ was.parentZone = held.parentZone := by
      by_cases edited : name = new.name
      · subst edited
        obtain rfl := Option.some.inj (zone_withZone_self.symm.trans standing)
        exact ⟨zone, found, same.symm⟩
      · exact ⟨held, (Tree.zone_withZone_of_ne edited).symm.trans standing, rfl⟩
    obtain ⟨was, known, parentKept⟩ := before
    rw [← parentKept] at child ⊢
    by_cases edited : was.parentZone = new.name
    · exact ⟨new, edited ▸ zone_withZone_self, live name was known child edited⟩
    · rw [Tree.zone_withZone_of_ne edited]
      exact sound.rooted name was known child
  · rw [parent_withZone found same]
    exact sound.bounded name

theorem bounded_of_measured (within : refuseDepthBeyondTheBound (tree.withZone new) new = .ok ()) (name : String) :
    ∃ above, chain (tree.withZone new).parent maxAncestors ((tree.withZone new).parent name) = some above := by
  obtain ⟨below, listed, measured⟩ := refuseDepth_ok within
  obtain ⟨root, closed⟩ := Tree.subtree_closed listed
  by_cases member : name ∈ below
  · obtain ⟨zones, climbed⟩ := measured name member
    have walked := Tree.ancestors_eq_chain (tree.withZone new) name
    rw [climbed] at walked
    obtain ⟨above, met, -⟩ := Option.map_eq_some_iff.mp walked.symm
    exact ⟨above, met⟩
  -- the chain never enters the subtree, where alone the edit changed a parent
  have agree (name : String) (outside : name ∉ below) : (tree.withZone new).zone name = tree.zone name := by
    apply Tree.zone_withZone_of_ne
    rintro rfl
    exact outside root
  refine bounded_of_agree sound agree ?_ member
  intro name far outside step inside
  rw [← parent_congr (agree name outside)] at step
  obtain ⟨held, found, rfl, child⟩ := parent_cases step
  exact outside (closed _ inside name (Tree.mem_children found child))

theorem Sound.reparent (found : tree.zone new.name = some zone)
    (valid : parentErrors ns tree new = []) (kept : new.deleting = zone.deleting)
    (live : ∀ parent, tree.zone new.parentZone = some parent → parent.deleting = false)
    (within : refuseDepthBeyondTheBound (tree.withZone { new with annotations }) { new with annotations } = .ok ()) :
    Sound (tree.withZone new) := by
  refine ⟨fun name held standing child => ?_, fun name => ?_⟩
  · by_cases edited : name = new.name
    · subst edited
      obtain rfl := Option.some.inj (zone_withZone_self.symm.trans standing)
      obtain ⟨other, ⟨parent, known⟩, -⟩ := parentErrors_nil valid child
      exact ⟨parent, (Tree.zone_withZone_of_ne other).trans known, live parent known⟩
    rw [Tree.zone_withZone_of_ne edited] at standing
    obtain ⟨parent, known, stands⟩ := sound.rooted name held standing child
    by_cases above : held.parentZone = new.name
    · rw [above, found] at known
      cases known
      exact ⟨new, above ▸ zone_withZone_self, kept.trans stands⟩
    · exact ⟨parent, (Tree.zone_withZone_of_ne above).trans known, stands⟩
  · have same : (tree.withZone new).parent = (tree.withZone { new with annotations }).parent := by
      funext name
      by_cases edited : name = new.name
      · subst edited
        rw [Tree.parent_of_zone zone_withZone_self,
          @Tree.parent_of_zone (tree.withZone { new with annotations }) _ _ zone_withZone_self]
      · have annotated : (tree.withZone { new with annotations }).zone name = tree.zone name :=
          Tree.zone_withZone_of_ne edited
        exact parent_congr ((Tree.zone_withZone_of_ne edited).trans annotated.symm)
    rw [same]
    exact bounded_of_measured sound within name

theorem Sound.remove
    (childless : ∀ name held, tree.zone name = some held → held.parentZone ≠ "" → held.parentZone ≠ zone.name) :
    Sound (withoutZone tree zone.name) := by
  have agree (name : String) (other : name ≠ zone.name) : (withoutZone tree zone.name).zone name = tree.zone name :=
    zone_withoutZone_of_ne other
  refine ⟨fun name held found child => ?_, fun name => ?_⟩
  · by_cases same : name = zone.name
    · subst same
      simp [zone_withoutZone_self] at found
    rw [agree name same] at found
    rw [agree _ (childless name held found child)]
    exact sound.rooted name held found child
  by_cases same : name = zone.name
  · subst same
    exact ⟨[], by simp [Tree.parent_of_missing zone_withoutZone_self, chain]⟩
  refine bounded_of_agree sound agree ?_ same
  intro name far _ step
  obtain ⟨held, found, rfl, child⟩ := parent_cases step
  exact childless name held found child

theorem Sound.stored (written : Sound (tree.withZone new))
    (live : ∀ name held, tree.zone name = some held → held.parentZone ≠ "" → held.parentZone = new.name →
      new.deleting = false) :
    Sound (stored tree new) := by
  unfold Webhook.stored
  split
  next gone =>
    apply sound.remove
    intro name held standing child under
    have stands := live name held standing child under
    simp [stands] at gone
  · exact written

omit sound

theorem map_ok {checked : Except Refusal Unit} (done : checked.map (fun _ => next) = .ok after) :
    checked = .ok () ∧ next = after := by
  cases checked with
  | error => contradiction
  | ok => exact ⟨rfl, Except.ok.inj done⟩

theorem Sound.serve {request : ZoneRequest} (sound : Sound tree)
    (permitted : NoDeletingParent history tree request) (served : serve ns tree request = .ok after) : Sound after := by
  cases request with
  | create =>
    unfold Webhook.serve at served
    dsimp only at served
    split at served <;> try contradiction
    split at served <;> try contradiction
    rename_i absent
    obtain ⟨admitted, rfl⟩ := map_ok served
    exact sound.create absent (validateCreate_ok admitted) permitted
  | update name write =>
    unfold Webhook.serve at served
    dsimp only at served
    split at served <;> try contradiction
    rename_i old found
    split at served <;> try contradiction
    obtain ⟨admitted, rfl⟩ := map_ok served
    obtain rfl := Tree.zone_name found
    have live (name : String) (held : FleetZone) (standing : tree.zone name = some held)
        (child : held.parentZone ≠ "") (under : held.parentZone = (write.apply old).name) :
        (write.apply old).deleting = false := by
      obtain ⟨_, known, stands⟩ := sound.rooted name held standing child
      rw [under] at known
      cases known.symm.trans found
      exact stands
    refine sound.stored ?_ live
    by_cases same : write.parentZone = old.parentZone
    · exact sound.rewrite found same live
    obtain kept | ⟨valid, _, within⟩ := validateZoneUpdate_cases admitted
    · exact absurd kept same
    · exact sound.reparent found valid rfl (permitted old found same) within
  | delete name =>
    unfold Webhook.serve at served
    dsimp only at served
    split at served <;> try contradiction
    rename_i zone found
    obtain ⟨admitted, rfl⟩ := map_ok served
    obtain rfl := Tree.zone_name found
    have none := validateDelete_ok admitted
    have live (name : String) (held : FleetZone) (standing : tree.zone name = some held)
        (child : held.parentZone ≠ "") (under : held.parentZone = zone.name) : true = false := by
      have listed := Tree.mem_children standing child
      rw [under, none] at listed
      contradiction
    exact sound.stored (@Sound.rewrite _ _ { zone with deleting := true } sound found rfl live) live

/-- The zones stay an acyclic forest of at most `maxAncestors` levels over every run of
admitted creates, updates and deletes that puts no zone under a parent being deleted. -/
theorem forest_stays_wellFormed {history : List ZoneEvent}
    (reached : Machine.Reaches (zoneStore ns) NoDeletingParent noZones history tree) : WellFormed tree := by
  have empty : Sound noZones := by
    refine ⟨fun name zone found => ?_, fun name => ⟨[], ?_⟩⟩
    · simp [noZones, Tree.zone] at found
    · simp [noZones, Tree.parent, Tree.zone, chain]
  have sound : Sound tree := by
    refine reached.invariant (fun _ tree => Sound tree) empty ?_
    intro history tree request after events _ sound permitted taken
    simp only [zoneStore] at taken
    split at taken
    next served =>
      cases taken
      exact sound.serve permitted served
    · cases taken
      exact sound
  exact sound.wellFormed

/-- A cell is moved from its floor to the site, and the floor deleted. -/
theorem forest_stays_wellFormed_moved_cell : ∃ tree, Machine.Reaches (zoneStore "hq") NoDeletingParent noZones
      [.admitted, .admitted, .admitted, .admitted, .admitted] tree ∧ WellFormed tree := by
  have permitted : (zoneStore "hq").Permitted NoDeletingParent (noZones, [])
      [.create "site" "1" {} {}, .create "floor" "2" { parentZone := "site" } {},
        .create "cell" "3" { parentZone := "floor" } {}, .update "cell" { parentZone := "site" } {} {},
        .delete "floor" [] []] := by
    decide +kernel
  have ran : (zoneStore "hq").history noZones
      [.create "site" "1" {} {}, .create "floor" "2" { parentZone := "site" } {},
        .create "cell" "3" { parentZone := "floor" } {}, .update "cell" { parentZone := "site" } {} {},
        .delete "floor" [] []] = some [.admitted, .admitted, .admitted, .admitted, .admitted] := by
    decide +kernel
  obtain ⟨tree, reached⟩ := Machine.history_reaches_permitted permitted ran
  exact ⟨tree, reached, forest_stays_wellFormed reached⟩

theorem tree_ext {one other : Tree} (same : one.zones = other.zones) : one = other := by
  cases other
  cases same
  rfl

instance : DecidableEq Tree := fun one other =>
  decidable_of_iff (one.zones = other.zones) ⟨tree_ext, congrArg Tree.zones⟩

/-- A stop taken back before it was applied leaves its zone nothing but the stop finalizer. The zone's delete leaves
it marked, a cell is created under it, and it goes with the finalizer. -/
def orphanedCell : List ZoneRequest := [
  .create "floor" "1" {} {},
  .update "floor" { annotations := [( triggerAnnotation, "fire")], finalizers := [stopFinalizer] } {} {},
  .update "floor" { finalizers := [stopFinalizer] } {} {},
  .delete "floor" [] [],
  .create "cell" "2" { parentZone := "floor" } {},
  .update "floor" {} { controlPlane := true } {}]

/-- The cell is left under a floor that no longer exists. -/
theorem orphaned_cell_dangles :
    ∃ tree, Machine.Reaches (zoneStore "hq") Machine.unrestricted noZones (List.replicate 6 .admitted) tree ∧
      tree.parent "cell" = some "floor" ∧ tree.zone "floor" = none ∧ ¬ WellFormed tree := by
  have ran : (zoneStore "hq").run (noZones, []) orphanedCell = some
      ({ zones := [{ name := "cell", uid := "2", parentZone := "floor" }], distinct := List.nodup_singleton _ },
        List.replicate 6 .admitted) := by
    decide +kernel
  have reached := Machine.run_reaches_from .start (Machine.permitted_unrestricted _ _ _) ran
  refine ⟨_, reached, by decide +kernel, by decide +kernel, fun wellFormed => ?_⟩
  obtain ⟨_, found⟩ := wellFormed.rooted "cell" "floor" (by decide +kernel)
  simp [Tree.zone] at found

end Swarmada.Webhook
