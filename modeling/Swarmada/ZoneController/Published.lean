import Swarmada.Transition.Machine
import Swarmada.ZoneController.Projection

namespace Swarmada.ZoneController.Published

open Api Transition

structure Snapshot where
  zones : List Zone := []
  status : String → ZoneStatus := fun _ => {}

structure World where
  now : Snapshot := {}
  past : List Snapshot := []
  restrictFP : String → String := fun _ => ""

def World.shown (world : World) : List Snapshot := world.now :: world.past

inductive WriteOutcome where
  | landed | refused | unanswered
deriving DecidableEq

/-- A reconcile of `zone` and what it runs into. -/
structure Pass where
  zone : String
  listed : Nat := 0
  got : Nat := 0
  reads : Bool := true
  counts : Bool := true
  moved : Bool := false
  conditions : Bool := false
  write : WriteOutcome := .landed
  places : Bool := true
deriving DecidableEq

inductive Act where
  | create (name : String) (spec : ZoneSpec)
  | edit (name : String) (spec : ZoneSpec)
  | delete (name : String)
  | restart
  | reconcile (pass : Pass)
deriving DecidableEq

inductive Outcome where
  | returned (zone : String) | failed (zone : String)
deriving DecidableEq

def Pass.outcome (pass : Pass) (ok : Bool) : List Outcome :=
  [if ok then .returned pass.zone else .failed pass.zone]

def World.write (world : World) (snapshot : Snapshot) : World :=
  { world with now := snapshot, past := world.now :: world.past }

def Snapshot.setStatus (snapshot : Snapshot) (name : String) (status : ZoneStatus) : Snapshot :=
  { snapshot with status := fun zone => if zone = name then status else snapshot.status zone }

def World.remember (world : World) (name fingerprint : String) : World :=
  { world with restrictFP := fun zone => if zone = name then fingerprint else world.restrictFP zone }

section
variable {ν : Type} [LT ν] [DecidableLT ν] (parseFloat : String → Option ν)

def serve (pass : Pass) (listing cache : Snapshot) (world : World) : String × ZoneStatus :=
  reconcileRestrictions parseFloat pass.zone listing.zones (world.restrictFP pass.zone) (cache.status pass.zone)

/-- `Reconcile` on a listing and a zone read from the caches. -/
def reconcile (pass : Pass) (listing cache : Snapshot) (world : World) : World × List Outcome :=
  if !pass.reads then (world, pass.outcome false)
  else if (byName cache.zones pass.zone).isNone then (world, pass.outcome true)
  else if !pass.counts then (world, pass.outcome false)
  else
    let original := cache.status pass.zone
    let served := serve parseFloat pass listing cache world
    let remembered := world.remember pass.zone served.1
    if encodedStatus original = encodedStatus served.2 ∧ !pass.moved ∧ !pass.conditions then
      (remembered, pass.outcome pass.places)
    else if (byName world.now.zones pass.zone).isNone then (remembered, pass.outcome false)
    else
      let patched := mergePatch pass.conditions original served.2 (world.now.status pass.zone)
      let written := remembered.write (world.now.setStatus pass.zone patched)
      match pass.write with
      | .landed => (written, pass.outcome pass.places)
      | .refused => (remembered, pass.outcome false)
      | .unanswered => (written, pass.outcome false)

def zoneController : Machine World Act Outcome where
  step world act :=
    match act with
    | .create name spec =>
      if validName name ∧ byName world.now.zones name = none then
        let created := { world.now with zones := { name, spec } :: world.now.zones }
        some (world.write (created.setStatus name {}), [])
      else none
    | .edit name spec =>
      some (world.write { world.now with
        zones := world.now.zones.map fun zone =>
          if zone.name = name then { zone with generation := zone.generation + 1, spec } else zone }, [])
    | .delete name =>
      some (world.write { world.now with zones := world.now.zones.filter (fun zone => zone.name ≠ name) }, [])
    | .restart => some ({ world with restrictFP := fun _ => "" }, [])
    | .reconcile pass =>
      -- the zone is read after the listing, from the same cache
      if pass.got ≤ pass.listed then
        match world.shown[pass.listed]?, world.shown[pass.got]? with
        | some listing, some cache => some (reconcile parseFloat pass listing cache world)
        | _, _ => none
      else none

/-- No zone of the name had the generation with another spec. -/
def World.Fresh (world : World) (name : String) (generation : Nat) (spec : ZoneSpec) : Prop :=
  ∀ snapshot ∈ world.shown, ∀ zone ∈ snapshot.zones,
    zone.name = name → zone.generation = generation → zone.spec = spec

instance (world : World) (name : String) (generation : Nat) (spec : ZoneSpec) :
    Decidable (world.Fresh name generation spec) :=
  inferInstanceAs (Decidable (∀ snapshot ∈ world.shown, ∀ zone ∈ snapshot.zones,
    zone.name = name → zone.generation = generation → zone.spec = spec))

/-- The status write of a pass is refused only when there is nothing new to publish or
nothing published yet. -/
def Pass.Keeps (pass : Pass) (listing cache : Snapshot) (world : World) : Prop :=
  pass.write = .refused →
    (cache.status pass.zone).restrictions = none ∨
    world.restrictFP pass.zone = restrictionsFingerprint (ancestorChain pass.zone listing.zones).1
      (ancestorChain pass.zone listing.zones).2

instance (pass : Pass) (listing cache : Snapshot) (world : World) : Decidable (pass.Keeps listing cache world) :=
  inferInstanceAs (Decidable (_ → _ ∨ _))

/-- A zone's name and generation stand for one spec, a pass reads the status that the zone
has, and no write of a new projection is refused. -/
def Undisturbed (_ : List Outcome) (world : World) : Act → Prop
  | .create name spec => world.Fresh name 1 spec
  | .edit name spec => ∀ zone ∈ world.now.zones, zone.name = name → world.Fresh name (zone.generation + 1) spec
  | .delete _ => True
  | .restart => True
  | .reconcile pass =>
    ∀ listing ∈ world.shown[pass.listed]?, ∀ cache ∈ world.shown[pass.got]?,
      ((byName world.now.zones pass.zone).isSome → cache.status pass.zone = world.now.status pass.zone) ∧
      pass.Keeps listing cache world

instance (history : List Outcome) (world : World) (act : Act) : Decidable (Undisturbed history world act) :=
  match act with
  | .create name spec => inferInstanceAs (Decidable (world.Fresh name 1 spec))
  | .edit name spec =>
    inferInstanceAs (Decidable (∀ zone ∈ world.now.zones, zone.name = name → world.Fresh name (zone.generation + 1) spec))
  | .delete _ => inferInstanceAs (Decidable True)
  | .restart => inferInstanceAs (Decidable True)
  | .reconcile pass =>
    inferInstanceAs (Decidable (∀ listing ∈ world.shown[pass.listed]?, ∀ cache ∈ world.shown[pass.got]?,
      ((byName world.now.zones pass.zone).isSome → cache.status pass.zone = world.now.status pass.zone) ∧
      pass.Keeps listing cache world))

inductive Effect (pass : Pass) (listing cache : Snapshot) (world : World) : World × List Outcome → Prop
  | vanished (gone : byName cache.zones pass.zone = none) : Effect pass listing cache world (world, pass.outcome true)
  | failed : Effect pass listing cache world (world, pass.outcome false)
  | same (equal : encodedStatus (cache.status pass.zone) = encodedStatus (serve parseFloat pass listing cache world).2) :
      Effect pass listing cache world
        (world.remember pass.zone (serve parseFloat pass listing cache world).1, pass.outcome pass.places)
  | lost (why : byName world.now.zones pass.zone = none ∨ pass.write = .refused) :
      Effect pass listing cache world
        (world.remember pass.zone (serve parseFloat pass listing cache world).1, pass.outcome false)
  | written (ok : Bool) (stands : byName world.now.zones pass.zone ≠ none) :
      Effect pass listing cache world
        ((world.remember pass.zone (serve parseFloat pass listing cache world).1).write
          (world.now.setStatus pass.zone (mergePatch pass.conditions (cache.status pass.zone)
            (serve parseFloat pass listing cache world).2 (world.now.status pass.zone))), pass.outcome ok)

variable {parseFloat} {pass : Pass} {listing cache : Snapshot} {world after : World} {name : String}

theorem reconcile_effect : Effect parseFloat pass listing cache world (reconcile parseFloat pass listing cache world) := by
  unfold reconcile
  split
  · exact .failed
  split
  next gone =>
    exact .vanished (Option.isNone_iff_eq_none.mp gone)
  split
  · exact .failed
  dsimp only
  split
  next equal =>
    exact .same equal.1
  split
  next gone =>
    exact .lost (.inl (Option.isNone_iff_eq_none.mp gone))
  rename_i stands
  rw [Option.isNone_iff_eq_none] at stands
  split
  · exact .written pass.places stands
  next refused =>
    exact .lost (.inr refused)
  · exact .written false stands

def World.Knows (world : World) (zone : Zone) : Prop := ∃ snapshot ∈ world.shown, zone ∈ snapshot.zones

def Accounted (parseFloat : String → Option ν) (world : World) (name fingerprint : String) (status : ZoneStatus) : Prop :=
  status.restrictions ≠ none → fingerprint ≠ "" →
    ∃ listing : List Zone, (∀ zone ∈ listing, world.Knows zone) ∧
      fingerprint = restrictionsFingerprint (ancestorChain name listing).1 (ancestorChain name listing).2 ∧
      status = encodedStatus (projection parseFloat (ancestorChain name listing))

structure Tracked (parseFloat : String → Option ν) (world : World) : Prop where
  named : ∀ zone, world.Knows zone → validName zone.name = true
  determined : Determined world.Knows
  encoded : ∀ name, encodedStatus (world.now.status name) = world.now.status name
  accounted : ∀ name, byName world.now.zones name ≠ none →
    Accounted parseFloat world name (world.restrictFP name) (world.now.status name)

theorem Accounted.later (accounted : Accounted parseFloat world name fingerprint status)
    (grows : ∀ zone, world.Knows zone → after.Knows zone) : Accounted parseFloat after name fingerprint status := by
  intro published remembered
  obtain ⟨listing, known, same, projected⟩ := accounted published remembered
  exact ⟨listing, fun zone member => grows zone (known zone member), same, projected⟩

theorem knows_write : (world.write snapshot).Knows zone ↔ zone ∈ snapshot.zones ∨ world.Knows zone := by
  simp [World.Knows, World.shown, World.write]

theorem knows_now (member : zone ∈ world.now.zones) : world.Knows zone :=
  ⟨world.now, by simp [World.shown], member⟩

theorem serve_accounted (known : ∀ zone ∈ listing.zones, world.Knows zone)
    (read : encodedStatus (cache.status pass.zone) = cache.status pass.zone)
    (accounted : Accounted parseFloat world pass.zone (world.restrictFP pass.zone) (cache.status pass.zone)) :
    Accounted parseFloat world pass.zone (serve parseFloat pass listing cache world).1
      (encodedStatus (serve parseFloat pass listing cache world).2) := by
  unfold serve reconcileRestrictions
  dsimp only
  split
  next unchanged =>
    rw [← unchanged.1, read]
    exact accounted
  · intro _ _
    exact ⟨listing.zones, known, rfl, rfl⟩

theorem lost_accounted (keeps : pass.Keeps listing cache world) (refused : pass.write = .refused)
    (accounted : Accounted parseFloat world pass.zone (world.restrictFP pass.zone) (cache.status pass.zone)) :
    Accounted parseFloat world pass.zone (serve parseFloat pass listing cache world).1 (cache.status pass.zone) := by
  rcases keeps refused with unpublished | unchanged
  · intro published
    exact absurd unpublished published
  have first : (serve parseFloat pass listing cache world).1 = world.restrictFP pass.zone := by
    unfold serve reconcileRestrictions
    dsimp only
    split <;> exact unchanged.symm
  rw [first]
  exact accounted

theorem Tracked.change (tracked : Tracked parseFloat world)
    (knows : ∀ zone, after.Knows zone ↔ world.Knows zone) (zones : after.now.zones = world.now.zones)
    (remembered : ∀ zone, after.restrictFP zone = if zone = name then fingerprint else world.restrictFP zone)
    (published : ∀ zone, after.now.status zone = if zone = name then status else world.now.status zone)
    (read : encodedStatus status = status)
    (accounted : byName world.now.zones name ≠ none → Accounted parseFloat world name fingerprint status) :
    Tracked parseFloat after := by
  have same : after.Knows = world.Knows := funext fun zone => propext (knows zone)
  refine ⟨same ▸ tracked.named, same ▸ tracked.determined, fun zone => ?_, fun zone stands => ?_⟩
  · rw [published]
    split
    · exact read
    · exact tracked.encoded zone
  rw [zones] at stands
  rw [published, remembered]
  have grows : ∀ zone, world.Knows zone → after.Knows zone := fun zone => (knows zone).mpr
  split
  next own =>
    subst own
    exact (accounted stands).later grows
  · exact (tracked.accounted zone stands).later grows

theorem Tracked.reconciled (tracked : Tracked parseFloat world) (known : ∀ zone ∈ listing.zones, world.Knows zone)
    (current : byName world.now.zones pass.zone ≠ none → cache.status pass.zone = world.now.status pass.zone)
    (keeps : pass.Keeps listing cache world) :
    Tracked parseFloat (reconcile parseFloat pass listing cache world).1 := by
  have before (stands : byName world.now.zones pass.zone ≠ none) :
      Accounted parseFloat world pass.zone (world.restrictFP pass.zone) (cache.status pass.zone) :=
    current stands ▸ tracked.accounted pass.zone stands
  have read (stands : byName world.now.zones pass.zone ≠ none) :
      encodedStatus (cache.status pass.zone) = cache.status pass.zone :=
    current stands ▸ tracked.encoded pass.zone
  have effect := @reconcile_effect _ _ _ parseFloat pass listing cache world
  generalize reconcile parseFloat pass listing cache world = result at effect ⊢
  have kept (zone : String) : world.now.status zone =
      if zone = pass.zone then world.now.status pass.zone else world.now.status zone := by
    split
    next own =>
      rw [own]
    · rfl
  cases effect with
  | vanished | failed => exact tracked
  | same equal =>
    refine tracked.change (fun _ => Iff.rfl) rfl (fun _ => rfl) kept (tracked.encoded pass.zone) fun stands => ?_
    have served := serve_accounted known (read stands) (before stands)
    rw [← equal, read stands, current stands] at served
    exact served
  | lost why =>
    refine tracked.change (fun _ => Iff.rfl) rfl (fun _ => rfl) kept (tracked.encoded pass.zone) fun stands => ?_
    have refused : pass.write = .refused := why.resolve_left stands
    rw [← current stands]
    exact lost_accounted keeps refused (before stands)
  | written _ stands =>
    have patched := @mergePatch_self pass.conditions _ (serve parseFloat pass listing cache world).2 (read stands)
    rw [← current stands, patched]
    refine tracked.change (fun zone => ?_) rfl (fun _ => rfl) (fun _ => rfl) (encodedStatus_encodedStatus _) fun _ => ?_
    · rw [knows_write]
      exact or_iff_right_of_imp knows_now
    · exact serve_accounted known (read stands) (before stands)

theorem Tracked.edited {snapshot : Snapshot} (spec : ZoneSpec) (tracked : Tracked parseFloat world)
    (zones : ∀ zone ∈ snapshot.zones, world.Knows zone ∨
      validName zone.name = true ∧ zone.spec = spec ∧ world.Fresh zone.name zone.generation spec)
    (statuses : ∀ name, snapshot.status name = {} ∨ snapshot.status name = world.now.status name ∧
      (byName snapshot.zones name ≠ none → byName world.now.zones name ≠ none)) :
    Tracked parseFloat (world.write snapshot) := by
  have known {zone : Zone} (knows : (world.write snapshot).Knows zone) : world.Knows zone ∨
      validName zone.name = true ∧ zone.spec = spec ∧ world.Fresh zone.name zone.generation spec := by
    rcases knows_write.mp knows with new | old
    · exact zones zone new
    · exact .inl old
  refine ⟨fun zone knows => ?_, fun zone knows other knows' names generations => ?_, fun zone => ?_, fun zone stands => ?_⟩
  · rcases known knows with old | ⟨valid, -⟩
    · exact tracked.named zone old
    · exact valid
  · rcases known knows with old | ⟨-, own, fresh⟩ <;> rcases known knows' with old' | ⟨-, own', fresh'⟩
    · exact tracked.determined zone old other old' names generations
    · obtain ⟨earlier, shown, member⟩ := old
      rw [own', fresh' earlier shown zone member names generations]
    · obtain ⟨earlier, shown, member⟩ := old'
      rw [own, fresh earlier shown other member names.symm generations.symm]
    · rw [own, own']
  · rcases statuses zone with new | ⟨old, -⟩
    · exact (congrArg encodedStatus new).trans new.symm
    · exact (congrArg encodedStatus old).trans ((tracked.encoded zone).trans old.symm)
  · rcases statuses zone with new | ⟨old, stood⟩
    · intro published
      exact absurd (congrArg ZoneStatus.restrictions new) published
    have accounted := tracked.accounted zone (stood stands)
    rw [← old] at accounted
    exact accounted.later fun zone knows => knows_write.mpr (.inr knows)

theorem Tracked.step {act : Act} {history outcomes : List Outcome} (tracked : Tracked parseFloat world)
    (permitted : Undisturbed history world act)
    (taken : (zoneController parseFloat).step world act = some (after, outcomes)) : Tracked parseFloat after := by
  cases act with
  | create name spec =>
    simp only [zoneController] at taken
    split at taken <;> try contradiction
    rename_i admitted
    cases taken
    refine tracked.edited spec (fun zone member => ?_) fun zone => ?_
    · rcases List.mem_cons.mp member with rfl | old
      · exact .inr ⟨admitted.1, rfl, permitted⟩
      · exact .inl (knows_now old)
    by_cases own : zone = name
    · exact .inl (if_pos own)
    · refine .inr ⟨if_neg own, fun stands => ?_⟩
      simpa [byName, Snapshot.setStatus, Ne.symm own] using stands
  | edit _ spec =>
    cases taken
    refine tracked.edited spec (fun zone member => ?_) fun zone => .inr ⟨rfl, fun stands => ?_⟩
    · obtain ⟨old, inside, rfl⟩ := List.mem_map.mp member
      split
      next own =>
        refine .inr ⟨tracked.named old (knows_now inside), rfl, ?_⟩
        have fresh := permitted old inside own
        rw [← own] at fresh
        exact fresh
      · exact .inl (knows_now inside)
    · obtain ⟨_, member, named⟩ := byName_ne_none.mp stands
      obtain ⟨old, inside, rfl⟩ := List.mem_map.mp member
      refine byName_ne_none.mpr ⟨old, inside, ?_⟩
      split at named <;> exact named
  | delete =>
    cases taken
    refine tracked.edited {} (fun zone member => ?_) fun zone => .inr ⟨rfl, fun stands => ?_⟩
    · exact .inl (knows_now (List.mem_of_mem_filter member))
    · obtain ⟨left, member, named⟩ := byName_ne_none.mp stands
      exact byName_ne_none.mpr ⟨left, List.mem_of_mem_filter member, named⟩
  | restart =>
    cases taken
    exact ⟨tracked.named, tracked.determined, tracked.encoded, fun zone stands published remembered =>
      absurd rfl remembered⟩
  | reconcile pass =>
    simp only [zoneController] at taken
    split at taken <;> try contradiction
    split at taken <;> try contradiction
    rename_i listing cache listed got
    obtain ⟨current, keeps⟩ := permitted listing listed cache got
    obtain rfl : (reconcile parseFloat pass listing cache world).1 = after :=
      congrArg Prod.fst (Option.some.inj taken)
    refine tracked.reconciled (fun zone member => ⟨listing, List.mem_of_getElem? listed, member⟩) ?_ keeps
    exact fun stands => current (Option.isSome_iff_ne_none.mpr stands)

theorem tracked_start : Tracked parseFloat {} := by
  have nothing (zone : Zone) : ¬ World.Knows {} zone := by
    rintro ⟨_, shown, _⟩
    cases List.mem_singleton.mp shown
    contradiction
  refine ⟨fun zone knows => absurd knows (nothing zone), fun zone knows => absurd knows (nothing zone), fun _ => rfl, ?_⟩
  exact fun _ stands => absurd rfl stands

theorem Tracked.of_reaches
    (reached : Machine.Reaches (zoneController parseFloat) Undisturbed {} history world) : Tracked parseFloat world := by
  refine reached.invariant (fun _ world => Tracked parseFloat world) tracked_start ?_
  intro history world act after outcomes _ tracked permitted taken
  exact tracked.step permitted taken

theorem serve_fst : (serve parseFloat pass listing cache world).1 =
    restrictionsFingerprint (ancestorChain pass.zone listing.zones).1 (ancestorChain pass.zone listing.zones).2 := by
  unfold serve reconcileRestrictions
  dsimp only
  split <;> rfl

theorem serve_publishes : (encodedStatus (serve parseFloat pass listing cache world).2).restrictions ≠ none := by
  unfold serve reconcileRestrictions
  dsimp only
  split
  next unchanged =>
    simpa [encodedStatus] using unchanged.2
  · simp [encodedStatus, projection]

/-- On the present listing a pass publishes the projection of the present chain, whether it
folded the chain again or not. -/
theorem Tracked.serve_now (tracked : Tracked parseFloat world) (stands : byName world.now.zones pass.zone ≠ none) :
    encodedStatus (serve parseFloat pass world.now world.now world).2 =
      encodedStatus (projection parseFloat (ancestorChain pass.zone world.now.zones)) := by
  have remembered : (serve parseFloat pass world.now world.now world).1 ≠ "" := by
    rw [serve_fst]
    exact restrictionsFingerprint_ne_empty (ancestorChain_readable _ _)
  obtain ⟨_, known, same, projected⟩ := serve_accounted (fun zone => knows_now) (tracked.encoded pass.zone)
    (tracked.accounted pass.zone stands) serve_publishes remembered
  rw [serve_fst] at same
  have chains := restrictionsFingerprint_inj tracked.determined tracked.named (fun zone => knows_now) known same
  rw [projected, chains]

/-- A reconcile that returns on the present listing leaves the projection of the present
chain published. -/
theorem Tracked.returned (tracked : Tracked parseFloat world)
    (taken : reconcile parseFloat pass world.now world.now world = (after, [.returned pass.zone]))
    (stands : byName after.now.zones pass.zone ≠ none) :
    after.now.zones = world.now.zones ∧
      after.now.status pass.zone = encodedStatus (projection parseFloat (ancestorChain pass.zone world.now.zones)) := by
  have effect := @reconcile_effect _ _ _ parseFloat pass world.now world.now world
  generalize reconcile parseFloat pass world.now world.now world = result at effect taken
  cases effect with
  | vanished gone =>
    cases taken
    exact absurd gone stands
  | failed | lost => simp [Pass.outcome] at taken
  | same equal =>
    obtain ⟨rfl, -⟩ := Prod.mk.inj taken
    refine ⟨rfl, ?_⟩
    calc world.now.status pass.zone = encodedStatus (world.now.status pass.zone) := (tracked.encoded pass.zone).symm
      _ = encodedStatus (serve parseFloat pass world.now world.now world).2 := equal
      _ = _ := tracked.serve_now stands
  | written _ stood =>
    obtain ⟨rfl, -⟩ := Prod.mk.inj taken
    refine ⟨rfl, ?_⟩
    calc _ = mergePatch pass.conditions (world.now.status pass.zone) _ (world.now.status pass.zone) := if_pos rfl
      _ = encodedStatus (serve parseFloat pass world.now world.now world).2 :=
          mergePatch_self (tracked.encoded pass.zone)
      _ = _ := tracked.serve_now stood

theorem step_reconcile (current : pass.listed = 0)
    (taken : (zoneController parseFloat).step world (.reconcile pass) = some (after, outcomes)) :
    reconcile parseFloat pass world.now world.now world = (after, outcomes) := by
  simp only [zoneController] at taken
  split at taken <;> try contradiction
  have got : pass.got = 0 := by omega
  simp only [current, got, World.shown, List.getElem?_cons_zero, Option.some.injEq] at taken
  exact taken

/-- After a reconcile that returns without error on an up-to-date listing, the published rules are the resolution of
the zone's present chain, and the condition says whether it resolves. -/
theorem restrictions_catch_up {history : List Outcome}
    (reached : Machine.Reaches (zoneController parseFloat) Undisturbed {} history world) (current : pass.listed = 0)
    (taken : (zoneController parseFloat).step world (.reconcile pass) = some (after, [.returned pass.zone]))
    (stands : byName after.now.zones pass.zone ≠ none) :
    (after.now.status pass.zone).restrictions =
        some ((resolveZoneRestrictions parseFloat (ancestorChain pass.zone after.now.zones).1).1.map
          EffectiveZoneRestriction.encoded) ∧
      ∃ condition, (after.now.status pass.zone).restrictionsResolved = some condition ∧
        (condition.status = true ↔ (ancestorChain pass.zone after.now.zones).2 = "") := by
  obtain ⟨zones, status⟩ := (Tracked.of_reaches reached).returned (step_reconcile current taken) stands
  rw [zones, status]
  refine ⟨rfl, _, rfl, ?_⟩
  unfold resolvedCondition
  split <;> simp_all

end

def deniedFloor : ZoneSpec := { restrictions := some { entry := some { mode := .denied, reason := "wet floor" } } }

def closedFloor : List Act :=
  [.create "floor" {}, .create "cell" { parentZone := "floor" }, .reconcile { zone := "cell" },
    .edit "floor" deniedFloor, .reconcile { zone := "cell", listed := 1, got := 0 }]

theorem restrictions_catch_up_cell : ∃ world after, Machine.Reaches (zoneController String.toNat?) Undisturbed {}
        [.returned "cell", .returned "cell"] world ∧
      (zoneController String.toNat?).step world (.reconcile { zone := "cell" }) = some (after, [.returned "cell"]) ∧
      (after.now.status "cell").restrictions =
        some ((resolveZoneRestrictions String.toNat? (ancestorChain "cell" after.now.zones).1).1.map
          EffectiveZoneRestriction.encoded) := by
  have permitted : (zoneController String.toNat?).Permitted Undisturbed ({}, []) closedFloor := by decide +kernel
  have ran : ∃ world after, (zoneController String.toNat?).run ({}, []) closedFloor =
        some (world, [.returned "cell", .returned "cell"]) ∧
      (zoneController String.toNat?).step world (.reconcile { zone := "cell" }) = some (after, [.returned "cell"]) ∧
      byName after.now.zones "cell" ≠ none := by
    exact ⟨_, _, rfl, rfl, by decide +kernel⟩
  obtain ⟨world, after, ran, taken, stands⟩ := ran
  have reached := Machine.run_reaches_from .start permitted ran
  exact ⟨world, after, reached, taken, (restrictions_catch_up reached rfl taken stands).1⟩

/-- The write of the new rule is refused, and the next reconcile finds the fingerprint it
remembers. -/
def refusedWrite : List Act :=
  [.create "floor" {}, .reconcile { zone := "floor" }, .edit "floor" deniedFloor,
    .reconcile { zone := "floor", write := .refused }, .reconcile { zone := "floor" }]

/-- The last reconcile returns, and the floor is published without a restriction. -/
theorem refused_write_stays_unpublished : ∃ world, (zoneController String.toNat?).run ({}, []) refusedWrite =
        some (world, [.returned "floor", .failed "floor", .returned "floor"]) ∧
      (world.now.status "floor").restrictions = some [] ∧
      (resolveZoneRestrictions String.toNat? (ancestorChain "floor" world.now.zones).1).1 =
        [{ axis := .entry, mode := .denied, reason := "wet floor", inheritedFrom := "floor" }] := by
  refine ⟨_, rfl, ?_, ?_⟩ <;> decide +kernel

end Swarmada.ZoneController.Published
