import Swarmada.Estopscope.Coverage
import Swarmada.Estopscope.Walks

/-! # The stops that cover a robot

`CoverageOf` is the stop guard's answer, over the robot's recorded and declared zones.
`FanOutCoverageOf` is the fan-out's, over one of the two, and `Holders` is what the clears
and the dispatch ask.
-/

namespace Swarmada.Estopscope

open Api Graph

structure CarrierMeta where
  uid : String
  annotations : List (String × String)
deriving DecidableEq, Repr

def configNamed (configs : List SwarmadaConfig) (name : String) : Option SwarmadaConfig :=
  configs.reverse.find? (fun config => config.name = name)

def carrierMeta (tree : Tree) (configs : List SwarmadaConfig) (hold : EstopHold) : Option CarrierMeta :=
  match hold.kind with
  | .swarmadaConfig => (configNamed configs hold.name).map fun config => ⟨config.uid, config.annotations⟩
  | .fleetZone => (tree.zone hold.name).map fun zone => ⟨zone.uid, zone.annotations⟩

def orphans (hold : EstopHold) : Option CarrierMeta → Bool
  | none => true
  | some carrier => hold.uid ≠ "" && carrier.uid ≠ "" && hold.uid ≠ carrier.uid

def recordedStop (tree : Tree) (configs : List SwarmadaConfig) (hold : EstopHold) : Option Holder :=
  let carrier := carrierMeta tree configs hold
  let holder : Holder := { kind := holdKind hold.kind, name := hold.name, recorded := true }
  if orphans hold carrier then some { holder with orphaned := true }
  else
    match carrier with
    | none => none
    | some found =>
      if inForce found.annotations then
        some { holder with value := (found.annotations.lookup triggerAnnotation).getD "" }
      else none

def heldStop (tree : Tree) (configs : List SwarmadaConfig) (hold : EstopHold) : Option Holder :=
  let carrier := carrierMeta tree configs hold
  if orphans hold carrier then none
  else
    match carrier with
    | none => none
    | some found =>
      if inForce found.annotations then
        some { kind := holdKind hold.kind, name := hold.name, recorded := true,
               value := (found.annotations.lookup triggerAnnotation).getD "",
               clearing := (found.annotations.lookup triggerAnnotation).isNone }
      else none

def orphanedStop (tree : Tree) (configs : List SwarmadaConfig) (hold : EstopHold) : Option Holder :=
  if orphans hold (carrierMeta tree configs hold) then
    some { kind := holdKind hold.kind, name := hold.name, recorded := true, orphaned := true }
  else none

def addStop (stops : List Holder) (stop : Holder) : List Holder :=
  if has stops stop.kind stop.name then stops else stops ++ [stop]

def distinctStops (stops : List Holder) : List Holder := stops.foldl addStop []

def ownStop (robot : Robot) : List Holder :=
  match robot.trigger with
  | none => []
  | some value => [{ kind := .robot, name := robot.name, value, pending := pendingOn robot.annotations }]

def zoneStops (tree : Tree) : List String → Except TooDeepError (List Holder)
  | [] => .ok []
  | zone :: rest =>
    if zone = "" then zoneStops tree rest
    else
      match coveringAt tree [] zone with
      | .error error => .error error
      | .ok stops => (zoneStops tree rest).map (stops ++ ·)

def coverageOf (tree : Tree) (configs : List SwarmadaConfig) (robot : Robot) : Except TooDeepError (List Holder) :=
  (zoneStops tree [robot.currentZone, robot.zone]).map fun zones =>
    distinctStops (ownStop robot ++ zones ++ namespaceStops configs ++
      robot.estopHeldBy.filterMap (recordedStop tree configs))

/-- The robot as the fan-out reads it: the declared zone counts only while none is recorded. -/
def fanOutReading (robot : Robot) : Robot :=
  if robot.currentZone ≠ "" then { robot with zone := robot.currentZone } else robot

def fanOutCoverageOf (tree : Tree) (configs : List SwarmadaConfig) (robot : Robot) :
    Except TooDeepError (List Holder) :=
  coverageOf tree configs (fanOutReading robot)

def losses (before after : Robot) : List (Robot → Except TooDeepError (List Holder)) → Except TooDeepError (List Holder)
  | [] => .ok []
  | read :: rest =>
    match read before with
    | .error error => .error error
    | .ok was =>
      match read after with
      | .error error => .error error
      | .ok now => (losses before after rest).map (lost was now ++ ·)

def moveLoses (tree : Tree) (configs : List SwarmadaConfig) (before after : Robot) :
    Except TooDeepError (List Holder) :=
  (losses before after [coverageOf tree configs, fanOutCoverageOf tree configs]).map distinctStops

def triggeredFrom (tree : Tree) : Bool → Nat → String → List Holder
  | _, 0, _ => []
  | own, left + 1, name =>
    if name = "" then []
    else
      match tree.zone name with
      | none => []
      | some zone =>
        (match zone.annotations.lookup triggerAnnotation with
          | some value => if own || propagatesDown zone then [{ kind := .zone, name := zone.name, value }] else []
          | none => []) ++ triggeredFrom tree false left zone.parentZone

def holders (robot : Robot) (tree : Tree) (configs : List SwarmadaConfig) : List Holder :=
  distinctStops (
    (match robot.trigger with
      | none => []
      | some value => [{ kind := .robot, name := robot.name, value }]) ++
    robot.estopHeldBy.filterMap (heldStop tree configs) ++
    triggeredFrom tree true (maxAncestors + 1)
      (if robot.currentZone = "" then robot.zone else robot.currentZone) ++
    (configs.filterMap fun config =>
      (config.annotations.lookup triggerAnnotation).map fun value =>
        { kind := .namespace, name := config.name, value }) ++
    robot.estopHeldBy.filterMap (orphanedStop tree configs))

variable {tree : Tree} {configs : List SwarmadaConfig} {robot : Robot} {kind : Kind} {name : String}
  {stops : List Holder}

theorem has_iff : has stops kind name = true ↔ ∃ stop ∈ stops, stop.kind = kind ∧ stop.name = name := by
  simp [has]

variable {stop : Holder}

theorem has_of_mem (member : stop ∈ stops) : has stops stop.kind stop.name = true :=
  has_iff.mpr ⟨stop, member, rfl, rfl⟩

theorem has_addStop (stops : List Holder) (stop : Holder) :
    has (addStop stops stop) kind name = (has stops kind name || has [stop] kind name) := by
  unfold addStop
  split
  next present =>
    by_cases same : stop.kind = kind ∧ stop.name = name
    · obtain ⟨rfl, rfl⟩ := same
      simp [present]
    · have absent : has [stop] kind name = false := by simpa [has] using same
      simp [absent]
  · rw [has_append]

theorem has_distinctStops : has (distinctStops stops) kind name = has stops kind name := by
  have grown (start : List Holder) :
      has (stops.foldl addStop start) kind name = (has start kind name || has stops kind name) := by
    induction stops generalizing start with
    | nil => simp [has]
    | cons stop stops ih =>
      rw [List.foldl_cons, ih, has_addStop, Bool.or_assoc, ← has_append]
      rfl
  rw [distinctStops, grown []]
  exact Bool.false_or _

variable {zone : String}

theorem has_coveringAt (placed : zone ≠ "") (found : coveringAt tree [] zone = .ok stops) :
    has stops kind name = true ↔ kind = .zone ∧ tree.Over FleetZone.carries zone name := by
  simp only [coveringAt, placed, if_false] at found
  split at found <;> try contradiction
  rename_i names reached
  cases found
  have shape (listed : String) : (zoneStop tree listed).kind = .zone ∧ (zoneStop tree listed).name = listed := by
    unfold zoneStop
    split <;> exact ⟨rfl, rfl⟩
  rw [← Tree.mem_reaching reached, has_iff]
  simp only [namespaceStops, List.filter_nil, List.map_nil, List.append_nil, List.mem_map]
  constructor
  · rintro ⟨_, ⟨listed, member, rfl⟩, rfl, rfl⟩
    rw [(shape listed).1, (shape listed).2]
    exact ⟨rfl, member⟩
  · rintro ⟨rfl, member⟩
    exact ⟨_, ⟨name, member, rfl⟩, shape name⟩

theorem has_zoneStops (found : zoneStops tree zones = .ok stops) :
    has stops kind name = true ↔ kind = .zone ∧ ∃ zone ∈ zones, zone ≠ "" ∧ tree.Over FleetZone.carries zone name := by
  induction zones generalizing stops with
  | nil =>
    cases found
    simp [has]
  | cons zone zones ih =>
    rw [zoneStops] at found
    split at found
    next placeless =>
      rw [ih found]
      simp [placeless]
    rename_i placed
    split at found <;> try contradiction
    rename_i here covered
    cases rest : zoneStops tree zones with
    | error =>
      rw [rest] at found
      contradiction
    | ok =>
      rw [rest] at found
      cases found
      rw [has_append, Bool.or_eq_true, has_coveringAt placed covered, ih rest]
      simp [placed, and_or_left]

theorem has_coverageOf (found : coverageOf tree configs robot = .ok stops) : has stops kind name = true ↔
      (has (ownStop robot) kind name = true ∨
        (kind = .zone ∧ ∃ zone ∈ [robot.currentZone, robot.zone], zone ≠ "" ∧
          tree.Over FleetZone.carries zone name)) ∨
      has (namespaceStops configs) kind name = true ∨
      has (robot.estopHeldBy.filterMap (recordedStop tree configs)) kind name = true := by
  unfold coverageOf at found
  cases zones : zoneStops tree [robot.currentZone, robot.zone] with
  | error =>
    rw [zones] at found
    contradiction
  | ok _ =>
    rw [zones] at found
    cases found
    rw [has_distinctStops, has_append, has_append, has_append]
    simp only [Bool.or_eq_true, has_zoneStops zones, or_assoc]

theorem carries_of_trigger {zone : FleetZone}
    (triggered : zone.annotations.lookup triggerAnnotation = some value) : zone.carries = true := by
  simp [FleetZone.carries, inForce, triggered]

theorem mem_triggeredFrom (member : stop ∈ triggeredFrom tree own left zone) :
    stop.kind = .zone ∧ zone ≠ "" ∧ ∃ found, tree.zone stop.name = some found ∧ found.carries = true ∧
      (own = true ∧ stop.name = zone ∨
        (stop.name = zone ∨ Beyond tree.parent zone stop.name) ∧ propagatesDown found = true) := by
  induction left generalizing own zone with
  | zero => contradiction
  | succ left ih =>
    rw [triggeredFrom] at member
    split at member <;> try contradiction
    rename_i placed
    split at member <;> try contradiction
    rename_i found held
    rcases List.mem_append.mp member with here | above
    · split at here <;> try contradiction
      rename_i value triggered
      split at here <;> try contradiction
      rename_i reaches
      obtain rfl := List.mem_singleton.mp here
      obtain rfl := Tree.zone_name held
      refine ⟨rfl, placed, found, held, carries_of_trigger triggered, ?_⟩
      rcases Bool.or_eq_true_iff.mp reaches with alone | propagates
      · exact .inl ⟨alone, rfl⟩
      · exact .inr ⟨.inl rfl, propagates⟩
    · obtain ⟨same, further, ancestor, standing, carries, own | ⟨there, propagates⟩⟩ := ih above
      · simp at own
      have step : tree.parent zone = some found.parentZone :=
        (Tree.parent_of_zone held).trans (named_of_ne further)
      refine ⟨same, placed, ancestor, standing, carries, .inr ⟨.inr ?_, propagates⟩⟩
      exact beyond_iff.mpr ⟨found.parentZone, step, there.imp_left Eq.symm⟩

theorem over_of_triggered (member : stop ∈ triggeredFrom tree true (maxAncestors + 1) zone) :
    stop.kind = .zone ∧ zone ≠ "" ∧ tree.Over FleetZone.carries zone stop.name := by
  obtain ⟨same, placed, found, held, carries, own | ⟨here | beyond, propagates⟩⟩ := mem_triggeredFrom member
  · exact ⟨same, placed, found, held, carries, .inl own.2⟩
  · exact ⟨same, placed, found, held, carries, .inl here⟩
  · exact ⟨same, placed, found, held, carries, .inr ⟨beyond, propagates⟩⟩

variable {hold : EstopHold}

theorem has_recorded (member : hold ∈ robot.estopHeldBy) (recorded : recordedStop tree configs hold = some stop) :
    has (robot.estopHeldBy.filterMap (recordedStop tree configs)) stop.kind stop.name = true :=
  has_of_mem (List.mem_filterMap.mpr ⟨hold, member, recorded⟩)

theorem heldStop_recorded (held : heldStop tree configs hold = some stop) :
    ∃ recorded, recordedStop tree configs hold = some recorded ∧ recorded.kind = stop.kind ∧
      recorded.name = stop.name := by
  unfold heldStop at held
  unfold recordedStop
  dsimp only at held ⊢
  split at held <;> try contradiction
  rename_i standing
  rw [if_neg standing]
  split at held <;> try contradiction
  split at held <;> try contradiction
  rename_i inForce
  cases held
  exact ⟨_, if_pos inForce, rfl, rfl⟩

theorem orphanedStop_recorded
    (orphaned : orphanedStop tree configs hold = some stop) : recordedStop tree configs hold = some stop := by
  unfold orphanedStop at orphaned
  split at orphaned <;> try contradiction
  rename_i gone
  cases orphaned
  exact if_pos gone

theorem has_namespaceStops (member : config ∈ configs)
    (standing : inForce config.annotations = true) : has (namespaceStops configs) .namespace config.name = true := by
  refine has_iff.mpr ⟨_, List.mem_map.mpr ⟨config, List.mem_filter.mpr ⟨member, standing⟩, rfl⟩, rfl, rfl⟩

theorem holders_covered (found : coverageOf tree configs robot = .ok stops)
    (holds : stop ∈ holders robot tree configs) : has stops stop.kind stop.name = true := by
  have listed := has_of_mem holds
  rw [holders, has_distinctStops] at listed
  rw [has_coverageOf found]
  obtain ⟨_, member, sameKind, sameName⟩ := has_iff.mp listed
  rw [← sameKind, ← sameName]
  simp only [List.mem_append] at member
  rcases member with (((own | held) | above) | config) | orphaned
  · refine .inl (.inl (has_iff.mpr ?_))
    unfold ownStop
    split at own <;> try contradiction
    obtain rfl := List.mem_singleton.mp own
    exact ⟨_, List.mem_singleton_self _, rfl, rfl⟩
  · obtain ⟨_, listed, read⟩ := List.mem_filterMap.mp held
    obtain ⟨_, same, ofKind, ofName⟩ := heldStop_recorded read
    rw [← ofKind, ← ofName]
    exact .inr (.inr (has_recorded listed same))
  · obtain ⟨ofKind, placed, covers⟩ := over_of_triggered above
    refine .inl (.inr ⟨ofKind, _, ?_, placed, covers⟩)
    split <;> simp
  · obtain ⟨config, listed, read⟩ := List.mem_filterMap.mp config
    obtain ⟨_, triggered, rfl⟩ := Option.map_eq_some_iff.mp read
    exact .inr (.inl (has_namespaceStops listed (by simp [inForce, triggered])))
  · obtain ⟨_, listed, read⟩ := List.mem_filterMap.mp orphaned
    exact .inr (.inr (has_recorded listed (orphanedStop_recorded read)))

theorem zoneStops_ok : (∃ stops, zoneStops tree zones = .ok stops) ↔
      ∀ zone ∈ zones, zone ≠ "" → ∃ stops, coveringAt tree [] zone = .ok stops := by
  induction zones with
  | nil => simp [zoneStops]
  | cons zone zones ih =>
    rw [List.forall_mem_cons, ← ih, zoneStops]
    by_cases placed : zone = ""
    · simp [placed]
    · cases coveringAt tree [] zone <;> cases zoneStops tree zones <;> simp [placed, Except.map]

theorem coverageOf_ok : (∃ stops, coverageOf tree configs robot = .ok stops) ↔
    ∃ stops, zoneStops tree [robot.currentZone, robot.zone] = .ok stops := by
  unfold coverageOf
  cases zoneStops tree [robot.currentZone, robot.zone] <;> simp [Except.map]

theorem fanOut_covered (found : coverageOf tree configs robot = .ok stops) :
    ∃ reached, fanOutCoverageOf tree configs robot = .ok reached ∧
      ∀ stop ∈ reached, has stops stop.kind stop.name = true := by
  unfold fanOutCoverageOf fanOutReading
  split
  · have walked := zoneStops_ok.mp (coverageOf_ok.mp ⟨stops, found⟩)
    obtain ⟨reached, read⟩ : ∃ reached,
        coverageOf tree configs { robot with zone := robot.currentZone } = .ok reached := by
      refine coverageOf_ok.mpr (zoneStops_ok.mpr fun zone member => walked zone ?_)
      simp only [List.mem_cons, List.not_mem_nil, or_false, or_self] at member
      exact member ▸ List.mem_cons_self
    refine ⟨reached, read, fun stop member => ?_⟩
    have covered := (has_coverageOf read).mp (has_of_mem member)
    rw [has_coverageOf found]
    refine covered.imp_left (Or.imp_right (And.imp_right ?_))
    rintro ⟨zone, standing, placed, reaches⟩
    simp only [List.mem_cons, List.not_mem_nil, or_false, or_self] at standing
    exact ⟨zone, standing ▸ List.mem_cons_self, placed, reaches⟩
  · exact ⟨stops, found, fun stop member => has_of_mem member⟩

/-- The walks agree on every snapshot, cyclic, dangling or too deep ones included.  `Covers`
alone answers where `Reaching` gives up, at the carrier's own zone. -/
theorem coverage_walks_agree (tree : Tree) (named : tree.zone "" = none) :
    (∀ zone stopped, (tree.stopsOver zone true stopped).toOption = (tree.reaching zone stopped).toOption) ∧
    (∀ carrier zone toChildren stopped,
      (∀ found, tree.zone carrier = some found → propagatesDown found = toChildren ∧ stopped found = true) →
        (tree.covers carrier zone toChildren = .ok true ↔
          (zone ≠ "" ∧ zone = carrier) ∨ ∃ names, tree.reaching zone stopped = .ok names ∧ carrier ∈ names) ∧
        ∀ error, tree.covers carrier zone toChildren = .error error → tree.reaching zone stopped = .error error) ∧
    ∀ configs robot stops, coverageOf tree configs robot = .ok stops →
      (∀ stop ∈ holders robot tree configs, has stops stop.kind stop.name = true) ∧
      ∃ reached, fanOutCoverageOf tree configs robot = .ok reached ∧
        ∀ stop ∈ reached, has stops stop.kind stop.name = true := by
  refine ⟨Tree.stopsOver_eq_reaching named, fun carrier zone toChildren stopped own => ⟨?_, ?_⟩, ?_⟩
  · by_cases placed : zone = ""
    · subst placed
      simp [Tree.covers, Tree.reaching, named]
    have agree := @Tree.covers_iff_reaching _ _ _ stopped toChildren (fun found held => (own found held).1)
      (fun found held => (own found held).2) placed
    rw [agree]
    simp [placed]
  · exact fun error failed => Tree.covers_error failed stopped
  · exact fun configs robot stops found => ⟨fun stop => holders_covered found, fanOut_covered found⟩

theorem coverage_walks_agree_cell : stoppedSite.zone "" = none ∧
      (stoppedSite.stopsOver "cell" true FleetZone.carries).toOption = some ["site"] ∧
      stoppedSite.covers "site" "cell" true = .ok true ∧
      ∀ stop ∈ holders { ns := "hq", name := "r1", currentZone := "cell" } stoppedSite [],
        has [{ kind := .zone, name := "site", value := "fire", pending := true }] stop.kind stop.name = true := by
  have named : stoppedSite.zone "" = none := by decide +kernel
  obtain ⟨walks, covers, robots⟩ := coverage_walks_agree stoppedSite named
  have reached : stoppedSite.reaching "cell" FleetZone.carries = .ok ["site"] := by decide +kernel
  refine ⟨named, ?_, ?_, ?_⟩
  · rw [walks, reached]
    rfl
  · refine (covers "site" "cell" true FleetZone.carries ?_).1.mpr (.inr ⟨_, reached, List.mem_singleton_self _⟩)
    intro found held
    have site : stoppedSite.zone "site" = some { name := "site", annotations := [( triggerAnnotation, "fire")] } := by
      decide +kernel
    cases held.symm.trans site
    decide
  · exact (robots [] { ns := "hq", name := "r1", currentZone := "cell" } _ (by decide +kernel)).1

def zoneCycle : Tree where
  zones := [
    { name := "east", parentZone := "west", annotations := [( triggerAnnotation, "fire")] },
    { name := "west", parentZone := "east" }]
  distinct := by decide

/-- The carrier covers its own zone, whose chain `Reaching` cannot walk. -/
theorem covers_where_reaching_fails : zoneCycle.covers "east" "east" true = .ok true ∧
      zoneCycle.reaching "east" FleetZone.carries = .error ⟨"east", 1⟩ ∧
      ¬ ∃ names, zoneCycle.reaching "east" FleetZone.carries = .ok names ∧ "east" ∈ names := by
  have fails : zoneCycle.reaching "east" FleetZone.carries = .error ⟨"east", 1⟩ := by decide +kernel
  refine ⟨by decide +kernel, fails, ?_⟩
  rintro ⟨_, reached, -⟩
  cases fails.symm.trans reached

end Swarmada.Estopscope
