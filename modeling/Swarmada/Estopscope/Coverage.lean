import Swarmada.Estopscope.Holder
import Swarmada.Estopscope.Tree

namespace Swarmada.Estopscope

open Api

def namespaceStops (configs : List SwarmadaConfig) : List Holder :=
  (configs.filter (fun config => inForce config.annotations)).map fun config =>
    { kind := .namespace, name := config.name,
      value := (config.annotations.lookup triggerAnnotation).getD "",
      pending := pendingOn config.annotations }

def zoneStop (tree : Tree) (name : String) : Holder :=
  match tree.zone name with
  | some zone =>
    { kind := .zone, name, value := (zone.annotations.lookup triggerAnnotation).getD "",
      pending := zone.pending }
  | none => { kind := .zone, name }

def coveringAt (tree : Tree) (configs : List SwarmadaConfig) (zone : String) : Except TooDeepError (List Holder) :=
  if zone = "" then .ok (namespaceStops configs)
  else
    match tree.reaching zone FleetZone.carries with
    | .error error => .error error
    | .ok names => .ok (names.map (zoneStop tree) ++ namespaceStops configs)

def has (stops : List Holder) (kind : Kind) (name : String) : Bool :=
  stops.any (fun stop => stop.kind = kind && stop.name = name)

def lost (before after : List Holder) : List Holder :=
  before.filter (fun stop => !has after stop.kind stop.name)

structure EditLoss where
  pending : List String := []
  inForce : List String := []
deriving DecidableEq, Repr

def EditLoss.any (loss : EditLoss) : Bool := 0 < loss.pending.length + loss.inForce.length

def EditLoss.record (loss : EditLoss) (stop : Holder) : EditLoss :=
  if stop.name ∈ loss.pending ++ loss.inForce then loss
  else if stop.pending then { loss with pending := loss.pending ++ [stop.name] }
  else { loss with inForce := loss.inForce ++ [stop.name] }

def lossesAt (before after : Tree) : List String → EditLoss → Except TooDeepError EditLoss
  | [], loss => .ok loss
  | zone :: rest, loss =>
    match coveringAt before [] zone with
    | .error error => .error error
    | .ok was =>
      match coveringAt after [] zone with
      | .error error => .error error
      | .ok now => lossesAt before after rest ((lost was now).foldl EditLoss.record loss)

def editUncovers (before : Tree) (newZone : FleetZone) : Except TooDeepError EditLoss :=
  match before.subtree newZone.name with
  | .error error => .error error
  | .ok below => lossesAt before (before.withZone newZone) below {}

/-- A stop of this kind and name covers a robot standing in the zone. -/
def Covers (tree : Tree) (configs : List SwarmadaConfig) (zone : String) (kind : Kind) (name : String) : Prop :=
  ∃ stops, coveringAt tree configs zone = .ok stops ∧ has stops kind name = true

variable {before after : Tree} {configs : List SwarmadaConfig} {zone name : String} {kind : Kind}
  {loss result : EditLoss}

theorem coveringAt_configs (tree : Tree) (configs : List SwarmadaConfig) (zone : String) :
    coveringAt tree configs zone = (coveringAt tree [] zone).map (fun stops => stops ++ namespaceStops configs) := by
  unfold coveringAt
  split
  · simp [Except.map, namespaceStops]
  · cases tree.reaching zone FleetZone.carries <;> simp [Except.map, namespaceStops]

theorem has_append : has (stops ++ others) kind name = (has stops kind name || has others kind name) := by
  simp [has]

theorem covers_iff : Covers tree configs zone kind name ↔ ∃ stops, coveringAt tree [] zone = .ok stops ∧
      (has stops kind name = true ∨ has (namespaceStops configs) kind name = true) := by
  unfold Covers
  rw [coveringAt_configs]
  cases coveringAt tree [] zone with
  | error => simp [Except.map]
  | ok => simp [Except.map, has_append]

theorem has_of_not_lost (none : lost was now = []) (covered : has was kind name = true) : has now kind name = true := by
  obtain ⟨stop, member, matched⟩ := List.any_eq_true.mp covered
  simp only [Bool.and_eq_true, decide_eq_true_eq] at matched
  obtain ⟨rfl, rfl⟩ := matched
  by_contra absent
  have listed : stop ∈ lost was now := List.mem_filter.mpr ⟨member, by simpa using absent⟩
  simp [none] at listed

theorem EditLoss.record_any (loss : EditLoss) (stop : Holder) : (loss.record stop).any = true := by
  unfold record
  split
  next named =>
    have nonempty := List.length_pos_of_mem named
    simpa [any] using nonempty
  · split <;> simp only [any, List.length_append, List.length_singleton, decide_eq_true_eq] <;> omega

theorem EditLoss.foldl_record_any {stops : List Holder} (some : loss.any = true) :
    (stops.foldl EditLoss.record loss).any = true := by
  induction stops generalizing loss with
  | nil => exact some
  | cons stop stops ih => exact ih (loss.record_any stop)

theorem lossesAt_any (compared : lossesAt before after zones loss = .ok result)
    (some : loss.any = true) : result.any = true := by
  induction zones generalizing loss with
  | nil =>
    cases compared
    exact some
  | cons zone zones ih =>
    rw [lossesAt] at compared
    split at compared <;> try contradiction
    split at compared <;> try contradiction
    exact ih compared (EditLoss.foldl_record_any some)

theorem lossesAt_none (compared : lossesAt before after zones loss = .ok result)
    (none : result.any = false) (member : zone ∈ zones) :
    ∃ was now, coveringAt before [] zone = .ok was ∧ coveringAt after [] zone = .ok now ∧
      lost was now = [] := by
  induction zones generalizing loss with
  | nil => contradiction
  | cons first zones ih =>
    rw [lossesAt] at compared
    split at compared <;> try contradiction
    rename_i was covered
    split at compared <;> try contradiction
    rename_i now coveredAfter
    rcases List.mem_cons.mp member with rfl | later
    · refine ⟨was, now, covered, coveredAfter, ?_⟩
      by_contra losing
      obtain ⟨stop, _, split⟩ := List.exists_cons_of_ne_nil losing
      rw [split, List.foldl_cons] at compared
      have named := lossesAt_any compared (EditLoss.foldl_record_any (loss.record_any stop))
      simp [named] at none
    · exact ih compared later

def Tree.Closed (tree : Tree) (names : List String) : Prop :=
  ∀ name ∈ names, ∀ child ∈ tree.children name, child ∈ names

theorem Tree.Closed.parent {tree : Tree} {names : List String} (closed : tree.Closed names)
    (present : tree.zone name = some found) (outside : name ∉ names) (below : found.parentZone ≠ "") :
    found.parentZone ∉ names :=
  fun member => outside (closed _ member name (Tree.mem_children present below))

theorem Tree.climb_withZone {names : List String} (closed : before.Closed names)
    (edited : newZone.name ∈ names) (start : String) (left : Nat) (seen : List String)
    (outside : name ≠ "" → name ∉ names) :
    (before.withZone newZone).climb start left seen name = before.climb start left seen name := by
  induction left generalizing seen name with
  | zero => simp only [climb]
  | succ left ih =>
    by_cases last : name = ""
    · simp [climb, last]
    have untouched : name ≠ newZone.name := fun same => outside last (same ▸ edited)
    rw [climb, climb, zone_withZone_of_ne untouched]
    split
    · rfl
    cases present : before.zone name with
    | none => rfl
    | some =>
      simp only
      rw [ih (name :: seen) (closed.parent present (outside last))]

theorem Tree.reaching_withZone {names : List String} (closed : before.Closed names)
    (edited : newZone.name ∈ names) (outside : name ∉ names) (stopped : FleetZone → Bool) :
    (before.withZone newZone).reaching name stopped = before.reaching name stopped := by
  have untouched : name ≠ newZone.name := fun same => outside (same ▸ edited)
  unfold reaching ancestors
  rw [zone_withZone_of_ne untouched]
  cases present : before.zone name with
  | none => rfl
  | some =>
    simp only
    rw [climb_withZone closed edited _ _ _ (closed.parent present outside)]

theorem has_zoneStop {tree other : Tree} {names : List String} :
    has (names.map (zoneStop tree)) kind name = has (names.map (zoneStop other)) kind name := by
  have same (listed : String) : (zoneStop tree listed).kind = (zoneStop other listed).kind ∧
      (zoneStop tree listed).name = (zoneStop other listed).name := by
    unfold zoneStop
    constructor <;> split <;> split <;> rfl
  simp [has, List.any_map, Function.comp_def, (same _).1, (same _).2]

theorem covers_withZone {names : List String} (closed : before.Closed names)
    (edited : newZone.name ∈ names) (outside : zone ∉ names) (covered : Covers before configs zone kind name) :
    Covers (before.withZone newZone) configs zone kind name := by
  rw [covers_iff] at covered ⊢
  obtain ⟨_, found, matched⟩ := covered
  unfold coveringAt at found ⊢
  split at found
  · cases found
    rename_i unplaced
    simpa [unplaced] using matched
  rename_i placed
  rw [Tree.reaching_withZone closed edited outside]
  split at found <;> try contradiction
  rename_i reached same
  cases found
  refine ⟨reached.map (zoneStop (before.withZone newZone)) ++ namespaceStops [], by simp [placed], ?_⟩
  simpa only [has_append, @has_zoneStop _ _ (before.withZone newZone) before] using matched

/-- An edit or a creation the guard finds no loss in keeps every zone of the namespace
under every stop that covered it. -/
theorem edit_keeps_coverage {newZone : FleetZone} (judged : editUncovers before newZone = .ok loss)
    (none : loss.any = false) (covered : Covers before configs zone kind name) :
    Covers (before.withZone newZone) configs zone kind name := by
  unfold editUncovers at judged
  split at judged <;> try contradiction
  rename_i below listed
  obtain ⟨edited, closed⟩ := Tree.subtree_closed listed
  by_cases inside : zone ∈ below
  · obtain ⟨_, now, found, foundAfter, kept⟩ := lossesAt_none judged none inside
    obtain ⟨_, same, matched⟩ := covers_iff.mp covered
    cases same.symm.trans found
    exact covers_iff.mpr ⟨now, foundAfter, matched.imp_left (has_of_not_lost kept)⟩
  · exact covers_withZone closed edited inside covered

def stoppedSite : Tree where
  zones := [
    { name := "site", annotations := [( triggerAnnotation, "fire")] },
    { name := "annex", parentZone := "site" },
    { name := "floor", parentZone := "site" },
    { name := "cell", parentZone := "floor" }]
  distinct := by decide

/-- The floor goes under the annex: the cell stays under the stop of the site. -/
theorem edit_keeps_coverage_moved_floor : editUncovers stoppedSite { name := "floor", parentZone := "annex" } = .ok {} ∧
      Covers (stoppedSite.withZone { name := "floor", parentZone := "annex" }) [] "cell" .zone "site" := by
  have judged : editUncovers stoppedSite { name := "floor", parentZone := "annex" } = .ok {} := by
    decide +kernel
  have covered : Covers stoppedSite [] "cell" .zone "site" :=
    ⟨[{ kind := .zone, name := "site", value := "fire", pending := true }], by decide +kernel, by decide⟩
  exact ⟨judged, edit_keeps_coverage judged rfl covered⟩

end Swarmada.Estopscope
