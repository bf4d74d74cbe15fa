import Swarmada.Estopscope.Robots

namespace Swarmada.Estopscope

open Api

structure World where
  tree : Tree
  configs : List SwarmadaConfig

/-- A stop of the kind and name covers the robot: its own, one over a zone it stands in or
is declared in, the namespace's, or one the robot records. -/
def Covered (world : World) (robot : Robot) (kind : Kind) (name : String) : Prop :=
  (has (ownStop robot) kind name = true ∨
    (kind = .zone ∧ ∃ zone ∈ [robot.currentZone, robot.zone], zone ≠ "" ∧
      world.tree.Over FleetZone.carries zone name)) ∨
  has (namespaceStops world.configs) kind name = true ∨
  has (robot.estopHeldBy.filterMap (recordedStop world.tree world.configs)) kind name = true

variable {world : World} {before after : Robot} {kind : Kind} {name : String}

/-- What a move must not do: a stop that covers the robot before covers it after, as the
guard reads the robot and as the fan-out does. -/
def Keeps (world : World) (before after : Robot) (kind : Kind) (name : String) : Prop :=
  (Covered world before kind name → Covered world after kind name) ∧
    (Covered world (fanOutReading before) kind name → Covered world (fanOutReading after) kind name)

theorem Keeps.refl (robot : Robot) : Keeps world robot robot kind name := ⟨id, id⟩

theorem Keeps.trans (first : Keeps world before middle kind name)
    (second : Keeps world middle after kind name) : Keeps world before after kind name :=
  ⟨second.1 ∘ first.1, second.2 ∘ first.2⟩

theorem losses_nil (read : reading ∈ readings) (none : losses before after readings = .ok []) :
    ∃ was now, reading before = .ok was ∧ reading after = .ok now ∧ lost was now = [] := by
  induction readings with
  | nil => contradiction
  | cons first rest ih =>
    rw [losses] at none
    split at none <;> try contradiction
    rename_i was wasRead
    split at none <;> try contradiction
    rename_i now nowRead
    cases others : losses before after rest with
    | error =>
      rw [others] at none
      contradiction
    | ok =>
      rw [others] at none
      obtain ⟨here, later⟩ := List.append_eq_nil_iff.mp (Except.ok.inj none)
      rcases List.mem_cons.mp read with rfl | further
      · exact ⟨was, now, wasRead, nowRead, here⟩
      · exact ih further (later ▸ others)

theorem distinctStops_eq_nil (none : distinctStops stops = []) : stops = [] := by
  cases stops with
  | nil => rfl
  | cons stop rest =>
    have listed : has (distinctStops (stop :: rest)) stop.kind stop.name = true :=
      has_distinctStops.trans (has_of_mem List.mem_cons_self)
    rw [none] at listed
    contradiction

theorem keeps_of_moveLoses (judged : moveLoses world.tree world.configs before after = .ok []) :
    Keeps world before after kind name := by
  unfold moveLoses at judged
  cases compared : losses before after [coverageOf world.tree world.configs, fanOutCoverageOf world.tree world.configs] with
  | error =>
    rw [compared] at judged
    contradiction
  | ok =>
    rw [compared] at judged
    obtain rfl := distinctStops_eq_nil (Except.ok.inj judged)
    constructor
    · intro covered
      obtain ⟨_, _, wasRead, nowRead, kept⟩ := losses_nil List.mem_cons_self compared
      exact (has_coverageOf nowRead).mp (has_of_not_lost kept ((has_coverageOf wasRead).mpr covered))
    · intro covered
      obtain ⟨_, _, wasRead, nowRead, kept⟩ := losses_nil (List.mem_cons_of_mem _ List.mem_cons_self) compared
      exact (has_coverageOf nowRead).mp (has_of_not_lost kept ((has_coverageOf wasRead).mpr covered))

def reportedZone (robot : Robot) : String := if robot.currentZone = "" then robot.zone else robot.currentZone

theorem mem_fanOutReading (placed : zone ≠ "") :
    zone ∈ [(fanOutReading robot).currentZone, (fanOutReading robot).zone] ↔ zone = reportedZone robot := by
  unfold fanOutReading reportedZone
  by_cases recorded : robot.currentZone = ""
  · simp [recorded, placed]
  · simp [recorded]

theorem ownStop_fanOutReading (robot : Robot) : ownStop (fanOutReading robot) = ownStop robot := by
  unfold fanOutReading
  split <;> rfl

theorem estopHeldBy_fanOutReading (robot : Robot) : (fanOutReading robot).estopHeldBy = robot.estopHeldBy := by
  unfold fanOutReading
  split <;> rfl

theorem Covered.mono (own : has (ownStop before) kind name = true → has (ownStop after) kind name = true)
    (holds : after.estopHeldBy = before.estopHeldBy)
    (zones : ∀ zone, zone ≠ "" → zone ∈ [before.currentZone, before.zone] → zone ∈ [after.currentZone, after.zone])
    (covered : Covered world before kind name) : Covered world after kind name := by
  rcases covered with (ownStop | ⟨ofZone, zone, standing, placed, reaches⟩) | config | recorded
  · exact .inl (.inl (own ownStop))
  · exact .inl (.inr ⟨ofZone, zone, zones zone placed standing, placed, reaches⟩)
  · exact .inr (.inl config)
  · exact .inr (.inr (holds ▸ recorded))

theorem keeps_of_zones (own : has (ownStop before) kind name = true → has (ownStop after) kind name = true)
    (holds : after.estopHeldBy = before.estopHeldBy)
    (zones : ∀ zone, zone ≠ "" → zone ∈ [before.currentZone, before.zone] → zone ∈ [after.currentZone, after.zone])
    (reported : reportedZone before ≠ "" → reportedZone after = reportedZone before) :
    Keeps world before after kind name := by
  refine ⟨Covered.mono own holds zones, Covered.mono ?_ ?_ ?_⟩
  · rwa [ownStop_fanOutReading, ownStop_fanOutReading]
  · rwa [estopHeldBy_fanOutReading, estopHeldBy_fanOutReading]
  intro zone placed standing
  rw [mem_fanOutReading placed] at standing ⊢
  rw [standing, reported (standing ▸ placed)]

end Swarmada.Estopscope
