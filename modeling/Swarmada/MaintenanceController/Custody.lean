import Swarmada.MaintenanceController.Reconcile

namespace Swarmada.MaintenanceController

open Api Transition

def Unclosed (window : ZoneMaintenance) : Prop :=
  window.status.phase ≠ .completed ∧ window.status.phase ≠ .cancelled

instance : DecidablePred Unclosed := fun window =>
  inferInstanceAs (Decidable (window.status.phase ≠ .completed ∧ window.status.phase ≠ .cancelled))

def Answers (zones : List CompositeZone) (window : ZoneMaintenance) (robot : FleetRobot) : Prop :=
  recorded window robot = true ∨ covers zones window robot = true

/-- The window will close, and answers for the robot then. -/
structure Keeps (zones : List CompositeZone) (window : ZoneMaintenance) (robot : FleetRobot) : Prop where
  finalizer : window.finalizer = true
  unclosed : Unclosed window
  answers : Answers zones window robot

structure Kept (world : World) : Prop where
  distinct : (world.windows.map ZoneMaintenance.name).Nodup
  finalized : ∀ window ∈ world.windows, window.status.phase = .active → window.finalizer = true
  custody : ∀ robot ∈ world.robots, robot.phase = .maintenance → ∃ window ∈ world.windows, Keeps world.zones window robot

section
variable {zones : List CompositeZone} {window : ZoneMaintenance} {robot : FleetRobot} {phase : RobotPhase}

theorem setRobotPhase_toRobot : (setRobotPhase phase robot).toRobot = robot.toRobot := by
  unfold setRobotPhase
  split <;> rfl

theorem Answers.congr (same : after.toRobot = robot.toRobot) :
    Answers zones window after ↔ Answers zones window robot := by
  unfold Answers recorded covers robotInScope
  rw [same]

theorem Keeps.congr (same : after.toRobot = robot.toRobot) (keeps : Keeps zones window robot) :
    Keeps zones window after :=
  ⟨keeps.finalizer, keeps.unclosed, (Answers.congr same).mpr keeps.answers⟩

theorem setRobotPhase_idle (paused : robot.phase = .maintenance) : (setRobotPhase .idle robot).phase = .idle := by
  simp [setRobotPhase, paused]

end

section
variable {world : World} {robot : FleetRobot}

theorem mem_withPhase_idle (paused : ∀ robot ∈ freed, robot.phase = .maintenance)
    (member : robot ∈ (world.withPhase freed .idle).robots) (held : robot.phase = .maintenance) :
    robot ∈ world.robots ∧ robot ∉ freed := by
  obtain ⟨before, beforeIn, rfl⟩ := List.mem_map.mp member
  by_cases written : before ∈ freed
  · rw [if_pos written, setRobotPhase_idle (paused before written)] at held
    contradiction
  · rw [if_neg written]
    exact ⟨beforeIn, written⟩

theorem Kept.withPhase_idle {freed : List FleetRobot} (kept : Kept world)
    (paused : ∀ robot ∈ freed, robot.phase = .maintenance) : Kept (world.withPhase freed .idle) where
  distinct := kept.distinct
  finalized := kept.finalized
  custody := fun robot member held => kept.custody robot (mem_withPhase_idle paused member held).1 held

theorem Kept.withPhase_maintenance (kept : Kept world)
    (keeps : ∀ robot ∈ paused, ∃ window ∈ world.windows, Keeps world.zones window robot) :
    Kept (world.withPhase paused .maintenance) where
  distinct := kept.distinct
  finalized := kept.finalized
  custody := by
    intro robot member held
    obtain ⟨before, beforeIn, rfl⟩ := List.mem_map.mp member
    by_cases written : before ∈ paused
    · rw [if_pos written]
      obtain ⟨window, windowIn, keepsBefore⟩ := keeps before written
      exact ⟨window, windowIn, keepsBefore.congr setRobotPhase_toRobot⟩
    · rw [if_neg written] at held ⊢
      exact kept.custody before beforeIn held

theorem window_found (found : world.window name = some window) : window ∈ world.windows ∧ window.name = name :=
  ⟨List.mem_of_find?_eq_some found, by simpa using List.find?_some found⟩

theorem Kept.eq_of_name (kept : Kept world) (windowIn : window ∈ world.windows)
    (otherIn : other ∈ world.windows) (same : other.name = window.name) : other = window :=
  List.inj_on_of_nodup_map kept.distinct otherIn windowIn same

theorem Kept.writeWindow (kept : Kept world) (stored : window ∈ world.windows)
    (name : after.name = window.name) (finalized : after.status.phase = .active → after.finalizer = true)
    (keeps : ∀ robot ∈ world.robots, robot.phase = .maintenance → Keeps world.zones window robot →
      Keeps world.zones after robot ∨ ∃ other ∈ world.windows, other.name ≠ window.name ∧ Keeps world.zones other robot) :
    Kept (world.writeWindow after) where
  distinct := by
    have names : (world.writeWindow after).windows.map ZoneMaintenance.name = world.windows.map ZoneMaintenance.name := by
      unfold World.writeWindow World.writeWindows
      rw [List.map_map]
      refine List.map_congr_left fun other _ => ?_
      by_cases same : other.name = after.name <;> simp [same]
    rw [names]
    exact kept.distinct
  finalized := by
    intro other member active
    obtain ⟨before, beforeIn, rfl⟩ := List.mem_map.mp member
    by_cases same : before.name = after.name
    · rw [if_pos same] at active ⊢
      exact finalized active
    · rw [if_neg same] at active ⊢
      exact kept.finalized before beforeIn active
  custody := by
    have others : ∀ other ∈ world.windows, other.name ≠ window.name → other ∈ (world.writeWindow after).windows := by
      intro other otherIn differs
      exact List.mem_map.mpr ⟨other, otherIn, if_neg (name ▸ differs)⟩
    intro robot member held
    obtain ⟨keeper, keeperIn, keepsRobot⟩ := kept.custody robot member held
    by_cases same : keeper.name = window.name
    · rw [kept.eq_of_name stored keeperIn same] at keepsRobot
      rcases keeps robot member held keepsRobot with still | ⟨other, otherIn, differs, keepsOther⟩
      · exact ⟨after, List.mem_map.mpr ⟨window, stored, if_pos name.symm⟩, still⟩
      · exact ⟨other, others other otherIn differs, keepsOther⟩
    · exact ⟨keeper, others keeper keeperIn same, keepsRobot⟩

theorem Kept.removeWindow (kept : Kept world) (stored : window ∈ world.windows)
    (keeps : ∀ robot ∈ world.robots, robot.phase = .maintenance → Keeps world.zones window robot →
      ∃ other ∈ world.windows, other.name ≠ window.name ∧ Keeps world.zones other robot) :
    Kept (world.removeWindow window.name) where
  distinct := kept.distinct.sublist (List.filter_sublist.map _)
  finalized := fun other member => kept.finalized other (List.mem_of_mem_filter member)
  custody := by
    have others : ∀ other ∈ world.windows, other.name ≠ window.name →
        other ∈ (world.removeWindow window.name).windows :=
      fun other otherIn differs => List.mem_filter.mpr ⟨otherIn, by simpa using differs⟩
    intro robot member held
    obtain ⟨keeper, keeperIn, keepsRobot⟩ := kept.custody robot member held
    by_cases same : keeper.name = window.name
    · rw [kept.eq_of_name stored keeperIn same] at keepsRobot
      obtain ⟨other, otherIn, differs, keepsOther⟩ := keeps robot member held keepsRobot
      exact ⟨other, others other otherIn differs, keepsOther⟩
    · exact ⟨keeper, others keeper keeperIn same, keepsRobot⟩

end

/-- The pass leaves a robot in Maintenance to another window only when that window answers for it now. -/
def Current (pass : Pass) (world : World) : Prop :=
  ∀ robot ∈ world.robots, robot.phase = .maintenance →
    coveredByOtherActive world.zones (world.listed (pass.behind robot.name)) pass.window robot = true →
      coveredByOtherActive world.zones world.windows pass.window robot = true

section
variable {pass : Pass} {world : World} {window original : ZoneMaintenance} {robot : FleetRobot} {robots : List FleetRobot}
  {requireClear gated : Bool}

theorem Kept.covered (kept : Kept world)
    (covered : coveredByOtherActive world.zones world.windows pass.window robot = true) :
    ∃ other ∈ world.windows, other.name ≠ pass.window ∧ Keeps world.zones other robot := by
  obtain ⟨other, otherIn, facts⟩ := List.any_eq_true.mp covered
  simp only [Bool.and_eq_true, Bool.or_eq_true, decide_eq_true_eq] at facts
  obtain ⟨⟨⟨differs, _⟩, active⟩, answers⟩ := facts
  exact ⟨other, otherIn, differs, kept.finalized other otherIn active, by simp [Unclosed, active], answers⟩

theorem mem_robotsPausedByWindow :
    robot ∈ robotsPausedByWindow world window ↔ robot ∈ world.robots ∧ Answers world.zones window robot := by
  unfold robotsPausedByWindow robotsInScopeAndPausedOutside Answers
  by_cases covered : covers world.zones window robot = true <;> simp [covered]

theorem resumeEach_freed (freed : robot ∈ (resumeEach pass world requireClear robots).freed) :
    robot.phase = .maintenance := by
  fun_induction resumeEach pass world requireClear robots with
  | case1 | case3 => simp at freed
  | case2 _ _ _ ih | case4 _ _ _ _ _ ih | case5 _ _ _ _ _ _ _ ih => exact ih freed
  | case6 other rest paused _ _ _ _ ih =>
    rcases List.mem_cons.mp freed with rfl | later
    · exact not_not.mp paused
    · exact ih later

theorem resumeEach_cases (done : (resumeEach pass world requireClear robots).failed = false)
    (member : robot ∈ robots) (held : robot.phase = .maintenance) :
    robot ∈ (resumeEach pass world requireClear robots).freed ∨
      robot ∈ (resumeEach pass world requireClear robots).blocked ∨
        coveredByOtherActive world.zones (world.listed (pass.behind robot.name)) pass.window robot = true := by
  fun_induction resumeEach pass world requireClear robots with
  | case1 => simp at member
  | case2 other rest elsewhere ih =>
    rcases List.mem_cons.mp member with rfl | later
    · exact absurd held elsewhere
    · exact ih done later
  | case3 => simp at done
  | case4 other rest _ _ covered ih =>
    rcases List.mem_cons.mp member with rfl | later
    · exact .inr (.inr covered)
    · exact ih done later
  | case5 other rest _ _ _ after _ ih =>
    rcases List.mem_cons.mp member with rfl | later
    · exact .inr (.inl List.mem_cons_self)
    rcases ih done later with freed | blocked | covered
    · exact .inl freed
    · exact .inr (.inl (List.mem_cons_of_mem _ blocked))
    · exact .inr (.inr covered)
  | case6 other rest _ _ _ after _ ih =>
    rcases List.mem_cons.mp member with rfl | later
    · exact .inl List.mem_cons_self
    rcases ih done later with freed | blocked | covered
    · exact .inl (List.mem_cons_of_mem _ freed)
    · exact .inr (.inl blocked)
    · exact .inr (.inr covered)

theorem resumeEach_ungated : (resumeEach pass world false robots).blocked = [] := by
  induction robots with
  | nil => rfl
  | cons robot robots ih =>
    rw [resumeEach]
    split_ifs <;> simp_all

theorem Kept.resumed (kept : Kept world) (current : Current pass world)
    (done : (resumeAll pass world window gated).failed = false)
    (unheld : (resumeAll pass world window gated).blocked = [])
    (member : robot ∈ (world.withPhase (resumeAll pass world window gated).freed .idle).robots)
    (held : robot.phase = .maintenance) (answers : Answers world.zones window robot) :
    ∃ other ∈ world.windows, other.name ≠ pass.window ∧ Keeps world.zones other robot := by
  obtain ⟨memberBefore, unfreed⟩ := mem_withPhase_idle (fun _ => resumeEach_freed) member held
  rcases resumeEach_cases done (mem_robotsPausedByWindow.mpr ⟨memberBefore, answers⟩) held with
    freed | blocked | covered
  · exact absurd freed unfreed
  · rw [show (resumeEach _ _ _ _).blocked = [] from unheld] at blocked
    simp at blocked
  · exact kept.covered (current robot memberBefore held covered)

theorem Kept.finalize (kept : Kept world) (current : Current pass world) (stored : window ∈ world.windows)
    (named : window.name = pass.window) : Kept (finalize pass world window).1 := by
  have after := @Kept.withPhase_idle _ (resumeAll pass world window false).freed kept fun _ => resumeEach_freed
  unfold MaintenanceController.finalize
  by_cases stopped : ((resumeAll pass world window false).failed || pass.refused) = true
  · rw [if_pos stopped]
    exact after
  rw [if_neg stopped]
  simp only [Bool.or_eq_true, not_or, Bool.not_eq_true] at stopped
  refine after.removeWindow stored fun robot member held keeps => ?_
  rw [named]
  exact kept.resumed current stopped.1 resumeEach_ungated member held keeps.answers

theorem Kept.patchStatus (kept : Kept world) (written : Kept (world.writeWindow after)) :
    Kept (patchStatusIfChanged pass original after world) := by
  unfold patchStatusIfChanged
  split
  · exact kept
  · exact written

theorem recorded_of_entry {entry : PausedRobotEntry} (listed : entry ∈ window.status.pausedRobots)
    (named : entry.name = robot.name) : recorded window robot = true := by
  unfold recorded pauseTime
  rw [Option.isSome_map, List.find?_isSome]
  exact ⟨entry, listed, by simpa using named⟩

structure Continues (original window : ZoneMaintenance) : Prop where
  name : window.name = original.name
  finalizer : window.finalizer = original.finalizer
  spec : window.spec = original.spec
  paused : window.status.pausedRobots = original.status.pausedRobots

theorem Continues.answers (same : Continues original window) :
    Answers zones window robot ↔ Answers zones original robot := by
  unfold Answers recorded pauseTime covers
  rw [same.spec, same.paused]

structure Read (world : World) (original window : ZoneMaintenance) : Prop where
  stored : original ∈ world.windows
  unclosed : Unclosed original
  finalizer : original.finalizer = true
  same : Continues original window
  still : Unclosed window

theorem Read.keeps (read : Read world original window) (answers : Answers world.zones window robot) :
    Keeps world.zones original robot :=
  ⟨read.finalizer, read.unclosed, read.same.answers.mp answers⟩

theorem Kept.close (kept : Kept world) (current : Current pass world) (read : Read world original window)
    (named : original.name = pass.window) (trigger : String) : Kept (close pass world original window trigger).1 := by
  have after := @Kept.withPhase_idle _ (resumeAll pass world window true).freed kept fun _ => resumeEach_freed
  unfold MaintenanceController.close
  by_cases failed : (resumeAll pass world window true).failed = true
  · rw [if_pos failed]
    exact after
  rw [if_neg failed]
  by_cases held : (resumeAll pass world window true).blocked = []
  · rw [if_neg (not_not.mpr held)]
    refine after.patchStatus (after.writeWindow read.stored read.same.name (by simp [closeCompleted]) ?_)
    intro robot member paused keeps
    rw [named]
    exact .inr (kept.resumed current (Bool.not_eq_true _ ▸ failed) held member paused
      (read.same.answers.mpr keeps.answers))
  rw [if_pos held]
  refine after.patchStatus (after.writeWindow read.stored read.same.name
    (fun _ => read.same.finalizer.trans read.finalizer) ?_)
  intro robot member paused keeps
  -- every robot the window still answers for is put on its record
  refine .inl ⟨read.same.finalizer.trans read.finalizer, read.still, .inl ?_⟩
  refine @recorded_of_entry _ _ (pausedEntry window pass.now robot) ?_ rfl
  refine (List.mem_insertionSort _).mpr (List.mem_map_of_mem (List.mem_filter.mpr ⟨?_, by simpa using paused⟩))
  exact mem_robotsPausedByWindow.mpr ⟨member, read.same.answers.mpr keeps.answers⟩

theorem drainEach_paused (paused : robot ∈ (drainEach pass window force robots).paused) : robot ∈ robots := by
  fun_induction drainEach pass window force robots with
  | case1 | case3 | case5 => simp at paused
  | case2 _ _ _ _ _ ih | case6 _ _ _ _ _ _ _ _ ih | case7 _ _ _ _ _ _ ih => exact List.mem_cons_of_mem _ (ih paused)
  | case4 other rest _ _ _ _ ih =>
    rcases List.mem_cons.mp paused with rfl | later
    · exact List.mem_cons_self
    · exact List.mem_cons_of_mem _ (ih later)

theorem drainEach_entry (done : (drainEach pass window force robots).failed = false) (member : robot ∈ robots)
    (held : robot.phase = .maintenance ∨ robot ∈ (drainEach pass window force robots).paused) :
    ∃ entry ∈ (drainEach pass window force robots).entries, entry.name = robot.name := by
  fun_induction drainEach pass window force robots with
  | case1 => simp at member
  | case2 other rest _ _ _ ih =>
    rcases List.mem_cons.mp member with rfl | later
    · exact ⟨_, List.mem_cons_self, rfl⟩
    · obtain ⟨entry, entryIn, named⟩ := ih done later held
      exact ⟨entry, List.mem_cons_of_mem _ entryIn, named⟩
  | case3 | case5 => simp at done
  | case4 other rest _ _ _ _ ih =>
    by_cases first : robot = other
    · exact ⟨_, List.mem_cons_self, by rw [first]⟩
    have later := (List.mem_cons.mp member).resolve_left first
    have heldLater := held.imp_right fun paused => (List.mem_cons.mp paused).resolve_left first
    obtain ⟨entry, entryIn, named⟩ := ih done later heldLater
    exact ⟨entry, List.mem_cons_of_mem _ entryIn, named⟩
  | case6 other rest _ elsewhere _ _ _ _ ih | case7 other rest _ elsewhere _ _ ih =>
    rcases held with paused | written
    · rcases List.mem_cons.mp member with rfl | later
      · exact absurd paused elsewhere
      · exact ih done later (.inl paused)
    · exact ih done (drainEach_paused written) (.inr written)

variable (kept : Kept world)
include kept

theorem Kept.drain (read : Read world original window) (justActivated : Bool) :
    Kept (drain pass world original window justActivated).1 := by
  unfold MaintenanceController.drain robotsInScopeAndPausedOutside
  dsimp only
  generalize (decide (window.spec.mode = .immediate) || drainExpired pass world window) = force
  generalize found : drainEach pass window force (world.robots.filter fun robot => covers world.zones window robot) = drain
  have inScope : ∀ robot ∈ drain.paused, robot ∈ world.robots ∧ covers world.zones window robot = true := by
    intro robot paused
    rw [← found] at paused
    exact List.mem_filter.mp (drainEach_paused paused)
  have after : Kept (world.withPhase drain.paused .maintenance) := by
    refine kept.withPhase_maintenance fun robot paused => ?_
    exact ⟨original, read.stored, read.keeps (.inr (inScope robot paused).2)⟩
  by_cases failed : drain.failed = true
  · rw [if_pos failed]
    exact after
  rw [if_neg failed]
  refine after.patchStatus (after.writeWindow read.stored read.same.name
    (fun _ => read.same.finalizer.trans read.finalizer) ?_)
  intro robot member held keeps
  refine .inl ⟨read.same.finalizer.trans read.finalizer, read.still, .inl ?_⟩
  obtain ⟨before, beforeIn, written⟩ := List.mem_map.mp member
  have alike : robot.toRobot = before.toRobot := by
    rw [← written]
    split
    · exact setRobotPhase_toRobot
    · rfl
  have paused : before.phase = .maintenance ∨ before ∈ drain.paused := by
    by_cases listed : before ∈ drain.paused
    · exact .inr listed
    · rw [if_neg listed] at written
      exact .inl (written ▸ held)
  have named : before.name = robot.name := by rw [alike]
  have answers : Answers world.zones window before :=
    (Answers.congr alike).mp (read.same.answers.mpr keeps.answers)
  by_cases covered : covers world.zones window before = true
  · -- the loop met the robot in scope
    have listed : before ∈ world.robots.filter fun robot => covers world.zones window robot :=
      List.mem_filter.mpr ⟨beforeIn, covered⟩
    rw [← found] at paused failed
    obtain ⟨_, entryIn, entryNamed⟩ := drainEach_entry (Bool.not_eq_true _ ▸ failed) listed paused
    rw [found] at entryIn
    exact recorded_of_entry ((List.mem_insertionSort _).mpr (List.mem_append_left _ entryIn)) (entryNamed.trans named)
  · -- the robot has left the scope and is on the record
    have onRecord := answers.resolve_right covered
    have still : before.phase = .maintenance := by
      rcases paused with still | listed
      · exact still
      · exact absurd (inScope before listed).2 covered
    refine @recorded_of_entry _ _ (pausedEntry window pass.now before) ?_ named
    refine (List.mem_insertionSort _).mpr (List.mem_append_right _ (List.mem_map_of_mem ?_))
    exact List.mem_filter.mpr ⟨List.mem_filter.mpr ⟨beforeIn, by simp [covered, onRecord]⟩, by simpa using still⟩

theorem Kept.advance (current : Current pass world) (read : Read world original window)
    (named : original.name = pass.window) (justActivated : Bool) :
    Kept (advance pass world original window justActivated).1 := by
  unfold MaintenanceController.advance
  dsimp only
  split
  · exact kept.close current read named _
  · exact kept.drain read justActivated

theorem Kept.statusOnly (read : Read world original after) : Kept (patchStatusIfChanged pass original after world) := by
  refine kept.patchStatus (kept.writeWindow read.stored read.same.name
    (fun _ => read.same.finalizer.trans read.finalizer) fun robot _ _ keeps => .inl ?_)
  exact ⟨read.same.finalizer.trans read.finalizer, read.still, read.same.answers.mpr keeps.answers⟩

theorem Kept.progress (current : Current pass world) (read : Read world original original)
    (named : original.name = pass.window) : Kept (progress pass world original).1 := by
  unfold MaintenanceController.progress
  dsimp only
  split
  · exact kept.statusOnly ⟨read.stored, read.unclosed, read.finalizer, ⟨rfl, rfl, rfl, rfl⟩, by simp [Unclosed]⟩
  split
  · split
    · exact kept.statusOnly ⟨read.stored, read.unclosed, read.finalizer, ⟨rfl, rfl, rfl, rfl⟩, read.unclosed⟩
    have activated : Read world original (activate pass original) :=
      ⟨read.stored, read.unclosed, read.finalizer, ⟨rfl, rfl, rfl, rfl⟩, by simp [Unclosed, activate]⟩
    exact kept.advance current activated named true
  · exact kept.advance current read named false

theorem Kept.reconcile (current : Current pass world) : Kept (reconcile pass world).1 := by
  unfold MaintenanceController.reconcile
  cases found : world.window pass.window with
  | none => exact kept
  | some window =>
    obtain ⟨stored, named⟩ := window_found found
    dsimp only
    by_cases deleting : window.deleting = true
    · rw [if_pos deleting]
      split
      · exact kept.finalize current stored named
      · exact kept
    rw [if_neg deleting]
    by_cases finalizer : window.finalizer = true
    · rw [if_neg (by simp [finalizer])]
      by_cases closed : window.status.phase = .completed ∨ window.status.phase = .cancelled
      · rw [if_pos closed]
        exact kept
      rw [if_neg closed]
      have unclosed : Unclosed window := not_or.mp closed
      exact kept.progress current ⟨stored, unclosed, finalizer, ⟨rfl, rfl, rfl, rfl⟩, unclosed⟩ named
    · rw [if_pos (by simp [finalizer])]
      split
      · exact kept
      · exact kept.writeWindow stored rfl (fun _ => rfl) fun robot _ _ keeps => .inl ⟨rfl, keeps.unclosed, keeps.answers⟩

end

/-- A robot in Maintenance goes out of the scope of an unclosed window only when the window has it on
its record. -/
def Followed (zones zones' : List CompositeZone) (window window' : ZoneMaintenance) (robot robot' : FleetRobot) : Prop :=
  robot'.phase = .maintenance → Unclosed window → covers zones window robot = true →
    recorded window robot = true ∨ covers zones' window' robot' = true

/-- No close leaves a robot to a window on the strength of a list that is out of date, and no robot is
moved out of a window's scope between its pause and the record of it. -/
def Careful (world : World) : Act → Prop
  | .reconcile pass => Current pass world
  | .edit name spec => ∀ window ∈ world.windows, window.name = name → ∀ robot ∈ world.robots,
      Followed world.zones world.zones window { window with spec } robot robot
  | .robot before after => ∀ window ∈ world.windows, Followed world.zones world.zones window window before after
  | .zones zones => ∀ window ∈ world.windows, ∀ robot ∈ world.robots,
      Followed world.zones zones window window robot robot
  | .create _ _ | .delete _ | .addRobot _ | .removeRobot _ | .config _ => True

section
variable {world after : World} {act : Act} {events : List Event}

theorem Kept.create {name : String} (kept : Kept world) (fresh : world.window name = none) (spec : ZoneMaintenanceSpec) :
    Kept (world.writeWindows (world.windows ++ [({ name, spec } : ZoneMaintenance)])) where
  distinct := by
    have unused : ∀ window ∈ world.windows, window.name ≠ name := by
      simpa [World.window, List.find?_eq_none] using fresh
    unfold World.writeWindows
    rw [List.map_append, List.map_singleton]
    refine List.Nodup.append kept.distinct (List.nodup_singleton name) ?_
    simpa [List.disjoint_singleton] using unused
  finalized := by
    intro window member active
    rcases List.mem_append.mp member with earlier | last
    · exact kept.finalized window earlier active
    · rw [List.mem_singleton.mp last] at active
      contradiction
  custody := by
    intro robot member held
    obtain ⟨window, windowIn, keeps⟩ := kept.custody robot member held
    exact ⟨window, List.mem_append_left _ windowIn, keeps⟩

theorem Kept.step (kept : Kept world) (careful : Careful world act) (taken : step world act = some (after, events)) :
    Kept after := by
  cases act with
  | reconcile pass =>
    have ran : MaintenanceController.reconcile pass world = (after, events) := Option.some.inj taken
    have reconciled := kept.reconcile careful
    rwa [ran] at reconciled
  | create _ spec =>
    simp only [MaintenanceController.step] at taken
    split at taken <;> try contradiction
    rename_i fresh
    cases taken
    exact kept.create fresh spec
  | edit =>
    obtain ⟨window, found, same⟩ := Option.map_eq_some_iff.mp taken
    cases same
    obtain ⟨stored, named⟩ := window_found found
    refine kept.writeWindow stored rfl (kept.finalized window stored) fun robot member held keeps => .inl ?_
    refine ⟨keeps.finalizer, keeps.unclosed, ?_⟩
    rcases keeps.answers with onRecord | covered
    · exact .inl onRecord
    · exact careful window stored named robot member held keeps.unclosed covered
  | delete =>
    obtain ⟨window, found, same⟩ := Option.map_eq_some_iff.mp taken
    cases same
    obtain ⟨stored, named⟩ := window_found found
    split
    · exact kept.writeWindow stored rfl (kept.finalized window stored) fun robot _ _ keeps =>
        .inl ⟨keeps.finalizer, keeps.unclosed, keeps.answers⟩
    rename_i unfinalized
    rw [← named]
    exact kept.removeWindow stored fun robot _ _ keeps => absurd keeps.finalizer unfinalized
  | robot before robot' =>
    simp only [MaintenanceController.step] at taken
    split at taken <;> try contradiction
    rename_i guard
    cases taken
    refine ⟨kept.distinct, kept.finalized, fun robot member held => ?_⟩
    obtain ⟨other, otherIn, rfl⟩ := List.mem_map.mp member
    by_cases moved : other = before
    · rw [if_pos moved] at held ⊢
      obtain ⟨window, windowIn, keeps⟩ := kept.custody before guard.1 (guard.2.2 held)
      refine ⟨window, windowIn, keeps.finalizer, keeps.unclosed, ?_⟩
      -- the record names the robot wherever it goes
      have onRecord : recorded window robot' = recorded window before := by
        unfold recorded
        rw [guard.2.1]
      rcases keeps.answers with listed | covered
      · exact .inl (onRecord.trans listed)
      · exact (careful window windowIn held keeps.unclosed covered).imp_left onRecord.trans
    · rw [if_neg moved] at held ⊢
      exact kept.custody other otherIn held
  | addRobot =>
    simp only [MaintenanceController.step] at taken
    split at taken <;> try contradiction
    rename_i guard
    cases taken
    refine ⟨kept.distinct, kept.finalized, fun other member held => ?_⟩
    rcases List.mem_append.mp member with earlier | last
    · exact kept.custody other earlier held
    · rw [List.mem_singleton.mp last] at held
      exact absurd held guard.1
  | removeRobot =>
    cases taken
    exact ⟨kept.distinct, kept.finalized, fun other member => kept.custody other (List.mem_of_mem_filter member)⟩
  | zones =>
    cases taken
    refine ⟨kept.distinct, kept.finalized, fun robot member held => ?_⟩
    obtain ⟨window, windowIn, keeps⟩ := kept.custody robot member held
    refine ⟨window, windowIn, keeps.finalizer, keeps.unclosed, ?_⟩
    rcases keeps.answers with onRecord | covered
    · exact .inl onRecord
    · exact careful window windowIn robot member held keeps.unclosed covered
  | config =>
    cases taken
    exact ⟨kept.distinct, kept.finalized, kept.custody⟩

end

theorem kept_reached (run : maintenance.Reaches (fun _ => Careful) {} history world) : Kept world := by
  have empty : Kept {} := ⟨by simp, by simp, by simp⟩
  exact run.invariant (fun _ => Kept) empty fun _ kept careful taken => kept.step careful taken

/-- Once every window of a careful run is closed or gone, no robot is left in Maintenance. -/
theorem maintenance_strands_nobody {history : List Event} {world : World}
    (run : maintenance.Reaches (fun _ => Careful) {} history world)
    (closed : ∀ window ∈ world.windows, window.status.phase = .completed ∨ window.status.phase = .cancelled) :
    ∀ robot ∈ world.robots, robot.phase ≠ .maintenance := by
  intro robot member held
  obtain ⟨window, windowIn, keeps⟩ := (kept_reached run).custody robot member held
  rcases closed window windowIn with completed | cancelled
  · exact keeps.unclosed.1 completed
  · exact keeps.unclosed.2 cancelled

instance (pass : Pass) (world : World) : Decidable (Current pass world) :=
  inferInstanceAs (Decidable (∀ robot ∈ world.robots, robot.phase = .maintenance →
    coveredByOtherActive world.zones (world.listed (pass.behind robot.name)) pass.window robot = true →
      coveredByOtherActive world.zones world.windows pass.window robot = true))

instance (zones zones' : List CompositeZone) (window window' : ZoneMaintenance) (robot robot' : FleetRobot) :
    Decidable (Followed zones zones' window window' robot robot') :=
  inferInstanceAs (Decidable (robot'.phase = .maintenance → Unclosed window → covers zones window robot = true →
    recorded window robot = true ∨ covers zones' window' robot' = true))

instance (world : World) : ∀ act, Decidable (Careful world act)
  | .reconcile pass => inferInstanceAs (Decidable (Current pass world))
  | .edit name spec => inferInstanceAs (Decidable (∀ window ∈ world.windows, window.name = name →
      ∀ robot ∈ world.robots, Followed world.zones world.zones window { window with spec } robot robot))
  | .robot before after => inferInstanceAs (Decidable (∀ window ∈ world.windows,
      Followed world.zones world.zones window window before after))
  | .zones zones => inferInstanceAs (Decidable (∀ window ∈ world.windows, ∀ robot ∈ world.robots,
      Followed world.zones zones window window robot robot))
  | .create _ _ | .delete _ | .addRobot _ | .removeRobot _ | .config _ => isTrue trivial

def carrier : FleetRobot := { ns := "plant", name := "r1", zone := "hall", phase := .idle }

def hallWindow : ZoneMaintenanceSpec := { scope := .zone "hall" }

def hallClosed : ZoneMaintenanceSpec := { hallWindow with desiredState := .completed }

def twoWindows : List Act :=
  [.zones [{ name := "hall" }, { name := "dock" }], .addRobot carrier, .create "w1" hallWindow, .create "w2" hallWindow,
   .reconcile { window := "w1", now := 1 }, .reconcile { window := "w2", now := 1 },
   .reconcile { window := "w1", now := 2 }, .reconcile { window := "w2", now := 2 },
   .edit "w1" hallClosed, .edit "w2" hallClosed, .reconcile { window := "w1", now := 3 }]

def Ends (phases : List ZoneMaintenancePhase) (window : String) (phase : RobotPhase) (config : World × List Event) : Prop :=
  config.1.windows.map (fun window => window.status.phase) = phases ∧
    config.1.robots.map (fun robot => (robot.name, robot.phase)) = [("r1", phase)] ∧ .paused window "r1" ∈ config.2

instance (phases : List ZoneMaintenancePhase) (window : String) (phase : RobotPhase) :
    DecidablePred (Ends phases window phase) := fun config =>
  inferInstanceAs (Decidable (config.1.windows.map (fun window => window.status.phase) = phases ∧
    config.1.robots.map (fun robot => (robot.name, robot.phase)) = [("r1", phase)] ∧ .paused window "r1" ∈ config.2))

theorem run_ends (permitted : maintenance.Permitted allowed ({}, []) labels)
    (ran : (maintenance.run ({}, []) labels).map (fun config => decide (Ends phases window phase config)) = some true) :
    ∃ history world, maintenance.Reaches allowed {} history world ∧ Ends phases window phase (world, history) := by
  obtain ⟨world, history, run, reads⟩ := Machine.run_reaches_reading permitted ran
  exact ⟨history, world, run, of_decide_eq_true reads⟩

/-- The last window to close resumes the robot the other one left to it. -/
theorem maintenance_strands_nobody_two_windows :
    ∃ history world, maintenance.Reaches (fun _ => Careful) {} history world ∧
      Ends [.completed, .completed] "w1" .idle (world, history) ∧
      ∀ robot ∈ world.robots, robot.phase ≠ .maintenance := by
  obtain ⟨history, world, run, ends⟩ : ∃ history world, maintenance.Reaches (fun _ => Careful) {} history world ∧
      Ends [.completed, .completed] "w1" .idle (world, history) := by
    have permitted : maintenance.Permitted (fun _ => Careful) ({}, [])
        (twoWindows ++ [.reconcile { window := "w2", now := 4 }]) := by decide +kernel
    exact run_ends permitted (by decide +kernel)
  refine ⟨history, world, run, ends, maintenance_strands_nobody run fun window member => ?_⟩
  have phase : window.status.phase ∈ [ZoneMaintenancePhase.completed, .completed] :=
    ends.1 ▸ List.mem_map_of_mem member
  exact .inl (by simpa using phase)

/-- A robot whose pause was not recorded goes out of scope, and a window closes on the list
from before the other one closed. -/
theorem robots_are_stranded : (∃ history world, maintenance.Reaches Machine.unrestricted {} history world ∧
        Ends [.completed] "w" .maintenance (world, history)) ∧
      ∃ history world, maintenance.Reaches Machine.unrestricted {} history world ∧
        Ends [.completed, .completed] "w1" .maintenance (world, history) := by
  constructor
  · have permitted := Machine.permitted_unrestricted maintenance ({}, [])
      [.zones [{ name := "hall" }, { name := "dock" }], .addRobot carrier, .create "w" hallWindow,
       .reconcile { window := "w", now := 1 }, .reconcile { window := "w", now := 2, refused := true },
       .robot { carrier with phase := .maintenance } { carrier with phase := .maintenance, currentZone := "dock" },
       .edit "w" hallClosed, .reconcile { window := "w", now := 3 }]
    exact run_ends permitted (by decide +kernel)
  · have permitted := Machine.permitted_unrestricted maintenance ({}, [])
      (twoWindows ++ [.reconcile { window := "w2", now := 4, behind := fun _ => 1 }])
    exact run_ends permitted (by decide +kernel)

end Swarmada.MaintenanceController
