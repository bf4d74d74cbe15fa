import Swarmada.Controller.Drift

namespace Swarmada.Controller

open Api Executorguard Transition

def Replied (settings : Settings) (w : World) : (op : Op) → op.Reply → World → Prop
  | .getAction, reply, w' => reply = w.cluster.cachedAction ∧ w' = w
  | .getActionLive, reply, w' => reply = w.cluster.action ∧ w' = w
  | .forgetOrphan, _, w' => w' = ⟨w.history, { w.cluster with orphaned := none }⟩
  | .orphanedSince now, reply, w' =>
    w.cluster.orphaned = some reply ∧ w' = w ∨
      reply = now ∧ w' = ⟨w.history, { w.cluster with orphaned := some now }⟩
  | .now, reply, w' => reply = w.cluster.now ∧ w' = w
  | .leaseTimings, reply, w' => (reply.duration ≤ maxLease ∧ reply.skew = settings.skew) ∧ w' = w
  | .getRobot robot, reply, w' => reply = w.cluster.cachedRobots robot ∧ w' = w
  | .getRobotLive robot, reply, w' => reply = w.cluster.robots.objects robot ∧ w' = w
  | .listRobots, reply, w' => reply = w.cluster.listCached ∧ w' = w
  | .listRobotsLive, reply, w' => reply = w.cluster.listLive ∧ w' = w
  | .patchFinalizer original, reply, w' =>
    reply = none ∧ w' = w ∨
      w.cluster.actions.holds () original = true ∧ reply = some ⟨original.value, w.cluster.actions.next⟩ ∧
        w' = ⟨w.history, w.cluster.writeAction original.value⟩
  | .patchStatus original action, reply, w' =>
    reply = none ∧ w' = w ∨
      w.cluster.actions.holds () original = true ∧
        (∀ copy, reply = some copy → copy = ⟨action, w.cluster.actions.next⟩) ∧ w' = w.written original.value action
  | .setRequeue value, _, w' =>
    w' = w ∨ ∃ current, w.cluster.action = some current ∧
      w' = ⟨w.history, w.cluster.writeAction { current.value with requeueRequested := value }⟩
  | .setAlerted _ value, reply, w' =>
    reply = none ∧ w' = w ∨ ∃ current, w.cluster.action = some current ∧
      reply = some ⟨{ current.value with failureAlerted := value }, w.cluster.actions.next⟩ ∧
        w' = ⟨w.history, w.cluster.writeAction { current.value with failureAlerted := value }⟩
  | .patchRobot _ original robot, reply, w' =>
    reply = false ∧ w' = w ∨
      w.cluster.robots.holds robot.name original = true ∧
        w' = ⟨recordEvents settings.task robot ++ w.history, w.cluster.writeRobot robot.name robot⟩
  | .mergeRobot _ robot, _, w' =>
    w' = w ∨ ∃ current, w.cluster.robots.objects robot = some current ∧
      w' = ⟨w.history, w.cluster.writeRobot robot { current.value with assignedAction := "" }⟩
  | .pushCancel robot, reply, w' =>
    w' = ⟨(if reply.1 = true ∧ reply.2 ≠ .stopUnconfirmed then [.acknowledged robot] else []) ++ w.history, w.cluster⟩
  | .pushAssignAction robot generation, reply, w' =>
    w' = ⟨(if reply = true then [.refused robot] else []) ++ w.history,
      { w.cluster with sent := generation :: w.cluster.sent }⟩
  | .pushRenewLease _, _, w' => w' = w
  | .covering _, _, w' => w' = w
  | .onDisconnectPolicy, _, w' => w' = w
  | .mintGeneration previous, reply, w' =>
    reply = none ∧ w' = w ∨ ∃ generation, reply = some generation ∧
      nextGeneration w.cluster.mark previous ≤ generation ∧ w' = ⟨w.history, { w.cluster with mark := generation }⟩
  | .selectRobot listed, reply, w' =>
    (∀ robot, reply = some robot → robot ∈ listed ∧ selectable robot.value = true) ∧ w' = w
  | .ask _, _, w' => w' = w

variable {settings : Settings} {w w' : World}

theorem perform_replied {op : Op} {answer : Answer} {cluster : Cluster} {reply : op.Reply} {events : List Event}
    (performed : perform settings w.cluster op answer = some (cluster, reply, events)) :
    Replied settings w op reply ⟨events ++ w.history, cluster⟩ := by
  cases op with
  | getAction | getActionLive | now | getRobot | getRobotLive | listRobots | listRobotsLive =>
    cases answer <;> simp only [perform, reduceCtorEq] at performed
    cases performed
    exact ⟨rfl, rfl⟩
  | forgetOrphan | pushCancel | pushAssignAction | pushRenewLease | covering | onDisconnectPolicy | ask =>
    cases answer <;> simp only [perform, reduceCtorEq] at performed
    cases performed
    rfl
  | orphanedSince =>
    cases answer <;> simp only [perform, reduceCtorEq] at performed
    split at performed <;> cases performed
    · exact Or.inl ⟨‹_›, rfl⟩
    · exact Or.inr ⟨rfl, rfl⟩
  | leaseTimings =>
    cases answer <;> simp only [perform, reduceCtorEq] at performed
    split at performed <;> cases performed
    exact ⟨⟨‹_›, rfl⟩, rfl⟩
  | patchFinalizer =>
    cases answer <;> simp only [perform, reduceCtorEq] at performed
    · split at performed <;> cases performed
      exact Or.inr ⟨‹_›, rfl, rfl⟩
    · cases performed
      exact Or.inl ⟨rfl, rfl⟩
  | patchStatus =>
    cases answer <;> simp only [perform, reduceCtorEq] at performed
    · split at performed <;> cases performed
      exact Or.inr ⟨‹_›, fun copy same => (Option.some.inj same).symm, rfl⟩
    · cases performed
      exact Or.inl ⟨rfl, rfl⟩
    · split at performed <;> cases performed
      exact Or.inr ⟨‹_›, fun copy same => by contradiction, rfl⟩
  | setRequeue | mergeRobot =>
    cases answer <;> simp only [perform, reduceCtorEq, Option.map_eq_some_iff] at performed
    · obtain ⟨current, stored, same⟩ := performed
      cases same
      exact Or.inr ⟨current, stored, rfl⟩
    · cases performed
      exact Or.inl rfl
  | setAlerted =>
    cases answer <;> simp only [perform, reduceCtorEq, Option.map_eq_some_iff] at performed
    · obtain ⟨current, stored, same⟩ := performed
      cases same
      exact Or.inr ⟨current, stored, rfl, rfl⟩
    · cases performed
      exact Or.inl ⟨rfl, rfl⟩
  | patchRobot =>
    cases answer <;> simp only [perform, reduceCtorEq] at performed
    · split at performed <;> cases performed
      exact Or.inr ⟨‹_›, rfl⟩
    · cases performed
      exact Or.inl ⟨rfl, rfl⟩
    · split at performed <;> cases performed
      exact Or.inr ⟨‹_›, rfl⟩
  | mintGeneration =>
    cases answer <;> simp only [perform, reduceCtorEq] at performed
    split at performed
    · cases performed
      exact Or.inl ⟨rfl, rfl⟩
    · split at performed <;> cases performed
      exact Or.inr ⟨_, rfl, ‹_›, rfl⟩
  | selectRobot =>
    cases answer <;> simp only [perform, reduceCtorEq] at performed
    split at performed
    · cases performed
      exact ⟨fun robot same => by contradiction, rfl⟩
    split at performed <;> try contradiction
    rename_i robot found
    cases performed
    refine ⟨fun other same => ?_, rfl⟩
    cases same
    have chosen := List.find?_some found
    simp only [Bool.and_eq_true] at chosen
    exact ⟨List.mem_of_find?_eq_some found, chosen.2⟩

def around (settings : Settings) : Surroundings Op Op.Reply World where
  invariant := Sound settings
  drifts := Drift settings
  replies := fun op w reply w' => op.founded settings w.history w.cluster = true ∧ Replied settings w op reply w'

abbrev Stable (settings : Settings) (P : World → Prop) : Prop := (around settings).Stable P

abbrev Outline (settings : Settings) {α : Type} (P : World → Prop) (program : Pass α) (post : α → World → Prop) :
    Prop :=
  (around settings).Outline P program post

/-- From `P` on the pass keeps the invariant. -/
abbrev Keeps (settings : Settings) {α : Type} (P : World → Prop) (program : Pass α) : Prop :=
  Outline settings P program fun _ _ => True

def Op.quiet : Op → Bool
  | .forgetOrphan | .orphanedSince _ | .patchFinalizer _ | .patchStatus _ _ | .patchRobot _ _ _ | .mergeRobot _ _
  | .pushAssignAction _ _ => false
  | _ => true

theorem Replied.moves (replied : Replied settings w op reply w')
    (quiet : op.quiet = true) (sound : Sound settings w) : Moves settings w w' := by
  cases op with
  | getAction | getActionLive | now | leaseTimings | getRobot | getRobotLive | listRobots | listRobotsLive
  | selectRobot =>
    obtain ⟨_, rfl⟩ := replied
    exact .still sound
  | pushRenewLease | covering | onDisconnectPolicy | ask =>
    obtain rfl : w' = w := replied
    exact .still sound
  | setRequeue =>
    rcases replied with rfl | ⟨_, stored, rfl⟩
    · exact .still sound
    · exact .rewrite sound stored ⟨rfl, rfl, rfl, rfl, rfl, fun _ member => member⟩ rfl
  | setAlerted =>
    rcases replied with ⟨_, rfl⟩ | ⟨_, stored, _, rfl⟩
    · exact .still sound
    · exact .rewrite sound stored ⟨rfl, rfl, rfl, rfl, rfl, fun _ member => member⟩ rfl
  | pushCancel =>
    obtain rfl := replied
    refine .said sound ?_ ?_ (Nat.le_refl _) rfl rfl rfl rfl rfl (Nat.le_refl _) sound.wellformed
    · split <;> simp [Event.quiet]
    · rw [← sound.timely.clock]
      split <;> rfl
  | mintGeneration =>
    rcases replied with ⟨_, rfl⟩ | ⟨generation, _, fresh, rfl⟩
    · exact .still sound
    have grows : w.cluster.mark ≤ generation := by
      unfold nextGeneration at fresh
      omega
    refine .said sound (List.forall_mem_nil _) sound.timely.clock (Nat.le_refl _) rfl rfl rfl rfl rfl grows ?_
    refine { sound.wellformed with sent := fun token member => ?_ }
    exact Nat.le_trans (sound.wellformed.sent token member) grows
  | forgetOrphan | orphanedSince | patchFinalizer | patchStatus | patchRobot | mergeRobot | pushAssignAction =>
    simp [Op.quiet] at quiet

def Silent {α : Type} : Pass α → Prop
  | .done _ => True
  | .call op next => op.quiet = true ∧ ∀ reply, Silent (next reply)

variable {P : World → Prop}

namespace Silent

variable {α β : Type}

theorem call (quiet : op.quiet = true) : Silent (call op) :=
  ⟨quiet, fun _ => trivial⟩

theorem pure (value : α) : Silent (Pure.pure value : Pass α) := trivial

theorem bind (first : Silent program) (second : ∀ value, Silent (rest value)) : Silent (program >>= rest) := by
  induction program with
  | done value => exact second value
  | call op next ih => exact ⟨first.1, fun reply => ih reply (first.2 reply)⟩

theorem outline (silent : Silent program) (stable : Stable settings P) : Outline settings P program fun _ => P := by
  induction program with
  | done => exact fun w _ holds => holds
  | call op next ih =>
    intro reply
    refine ⟨P, stable, fun w w' sound holds replied => ?_, ih reply (silent.2 reply)⟩
    have moves := replied.2.moves silent.1 sound
    exact ⟨moves.sound, stable sound moves.drift holds⟩

end Silent

theorem outline_call {learned : op.Reply → World → Prop} (quiet : op.quiet = true)
    (stable : Stable settings P) (lasting : ∀ reply, Stable settings (learned reply))
    (learns : ∀ w reply w', Sound settings w → P w → op.founded settings w.history w.cluster = true →
      Replied settings w op reply w' → learned reply w') :
    Outline settings P (call op) fun reply w => P w ∧ learned reply w := by
  refine .perform (fun reply => stable.and (lasting reply)) fun w reply w' sound holds replied => ?_
  have moves := replied.2.moves quiet sound
  exact ⟨moves.sound, stable sound moves.drift holds, learns w reply w' sound holds replied.1 replied.2⟩

/-- The pass holds a copy of the action, and `fact` holds as long as that is the action. -/
structure While (original : Versioned FleetAction) (fact : World → Prop) (w : World) : Prop where
  copy : w.cluster.actions.CopyOf () original
  known : w.cluster.orphaned = none
  current : w.cluster.action = some original → fact w

variable {original : Versioned FleetAction} {fact : World → Prop}

theorem While.stable
    (lasting : ∀ w w', Sound settings w → Drift settings w w' → w.cluster.action = some original → fact w → fact w') :
    Stable settings (While original fact) := by
  intro w w' sound drift holds
  refine ⟨holds.copy.advances drift.action.advances, drift.orphaned.trans holds.known, fun stored => ?_⟩
  have before := holds.copy.earlier drift.action.advances stored
  exact lasting w w' sound drift before (holds.current before)

theorem While.imp (holds : While original fact w)
    (implies : w.cluster.action = some original → fact w → other w) : While original other w :=
  ⟨holds.copy, holds.known, fun stored => implies stored (holds.current stored)⟩

def trivially : World → Prop := fun _ => True

def Released (settings : Settings) (a : FleetAction) (w : World) : Prop :=
  a.assignedRobot ≠ "" → w.Off settings a.assignedRobot

def AllOff (settings : Settings) (w : World) : Prop := ∀ r, w.Off settings r

abbrev Reading (original : Versioned FleetAction) : World → Prop := While original trivially

/-- As long as that is the action, its robot is off it. -/
abbrev Vacated (settings : Settings) (original : Versioned FleetAction) : World → Prop :=
  While original (Released settings original.value)

theorem Reading.stable : Stable settings (Reading original) :=
  While.stable fun _ _ _ _ _ holds => holds

theorem While.stable_released : Stable settings (While original (Released settings a)) :=
  .stable fun _ _ _ drift _ off bound => drift.carries.off _ (off bound)

theorem While.stable_allOff : Stable settings (While original (AllOff settings)) :=
  .stable fun _ _ _ drift _ off r => drift.carries.off r (off r)

/-- The pass read the clock at `now`, and no lease was written further ahead than one
admits. -/
structure Since (now : Nat) (w : World) : Prop where
  now_le : now ≤ w.cluster.now
  horizon : ∀ r x, horizonOf r w.history = some x → x ≤ now + maxLease

theorem Since.stable (now : Nat) : Stable settings (Since now) := by
  intro w w' _ drift since
  refine ⟨Nat.le_trans since.now_le drift.now_le, fun r x written => ?_⟩
  exact since.horizon r x (drift.carries.horizon r ▸ written)

theorem outline_now (stable : Stable settings P) : Outline settings P (call .now) fun now w => P w ∧ Since now w :=
  outline_call rfl stable (fun now => Since.stable now) fun w now w' sound _ _ replied => by
    obtain ⟨rfl, rfl⟩ := replied
    exact ⟨Nat.le_refl _, sound.timely.horizon⟩

structure Admitted (settings : Settings) (timings : LeaseTimings) : Prop where
  duration : timings.duration ≤ maxLease
  skew : timings.skew = settings.skew

theorem outline_leaseTimings (stable : Stable settings P) :
    Outline settings P (call .leaseTimings) fun timings w => P w ∧ Admitted settings timings :=
  outline_call rfl stable (fun _ => .const _) fun _ _ _ _ _ _ replied => ⟨replied.1.1, replied.1.2⟩

/-- The pass reads the lease's timings and the clock. -/
theorem outline_clock {program : LeaseTimings → Nat → Pass α}
    (stable : Stable settings P) (rest : ∀ timings now, Admitted settings timings →
      Outline settings (fun w => P w ∧ Since now w) (program timings now) post) :
    Outline settings P (do let timings ← call .leaseTimings; let now ← call .now; program timings now) post :=
  (outline_leaseTimings stable).bind fun timings => .known fun admitted =>
    (outline_now stable).bind fun now => rest timings now admitted

def Bounds (original : Versioned FleetAction) (now : Nat) (w : World) : Prop :=
  Reading original w ∧ Since now w

theorem Bounds.stable : Stable settings (Bounds original now) :=
  Reading.stable.and (Since.stable now)

def Holds (P : World → Prop) (held : Bool) (w : World) : Prop := held = false → P w

theorem outline_holds (outline : Keeps settings P program) (Q : World → Prop) :
    Outline settings P (do program; pure true) (Holds Q) :=
  outline.bind fun _ => .pure fun _ _ _ ended => by contradiction

theorem outline_unlessHeld (rest : Keeps settings P program) (held : Bool) :
    Keeps settings (Holds P held) (if held then pure () else program) := by
  cases held with
  | false => exact rest.strengthen fun _ _ holds => holds rfl
  | true => exact .done

theorem outline_pushCancel (stable : Stable settings P) (robot : String) :
    Outline settings P (pushCancel robot) fun reply w =>
      P w ∧ (reply.1 = true ∧ reply.2 ≠ .stopUnconfirmed → w.Off settings robot) := by
  refine outline_call rfl stable ?_ fun w reply w' _ _ _ replied => ?_
  · exact fun reply w w' _ drift off acknowledged => drift.carries.off _ (off acknowledged)
  intro acknowledged
  obtain rfl : w' = _ := replied
  rw [if_pos acknowledged]
  exact off_of_frees _ (by simp [Event.frees])

end Swarmada.Controller
