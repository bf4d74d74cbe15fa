import Swarmada.ModelRollout.System

namespace Swarmada.ModelRollout

open Transition

variable {γ : Type} {around : Surroundings Op Op.Reply γ} {setup : Setup} {rob : Robot}

def Takes (around : Surroundings Op Op.Reply γ) (before : γ → Prop) (op : Op) (after : op.Reply → γ → Prop) : Prop :=
  ∀ state reply state', around.invariant state → before state → around.replies op state reply state' →
    around.invariant state' ∧ after reply state'

abbrev Keeps (around : Surroundings Op Op.Reply γ) (assertion : γ → Prop) (op : Op) : Prop :=
  Takes around assertion op fun _ => assertion

variable {assertion : γ → Prop}

theorem Keeps.outline (keeps : Keeps around assertion op)
    (stable : around.Stable assertion) : around.Outline assertion (call op) fun _ => assertion :=
  .perform (fun _ => stable) keeps

structure Marks (around : Surroundings Op Op.Reply γ) (robot : String) (before after : γ → Prop) : Prop where
  stable : around.Stable before
  stableAfter : around.Stable after
  weaker : ∀ state, before state → after state
  reads : Keeps around before (.getRobot robot)
  marks : ∀ read, Takes around before (.patchRobot robot read) fun landed state =>
    if landed then after state else before state

variable {before after : γ → Prop}

theorem Marks.outline (marks : Marks around robot before after) (settled : Option ModelEntry → Bool) (left : Nat) :
    around.Outline before (markModelUpdating robot settled left) fun _ => after := by
  induction left with
  | zero => exact fun never => nomatch never
  | succ left ih =>
    refine (marks.reads.outline marks.stable).bind fun fresh => ?_
    split
    · exact .pure fun state _ holds => marks.weaker state holds
    have patched : around.Outline before (call (.patchRobot robot fresh)) fun landed state =>
        if landed then after state else before state := by
      refine .perform (fun landed => ?_) (marks.marks fresh)
      cases landed with
      | true => exact marks.stableAfter
      | false => exact marks.stable
    refine patched.bind fun landed => ?_
    cases landed with
    | true => exact .pure fun _ _ holds => holds
    | false => exact ih

/-- A rollback that is not acknowledged leaves `refused`, and one that is leads over `pushed` to `after`. -/
structure RollsBack (around : Surroundings Op Op.Reply γ) (setup : Setup) (rob : Robot)
    (before pushed after refused : γ → Prop) : Prop where
  pushes : Takes around before (.push rob.name (rollbackPayload setup.spec (setup.revertTarget rob.name)))
    fun reply state => if reply.acknowledged then pushed state else refused state
  unpushed : setup.pusher = false → ∀ state, before state → pushed state
  stableRefused : around.Stable refused
  marks : Marks around rob.name pushed after

theorem RollsBack.outline (rolls : RollsBack around setup rob before pushed after refused) :
    around.Outline before (rollbackRobot setup rob (setup.revertTarget rob.name)) fun reverted state =>
      if reverted then after state else refused state := by
  have acknowledged : around.Outline before (rollbackAcknowledged setup rob (setup.revertTarget rob.name))
      fun acknowledged state => if acknowledged then pushed state else refused state := by
    unfold rollbackAcknowledged
    split
    · refine (Surroundings.Outline.perform (fun reply => ?_) rolls.pushes).bind fun reply => .pure fun _ _ holds => holds
      cases reply.acknowledged with
      | true => exact rolls.marks.stable
      | false => exact rolls.stableRefused
    next without =>
      exact .pure fun state _ holds => rolls.unpushed (by simpa using without) state holds
  refine acknowledged.bind fun acknowledged => ?_
  cases acknowledged with
  | true => exact (rolls.marks.outline _ attempts).bind fun _ => .pure fun _ _ holds => holds
  | false => exact .pure fun _ _ holds => holds

theorem outline_heldFromRollback (stable : around.Stable assertion)
    (keeps : Keeps around assertion (.heldNow rob.name)) :
    around.Outline assertion (heldFromRollback setup rob) fun _ => assertion := by
  unfold heldFromRollback
  split
  · exact keeps.outline stable
  · exact .pure fun _ _ holds => holds

def Reverts.keep (reverts : Reverts) (rob : Robot) : Reverts :=
  { reverts with stillFailed := reverts.stillFailed ++ [rob] }

def Reverts.revert (reverts : Reverts) (rob : Robot) : Reverts :=
  { reverts with reverting := reverts.reverting ++ [rob] }

structure RollsBackAll (around : Surroundings Op Op.Reply γ) (setup : Setup) (failed : List Robot)
    (assertion : List Robot → Reverts → γ → Prop) : Prop where
  stable : ∀ rest reverts, around.Stable (assertion rest reverts)
  held : ∀ rest reverts robot, Keeps around (assertion rest reverts) (.heldNow robot)
  skips : ∀ rob rest reverts state, assertion (rob :: rest) reverts state → assertion rest (reverts.keep rob) state
  reverts : ∀ rob ∈ failed, setup.revertTarget rob.name ≠ "" → ∀ rest reverts,
    ∃ pushed, RollsBack around setup rob (assertion (rob :: rest) reverts) pushed
      (assertion rest (reverts.revert rob)) (assertion rest (reverts.keep rob))

theorem RollsBackAll.outline {assertion : List Robot → Reverts → γ → Prop}
    (rolls : RollsBackAll around setup failed assertion) (rest : List Robot) (within : ∀ rob ∈ rest, rob ∈ failed)
    (reverts : Reverts) :
    around.Outline (assertion rest reverts) (rollbackFailed setup rest reverts) (assertion []) := by
  induction rest generalizing reverts with
  | nil => exact .pure fun _ _ holds => holds
  | cons rob rest ih =>
    have later : ∀ rob ∈ rest, rob ∈ failed := fun other member => within other (List.mem_cons_of_mem _ member)
    have skipped : around.Outline (assertion (rob :: rest) reverts) (rollbackFailed setup rest (reverts.keep rob))
        (assertion []) :=
      (ih later _).strengthen fun state _ holds => rolls.skips rob rest _ state holds
    unfold rollbackFailed
    split
    · exact skipped
    rename_i target
    refine (outline_heldFromRollback (rolls.stable _ _) (rolls.held _ _ _)).bind fun held => ?_
    split
    · exact skipped
    obtain ⟨_, reverted⟩ := rolls.reverts rob (within rob List.mem_cons_self) target rest reverts
    refine reverted.outline.bind fun done => ?_
    cases done with
    | true => exact ih later (reverts.revert rob)
    | false => exact ih later (reverts.keep rob)

structure Enters (around : Surroundings Op Op.Reply γ) (setup : Setup) (rob : Robot) (before after : γ → Prop) :
    Prop where
  held : Keeps around before (.heldNow rob.name)
  pushes : Keeps around before (.push rob.name (modelUpdatePayload rob setup.spec))
  marks : Marks around rob.name before after

theorem Enters.outline (enters : Enters around setup rob before after) :
    around.Outline before (enterBatch setup rob) fun entered state =>
      match entered with
      | .entered _ => after state
      | _ => before state := by
  have marked : around.Outline before (enterMarked setup rob) fun entered state =>
      match entered with
      | .entered _ => after state
      | _ => before state :=
    (enters.marks.outline _ attempts).bind fun _ => .pure fun _ _ holds => holds
  unfold enterBatch
  split
  · refine (enters.held.outline enters.marks.stable).bind fun held => ?_
    split
    · exact .pure fun _ _ holds => holds
    refine (enters.pushes.outline enters.marks.stable).bind fun reply => ?_
    split
    · exact .pure fun _ _ holds => holds
    · exact marked
    split <;> exact .pure fun _ _ holds => holds
  · exact marked

theorem outline_fillBatch {eligible : List Robot} {assertion : Int → γ → Prop} {last : γ → Prop}
    (enters : ∀ rob ∈ eligible, ∀ slots, 0 < slots → Enters around setup rob (assertion slots) (assertion (slots - 1)))
    (ends : ∀ slots state, assertion slots state → last state) (rest : List Robot)
    (within : ∀ rob ∈ rest, rob ∈ eligible) (slots : Int) (filled : Filled) :
    around.Outline (assertion slots) (fillBatch setup rest slots filled) fun _ => last := by
  induction rest generalizing slots filled with
  | nil => exact .pure fun state _ holds => ends slots state holds
  | cons rob rest ih =>
    have later : ∀ rob ∈ rest, rob ∈ eligible := fun other member => within other (List.mem_cons_of_mem _ member)
    unfold fillBatch
    split
    · exact .pure fun state _ holds => ends slots state holds
    refine (enters rob (within rob List.mem_cons_self) slots (by omega)).outline.bind fun entered => ?_
    cases entered with
    | entered | deferred => exact ih later _ _
    | refused =>
      dsimp only
      split
      · exact .pure fun state _ holds => ends slots state holds
      · exact ih later _ _

theorem outline_staleRollout (stable : around.Stable assertion)
    (rereads : Keeps around assertion .reread) (asked : Bool) :
    around.Outline assertion (staleRollout setup asked) fun _ => assertion := by
  unfold staleRollout
  split
  · exact (rereads.outline stable).bind fun _ => .pure fun _ _ holds => holds
  · exact .pure fun _ _ holds => holds

theorem outline_batchPass (stable : around.Stable before)
    (rereads : Keeps around before .reread) (stays : ∀ state, before state → last state)
    (fills : (filledBefore setup reverts).paused = false →
      around.Outline before (fillBatch setup (sortRobots (setup.bucket .eligible)) (slotsOf setup)
        (filledBefore setup reverts)) fun _ => last) :
    around.Outline before (batchPass setup reverts) fun _ => last := by
  unfold batchPass
  dsimp only
  split
  · exact .pure fun state _ holds => stays state holds
  rename_i open_
  refine (outline_staleRollout stable rereads _).bind fun stale => ?_
  split
  · exact .pure fun state _ holds => stays state holds
  · exact (fills (by simpa using open_)).bind fun _ => .pure fun _ _ holds => holds

theorem outline_projectGrants (stable : around.Stable assertion)
    (grants : ∀ robot caps, Keeps around assertion (.patchGrant robot caps)) (done : List Robot) :
    around.Outline assertion (projectGrants setup done) fun _ => assertion := by
  induction done with
  | nil => exact .pure fun _ _ holds => holds
  | cons rob rest ih =>
    have granted : around.Outline assertion (projectGrant setup rob) fun _ => assertion := by
      unfold projectGrant
      dsimp only
      split
      · exact .pure fun _ _ holds => holds
      · exact (grants _ _).outline stable
    exact granted.bind fun _ => ih

theorem outline_writeStatus
    (stable : around.Stable assertion) (reads : Keeps around assertion .now) (rereads : Keeps around assertion .reread)
    (writes : ∀ now, Takes around assertion
      (.patchStatus setup.rollout.value.status (newStatus setup reverts filled now)) fun _ _ => True) :
    around.Outline assertion (writeStatus setup reverts filled) fun _ _ => True := by
  refine (reads.outline stable).bind fun now => ?_
  refine (outline_staleRollout stable rereads _).bind fun stale => ?_
  split
  · exact .done
  split
  · exact .done
  · exact .perform (fun _ => .const True) (writes now)

structure Seen where
  history : List Event
  world : World

def surroundings (invariant : Seen → Prop) (allowed : World → Op → Answer → Bool) : Surroundings Op Op.Reply Seen where
  invariant := invariant
  drifts := fun before after => ∃ move : Act, after = ⟨before.history, move.step before.world⟩
  replies := fun op before reply after => ∃ given world events, allowed before.world op given = true ∧
    perform before.world op given = some (world, reply, events) ∧ after = ⟨events ++ before.history, world⟩

theorem reaches_invariant {pass : Pass Unit}
    (moves : ∀ history world (move : Act), invariant ⟨history, world⟩ → invariant ⟨history, move.step world⟩)
    (starts : ∀ history world, invariant ⟨history, world⟩ →
      invariant ⟨.started :: history, world⟩ ∧ opens ⟨.started :: history, world⟩)
    (stable : (surroundings invariant allowed).Stable opens)
    (outline : (surroundings invariant allowed).Outline opens (reconcile pusher) fun _ _ => True) (initially : invariant ⟨[], start⟩)
    (run : (controller pusher).Reaches (fun _ s label => s.answers allowed label = true) { world := start } history
      ⟨world, pass⟩) :
    invariant ⟨history, world⟩ := by
  have kept : invariant ⟨history, world⟩ ∧ (surroundings invariant allowed).Running pass ⟨history, world⟩ := by
    refine run.invariant (fun history s => invariant ⟨history, s.world⟩ ∧
      (surroundings invariant allowed).Running s.pass ⟨history, s.world⟩) ⟨initially, .done () _⟩ ?_
    intro history s label after events _ ⟨holds, running⟩ permitted taken
    obtain ⟨world, pass⟩ := s
    cases label with
    | start =>
      cases pass with
      | done =>
        cases taken
        obtain ⟨begun, opened⟩ := starts history world holds
        exact ⟨begun, opens, stable, opened, outline⟩
      | call => contradiction
    | answer given =>
      cases pass with
      | done => contradiction
      | call =>
        simp only [controller, System.step] at taken
        split at taken <;> try contradiction
        rename_i world' reply emitted performed
        cases taken
        exact running.reply holds ⟨given, world', _, permitted, performed, rfl⟩
    | abort =>
      cases taken
      exact ⟨holds, .done () _⟩
    | act move =>
      cases taken
      exact ⟨moves history world move holds, running.drift holds ⟨move, rfl⟩⟩
  exact kept.1

end Swarmada.ModelRollout
