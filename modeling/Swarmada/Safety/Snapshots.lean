import Swarmada.Safety.WriteLock

namespace Swarmada.Safety

open Api Transition

variable {derive : Option (Robot → List CapabilityStatusEntry)} {me : Nat} {shared after : Shared}

def Shared.Read (shared : Shared) (copy : Versioned Robot) : Prop :=
  Versioned.CopyOf Robot.stops copy shared.cell

structure ClearWrite.Planned (write : ClearWrite) : Prop where
  stops : ∃ path clearedAt, write.next.stops = clearStops path clearedAt write.stored.value.stops
  ended : ∀ id, id ∈ write.ended ↔ id ∈ write.stored.value.unclearedStops ∨ id ∈ write.unrecorded

def Grounded (shared : Shared) : Thread → Prop
  | .write (.sent call) => shared.Read call.copy
  | .write (.entering call state) | .write (.reading call state _) | .write (.backoff call state _) =>
    shared.Read call.copy ∧ state ≠ .resuming
  | .write (.deciding call state _ stored) =>
    shared.Read call.copy ∧ state ≠ .resuming ∧ shared.Read stored
  | .write (.patching call state _ stored next) =>
    shared.Read call.copy ∧ state ≠ .resuming ∧ shared.Read stored ∧ next.stops = stored.value.stops
  | .clear (.locking _ _ stored) | .clear (.guarding _ _ stored) => shared.Read stored
  | .clear (.marking _ _ write) | .clear (.patching _ _ write) =>
    shared.Read write.stored ∧ write.Planned
  | .record (.changing _ stored) => shared.Read stored
  | .record (.patching id stored next) =>
    shared.Read stored ∧ ∃ record : StopRecord, record.entry.id = id ∧
      id ∉ stored.value.stops.map RobotStop.id ∧ next.stops = stored.value.stops ++ [record.landing]
  | .record (.editPatching edit _ stored next) =>
    shared.Read stored ∧ next.stops = edit.edited stored.value.stops
  | _ => True

structure Filed (shared : Shared) : Prop where
  past : ∀ copy ∈ shared.past, shared.Read copy
  records : ∀ id record, shared.records id = some record → record.entry.id = id

variable {thread next : Thread} {act : Act} {events : List Event}

variable (move : Move derive me shared thread act after next events)

include move in
theorem Move.cell : after.cell = shared.cell ∧ after.past = shared.past ∨
      ∃ robot, after.cell = shared.cell.write robot ∧ after.past = shared.cell :: shared.past := by
  cases move with
  | wrote => exact .inr ⟨_, rfl, rfl⟩
  | write move | clear move =>
    cases move with
    | landed => exact .inr ⟨_, rfl, rfl⟩
    | _ => exact .inl ⟨rfl, rfl⟩
  | record move =>
    cases move with
    | landed => exact .inr ⟨_, rfl, rfl⟩
    | @edited _ untracks _ robot =>
      exact .inr ⟨robot, by cases untracks <;> rfl, by cases untracks <;> rfl⟩
    | @finished _ untracks =>
      exact .inl ⟨by cases untracks <;> rfl, by cases untracks <;> rfl⟩
    | _ => exact .inl ⟨rfl, rfl⟩
  | @fence fencer => cases fencer <;> exact .inl ⟨rfl, rfl⟩
  | _ => exact .inl ⟨rfl, rfl⟩

variable {copy : Versioned Robot}

include move in
theorem Move.read (read : shared.Read copy) : after.Read copy := by
  unfold Shared.Read at read ⊢
  rcases move.cell with ⟨same, -⟩ | ⟨robot, written, -⟩
  · rw [same]
    exact read
  · rw [written]
    exact read.write robot

theorem Shared.read_cell : shared.Read shared.cell := .refl _ _

theorem Filed.cached (filed : Filed shared) (found : shared.cached age = some copy) : shared.Read copy := by
  rcases List.mem_cons.mp (List.mem_of_getElem? found) with rfl | older
  · exact Shared.read_cell
  · exact filed.past copy older

include move in
theorem Move.grounded_kept (grounded : Grounded shared theirs) : Grounded after theirs := by
  unfold Grounded at grounded ⊢
  split
  · exact move.read grounded
  · exact ⟨move.read grounded.1, grounded.2⟩
  · exact ⟨move.read grounded.1, grounded.2⟩
  · exact ⟨move.read grounded.1, grounded.2⟩
  · exact ⟨move.read grounded.1, grounded.2.1, move.read grounded.2.2⟩
  · exact ⟨move.read grounded.1, grounded.2.1, move.read grounded.2.2.1, grounded.2.2.2⟩
  · exact move.read grounded
  · exact move.read grounded
  · exact ⟨move.read grounded.1, grounded.2⟩
  · exact ⟨move.read grounded.1, grounded.2⟩
  · exact move.read grounded
  · exact ⟨move.read grounded.1, grounded.2⟩
  · exact ⟨move.read grounded.1, grounded.2⟩
  · trivial

theorem Grounded.returned {call : Call} (state : RobotEstopState) (read : shared.Read call.copy) :
    Grounded shared (continueAs .write (call.returned state)) := by
  rcases call.returned_cases state with finished | ⟨later, waiting, -, -, copy⟩
  · rw [finished]
    trivial
  rw [waiting]
  change shared.Read later.copy
  rw [copy]
  exact read

theorem Shared.Read.stops (read : shared.Read copy)
    (version : other.version = copy.version) (stops : other.value.stops = copy.value.stops) : shared.Read other :=
  ⟨version ▸ read.version_le, fun same => stops.trans (read.same (version ▸ same))⟩

theorem Writer.Move.grounded {next : Option Writer}
    (move : writer.Move derive me shared after next events) (filed : Filed shared)
    (grounded : Grounded shared (.write writer)) : Grounded shared (continueAs .write next) := by
  cases move with
  | looked found => exact filed.cached found
  | confirmed => exact ⟨Shared.read_cell, by simp⟩
  | finished => trivial
  | outcome _ stop =>
    refine ⟨grounded, ?_⟩
    rintro rfl
    simp [isStopOutcome] at stop
  | unwritten => exact .returned _ grounded
  | refused | abandoned => exact .returned _ grounded.1
  | entered | relocked => exact grounded
  | read source =>
    refine ⟨grounded.1, grounded.2, ?_⟩
    rcases source with rfl | rfl
    · exact Shared.read_cell
    · exact grounded.1
  | stood | found | landed => exact .returned _ (grounded.1.stops rfl rfl)
  | planned plan => exact ⟨grounded.1, grounded.2.1, grounded.2.2, (writeEstopStateOnce_patch plan).2.1⟩
  | conflicted => exact ⟨grounded.1, grounded.2.1⟩

theorem Clearer.Move.grounded {next : Option Clearer}
    (move : clearer.Move me shared after next events) (grounded : Grounded shared (.clear clearer)) :
    Grounded shared (continueAs .clear next) := by
  cases move with
  | read => exact Shared.read_cell
  | locked | marked => exact grounded
  | planned plan =>
    obtain ⟨-, stops, ended, -⟩ := clearOnce_write plan
    exact ⟨grounded, ⟨_, _, stops⟩, ended⟩
  | _ => trivial

variable {robot : Robot}

theorem StopRecord.change_append {record : StopRecord} {next : Robot} (change : record.change robot = .append next) :
    record.entry.id ∉ robot.stops.map RobotStop.id ∧ record.decided robot = false ∧
      next.stops = robot.stops ++ [record.landing] := by
  unfold StopRecord.change at change
  split at change <;> try contradiction
  rename_i absent
  split at change <;> try contradiction
  rename_i room
  split at change <;> try contradiction
  cases change
  refine ⟨by simpa using absent, ?_, rfl⟩
  simp only [StopRecord.decided, Bool.or_eq_false_iff, decide_eq_false_iff_not]
  exact ⟨Bool.not_eq_true _ ▸ absent, room⟩

theorem StopEdit.change_eq_some {edit : StopEdit} {next : Robot}
    (change : edit.change robot = some next) : next.stops = edit.edited robot.stops := by
  unfold StopEdit.change at change
  split at change <;> try contradiction
  cases change
  rfl

theorem Recorder.Move.grounded {recorder : Recorder} {next : Option Recorder}
    (move : recorder.Move shared after next events) (filed : Filed shared)
    (grounded : Grounded shared (.record recorder)) : Grounded shared (continueAs .record next) := by
  cases move with
  | read => exact Shared.read_cell
  | appending known _ change =>
    obtain ⟨absent, -, stops⟩ := StopRecord.change_append change
    have same := filed.records _ _ known
    exact ⟨grounded, _, same, same ▸ absent, stops⟩
  | editing change => exact ⟨Shared.read_cell, StopEdit.change_eq_some change⟩
  | _ => trivial

include move in
theorem Move.grounded (filed : Filed shared) (grounded : Grounded shared thread) : Grounded after next := by
  suffices Grounded shared next from move.grounded_kept this
  cases move with
  | write move | record move => exact move.grounded filed grounded
  | clear move => exact move.grounded grounded
  | clearing led => rcases led with rfl | rfl <;> trivial
  | _ => trivial

include move in
theorem Move.records {id : String} {record : StopRecord} (known : after.records id = some record) :
    (∃ before, shared.records id = some before ∧ record.entry = before.entry) ∨
      id ∉ shared.seen ∧ after.seen = id :: shared.seen ∧ events = [.tracked me id] ∧
        next = .record (.tracked id) ∧
        record.entry.id = id ∧ record.clearedAt = none ∧ record.clearing = none := by
  have changed {change : StopRecord → StopRecord} {ids : List String}
      (found : (shared.updateRecords ids change).records id = some record)
      (entry : ∀ record, (change record).entry = record.entry) :
      ∃ before, shared.records id = some before ∧ record.entry = before.entry := by
    obtain ⟨before, present, rfl⟩ := Shared.updateRecords_eq_some found
    refine ⟨before, present, ?_⟩
    split
    · exact entry before
    · rfl
  cases move with
  | @tracked _ scope _ _ _ _ fresh =>
    simp only [Function.update_apply] at known
    split at known
    next same =>
      subst same
      cases known
      refine .inr ⟨fresh, rfl, rfl, rfl, ?_, rfl, rfl⟩
      cases scope <;> rfl
    · exact .inl ⟨record, known, rfl⟩
  | noted entry => exact .inl (changed known entry)
  | clear move =>
    have closes (landed : Bool) (clearedAt : Nat) (legacy : Bool) (record : StopRecord) :
        (record.closed landed clearedAt legacy).entry = record.entry := by
      cases landed <;> rfl
    cases move with
    | marked => exact .inl (changed known fun _ => rfl)
    | closed | retried | failed => exact .inl (changed known (closes _ _ _))
    | _ => exact .inl ⟨record, known, rfl⟩
  | write move => cases move <;> exact .inl ⟨record, known, rfl⟩
  | record move =>
    cases move with
    | @edited _ untracks | @finished _ untracks =>
      cases untracks <;> exact .inl ⟨record, known, rfl⟩
    | _ => exact .inl ⟨record, known, rfl⟩
  | @fence fencer => cases fencer <;> exact .inl ⟨record, known, rfl⟩
  | _ => exact .inl ⟨record, known, rfl⟩

include move in
theorem Move.filed (filed : Filed shared) : Filed after := by
  refine ⟨fun copy member => ?_, fun id record known => ?_⟩
  · apply move.read
    rcases move.cell with ⟨-, same⟩ | ⟨_, -, grown⟩
    · rw [same] at member
      exact filed.past copy member
    rw [grown] at member
    rcases List.mem_cons.mp member with rfl | older
    · exact Shared.read_cell
    · exact filed.past copy older
  · rcases move.records known with ⟨before, found, entry⟩ | ⟨-, -, -, -, same, -⟩
    · rw [entry]
      exact filed.records id before found
    · exact same

theorem grounded_everywhere
    (run : (dispatchers derive).machine.Reaches allowed (takeover robot) history config) :
    Filed config.shared ∧ ∀ i, LockHeld config.shared i (config.threads i) ∧
      Grounded config.shared (config.threads i) := by
  refine Pool.assertions_hold (fun _ shared => Filed shared)
    (fun _ shared me thread => LockHeld shared me thread ∧ Grounded shared thread) ?_ ?_ ?_ ?_ run
  · exact ⟨nofun, nofun⟩
  · intro i
    exact ⟨nofun, trivial⟩
  · intro history config me act shared thread events _ filed grounded _ taken
    have move := dispatch_move taken
    exact ⟨move.filed filed, move.lockHeld (grounded me).1, move.grounded filed (grounded me).2⟩
  · intro history config me act shared thread events other _ filed grounded _ taken different
    have move := dispatch_move taken
    exact ⟨move.lockHeld_other (grounded me).1 (grounded other).1 different,
      move.grounded_kept (grounded other).2⟩

end Swarmada.Safety
