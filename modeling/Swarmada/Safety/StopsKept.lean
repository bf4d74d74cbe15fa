import Swarmada.Safety.Snapshots

namespace Swarmada.Safety

open Api Transition

variable {derive : Option (Robot → List CapabilityStatusEntry)} {me : Nat} {shared after : Shared}

def endedIds : List Event → List String
  | [] => []
  | .ended _ ids :: older => ids ++ endedIds older
  | _ :: older => endedIds older

/-- A stop that was in force on the robot at the start, or was recorded since. -/
def RecordedStop (robot : Robot) (history : List Event) (id : String) : Prop :=
  id ∈ robot.unclearedStops ∨ .recorded id ∈ history

/-- Resuming is written only when every recorded stop has been ended. -/
def ResumesEnded (robot : Robot) (older : List Event) (event : Event) : Prop :=
  ∀ thread kind epoch, event = .wrote thread kind epoch .resuming →
    ∀ id, RecordedStop robot older id → id ∈ endedIds older

/-- An event that neither records nor ends a stop, and does not release one. -/
def Event.quiet : Event → Bool
  | .ended _ _ | .recorded _ | .wrote _ _ _ .resuming => false
  | _ => true

variable {events history : List Event}

theorem endedIds_append_quiet (quiet : ∀ event ∈ events, event.quiet = true) :
    endedIds (events ++ history) = endedIds history := by
  induction events with
  | nil => rfl
  | cons event events ih =>
    have rest := ih fun earlier member => quiet earlier (List.mem_cons_of_mem _ member)
    have first := quiet event List.mem_cons_self
    cases event <;> first
      | contradiction
      | exact rest

variable {robot : Robot} {id : String}

theorem RecordedStop.quiet (recorded : RecordedStop robot (events ++ history) id)
    (quiet : ∀ event ∈ events, event.quiet = true) : RecordedStop robot history id := by
  rcases recorded with initial | member
  · exact .inl initial
  rcases List.mem_append.mp member with new | old
  · have loud := quiet _ new
    contradiction
  · exact .inr old

theorem changeFirst_uncleared
    (same : ∀ stop, uncleared (change stop).toList = uncleared [stop]) (stops : List RobotStop) :
    uncleared (changeFirst id change stops) = uncleared stops := by
  have append (first second : List RobotStop) :
      uncleared (first ++ second) = uncleared first ++ uncleared second := by
    simp [uncleared]
  induction stops with
  | nil => rfl
  | cons stop stops ih =>
    unfold changeFirst
    split
    · rw [append, same, ← append]
      rfl
    · rw [← List.singleton_append, append, ih, ← append]
      rfl

theorem StopEdit.edited_uncleared (edit : StopEdit) (stops : List RobotStop) :
    uncleared (edit.edited stops) = uncleared stops := by
  cases edit with
  | acknowledge | lift =>
    refine changeFirst_uncleared (fun stop => ?_) stops
    cases cleared : stop.clearedAt <;> simp [uncleared, cleared]
  | removeCleared => simp [StopEdit.edited, uncleared]

theorem changeFirst_ids
    (same : ∀ stop changed, change stop = some changed → changed.id = stop.id) (stops : List RobotStop) :
    ((changeFirst id change stops).map RobotStop.id).Sublist (stops.map RobotStop.id) := by
  induction stops with
  | nil => exact List.Sublist.refl _
  | cons stop stops ih =>
    unfold changeFirst
    split
    · cases changed : change stop with
      | none => exact List.sublist_cons_self _ _
      | some result =>
        rw [List.map_cons, ← same stop result changed]
        exact List.Sublist.refl _
    · exact ih.cons_cons _

theorem StopEdit.edited_ids (edit : StopEdit) (stops : List RobotStop) :
    ((edit.edited stops).map RobotStop.id).Sublist (stops.map RobotStop.id) := by
  cases edit with
  | acknowledge =>
    refine changeFirst_ids (fun stop changed same => ?_) stops
    cases same
    rfl
  | lift =>
    refine changeFirst_ids (fun stop changed same => ?_) stops
    split at same <;> try contradiction
    cases same
    rfl
  | removeCleared => exact List.filter_sublist.map _

theorem clearStops_uncleared (path : ClearPath) (clearedAt : Nat) (stops : List RobotStop) :
    uncleared (clearStops path clearedAt stops) = [] := by
  unfold uncleared
  rw [List.map_eq_nil_iff, List.filter_eq_nil_iff]
  intro stop member
  have cleared := (mem_clearStops member).1
  cases same : stop.clearedAt <;> simp_all

theorem clearStops_ids (path : ClearPath) (clearedAt : Nat) (stops : List RobotStop) :
    ((clearStops path clearedAt stops).map RobotStop.id).Sublist (stops.map RobotStop.id) := by
  induction stops with
  | nil => exact List.Sublist.refl _
  | cons stop stops ih =>
    have rest := ih
    simp only [clearStops, List.filterMap_cons] at rest ⊢
    split
    · exact rest.cons _
    rename_i kept
    split at kept
    · cases kept
      exact rest.cons_cons _
    split at kept <;> try contradiction
    cases kept
    exact rest.cons_cons _

inductive StopsEffect (me : Nat) (shared after : Shared) : Thread → List Event → Prop
  | same {thread : Thread} {events : List Event} (stops : after.cell.value.stops = shared.cell.value.stops)
      (quiet : ∀ event ∈ events, event.quiet = true) : StopsEffect me shared after thread events
  | cleared {call : ClearCall} {attempt : Nat} {write : ClearWrite} (stops : ∃ path clearedAt,
        after.cell.value.stops = clearStops path clearedAt shared.cell.value.stops)
      (version : write.version = after.cell.version) (grew : shared.cell.version < after.cell.version)
      (ended : ∀ id, id ∈ write.ended ↔ id ∈ shared.cell.value.unclearedStops ∨ id ∈ write.unrecorded) :
      StopsEffect me shared after (.clear (.patching call attempt write))
        [.wrote me .clear call.epoch .resuming, .ended write.version write.ended]
  | recorded {id : String} {stored : Versioned Robot} {next : Robot} {record : StopRecord}
      (same : record.entry.id = id) (absent : id ∉ shared.cell.value.stops.map RobotStop.id)
      (current : stored.version = shared.cell.version)
      (next_stops : next.stops = stored.value.stops ++ [record.landing])
      (stops : after.cell.value.stops = shared.cell.value.stops ++ [record.landing]) :
      StopsEffect me shared after (.record (.patching id stored next)) [.recorded id]
  | edited {thread : Thread} {edit : StopEdit} (stops : after.cell.value.stops = edit.edited shared.cell.value.stops) :
      StopsEffect me shared after thread []

variable {thread next : Thread} {act : Act}

variable (move : Move derive me shared thread act after next events)

include move in
theorem Move.stops (grounded : Grounded shared thread) : StopsEffect me shared after thread events := by
  cases move with
  | wrote _ stops => exact .same stops (by simp)
  | write move =>
    cases move with
    | @landed _ state _ _ _ current =>
      obtain ⟨-, _, read, stops⟩ := grounded
      refine .same (stops.trans (read.same current)) ?_
      cases state <;> simp_all [Event.quiet]
    | refused _ warned => exact .same rfl (by rcases warned with rfl | rfl <;> simp [Event.quiet])
    | found => exact .same rfl (by split <;> simp [Event.quiet])
    | _ => exact .same rfl (by simp [Event.quiet])
  | clear move =>
    cases move with
    | @landed _ _ _ current =>
      obtain ⟨read, planned⟩ := grounded
      have same := read.same current
      refine .cleared ?_ ?_ (Nat.lt_succ_self _) ?_
      · obtain ⟨path, clearedAt, stops⟩ := planned.stops
        exact ⟨path, clearedAt, same ▸ stops⟩
      · exact congrArg Nat.succ current
      · intro id
        rw [planned.ended, Robot.unclearedStops, same]
        rfl
    | _ => exact .same rfl (by simp [Event.quiet])
  | record move =>
    cases move with
    | landed current =>
      obtain ⟨read, _, entry, absent, stops⟩ := grounded
      have same := read.same current
      exact .recorded entry (same ▸ absent) current stops (same ▸ stops)
    | @edited edit untracks _ _ current =>
      have same := grounded.1.same current
      refine @StopsEffect.edited _ _ _ _ edit ?_
      rw [← same, ← grounded.2]
      cases untracks <;> rfl
    | @finished _ untracks _ full =>
      refine .same (by cases untracks <;> rfl) ?_
      rcases full with rfl | ⟨_, rfl⟩ <;> simp [Event.quiet]
    | _ => exact .same rfl (by simp)
  | @fence fencer => cases fencer <;> exact .same rfl (by simp)
  | _ => exact .same rfl (by simp [Event.quiet])

structure StopsKept (robot : Robot) (history : List Event) (shared : Shared) : Prop where
  kept : ∀ id, RecordedStop robot history id → id ∉ endedIds history →
    id ∈ shared.cell.value.unclearedStops
  records : ∀ id record, shared.records id = some record → record.clearedAt.isSome →
    id ∈ endedIds history
  distinct : (robot.stops.map RobotStop.id).Nodup → (shared.cell.value.stops.map RobotStop.id).Nodup
  resumes : Always (ResumesEnded robot) history

/-- A `clearedAt` a thread is about to write, or has yet to leave on a record, is that
of a stop some clear has ended. -/
def ClearsEnded (history : List Event) : Thread → Prop
  | .record (.patching id stored next) =>
    ∀ entry, next.stops = stored.value.stops ++ [entry] → entry.clearedAt.isSome →
      id ∈ endedIds history
  | .clear (.closing _ _ write true _) => ∀ id ∈ write.unrecorded, id ∈ endedIds history
  | _ => True

theorem endedIds_append (member : id ∈ endedIds history) : id ∈ endedIds (events ++ history) := by
  induction events with
  | nil => exact member
  | cons event events ih =>
    cases event with
    | ended => exact List.mem_append_right _ ih
    | _ => exact ih

theorem ClearsEnded.later (ended : ClearsEnded history thread) : ClearsEnded (events ++ history) thread := by
  unfold ClearsEnded at ended ⊢
  split
  · exact fun entry stops cleared => endedIds_append (ended entry stops cleared)
  · exact fun id member => endedIds_append (ended id member)
  · trivial

include move in
theorem Move.clearsEnded (kept : StopsKept robot history shared) (grounded : Grounded shared thread) :
    ClearsEnded (events ++ history) next := by
  cases move with
  | record move =>
    cases move with
    | @appending record _ id _ known _ change =>
      intro entry stops cleared
      obtain ⟨-, -, landing⟩ := StopRecord.change_append change
      rw [landing, List.append_cancel_left_eq, List.singleton_inj] at stops
      subst stops
      exact kept.records id record known cleared
    | _ => trivial
  | clear move =>
    cases move with
    | landed =>
      intro id member
      exact List.mem_append_left _ ((grounded.2.ended id).mpr (.inr member))
    | _ => trivial
  | @write _ _ _ next => cases next <;> trivial
  | clearing led => rcases led with rfl | rfl <;> trivial
  | _ => trivial

include move in
theorem Move.recordsEnded (kept : StopsKept robot history shared) (ended : ClearsEnded history thread)
    {record : StopRecord} (known : after.records id = some record) (cleared : record.clearedAt.isSome) :
    id ∈ endedIds (events ++ history) := by
  have before (present : shared.records id = some record) : id ∈ endedIds (events ++ history) :=
    endedIds_append (kept.records id record present cleared)
  have updated {change : StopRecord → StopRecord} {ids : List String}
      (found : (shared.updateRecords ids change).records id = some record)
      (same : ∀ record, (change record).clearedAt = record.clearedAt) :
      id ∈ endedIds (events ++ history) := by
    obtain ⟨earlier, present, rfl⟩ := Shared.updateRecords_eq_some found
    refine endedIds_append (kept.records id earlier present ?_)
    split at cleared
    · rw [← same earlier]
      exact cleared
    · exact cleared
  cases move with
  | tracked =>
    simp only [Function.update_apply] at known
    split at known
    · cases known
      contradiction
    · exact before known
  | noted _ clearedAt => exact updated known clearedAt
  | clear move =>
    cases move with
    | marked | retried | failed => exact updated known fun _ => rfl
    | closed =>
      obtain ⟨earlier, present, rfl⟩ := Shared.updateRecords_eq_some known
      split at cleared
      · exact ended id ‹_›
      · exact kept.records id earlier present cleared
    | _ => exact before known
  | write move => cases move <;> exact before known
  | record move =>
    cases move with
    | @edited _ untracks | @finished _ untracks => cases untracks <;> exact before known
    | _ => exact before known
  | @fence fencer => cases fencer <;> exact before known
  | _ => exact before known

theorem StopsEffect.kept {robot : Robot} {history events : List Event} {thread : Thread}
    (effect : StopsEffect me shared after thread events) (kept : StopsKept robot history shared)
    (ended : ClearsEnded history thread) (id : String)
    (recorded : RecordedStop robot (events ++ history) id) (standing : id ∉ endedIds (events ++ history)) :
    id ∈ after.cell.value.unclearedStops := by
  cases effect with
  | same stops quiet =>
    rw [endedIds_append_quiet quiet] at standing
    rw [Robot.unclearedStops, stops]
    exact kept.kept id (recorded.quiet quiet) standing
  | edited stops =>
    rw [Robot.unclearedStops, stops, StopEdit.edited_uncleared]
    exact kept.kept id recorded standing
  | cleared stops version grew exactly_ =>
    -- the clear ends whatever was still in force, so nothing is left to keep
    exfalso
    apply standing
    have recordedBefore : RecordedStop robot history id := by
      rcases recorded with initial | member
      · exact .inl initial
      · exact .inr (by simpa using member)
    by_cases before : id ∈ endedIds history
    · exact List.mem_append_right _ before
    · exact List.mem_append_left _ ((exactly_ id).mpr (.inl (kept.kept id recordedBefore before)))
  | @recorded _ _ _ record same _ _ next_stops stops =>
    rw [Robot.mem_unclearedStops, stops]
    have standingBefore : id ∉ endedIds history := standing
    rcases recorded with initial | member
    · obtain ⟨stop, present, uncleared, named⟩ :=
        Robot.mem_unclearedStops.mp (kept.kept id (.inl initial) standingBefore)
      exact ⟨stop, List.mem_append_left _ present, uncleared, named⟩
    rcases List.mem_cons.mp member with first | older
    · cases first
      refine ⟨record.landing, by simp, ?_, same⟩
      cases cleared : record.landing.clearedAt with
      | none => rfl
      | some =>
        exact absurd (ended record.landing next_stops (by simp [cleared])) standingBefore
    · obtain ⟨stop, present, uncleared, named⟩ :=
        Robot.mem_unclearedStops.mp (kept.kept id (.inr older) standingBefore)
      exact ⟨stop, List.mem_append_left _ present, uncleared, named⟩

theorem StopsEffect.distinct (effect : StopsEffect me shared after thread events)
    (distinct : (shared.cell.value.stops.map RobotStop.id).Nodup) :
    (after.cell.value.stops.map RobotStop.id).Nodup := by
  cases effect with
  | same stops => exact stops ▸ distinct
  | edited stops => exact stops ▸ distinct.sublist (StopEdit.edited_ids _ _)
  | cleared stops =>
    obtain ⟨_, _, stops⟩ := stops
    exact stops ▸ distinct.sublist (clearStops_ids _ _ _)
  | @recorded id _ _ record same absent _ _ stops =>
    rw [stops, List.map_append, List.nodup_append]
    refine ⟨distinct, List.nodup_singleton _, ?_⟩
    intro first member second single equal
    rw [List.map_singleton, List.mem_singleton] at single
    have landing : record.landing.id = id := same
    exact absent (landing ▸ single ▸ equal ▸ member)

theorem StopsEffect.resumes
    (effect : StopsEffect me shared after thread events) (kept : StopsKept robot history shared) :
    Always (ResumesEnded robot) (events ++ history) := by
  cases effect with
  | same _ quiet =>
    refine kept.resumes.extend fun event member older thread kind epoch written => ?_
    have silent := quiet event member
    rw [written] at silent
    contradiction
  | edited => exact kept.resumes
  | recorded =>
    exact ⟨nofun, kept.resumes⟩
  | cleared _ _ _ exactly_ =>
    refine ⟨fun _ _ _ _ id recorded => ?_, nofun, kept.resumes⟩
    by_cases before : id ∈ endedIds history
    · exact List.mem_append_right _ before
    have recordedBefore : RecordedStop robot history id := by
      rcases recorded with initial | member
      · exact .inl initial
      · exact .inr (by simpa using member)
    exact List.mem_append_left _ ((exactly_ id).mpr (.inl (kept.kept id recordedBefore before)))

theorem stopsKept_everywhere {allowed : List Event → Config Shared Thread → Nat × Act → Prop}
    (run : (dispatchers derive).machine.Reaches allowed (takeover robot) history config) :
    StopsKept robot history config.shared ∧ ∀ i, ClearsEnded history (config.threads i) := by
  refine Pool.assertions_hold (StopsKept robot) (fun history _ _ thread => ClearsEnded history thread)
    ?_ ?_ ?_ ?_ run
  · refine ⟨fun id recorded _ => ?_, nofun, id, trivial⟩
    rcases recorded with initial | _
    · exact initial
    · contradiction
  · exact fun i => trivial
  · intro history config me act shared thread events run kept ended _ taken
    have move := dispatch_move taken
    have grounded := ((grounded_everywhere run).2 me).2
    have effect := move.stops grounded
    refine ⟨⟨effect.kept kept (ended me), fun id record known cleared => ?_,
      fun initially => effect.distinct (kept.distinct initially), effect.resumes kept⟩,
      move.clearsEnded kept grounded⟩
    exact move.recordsEnded kept (ended me) known cleared
  · intro history config me act shared thread events other _ kept ended _ taken different
    exact (ended other).later

/-- A recorded stop is marked or removed only if a clear ended it, one that no clear ended stays recorded and in
force, and Resuming is written only once every recorded stop has been ended. -/
theorem recorded_stops_kept (robot : Robot) (distinct : (robot.stops.map RobotStop.id).Nodup)
    {history : List Event} {config : Config Shared Thread}
    (run : (dispatchers derive).machine.Reaches Machine.unrestricted (takeover robot) history config) :
    (∀ id, RecordedStop robot history id →
      (id ∉ config.shared.cell.value.stops.map RobotStop.id ∨
        ∃ stop ∈ config.shared.cell.value.stops, stop.id = id ∧ stop.clearedAt.isSome) →
      id ∈ endedIds history) ∧
    (∀ id, RecordedStop robot history id → id ∉ endedIds history →
      id ∈ config.shared.cell.value.unclearedStops ∧
        (config.shared.inForce config.shared.cell.value).isSome) ∧
    Always (ResumesEnded robot) history := by
  have kept := (stopsKept_everywhere run).1
  refine ⟨fun id recorded marked => ?_, fun id recorded standing => ?_, kept.resumes⟩
  · by_contra standing
    obtain ⟨_, present, uncleared, rfl⟩ :=
      Robot.mem_unclearedStops.mp (kept.kept id recorded standing)
    rcases marked with removed | ⟨_, listed, same, cleared⟩
    · exact removed (List.mem_map_of_mem present)
    have one := List.inj_on_of_nodup_map (kept.distinct distinct) listed present same
    rw [one, uncleared] at cleared
    contradiction
  · have present := kept.kept id recorded standing
    exact ⟨present, stopInForce_of_uncleared (List.ne_nil_of_mem present)⟩

def clearedAcrossRecord : List (Nat × Act) :=
  [(0, .track 0 "s1" .robot none 0), (0, .record .start), (0, .record (.read .served)),
    (0, .record .change), (1, .clearEstop {}), (1, .clear (.read true)), (1, .clear .lock),
    (1, .clear (.guard 5)), (1, .clear .mark), (0, .record (.patch .served)),
    (1, .clear (.patch false)), (1, .clear .close), (1, .clear (.read true)), (1, .clear .lock),
    (1, .clear (.guard 6)), (1, .clear .mark), (1, .clear (.patch false)), (1, .clear .close)]

theorem recorded_stops_kept_run : Always (ResumesEnded { ns := "default", name := "r1", estopState := .failed })
      [.wrote 1 .clear 1 .resuming, .ended 2 ["s1"], .read 1, .recorded "s1", .read 1,
        .issued .clear 1, .tracked 0 "s1"] := by
  have ran : (dispatchers none).machine.history
      (takeover { ns := "default", name := "r1", estopState := .failed }) clearedAcrossRecord =
        some [.wrote 1 .clear 1 .resuming, .ended 2 ["s1"], .read 1, .recorded "s1", .read 1,
          .issued .clear 1, .tracked 0 "s1"] := by
    decide +kernel
  obtain ⟨_, run⟩ := Machine.history_reaches ran
  exact (recorded_stops_kept { ns := "default", name := "r1", estopState := .failed }
    List.nodup_nil run).2.2

end Swarmada.Safety
