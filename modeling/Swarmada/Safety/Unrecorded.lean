import Swarmada.Safety.StopsKept

namespace Swarmada.Safety

open Api Transition

variable {derive : Option (Robot → List CapabilityStatusEntry)} {me : Nat} {shared after : Shared}

structure KnownIds (robot : Robot) (history : List Event) (shared : Shared) : Prop where
  initial : ∀ stop ∈ robot.stops, stop.id ∈ shared.seen
  tracked : ∀ thread id, .tracked thread id ∈ history → id ∈ shared.seen
  owner : ∀ first second id, .tracked first id ∈ history → .tracked second id ∈ history → first = second
  records : ∀ id record, shared.records id = some record →
    id ∈ shared.seen ∧ id ∉ robot.stops.map RobotStop.id
  origin : ∀ stop ∈ shared.cell.value.stops,
    stop.id ∈ robot.stops.map RobotStop.id ∨ .recorded stop.id ∈ history
  recorded : ∀ id, .recorded id ∈ history → id ∈ shared.seen
  ended : ∀ id ∈ endedIds history, id ∈ shared.seen

variable {robot : Robot} {history : List Event} {id : String}

theorem KnownIds.listed (known : KnownIds robot history shared) (member : id ∈ shared.cell.value.unclearedStops) :
    id ∈ shared.seen := by
  obtain ⟨stop, present, -, rfl⟩ := Robot.mem_unclearedStops.mp member
  rcases known.origin stop present with initial | recorded
  · obtain ⟨first, listed, same⟩ := List.mem_map.mp initial
    exact same ▸ known.initial first listed
  · exact known.recorded _ recorded

def Thread.appends : Thread → Option String
  | .record (.tracked id) | .record (.reading id) | .record (.changing id _)
  | .record (.patching id _ _) => some id
  | _ => none

def Thread.endsUnrecorded : Thread → List String
  | .clear (.marking _ _ pending) | .clear (.patching _ _ pending)
  | .clear (.closing _ _ pending _ _) => pending.unrecorded
  | _ => []

structure OwnStop (history : List Event) (shared : Shared) (me : Nat) (thread : Thread) : Prop where
  tracked : ∀ id, thread.appends = some id → .tracked me id ∈ history ∧ .recorded id ∉ history
  seen : ∀ id ∈ thread.endsUnrecorded, id ∈ shared.seen

variable {thread next : Thread} {act : Act} {events : List Event}

variable (move : Move derive me shared thread act after next events) (filed : Filed shared)
  (grounded : Grounded shared thread) (mine : LockHeld shared me thread)

include move in
theorem Move.seen : (after.seen = shared.seen ∧ ∀ other id, .tracked other id ∉ events) ∨
      ∃ id, id ∉ shared.seen ∧ after.seen = id :: shared.seen ∧ events = [.tracked me id] ∧
        next = .record (.tracked id) := by
  cases move with
  | @tracked _ _ _ _ id _ fresh => exact .inr ⟨id, fresh, rfl, rfl, rfl⟩
  | write move =>
    cases move with
    | refused _ warned => rcases warned with rfl | rfl <;> exact .inl ⟨rfl, by simp⟩
    | found => exact .inl ⟨rfl, by split <;> simp⟩
    | _ => exact .inl ⟨rfl, by simp⟩
  | clear move => cases move <;> exact .inl ⟨rfl, by simp⟩
  | record move =>
    cases move with
    | @edited _ untracks => cases untracks <;> exact .inl ⟨rfl, by simp⟩
    | @finished _ untracks _ full =>
      rcases full with rfl | ⟨_, rfl⟩ <;> cases untracks <;> exact .inl ⟨rfl, by simp⟩
    | _ => exact .inl ⟨rfl, by simp⟩
  | @fence fencer => cases fencer <;> exact .inl ⟨rfl, by simp⟩
  | _ => exact .inl ⟨rfl, by simp⟩

include move in
theorem Move.seen_grows (member : id ∈ shared.seen) : id ∈ after.seen := by
  rcases move.seen with ⟨same, -⟩ | ⟨_, -, grown, -⟩
  · rw [same]
    exact member
  · rw [grown]
    exact List.mem_cons_of_mem _ member

theorem StopsEffect.new (effect : StopsEffect me shared after thread events) :
    (∀ id, .recorded id ∈ events → thread.appends = some id) ∧
      ∀ history, ∀ id ∈ endedIds (events ++ history), id ∈ endedIds history ∨
        ∃ call attempt write, thread = .clear (.patching call attempt write) ∧
          (id ∈ shared.cell.value.unclearedStops ∨ id ∈ write.unrecorded) := by
  cases effect with
  | same _ quiet =>
    refine ⟨fun id member => ?_, fun history id member => ?_⟩
    · have silent := quiet _ member
      contradiction
    · rw [endedIds_append_quiet quiet] at member
      exact .inl member
  | cleared _ _ _ exactly_ =>
    refine ⟨fun id member => by simp at member, fun history id member => ?_⟩
    rcases List.mem_append.mp member with new | old
    · exact .inr ⟨_, _, _, rfl, (exactly_ id).mp new⟩
    · exact .inl old
  | recorded =>
    refine ⟨fun id member => ?_, fun history id member => .inl member⟩
    rw [List.mem_singleton] at member
    cases member
    rfl
  | edited => exact ⟨nofun, fun history id member => .inl member⟩

theorem StopsEffect.origin (effect : StopsEffect me shared after thread events) (stop : RobotStop)
    (member : stop ∈ after.cell.value.stops) :
    stop.id ∈ shared.cell.value.stops.map RobotStop.id ∨ .recorded stop.id ∈ events := by
  cases effect with
  | same stops => exact .inl (List.mem_map_of_mem (stops ▸ member))
  | cleared stops =>
    obtain ⟨_, _, stops⟩ := stops
    exact .inl ((clearStops_ids _ _ _).subset (List.mem_map_of_mem (stops ▸ member)))
  | edited stops => exact .inl ((StopEdit.edited_ids _ _).subset (List.mem_map_of_mem (stops ▸ member)))
  | recorded same _ _ _ stops =>
    rw [stops, List.mem_append, List.mem_singleton] at member
    rcases member with old | rfl
    · exact .inl (List.mem_map_of_mem old)
    · exact .inr (by simp [StopRecord.landing, same])

variable (known : KnownIds robot history shared) (own : OwnStop history shared me thread)

include move grounded known own in
theorem Move.knownIds : KnownIds robot (events ++ history) after := by
  have effect := move.stops grounded
  have seen {id : String} (member : id ∈ shared.seen) : id ∈ after.seen := move.seen_grows member
  constructor
  case initial => exact fun stop member => seen (known.initial stop member)
  case tracked =>
    intro thread id member
    rcases List.mem_append.mp member with new | old
    · rcases move.seen with ⟨-, none⟩ | ⟨_, -, grown, rfl, -⟩
      · exact absurd new (none thread id)
      cases List.mem_singleton.mp new
      rw [grown]
      exact List.mem_cons_self
    · exact seen (known.tracked thread id old)
  case owner =>
    intro first second id one two
    rcases move.seen with ⟨-, none⟩ | ⟨_, unseen, -, rfl, -⟩
    · have old {thread : Nat} (member : .tracked thread id ∈ events ++ history) :
          .tracked thread id ∈ history :=
        (List.mem_append.mp member).resolve_left (none thread id)
      exact known.owner first second id (old one) (old two)
    rcases List.mem_cons.mp one with same | old <;> rcases List.mem_cons.mp two with same' | old'
    · cases same
      cases same'
      rfl
    · cases same
      exact absurd (known.tracked second _ old') unseen
    · cases same'
      exact absurd (known.tracked first _ old) unseen
    · exact known.owner first second id old old'
  case records =>
    intro id record present
    rcases move.records present with ⟨before, found, -⟩ | ⟨unseen, grown, -⟩
    · exact ⟨seen (known.records id before found).1, (known.records id before found).2⟩
    refine ⟨grown ▸ List.mem_cons_self, fun initial => unseen ?_⟩
    obtain ⟨stop, member, rfl⟩ := List.mem_map.mp initial
    exact known.initial stop member
  case origin =>
    intro stop member
    rcases effect.origin stop member with before | new
    · obtain ⟨earlier, present, same⟩ := List.mem_map.mp before
      rcases known.origin earlier present with initial | recorded
      · exact .inl (same ▸ initial)
      · exact .inr (List.mem_append_right _ (same ▸ recorded))
    · exact .inr (List.mem_append_left _ new)
  case recorded =>
    intro id member
    rcases List.mem_append.mp member with new | old
    · exact seen (known.tracked me id (own.tracked id (effect.new.1 id new)).1)
    · exact seen (known.recorded id old)
  case ended =>
    intro id member
    rcases effect.new.2 history id member with old | ⟨_, _, _, rfl, listed | unrecorded⟩
    · exact seen (known.ended id old)
    · exact seen (known.listed listed)
    · exact seen (own.seen id unrecorded)

include move in
theorem Move.appends (appends : next.appends = some id) :
    thread.appends = some id ∧ (∀ other, .recorded other ∉ events) ∨
      id ∉ shared.seen ∧ events = [.tracked me id] := by
  cases move with
  | tracked fresh =>
    cases appends
    exact .inr ⟨fresh, rfl⟩
  | record move =>
    cases move with
    | started | read | repeated | appending | retried => exact .inl ⟨appends, by simp⟩
    | _ => contradiction
  | @write _ _ _ next | @clear _ _ _ next => cases next <;> contradiction
  | clearing led => rcases led with rfl | rfl <;> contradiction
  | _ => contradiction

include move filed in
theorem Move.endsUnrecorded (member : id ∈ next.endsUnrecorded) : id ∈ thread.endsUnrecorded ∨
      (∃ call attempt stored, thread = .clear (.guarding call attempt stored)) ∧
        after = shared ∧ events = [] ∧
        ∃ record, shared.records id = some record ∧ record.clearedAt = none := by
  cases move with
  | clear move =>
    cases move with
    | planned plan =>
      obtain ⟨-, -, -, inflight, -⟩ := clearOnce_write plan
      obtain ⟨record, present, same, uncleared⟩ := inflight id member
      obtain ⟨key, -, known⟩ := List.mem_filterMap.mp present
      have filedAs := filed.records key record known
      exact .inr ⟨⟨_, _, _, rfl⟩, rfl, rfl, record, (filedAs.symm.trans same) ▸ known, uncleared⟩
    | marked | landed | unlanded => exact .inl member
    | _ => contradiction
  | @write _ _ _ next | @record _ _ _ next => cases next <;> contradiction
  | clearing led => rcases led with rfl | rfl <;> contradiction
  | _ => contradiction

include move filed known own in
theorem Move.ownStop : OwnStop (events ++ history) after me next := by
  refine ⟨fun id appends => ?_, fun id member => ?_⟩
  · rcases move.appends appends with ⟨before, unrecorded⟩ | ⟨unseen, rfl⟩
    · obtain ⟨tracked, fresh⟩ := own.tracked id before
      refine ⟨List.mem_append_right _ tracked, fun recorded => ?_⟩
      exact (List.mem_append.mp recorded).elim (unrecorded id) fresh
    · refine ⟨List.mem_cons_self, fun recorded => unseen (known.recorded id ?_)⟩
      simpa using recorded
  · apply move.seen_grows
    rcases move.endsUnrecorded filed member with before | ⟨-, -, -, record, found, -⟩
    · exact own.seen id before
    · exact (known.records id record found).1

variable {theirs : Thread}

include move grounded known own in
theorem Move.ownStop_other (theirOwn : OwnStop history shared other theirs) (different : other ≠ me) :
    OwnStop (events ++ history) after other theirs := by
  refine ⟨fun id appends => ?_, fun id member => move.seen_grows (theirOwn.seen id member)⟩
  obtain ⟨tracked, fresh⟩ := theirOwn.tracked id appends
  refine ⟨List.mem_append_right _ tracked, fun recorded => ?_⟩
  rcases List.mem_append.mp recorded with new | old
  · -- only the stop's own thread records it
    have mine := (own.tracked id ((move.stops grounded).new.1 id new)).1
    exact different (known.owner other me id tracked mine)
  · exact fresh old

variable {allowed : List Event → Config Shared Thread → Nat × Act → Prop} {config : Config Shared Thread}

theorem knownIds_everywhere (run : (dispatchers derive).machine.Reaches allowed (takeover robot) history config) :
    KnownIds robot history config.shared ∧
      ∀ i, OwnStop history config.shared i (config.threads i) := by
  refine Pool.assertions_hold (KnownIds robot) OwnStop ?_ ?_ ?_ ?_ run
  · constructor
    case initial => exact fun stop member => List.mem_map_of_mem member
    case origin => exact fun stop member => .inl (List.mem_map_of_mem member)
    case tracked => exact nofun
    case owner => exact nofun
    case records => exact nofun
    case recorded => exact nofun
    case ended => exact nofun
  · exact fun i => ⟨nofun, nofun⟩
  · intro history config me act shared thread events run known own _ taken
    have move := dispatch_move taken
    obtain ⟨filed, grounded⟩ := grounded_everywhere run
    exact ⟨move.knownIds (grounded me).2 known (own me), move.ownStop filed known (own me)⟩
  · intro history config me act shared thread events other run known own _ taken different
    have move := dispatch_move taken
    exact move.ownStop_other ((grounded_everywhere run).2 me).2 known (own me) (own other) different

def Thread.changesRecords : Thread → List String
  | .clear (.marking _ _ pending) | .clear (.closing _ _ pending _ _) => pending.unrecorded
  | _ => []

def Thread.marks : Thread → List String
  | .clear (.patching _ _ pending) | .clear (.closing _ _ pending _ _) => pending.unrecorded
  | _ => []

def Thread.unlanded : Thread → List String
  | .clear (.marking _ _ pending) | .clear (.patching _ _ pending)
  | .clear (.closing _ _ pending false _) => pending.unrecorded
  | _ => []

inductive RecordEffect (me : Nat) (shared : Shared) (id : String) (record : StopRecord) :
    Thread → Thread → Prop
  | kept {thread next : Thread} {before : StopRecord} (known : shared.records id = some before)
      (clearedAt : record.clearedAt = before.clearedAt) (clearing : record.clearing = before.clearing)
      (untouched : id ∉ thread.changesRecords) : RecordEffect me shared id record thread next
  | fresh {thread next : Thread} (unseen : id ∉ shared.seen) (clearedAt : record.clearedAt = none)
      (clearing : record.clearing = none) : RecordEffect me shared id record thread next
  | marked {call : ClearCall} {attempt : Nat} {write : ClearWrite} {before : StopRecord}
      (known : shared.records id = some before) (member : id ∈ write.unrecorded)
      (clearedAt : record.clearedAt = before.clearedAt) (clearing : record.clearing = some me) :
      RecordEffect me shared id record (.clear (.marking call attempt write))
        (.clear (.patching call attempt write))
  | closed {call : ClearCall} {attempt : Nat} {write : ClearWrite} {landed conflict : Bool}
      {next : Thread} {before : StopRecord} (known : shared.records id = some before)
      (member : id ∈ write.unrecorded) (clearing : record.clearing = none)
      (clearedAt : if landed then record.clearedAt = some write.clearedAt
        else record.clearedAt = before.clearedAt) :
      RecordEffect me shared id record (.clear (.closing call attempt write landed conflict)) next

variable {record : StopRecord}

include move in
theorem Move.recordEffect (known : after.records id = some record) : RecordEffect me shared id record thread next := by
  have same {thread next : Thread} (found : shared.records id = some record)
      (untouched : id ∉ thread.changesRecords) : RecordEffect me shared id record thread next :=
    .kept found rfl rfl untouched
  cases move with
  | tracked fresh =>
    simp only [Function.update_apply] at known
    split at known
    next named =>
      subst named
      cases known
      exact .fresh fresh rfl rfl
    · exact same known (by simp [Thread.changesRecords])
  | noted _ clearedAt clearing =>
    obtain ⟨before, found, rfl⟩ := Shared.updateRecords_eq_some known
    refine .kept found ?_ ?_ (by simp [Thread.changesRecords])
    · split
      · exact clearedAt before
      · rfl
    · split
      · exact clearing before
      · rfl
  | clear move =>
    have closes {call : ClearCall} {attempt : Nat} {write : ClearWrite} {landed conflict : Bool}
        {next : Thread} (found : (shared.close write landed).records id = some record) :
        RecordEffect me shared id record (.clear (.closing call attempt write landed conflict)) next := by
      obtain ⟨_, present, rfl⟩ := Shared.updateRecords_eq_some found
      split
      next member =>
        refine .closed present member ?_ ?_
        · cases landed <;> rfl
        · cases landed <;> rfl
      · exact .kept present rfl rfl ‹_›
    cases move with
    | marked =>
      obtain ⟨_, present, rfl⟩ := Shared.updateRecords_eq_some known
      split
      · exact .marked present ‹_› rfl rfl
      · exact .kept present rfl rfl ‹_›
    | closed | retried | failed => exact closes known
    | _ => exact same known (by simp [Thread.changesRecords])
  | write move => cases move <;> exact same known (by simp [Thread.changesRecords])
  | record move =>
    cases move with
    | @edited _ untracks | @finished _ untracks =>
      cases untracks <;> exact same known (by simp [Thread.changesRecords])
    | _ => exact same known (by simp [Thread.changesRecords])
  | @fence fencer => cases fencer <;> exact same known (by simp [Thread.changesRecords])
  | _ => exact same known (by simp [Thread.changesRecords])

/-- A stop that ended before it was recorded has a record that says so or waits for the clear to say so; a record
waits only for the clear that has the lock. -/
structure Waiting (history : List Event) (shared : Shared) : Prop where
  ended : ∀ id record, shared.records id = some record → id ∈ endedIds history →
    .recorded id ∈ history ∨ record.clearedAt.isSome ∨ record.clearing.isSome
  writer : ∀ id record clear, shared.records id = some record → record.clearing = some clear →
    shared.writer = some clear

/-- The records a clear has made wait are those of its write, and until the write lands
none of these stops has ended unrecorded. -/
structure WaitsFor (history : List Event) (shared : Shared) (me : Nat) (thread : Thread) : Prop where
  marks : ∀ id record, shared.records id = some record → record.clearing = some me → id ∈ thread.marks
  patching : ∀ call attempt write, thread = .clear (.patching call attempt write) →
    ∀ id ∈ write.unrecorded, ∀ record, shared.records id = some record → record.clearing = some me
  unlanded : ∀ id ∈ thread.unlanded, id ∈ endedIds history →
    .recorded id ∈ history ∨ ∀ record, shared.records id = some record → record.clearedAt.isSome

theorem Thread.unlanded_endsUnrecorded (member : id ∈ thread.unlanded) :
    thread.holdsLock = true ∧ id ∈ thread.endsUnrecorded := by
  unfold Thread.unlanded at member
  split at member
  · exact ⟨rfl, member⟩
  · exact ⟨rfl, member⟩
  · exact ⟨rfl, member⟩
  · contradiction

include move in
theorem Move.marks_kept (marked : id ∈ thread.marks) (untouched : id ∉ thread.changesRecords) :
    id ∈ next.marks ∧ after.writer = shared.writer := by
  cases move with
  | clear move =>
    cases move with
    | landed | unlanded => exact ⟨marked, rfl⟩
    | closed | retried | failed => exact absurd marked untouched
    | _ => contradiction
  | _ => contradiction

theorem RecordEffect.clearing
    (effect : RecordEffect me shared id record thread next) (waits : record.clearing = some clear) :
    (∃ before, shared.records id = some before ∧ before.clearing = some clear ∧
        id ∉ thread.changesRecords) ∨
      clear = me ∧ thread.holdsLock = true ∧ next.holdsLock = true ∧ id ∈ next.marks := by
  cases effect with
  | kept known _ clearing untouched =>
    exact .inl ⟨_, known, clearing ▸ waits, untouched⟩
  | fresh _ _ clearing | closed _ _ clearing =>
    rw [clearing] at waits
    contradiction
  | marked _ member _ clearing =>
    rw [clearing] at waits
    exact .inr ⟨(Option.some.inj waits).symm, rfl, rfl, member⟩

theorem RecordEffect.clearedAt (effect : RecordEffect me shared id record thread next) (seen : id ∈ shared.seen)
    (cleared : ∀ before, shared.records id = some before → before.clearedAt.isSome) : record.clearedAt.isSome := by
  cases effect with
  | kept known clearedAt | marked known _ clearedAt => exact clearedAt ▸ cleared _ known
  | fresh unseen => exact absurd seen unseen
  | @closed _ _ _ landed _ _ _ known _ _ clearedAt =>
    cases landed with
    | true => simp only [if_true] at clearedAt; simp [clearedAt]
    | false => simp only [Bool.false_eq_true, if_false] at clearedAt; exact clearedAt ▸ cleared _ known

include move grounded mine known own in
theorem Move.waiting (waiting : Waiting history shared) (waits : WaitsFor history shared me thread) :
    Waiting (events ++ history) after := by
  refine ⟨fun id record present member => ?_, fun id record clear present clearing => ?_⟩
  · have old (before : StopRecord) (found : shared.records id = some before)
        (ended : id ∈ endedIds history) :
        .recorded id ∈ events ++ history ∨ before.clearedAt.isSome ∨ before.clearing.isSome :=
      (waiting.ended id before found ended).imp_left (List.mem_append_right _)
    have source := (move.stops grounded).new.2 history id member
    cases move.recordEffect present with
    | @kept _ _ before found clearedAt clearing =>
      rw [clearedAt, clearing]
      rcases source with ended | ⟨call, attempt, write, rfl, listed | unrecorded⟩
      · exact old before found ended
      · obtain ⟨stop, stored, -, rfl⟩ := Robot.mem_unclearedStops.mp listed
        have recorded := (known.origin stop stored).resolve_left (known.records _ before found).2
        exact .inl (List.mem_append_right _ recorded)
      · rw [waits.patching call attempt write rfl id unrecorded before found]
        exact .inr (.inr rfl)
    | fresh unseen =>
      exfalso
      apply unseen
      rcases source with ended | ⟨_, _, _, rfl, listed | unrecorded⟩
      · exact known.ended id ended
      · exact known.listed listed
      · exact own.seen id unrecorded
    | marked _ _ _ clearing => exact .inr (.inr (by simp [clearing]))
    | @closed call attempt write landed _ _ before found member _ clearedAt =>
      cases landed with
      | true =>
        simp only [if_true] at clearedAt
        exact .inr (.inl (by simp [clearedAt]))
      | false =>
        rcases source with ended | ⟨_, _, _, impossible, -⟩
        · rcases waits.unlanded id member ended with recorded | cleared
          · exact .inl (List.mem_append_right _ recorded)
          · exact .inr (.inl (clearedAt ▸ cleared before found))
        · cases impossible
  · rcases (move.recordEffect present).clearing clearing with
      ⟨before, found, waited, untouched⟩ | ⟨rfl, locked, still, -⟩
    · have holder := waiting.writer id before clear found waited
      cases move.lock with
      | kept same => rw [same, holder]
      | taken free => simp [free] at holder
      | released free locked outside =>
        -- the lock goes back only once no record waits for its holder
        have same : clear = me := Option.some.inj (holder.symm.trans (mine locked))
        subst same
        have marked := waits.marks id before found waited
        rw [(move.marks_kept marked untouched).2, holder]
    · exact move.lockHeld mine still

include move filed grounded mine own in
theorem Move.waitsFor (waiting : Waiting history shared)
    (waits : WaitsFor history shared me thread) : WaitsFor (events ++ history) after me next := by
  constructor
  case marks =>
    intro id record present clearing
    rcases (move.recordEffect present).clearing clearing with
      ⟨before, found, waited, untouched⟩ | ⟨-, -, -, member⟩
    · exact (move.marks_kept (waits.marks id before found waited) untouched).1
    · exact member
  case patching =>
    rintro call attempt write rfl id member _ present
    have effect := move.recordEffect present
    -- a clear is at its patch only after it has made the records wait
    have marking : thread = .clear (.marking call attempt write) := by
      generalize same : Thread.clear (.patching call attempt write) = next at move
      cases move with
      | @clear _ _ _ _ _ move => cases move <;> cases same; rfl
      | @write _ _ _ next | @record _ _ _ next => cases next <;> cases same
      | clearing led => rcases led with rfl | rfl <;> cases same
      | _ => cases same
    subst marking
    cases effect with
    | kept _ _ _ untouched => exact absurd member untouched
    | fresh unseen => exact absurd (own.seen id member) unseen
    | marked _ _ _ clearing => exact clearing
  case unlanded =>
    intro id member ended
    by_cases before : id ∈ thread.unlanded
    · have old : id ∈ endedIds history ∨ next.unlanded = [] := by
        rcases (move.stops grounded).new.2 history id ended with old | ⟨_, _, _, rfl, -⟩
        · exact .inl old
        cases move with
        | clear move =>
          cases move with
          | landed => exact .inr rfl
          | unlanded => exact .inl ended
      rcases old with old | landed
      · refine (waits.unlanded id before old).imp (List.mem_append_right _) fun cleared => ?_
        intro record present
        have seen := own.seen id (Thread.unlanded_endsUnrecorded before).2
        exact (move.recordEffect present).clearedAt seen cleared
      · rw [landed] at member
        contradiction
    · -- the clear has just planned its write, and no record waits for anything
      have taken := (Thread.unlanded_endsUnrecorded member).2
      rcases move.endsUnrecorded filed taken with
        listed | ⟨⟨call, attempt, stored, rfl⟩, rfl, rfl, record, found, uncleared⟩
      · exfalso
        apply before
        cases move with
        | clear move =>
          cases move with
          | marked | unlanded => exact listed
          | _ => contradiction
        | @write _ _ _ next | @record _ _ _ next => cases next <;> contradiction
        | clearing led => rcases led with rfl | rfl <;> contradiction
        | _ => contradiction
      · rcases waiting.ended id record found ended with recorded | cleared | marked
        · exact .inl recorded
        · rw [uncleared] at cleared
          contradiction
        obtain ⟨clear, clearing⟩ := Option.isSome_iff_exists.mp marked
        have holder := waiting.writer id record clear found clearing
        have same : clear = me := Option.some.inj (holder.symm.trans (mine rfl))
        subst same
        have marks := waits.marks id record found clearing
        contradiction

include move grounded mine in
theorem Move.waitsFor_other (held : LockHeld shared other theirs)
    (theirOwn : OwnStop history shared other theirs) (waits : WaitsFor history shared other theirs)
    (different : other ≠ me) : WaitsFor (events ++ history) after other theirs := by
  have exclusive (theirsLocked : theirs.holdsLock = true) : thread.holdsLock = false :=
    held.exclusive mine (Ne.symm different) theirsLocked
  constructor
  case marks =>
    intro id record present clearing
    rcases (move.recordEffect present).clearing clearing with
      ⟨before, found, waited, -⟩ | ⟨same, -⟩
    · exact waits.marks id before found waited
    · exact absurd same different
  case patching =>
    rintro call attempt write rfl id member _ present
    have unlocked := exclusive rfl
    have effect := move.recordEffect present
    cases effect with
    | kept known _ clearing =>
      rw [clearing]
      exact waits.patching call attempt write rfl id member _ known
    | fresh unseen => exact absurd (theirOwn.seen id member) unseen
    | marked | closed => contradiction
  case unlanded =>
    intro id member ended
    obtain ⟨locked, unrecorded⟩ := Thread.unlanded_endsUnrecorded member
    have unlocked := exclusive locked
    have old : id ∈ endedIds history := by
      rcases (move.stops grounded).new.2 history id ended with old | ⟨_, _, _, rfl, -⟩
      · exact old
      · contradiction
    refine (waits.unlanded id member old).imp (List.mem_append_right _) fun cleared => ?_
    intro record present
    exact (move.recordEffect present).clearedAt (theirOwn.seen id unrecorded) cleared

theorem waiting_everywhere (run : (dispatchers derive).machine.Reaches allowed (takeover robot) history config) :
    Waiting history config.shared ∧ ∀ i, WaitsFor history config.shared i (config.threads i) := by
  refine Pool.assertions_hold Waiting WaitsFor ?_ ?_ ?_ ?_ run
  · exact ⟨nofun, nofun⟩
  · refine fun i => ⟨nofun, fun call attempt write same => ?_,
      nofun⟩
    cases same
  · intro history config me act shared thread events run waiting waits _ taken
    have move := dispatch_move taken
    obtain ⟨filed, grounded⟩ := grounded_everywhere run
    obtain ⟨known, own⟩ := knownIds_everywhere run
    exact ⟨move.waiting (grounded me).2 (grounded me).1 known (own me) waiting (waits me),
      move.waitsFor filed (grounded me).2 (grounded me).1 (own me) waiting (waits me)⟩
  · intro history config me act shared thread events other run waiting waits _ taken different
    have grounded := (grounded_everywhere run).2
    exact (dispatch_move taken).waitsFor_other (grounded me).2 (grounded me).1 (grounded other).1
      ((knownIds_everywhere run).2 other) (waits other) different

/-- From the version a clear wrote on, no version of the Robot shows a stop the clear
ended without its `clearedAt`. -/
structure EndedGone (history : List Event) (shared : Shared) : Prop where
  written : ∀ version ids, .ended version ids ∈ history → version ≤ shared.cell.version
  gone : ∀ version ids, .ended version ids ∈ history → ∀ copy ∈ shared.cell :: shared.past,
    version ≤ copy.version → ∀ id ∈ ids, id ∉ copy.value.unclearedStops

/-- An entry about to land without a `clearedAt` is that of a stop no clear has ended. -/
def AppendsUnended (history : List Event) (shared : Shared) : Thread → Prop
  | .record (.patching id stored next) =>
    ∀ entry, next.stops = stored.value.stops ++ [entry] → entry.clearedAt = none →
      stored.version = shared.cell.version → id ∉ endedIds history
  | _ => True

theorem mem_endedIds : id ∈ endedIds history ↔ ∃ version ids, .ended version ids ∈ history ∧ id ∈ ids := by
  induction history with
  | nil => simp [endedIds]
  | cons event older ih =>
    cases event with
    | ended version ids =>
      simp only [endedIds, List.mem_append, List.mem_cons, ih, Event.ended.injEq]
      constructor
      · rintro (new | ⟨earlier, others, member, inside⟩)
        · exact ⟨version, ids, .inl ⟨rfl, rfl⟩, new⟩
        · exact ⟨earlier, others, .inr member, inside⟩
      · rintro ⟨earlier, others, ⟨rfl, rfl⟩ | member, inside⟩
        · exact .inl inside
        · exact .inr ⟨earlier, others, member, inside⟩
    | _ => simp [endedIds, ih]

include move in
theorem Move.version_le : shared.cell.version ≤ after.cell.version := by
  rcases move.cell with ⟨same, -⟩ | ⟨_, written, -⟩
  · rw [same]
  · rw [written]
    exact Nat.le_succ _

theorem StopsEffect.uncleared (effect : StopsEffect me shared after thread events)
    (appends : AppendsUnended history shared thread) (member : id ∈ after.cell.value.unclearedStops) :
    id ∈ shared.cell.value.unclearedStops ∨ id ∉ endedIds history := by
  cases effect with
  | same stops =>
    rw [Robot.unclearedStops, stops] at member
    exact .inl member
  | edited stops =>
    rw [Robot.unclearedStops, stops, StopEdit.edited_uncleared] at member
    exact .inl member
  | cleared stops =>
    obtain ⟨_, _, stops⟩ := stops
    rw [Robot.unclearedStops, stops, clearStops_uncleared] at member
    contradiction
  | @recorded fresh _ _ record same _ current next_stops stops =>
    obtain ⟨stop, present, uncleared, rfl⟩ := Robot.mem_unclearedStops.mp member
    rw [stops, List.mem_append, List.mem_singleton] at present
    rcases present with old | rfl
    · exact .inl (Robot.mem_unclearedStops.mpr ⟨stop, old, uncleared, rfl⟩)
    · have named : record.landing.id = fresh := same
      exact .inr (named ▸ appends _ next_stops uncleared current)

theorem StopsEffect.ended_new
    (effect : StopsEffect me shared after thread events) (member : .ended version ids ∈ events) :
    version = after.cell.version ∧ shared.cell.version < after.cell.version ∧
      after.cell.value.unclearedStops = [] := by
  cases effect with
  | same _ quiet =>
    have silent := quiet _ member
    contradiction
  | cleared stops written grew =>
    simp only [List.mem_cons, reduceCtorEq, List.not_mem_nil, or_false, false_or,
      Event.ended.injEq] at member
    obtain ⟨_, _, stops⟩ := stops
    refine ⟨member.1.trans written, grew, ?_⟩
    rw [Robot.unclearedStops, stops, clearStops_uncleared]
  | recorded => simp at member
  | edited => contradiction

include move filed grounded in
theorem Move.endedGone (appends : AppendsUnended history shared thread)
    (gone : EndedGone history shared) : EndedGone (events ++ history) after := by
  have effect := move.stops grounded
  refine ⟨fun version ids member => ?_, fun version ids member copy present reached id inside listed => ?_⟩
  · rcases List.mem_append.mp member with new | old
    · exact (effect.ended_new new).1.le
    · exact Nat.le_trans (gone.written version ids old) move.version_le
  -- the versions before this move
  have earlier : copy = after.cell ∨ copy ∈ shared.cell :: shared.past := by
    rcases List.mem_cons.mp present with latest | older
    · exact .inl latest
    rcases move.cell with ⟨-, same⟩ | ⟨_, -, grown⟩
    · exact .inr (List.mem_cons_of_mem _ (same ▸ older))
    · exact .inr (grown ▸ older)
  rcases List.mem_append.mp member with new | old
  · obtain ⟨_, _, none⟩ := effect.ended_new new
    rcases earlier with rfl | before
    · rw [none] at listed
      contradiction
    have bound : copy.version ≤ shared.cell.version := by
      rcases List.mem_cons.mp before with rfl | older
      · exact Nat.le_refl _
      · exact (filed.past copy older).version_le
    omega
  · rcases earlier with rfl | before
    · rcases effect.uncleared appends listed with standing | unended
      · exact gone.gone version ids old shared.cell List.mem_cons_self (gone.written version ids old)
          id inside standing
      · exact unended (mem_endedIds.mpr ⟨version, ids, old, inside⟩)
    · exact gone.gone version ids old copy before reached id inside listed

include move own in
theorem Move.appendsUnended (waiting : Waiting history shared) : AppendsUnended (events ++ history) after next := by
  cases move with
  | record move =>
    cases move with
    | @appending record _ id _ known proceeds change =>
      intro entry stops uncleared _ ended
      obtain ⟨-, undecided, landing⟩ := StopRecord.change_append change
      rw [landing, List.append_cancel_left_eq, List.singleton_inj] at stops
      subst stops
      have free : record.clearing.isSome = false := by
        simpa [StopRecord.waits, undecided] using proceeds
      rcases waiting.ended id record known ended with recorded | cleared | marked
      · exact (own.tracked id rfl).2 recorded
      · rw [show record.clearedAt = none from uncleared] at cleared
        contradiction
      · rw [free] at marked
        contradiction
    | _ => trivial
  | @write _ _ _ next | @clear _ _ _ next => cases next <;> trivial
  | clearing led => rcases led with rfl | rfl <;> trivial
  | _ => trivial

include move grounded in
theorem Move.appendsUnended_other (theirGrounded : Grounded shared theirs)
    (appends : AppendsUnended history shared theirs) : AppendsUnended (events ++ history) after theirs := by
  unfold AppendsUnended at appends ⊢
  split
  next id stored robot =>
    intro entry stops uncleared current ended
    have bound := theirGrounded.1.version_le
    have grows := move.version_le
    obtain ⟨version, ids, member, inside⟩ := mem_endedIds.mp ended
    rcases List.mem_append.mp member with new | old
    · have grew := ((move.stops grounded).ended_new new).2.1
      omega
    · have unmoved : stored.version = shared.cell.version := by omega
      exact appends entry stops uncleared unmoved (mem_endedIds.mpr ⟨version, ids, old, inside⟩)
  · trivial

theorem endedGone_everywhere (run : (dispatchers derive).machine.Reaches allowed (takeover robot) history config) :
    EndedGone history config.shared := by
  refine (Pool.assertions_hold EndedGone (fun history shared _ thread => AppendsUnended history shared thread)
    ?_ ?_ ?_ ?_ run).1
  · exact ⟨nofun, nofun⟩
  · exact fun i => trivial
  · intro history config me act shared thread events run gone appends _ taken
    have move := dispatch_move taken
    obtain ⟨filed, grounded⟩ := grounded_everywhere run
    exact ⟨move.endedGone filed (grounded me).2 (appends me) gone,
      move.appendsUnended ((knownIds_everywhere run).2 me) (waiting_everywhere run).1⟩
  · intro history config me act shared thread events other run gone appends _ taken different
    have grounded := (grounded_everywhere run).2
    exact (dispatch_move taken).appendsUnended_other (grounded me).2 (grounded other).2 (appends other)

/-- The stops the Robot shows without a `clearedAt` are, in every state, those recorded and not yet ended. -/
theorem uncleared_iff_open (standing : ∀ stop ∈ robot.stops, stop.clearedAt = none)
    (run : (dispatchers derive).machine.Reaches allowed (takeover robot) history config) :
    id ∈ config.shared.cell.value.unclearedStops ↔ RecordedStop robot history id ∧ id ∉ endedIds history := by
  refine ⟨fun shown => ⟨?_, fun ended => ?_⟩, fun kept => (stopsKept_everywhere run).1.kept id kept.1 kept.2⟩
  · obtain ⟨stop, present, -, rfl⟩ := Robot.mem_unclearedStops.mp shown
    refine ((knownIds_everywhere run).1.origin stop present).imp_left fun initial => ?_
    obtain ⟨first, listed, same⟩ := List.mem_map.mp initial
    exact Robot.mem_unclearedStops.mpr ⟨first, listed, standing first listed, same⟩
  · obtain ⟨version, ids, wrote, inside⟩ := mem_endedIds.mp ended
    have gone := endedGone_everywhere run
    exact gone.gone version ids wrote _ List.mem_cons_self (gone.written version ids wrote) id inside shown

theorem uncleared_iff_open_s1 : ∃ history config, (dispatchers none).machine.Reaches Machine.unrestricted
    (takeover { ns := "default", name := "r1" }) history config ∧ "s1" ∈ config.shared.cell.value.unclearedStops := by
  have ran : (dispatchers none).machine.history (takeover { ns := "default", name := "r1" })
      [(0, .track 0 "s1" .robot none 0), (0, .record .start), (0, .record (.read .served)), (0, .record .change),
        (0, .record (.patch .served))] = some [.recorded "s1", .tracked 0 "s1"] := by
    decide +kernel
  obtain ⟨config, run⟩ := Machine.history_reaches ran
  exact ⟨_, config, run, (uncleared_iff_open (List.forall_mem_nil _) run).mpr ⟨.inr (by decide), by decide⟩⟩

end Swarmada.Safety
