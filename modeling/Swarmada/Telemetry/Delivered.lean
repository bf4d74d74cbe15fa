import Swarmada.Telemetry.Projector

namespace Swarmada.Telemetry

open Api Swarmada.Transition

variable {config : Config} {st after : RobotState} {reported : Reported} {status : RobotStatus} {f : Frame} {now : Int}
  {thresholds : List Int} {pct : Int} {key : RobotKey}

theorem batteryBucket_some (pct : Int) (thresholds : List Int) : 0 ≤ batteryBucket (some pct) thresholds :=
  Int.natCast_nonneg _

theorem batteryBucket_unknown (unknown : batteryBucket reading thresholds = -1) : reading = none := by
  cases reading with
  | none => rfl
  | some pct =>
    have known := batteryBucket_some pct thresholds
    omega

theorem known_of_bucket
    (same : batteryBucket reading thresholds = batteryBucket (some pct) thresholds) : reading.isSome = true := by
  cases reading with
  | some _ => rfl
  | none => exact absurd (batteryBucket_unknown same.symm) (by simp)

theorem lookup_union (name : String) (first second : Hardware) :
    (first ∪ second).lookup name = (first.lookup name).or (second.lookup name) := by
  by_cases listed : name ∈ first
  · rw [AList.lookup_union_left listed]
    obtain ⟨_, found⟩ := Option.isSome_iff_exists.mp (AList.lookup_isSome.mpr listed)
    rw [found, Option.some_or]
  · rw [AList.lookup_union_right listed, AList.lookup_eq_none.mpr listed, Option.none_or]

theorem lookup_of_empty {hardware : Hardware} (empty : hardware.entries.isEmpty = true) (name : String) :
    hardware.lookup name = none := by
  rw [AList.lookup, List.isEmpty_iff.mp empty]
  rfl

theorem lookup_incomingHW (config : Config) (st : RobotState) (f : Frame) (name : String) :
    (changesOf config st f).incomingHW.lookup name = (f.hardware.lookup name).or (st.heldHW.lookup name) := by
  simp only [changesOf]
  split
  next empty =>
    rw [lookup_of_empty empty, Option.or_none]
  · exact lookup_union name f.hardware st.heldHW

theorem changesOf_mergedHW (config : Config) (st : RobotState) (f : Frame) :
    (changesOf config st f).mergedHW = (changesOf config st f).incomingHW ∪ st.hardware := rfl

theorem lookup_of_unchanged (same : (changesOf config st f).hardware = false) {status : HardwareStatus}
    (found : (changesOf config st f).incomingHW.lookup name = some status) : st.hardware.lookup name = some status := by
  have entry : ⟨name, status⟩ ∈ (changesOf config st f).incomingHW.entries := AList.mem_lookup_iff.mp found
  have empty : ((changesOf config st f).incomingHW.entries.filter fun entry => st.hardware.lookup entry.1 ≠ some entry.2) = [] :=
    List.isEmpty_iff.mp ((Bool.not_eq_eq_eq_not).mp same)
  have kept := List.filter_eq_nil_iff.mp empty _ entry
  simpa using kept

structure Holds (thresholds : List Int) (status : RobotStatus) (st : RobotState) : Prop where
  phase : ∀ phase, st.phase = some phase → status.phase = some phase
  battery : st.batteryPct.isSome = true → batteryBucket status.batteryPct thresholds = st.batteryBkt
  action : status.assignedAction = st.assignedAction
  hardware : ∀ name value, st.hardware.lookup name = some value → status.hardware.lookup name = some value

structure Agrees (thresholds : List Int) (status : RobotStatus) (reported : Reported) : Prop where
  phase : ∀ phase, reported.phase = some phase → status.phase = some phase
  battery : ∀ pct, reported.batteryPct = some pct →
    batteryBucket status.batteryPct thresholds = batteryBucket (some pct) thresholds
  action : status.assignedAction = reported.assignedAction
  hardware : ∀ name value, reported.hardware.lookup name = some value → status.hardware.lookup name = some value

def Remembered (thresholds : List Int) (status : RobotStatus) (st : RobotState) (reported : Reported) : Prop :=
  st.batteryPct = none → ∀ pct, reported.batteryPct = some pct →
    batteryBucket status.batteryPct thresholds = batteryBucket (some pct) thresholds

structure Released (thresholds : List Int) (st : RobotState) (reported : Reported) : Prop where
  heldHW : st.heldHW = ∅
  phase : reported.phase = st.phase
  action : reported.assignedAction = st.assignedAction
  battery : st.batteryPct.isSome = true → batteryBucket reported.batteryPct thresholds = st.batteryBkt

structure Recorded (config : Config) (status : RobotStatus) (reported : Reported) (st : RobotState) : Prop where
  initialized : st.initialized = true
  bucket : st.batteryBkt = batteryBucket st.batteryPct config.batteryThresholds
  hardware : ∀ name, reported.hardware.lookup name = (st.heldHW.lookup name).or (st.hardware.lookup name)
  released : st.held = false → Released config.batteryThresholds st reported
  remembered : st.held = false → Remembered config.batteryThresholds status st reported
  landed : st.unsent = false → Holds config.batteryThresholds status st

theorem Recorded.agrees (recorded : Recorded config status reported st) (released : st.held = false)
    (landed : st.unsent = false) : Agrees config.batteryThresholds status reported := by
  obtain ⟨heldHW, phase, action, battery⟩ := recorded.released released
  have holds := recorded.landed landed
  refine ⟨fun value found => holds.phase value (phase ▸ found), fun pct found => ?_, holds.action.trans action.symm, ?_⟩
  · cases reading : st.batteryPct with
    | none => exact recorded.remembered released reading pct found
    | some =>
      have present : st.batteryPct.isSome = true := by rw [reading]; rfl
      rw [holds.battery present, ← battery present, found]
  · intro name value found
    rw [recorded.hardware name, heldHW, AList.lookup_empty, Option.none_or] at found
    exact holds.hardware name value found

/-- A frame without a phase comes when no phase is held, and one without a reading when none is
held or in a write that failed. -/
structure Whole (thresholds : List Int) (st : RobotState) (reported : Reported) (f : Frame) : Prop where
  phase : f.phase = none → reported.phase = st.phase
  battery : f.batteryPct = none → reported.batteryPct = none ∨
    (batteryBucket reported.batteryPct thresholds = st.batteryBkt ∧ st.unsent = false) ∨
    (st.batteryPct = none ∧ st.held = false)

instance (thresholds : List Int) (st : RobotState) (reported : Reported) (f : Frame) :
    Decidable (Whole thresholds st reported f) :=
  decidable_of_iff ((f.phase = none → reported.phase = st.phase) ∧ (f.batteryPct = none → reported.batteryPct = none ∨
      (batteryBucket reported.batteryPct thresholds = st.batteryBkt ∧ st.unsent = false) ∨
      (st.batteryPct = none ∧ st.held = false)))
    ⟨fun ⟨phase, battery⟩ => ⟨phase, battery⟩, fun whole => ⟨whole.phase, whole.battery⟩⟩

theorem Recorded.battery_landed (recorded : Recorded config status reported st)
    (whole : Whole config.batteryThresholds st reported f) (absent : f.batteryPct = none)
    (found : reported.batteryPct = some pct) :
    batteryBucket status.batteryPct config.batteryThresholds = batteryBucket (some pct) config.batteryThresholds := by
  rcases whole.battery absent with never | ⟨recordedBkt, landed⟩ | ⟨unknown, released⟩
  · rw [never] at found
    contradiction
  · rw [found] at recordedBkt
    have known : st.batteryPct.isSome = true := known_of_bucket (recorded.bucket ▸ recordedBkt.symm)
    rw [(recorded.landed landed).battery known, recordedBkt]
  · exact recorded.remembered released unknown pct found

theorem report_phase (whole : Whole thresholds st reported f) (same : (changesOf config st f).phase = false) :
    (reported.report f).phase = st.phase := by
  cases given : f.phase with
  | none => simpa [Reported.report, given] using whole.phase given
  | some phase =>
    have recordedPhase : some phase = st.phase := by simpa [changesOf, given] using same
    simpa [Reported.report, given] using recordedPhase

theorem report_hardware (recorded : Recorded config status reported st) (name : String) :
    (reported.report f).hardware.lookup name =
      ((changesOf config st f).incomingHW.lookup name).or (st.hardware.lookup name) := by
  rw [lookup_incomingHW, Reported.report, lookup_union, recorded.hardware, Option.or_assoc]

theorem report_hardware_same (recorded : Recorded config status reported st) (same : (changesOf config st f).hardware = false)
    (name : String) : (reported.report f).hardware.lookup name = st.hardware.lookup name := by
  rw [report_hardware recorded]
  cases found : (changesOf config st f).incomingHW.lookup name with
  | none => exact Option.none_or
  | some => rw [lookup_of_unchanged same found, Option.some_or]

theorem Recorded.same (recorded : Recorded config status reported st) (whole : Whole config.batteryThresholds st reported f)
    (none : (changesOf config st f).any = false) (landed : st.unsent = false) :
    Recorded config status (reported.report f) { st with held := false, heldHW := ∅ } := by
  simp only [Changes.any, Bool.or_eq_false_iff] at none
  obtain ⟨⟨⟨phase, battery⟩, action⟩, hardware⟩ := none
  have bucket : batteryBucket f.batteryPct config.batteryThresholds = st.batteryBkt := by simpa [changesOf] using battery
  refine ⟨recorded.initialized, recorded.bucket, fun name => ?_, fun _ => ?_, fun _ unknown pct found => ?_,
    fun _ => ⟨(recorded.landed landed).phase, (recorded.landed landed).battery, (recorded.landed landed).action,
      (recorded.landed landed).hardware⟩⟩
  · rw [report_hardware_same recorded hardware, AList.lookup_empty, Option.none_or]
  · have acted : f.assignedAction = st.assignedAction := by simpa [changesOf] using action
    refine ⟨rfl, (report_phase whole phase : _ = st.phase), acted, fun known => ?_⟩
    cases given : f.batteryPct with
    | some => simpa [Reported.report, given] using bucket
    | none =>
      rw [given, recorded.bucket] at bucket
      rw [show st.batteryPct = Option.none from batteryBucket_unknown bucket.symm] at known
      contradiction
  · change st.batteryPct = Option.none at unknown
    cases given : f.batteryPct with
    | some =>
      rw [given, recorded.bucket] at bucket
      have known := known_of_bucket bucket.symm
      rw [unknown] at known
      contradiction
    | none =>
      rw [Reported.report, given, Option.none_or] at found
      exact recorded.battery_landed whole given found

theorem Recorded.held (recorded : Recorded config status reported st) (times : List Int) :
    Recorded config status (reported.report f)
      ({ st with writeTimes := times }.hold (changesOf config st f).hardware (changesOf config st f).incomingHW) := by
  refine ⟨recorded.initialized, recorded.bucket, fun name => ?_, fun released => (nomatch released),
    fun released => (nomatch released), fun landed => ?_⟩
  · simp only [RobotState.hold]
    split
    · exact report_hardware recorded name
    next same =>
      rw [report_hardware_same recorded (by simpa using same), AList.lookup_empty, Option.none_or]
  · have holds := recorded.landed landed
    exact ⟨holds.phase, holds.battery, holds.action, holds.hardware⟩

structure Advanced (thresholds : List Int) (f : Frame) (reported : Reported) (st : RobotState) : Prop where
  initialized : st.initialized = true
  bucket : st.batteryBkt = batteryBucket st.batteryPct thresholds
  hardware : ∀ name, reported.hardware.lookup name = st.hardware.lookup name
  phase : reported.phase = st.phase
  action : reported.assignedAction = st.assignedAction
  battery : st.batteryPct.isSome = true → batteryBucket reported.batteryPct thresholds = st.batteryBkt
  unknown : st.batteryPct = none → f.batteryPct = none

theorem Recorded.advanced (recorded : Recorded config status reported st)
    (whole : Whole config.batteryThresholds st reported f) :
    Advanced config.batteryThresholds f (reported.report f) (advance st f (changesOf config st f)) := by
  have unchangedBkt (same : (changesOf config st f).battery = false) :
      batteryBucket f.batteryPct config.batteryThresholds = batteryBucket st.batteryPct config.batteryThresholds := by
    rw [← recorded.bucket]
    simpa [changesOf] using same
  constructor
  case initialized => exact recorded.initialized
  case bucket =>
    simp only [advance]
    split
    · rfl
    · exact recorded.bucket
  case hardware =>
    intro name
    simp only [advance]
    split
    · rw [report_hardware recorded, changesOf_mergedHW, lookup_union]
    next same =>
      exact report_hardware_same recorded (by simpa using same) name
  case phase =>
    simp only [advance]
    split
    next changed =>
      simp only [changesOf, Bool.and_eq_true] at changed
      obtain ⟨_, given⟩ := Option.isSome_iff_exists.mp changed.1
      rw [Reported.report, given, Option.some_or]
    next same =>
      exact report_phase whole (by simpa using same)
  case action =>
    simp only [advance]
    split
    · rfl
    rename_i same
    have acted : f.assignedAction = st.assignedAction := by simpa [changesOf] using same
    exact acted
  case battery =>
    simp only [advance]
    intro known
    split at known <;> rename_i changed
    · obtain ⟨_, given⟩ := Option.isSome_iff_exists.mp known
      rw [if_pos changed, Reported.report, given, Option.some_or]
      simp [changesOf, given]
    have same := unchangedBkt (by simpa using changed)
    obtain ⟨_, old⟩ := Option.isSome_iff_exists.mp known
    rw [old] at same
    obtain ⟨_, given⟩ := Option.isSome_iff_exists.mp (known_of_bucket same)
    rw [if_neg changed, Reported.report, given, Option.some_or, recorded.bucket, old, ← same, given]
  case unknown =>
    simp only [advance]
    split <;> rename_i changed <;> intro absent
    · exact absent
    have same := unchangedBkt (by simpa using changed)
    rw [absent] at same
    exact batteryBucket_unknown same

theorem Recorded.update_lands (recorded : Recorded config status reported st)
    (advanced : Advanced config.batteryThresholds f (reported.report f) (advance st f (changesOf config st f))) :
    Holds config.batteryThresholds (status.apply (updateOf now st f (changesOf config st f)))
      (advance st f (changesOf config st f)) := by
  unfold updateOf
  split
  · constructor
    case phase =>
      intro phase found
      simp [RobotStatus.apply, resendUpdate, found]
    case battery =>
      intro known
      obtain ⟨_, found⟩ := Option.isSome_iff_exists.mp known
      rw [advanced.bucket, found, RobotStatus.apply, resendUpdate]
      simp [found]
    case action => rfl
    case hardware =>
      intro name value found
      simp only [RobotStatus.apply, resendUpdate, present]
      split
      next empty =>
        rw [lookup_of_empty empty] at found
        contradiction
      · exact found
  next landed =>
    have holds := recorded.landed (by simpa using landed)
    constructor
    case phase =>
      simp only [advance, RobotStatus.apply, frameUpdate]
      intro phase found
      split at found <;> rename_i changed
      · rw [if_pos changed, found, Option.some_or]
      · rw [if_neg changed, Option.none_or, holds.phase phase found]
    case battery =>
      simp only [advance, RobotStatus.apply, frameUpdate]
      intro known
      split at known <;> rename_i changed
      · obtain ⟨_, found⟩ := Option.isSome_iff_exists.mp known
        rw [if_pos changed, if_pos changed, found, Option.some_or]
        simp [changesOf, found]
      · rw [if_neg changed, if_neg changed, Option.none_or, holds.battery known]
    case action =>
      simp only [advance, RobotStatus.apply, frameUpdate]
      split
      · rfl
      · exact holds.action
    case hardware =>
      simp only [advance, RobotStatus.apply, frameUpdate]
      intro name value found
      split at found <;> rename_i changed
      · rw [if_pos changed]
        exact found
      · rw [if_neg changed]
        exact holds.hardware name value found

theorem updateOf_battery (advanced : Advanced thresholds f reported (advance st f (changesOf config st f)))
    (unknown : (advance st f (changesOf config st f)).batteryPct = none) :
    (updateOf now st f (changesOf config st f)).batteryPct = none := by
  unfold updateOf
  split
  · exact unknown
  · simp [frameUpdate, advanced.unknown unknown]

theorem Advanced.recorded (advanced : Advanced config.batteryThresholds f reported st)
    (same : after.initialized = st.initialized ∧ after.phase = st.phase ∧ after.batteryPct = st.batteryPct ∧
      after.batteryBkt = st.batteryBkt ∧ after.hardware = st.hardware ∧ after.assignedAction = st.assignedAction)
    (released : after.heldHW = ∅) (remembered : Remembered config.batteryThresholds status st reported)
    (landed : after.unsent = false → Holds config.batteryThresholds status st) :
    Recorded config status reported after := by
  obtain ⟨initialized, phase, battery, bucket, hardware, action⟩ := same
  refine ⟨initialized.trans advanced.initialized, ?_, fun name => ?_, fun _ => ⟨released, ?_, ?_, fun known => ?_⟩, fun _ => ?_, fun sent => ?_⟩
  · rw [bucket, battery, advanced.bucket]
  · rw [released, AList.lookup_empty, Option.none_or, hardware, advanced.hardware]
  · rw [phase, advanced.phase]
  · rw [action, advanced.action]
  · rw [bucket, advanced.battery (battery ▸ known)]
  · rw [Remembered, battery]
    exact remembered
  · obtain ⟨holdsPhase, holdsBattery, holdsAction, holdsHardware⟩ := landed sent
    exact ⟨phase ▸ holdsPhase, by rw [battery, bucket]; exact holdsBattery, action ▸ holdsAction, hardware ▸ holdsHardware⟩

structure Projected (config : Config) (status : RobotStatus) (reported : Reported)
    (result : RobotState × Option MaterialUpdate) : Prop where
  quiet : result.2 = none → Recorded config status reported result.1 ∧ (result.1.held = false → result.1.unsent = false)
  sent : ∀ update, result.2 = some update → Recorded config (status.apply update) reported result.1 ∧
    result.1.held = false ∧ result.1.unsent = false ∧
      ∀ undo, Recorded config status reported (result.1.markUnsent update undo)

theorem Projected.of_advanced (advanced : Advanced config.batteryThresholds f reported st)
    (same : after.initialized = st.initialized ∧ after.phase = st.phase ∧ after.batteryPct = st.batteryPct ∧
      after.batteryBkt = st.batteryBkt ∧ after.hardware = st.hardware ∧ after.assignedAction = st.assignedAction)
    (heldHW : after.heldHW = ∅) (released : after.held = false) (landed : after.unsent = false)
    (remembered : Remembered config.batteryThresholds status st reported)
    (lands : Holds config.batteryThresholds (status.apply update) st)
    (silent : st.batteryPct = none → update.batteryPct = none) : Projected config status reported (after, some update) := by
  refine ⟨fun absent => (nomatch absent), fun update same' => ?_⟩
  cases same'
  have stillRemembered : Remembered config.batteryThresholds (status.apply update) st reported := by
    intro unknown pct found
    rw [RobotStatus.apply, silent unknown, Option.none_or]
    exact remembered unknown pct found
  exact ⟨advanced.recorded same heldHW stillRemembered fun _ => lands, released, landed,
    fun undo => advanced.recorded same heldHW remembered fun sent => (nomatch sent)⟩

theorem Recorded.projected (recorded : Recorded config status reported st)
    (whole : Whole config.batteryThresholds st reported f) :
    Projected config status (reported.report f) (projectState config now st f) := by
  unfold projectState
  rw [if_neg (by simp [recorded.initialized])]
  simp only
  split
  next unchanged =>
    simp only [Bool.and_eq_true, Bool.not_eq_true'] at unchanged
    exact ⟨fun _ => ⟨recorded.same whole unchanged.1 unchanged.2, fun _ => unchanged.2⟩, fun _ absent => (nomatch absent)⟩
  split
  · exact ⟨fun _ => ⟨recorded.held _, fun released => (nomatch released)⟩, fun _ absent => (nomatch absent)⟩
  have advanced := recorded.advanced whole
  refine Projected.of_advanced advanced ⟨rfl, rfl, rfl, rfl, rfl, rfl⟩ rfl rfl rfl (fun unknown pct found => ?_)
    (recorded.update_lands advanced) (updateOf_battery advanced)
  have absent := advanced.unknown unknown
  rw [Reported.report, absent, Option.none_or] at found
  exact recorded.battery_landed whole absent found

theorem projected_first : Projected config status (({} : Reported).report f) (projectState config now {} f) := by
  unfold projectState
  have advanced : Advanced config.batteryThresholds f (({} : Reported).report f) (record config {} f) := by
    refine ⟨rfl, rfl, fun name => rfl, rfl, rfl, fun known => ?_, id⟩
    simp [Reported.report, record]
  refine Projected.of_advanced advanced ⟨rfl, rfl, rfl, rfl, rfl, rfl⟩ rfl rfl rfl (fun unknown pct found => ?_) ?_ id
  · change f.batteryPct = none at unknown
    rw [Reported.report, unknown] at found
    contradiction
  constructor
  case phase =>
    intro phase found
    have given : f.phase = some phase := by simpa [record] using found
    simp [RobotStatus.apply, initialUpdate, record, given]
  case battery =>
    intro known
    obtain ⟨pct, given⟩ := Option.isSome_iff_exists.mp known
    change f.batteryPct = some pct at given
    simp [RobotStatus.apply, initialUpdate, record, given]
  case action => rfl
  case hardware =>
    intro name value found
    simp only [RobotStatus.apply, initialUpdate, present]
    split
    next empty =>
      rw [lookup_of_empty empty] at found
      contradiction
    · exact found

/-- Every frame is whole against what is recorded of its robot. -/
def WholeFrames (_ : List Event) (world : World) (ingestion : Ingestion) : Prop :=
  ∀ st ∈ world.projector.state ingestion.frame.key,
    Whole world.projector.config.batteryThresholds st (world.reported ingestion.frame.key) ingestion.frame

instance (history : List Event) (world : World) (ingestion : Ingestion) : Decidable (WholeFrames history world ingestion) :=
  inferInstanceAs (Decidable (∀ st ∈ world.projector.state ingestion.frame.key, Whole _ st _ _))

def Tracked (world : World) (key : RobotKey) : Prop :=
  match world.projector.state key with
  | none => world.reported key = {}
  | some st => Recorded world.projector.config (world.status key) (world.reported key) st

def Delivered (world : World) (key : RobotKey) : Prop :=
  ∃ st, world.projector.state key = some st ∧ st.held = false ∧ st.unsent = false

/-- The frame was not held, and its update, if there was one, landed. -/
def Event.settles (key : RobotKey) (event : Event) : Prop := event = .landed key ∨ event = .unchanged key

variable {world next : World} {ingestion : Ingestion} {events history : List Event}

theorem Tracked.projected (tracked : Tracked world ingestion.frame.key) (permitted : WholeFrames history world ingestion) :
    Projected world.projector.config (world.status ingestion.frame.key)
      ((world.reported ingestion.frame.key).report ingestion.frame)
      (projectState world.projector.config ingestion.now ((world.projector.state ingestion.frame.key).getD {})
        ingestion.frame) := by
  unfold Tracked at tracked
  split at tracked
  next unseen =>
    rw [unseen, tracked]
    exact projected_first
  next st seen =>
    rw [seen]
    exact tracked.projected (permitted st seen)

def World.put (world : World) (f : Frame) (st : RobotState) (status : RobotStatus) : World where
  projector := { world.projector with state := Function.update world.projector.state f.key (some st) }
  status := Function.update world.status f.key status
  reported := Function.update world.reported f.key ((world.reported f.key).report f)

theorem ingest_put (tracked : Tracked world ingestion.frame.key) (permitted : WholeFrames history world ingestion) :
    ∃ st status event, ingest world ingestion = (world.put ingestion.frame st status, [event]) ∧
      Recorded world.projector.config status ((world.reported ingestion.frame.key).report ingestion.frame) st ∧
      ∀ key, event.settles key → key = ingestion.frame.key ∧ st.held = false ∧ st.unsent = false := by
  have projected := tracked.projected permitted
  unfold ingest Projector.project
  simp only
  generalize projectState world.projector.config ingestion.now
    ((world.projector.state ingestion.frame.key).getD {}) ingestion.frame = result at projected ⊢
  obtain ⟨st, update⟩ := result
  cases update with
  | none =>
    obtain ⟨recorded, delivered⟩ := projected.quiet rfl
    have same : world.put ingestion.frame st (world.status ingestion.frame.key) = { world with
        projector := { world.projector with state := Function.update world.projector.state ingestion.frame.key (some st) }
        reported := Function.update world.reported ingestion.frame.key
          ((world.reported ingestion.frame.key).report ingestion.frame) } := by
      rw [World.put, Function.update_eq_self]
    refine ⟨st, world.status ingestion.frame.key, _, by rw [same]; rfl, recorded, fun key settles => ?_⟩
    cases held : st.held with
    | true => simp [Event.settles, held] at settles
    | false =>
      have named : ingestion.frame.key = key := by simpa [Event.settles, held] using settles
      exact ⟨named.symm, rfl, delivered held⟩
  | some update =>
    obtain ⟨recorded, released, landed, failed⟩ := projected.sent update rfl
    cases lands : ingestion.lands with
    | true =>
      refine ⟨st, (world.status ingestion.frame.key).apply update, .landed ingestion.frame.key, rfl, recorded,
        fun key settles => ?_⟩
      have named : ingestion.frame.key = key := by simpa [Event.settles] using settles
      exact ⟨named.symm, released, landed⟩
    | false =>
      refine ⟨_, world.status ingestion.frame.key, .failed ingestion.frame.key, ?_, failed
        ⟨ingestion.frame.key, (world.projector.state ingestion.frame.key).getD {}, st.gen⟩, fun key settles => ?_⟩
      · simp only [Option.map_some, Projector.markUnsent, Function.update_self, Function.update_idem, World.put,
          Function.update_eq_self]
        rfl
      · simp [Event.settles] at settles

theorem Tracked.put (tracked : ∀ key, Tracked world key)
    (recorded : Recorded world.projector.config status ((world.reported f.key).report f) st) (key : RobotKey) :
    Tracked (world.put f st status) key := by
  by_cases same : key = f.key
  · subst same
    simpa only [Tracked, World.put, Function.update_self] using recorded
  · simpa only [Tracked, World.put, Function.update_of_ne same] using tracked key

/-- A run of whole frames keeps every robot tracked, and the robot of its last frame delivered when
that frame settled. -/
theorem run_tracked (initially : ∀ key, Tracked start key) (run : ingestions.Reaches WholeFrames start history world) :
    (∀ key, Tracked world key) ∧ ∀ key, ∀ event ∈ history.head?, event.settles key → Delivered world key := by
  refine run.invariant (fun history world => (∀ key, Tracked world key) ∧
    ∀ key, ∀ event ∈ history.head?, event.settles key → Delivered world key) ⟨initially, fun _ _ absent => nomatch absent⟩ ?_
  rintro _ world ingestion next events _ ⟨tracked, _⟩ permitted taken
  obtain ⟨st, _, _, ingested, recorded, settled⟩ := ingest_put (tracked ingestion.frame.key) permitted
  change some (ingest world ingestion) = some (next, events) at taken
  rw [ingested] at taken
  cases taken
  refine ⟨Tracked.put tracked recorded, fun key latest emitted settles => ?_⟩
  cases emitted
  obtain ⟨rfl, released, landed⟩ := settled key settles
  exact ⟨st, Function.update_self .., released, landed⟩

/-- After a frame that is not held and whose update lands, the status has what was last reported. -/
theorem telemetry_not_lost {config : Config} {status : RobotKey → RobotStatus} {event : Event}
    (run : ingestions.Reaches WholeFrames (fresh config status) (event :: history) world) (settles : event.settles key) :
    Agrees world.projector.config.batteryThresholds (world.status key) (world.reported key) := by
  have unseen : ∀ key, Tracked (fresh config status) key := fun _ => rfl
  obtain ⟨tracked, delivered⟩ := run_tracked unseen run
  obtain ⟨_, seen, released, landed⟩ := delivered key event rfl settles
  have recorded := tracked key
  rw [Tracked, seen] at recorded
  exact recorded.agrees released landed

def capped : Config := { minStatusWriteInterval := 10 * 10 ^ 9 }

def rover : RobotKey := ⟨"fleet", "rover"⟩

def roverFrame (seconds : Int) (phase : Option RobotPhase) (hardware : Hardware) (lands : Bool) : Ingestion where
  frame := { key := rover, phase := phase, batteryPct := some 80, hardware := hardware }
  now := seconds * 10 ^ 9
  lands := lands

def resent : List Ingestion :=
  [roverFrame 0 (some .idle) ∅ true, roverFrame 1 (some .inProgress) ∅ true,
    roverFrame 20 (some .inProgress) (AList.singleton "lidar" .degraded) false, roverFrame 30 none ∅ true]

theorem telemetry_not_lost_resent : ∃ history world,
    ingestions.Reaches WholeFrames (fresh capped fun _ => {}) (.landed rover :: history) world ∧
      (world.reported rover).phase = some .inProgress ∧
      Agrees world.projector.config.batteryThresholds (world.status rover) (world.reported rover) := by
  have ran : (ingestions.run (fresh capped fun _ => {}, []) resent).map (fun config =>
      (config.2, (config.1.reported rover).phase)) =
      some ([.landed rover, .failed rover, .held rover, .landed rover], some .inProgress) := by decide +kernel
  have permitted : ingestions.Permitted WholeFrames (fresh capped fun _ => {}, []) resent := by decide +kernel
  obtain ⟨world, _, reached, read⟩ := Machine.run_reaches_reading permitted ran
  obtain ⟨rfl, phase⟩ := Prod.mk.inj read
  exact ⟨_, world, reached, phase, telemetry_not_lost reached (.inl rfl)⟩

/-- A change of phase is held, and the next frame says nothing of the phase: it is not held, and
the status keeps the old phase. -/
theorem held_phase_is_lost : ∃ history world,
    ingestions.Reaches Machine.unrestricted (fresh capped fun _ => {}) (.unchanged rover :: history) world ∧
      ¬ Agrees world.projector.config.batteryThresholds (world.status rover) (world.reported rover) := by
  have ran : (ingestions.run (fresh capped fun _ => {}, [])
      [roverFrame 0 (some .idle) ∅ true, roverFrame 1 (some .inProgress) ∅ true, roverFrame 20 none ∅ true]).map
      (fun config => (config.2, (config.1.reported rover).phase, (config.1.status rover).phase)) =
      some ([.unchanged rover, .held rover, .landed rover], some .inProgress, some .idle) := by decide +kernel
  obtain ⟨world, _, reached, read⟩ := Machine.run_reaches_reading (Machine.permitted_unrestricted _ _ _) ran
  obtain ⟨rfl, phases⟩ := Prod.mk.inj read
  obtain ⟨reported, written⟩ := Prod.mk.inj phases
  refine ⟨_, world, reached, fun agrees => ?_⟩
  have same := agrees.phase _ reported
  rw [written] at same
  exact absurd same (by decide)

end Swarmada.Telemetry
