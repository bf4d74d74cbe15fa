import Swarmada.Safety.Dispatcher

namespace Swarmada.Safety

open Api Transition

variable {derive : Option (Robot → List CapabilityStatusEntry)} {me : Nat}

def Writer.outside : Writer → Bool
  | .looking _ _ | .sent _ => true
  | _ => false

inductive Writer.Move (derive : Option (Robot → List CapabilityStatusEntry)) (me : Nat)
    (shared : Shared) : Writer → Shared → Option Writer → List Event → Prop
  | looked (found : shared.cached age = some copy) :
      Move derive me shared (.looking .trigger epoch) shared
        (some (.sent { kind := .trigger, epoch, copy, runsOut })) []
  | confirmed (resuming : shared.cell.value.estopState = .resuming) :
      Move derive me shared (.looking .resume epoch) shared
        (some (.entering { kind := .resume, epoch, copy := shared.cell } .normal)) []
  | finished (outside : writer.outside = true) : Move derive me shared writer shared none []
  | outcome (trigger : call.kind = .trigger) (stop : isStopOutcome call.confirming state = true) :
      Move derive me shared (.sent call) shared (some (.entering call state)) []
  | unwritten : Move derive me shared (.sent call) shared (call.returned state) []
  | refused {events : List Event} (refuses : orderRefuses shared.order state call.epoch = true)
      (warned : events = [] ∨ events = [.outcomeSuperseded call.epoch]) :
      Move derive me shared (.entering call state) shared (call.returned state) events
  | entered (free : shared.writer = none) (admitted : orderRefuses shared.order state call.epoch = false) :
      Move derive me shared (.entering call state) { shared with writer := some me }
        (some (.reading call state 0)) []
  | read (source : stored = shared.cell ∨ stored = call.copy) :
      Move derive me shared (.reading call state attempt) shared
        (some (.deciding call state attempt stored)) [.read me]
  | stood :
      Move derive me shared (.deciding call state attempt stored) { shared with writer := none }
        ((call.saw stored.value.estopState).returned state) []
  | found (same : stored.value.estopState = state) :
      Move derive me shared (.deciding call state attempt stored)
        { shared with writer := none, order := shared.order.found state call.epoch }
        ((call.saw state).returned state)
        (if state = .stopped then [.confirmed call.epoch] else [])
  | planned {next : Robot} (plan : writeEstopStateOnce derive now shared.inForce stored.value state = .patch next) :
      Move derive me shared (.deciding call state attempt stored) shared
        (some (.patching call state attempt stored next)) []
  | landed {next : Robot} (current : stored.version = shared.cell.version) :
      Move derive me shared (.patching call state attempt stored next)
        { shared with
          cell := shared.cell.write next, past := shared.cell :: shared.past
          writer := none, order := shared.order.wrote state call.epoch }
        ((call.wrote next).returned state) [.wrote me call.kind call.epoch state]
  | abandoned {next : Robot} :
      Move derive me shared (.patching call state attempt stored next) { shared with writer := none }
        (call.returned state) []
  | conflicted {next : Robot} :
      Move derive me shared (.patching call state attempt stored next) { shared with writer := none }
        (some (.backoff call state attempt)) []
  | relocked (free : shared.writer = none) :
      Move derive me shared (.backoff call state attempt) { shared with writer := some me }
        (some (.reading call state (attempt + 1))) []

theorem writeEstopStateOnce_stored {inForce : Robot → Option String}
    (planned : writeEstopStateOnce derive now inForce stored state = .stored) :
    stored.estopState = state := by
  unfold writeEstopStateOnce at planned
  repeat' split at planned
  all_goals first
    | contradiction
    | assumption

variable {shared after : Shared} {events : List Event}

theorem Writer.step_move {writer : Writer}
    (taken : writer.step derive me shared act = some (after, next, events)) :
    writer.Move derive me shared after next events := by
  unfold Writer.step at taken
  split at taken
  · split at taken <;> try contradiction
    cases taken
    exact .looked ‹_›
  · split at taken
    · cases taken
      exact .confirmed ‹_›
    · cases taken
      exact .finished rfl
  · cases taken
    exact .finished rfl
  · cases taken
    exact .finished rfl
  · split at taken <;> try contradiction
    rename_i allowed
    split at taken
    · cases taken
      exact .outcome allowed.1 allowed.2
    · cases taken
      exact .unwritten
  next call state =>
    split at taken <;> try contradiction
    rename_i free
    split at taken
    · cases taken
      refine .refused ‹_› ?_
      split
      · exact .inr rfl
      · exact .inl rfl
    · cases taken
      exact .entered (not_not.mp free) (Bool.not_eq_true _ ▸ ‹_›)
  next served =>
    cases taken
    refine .read ?_
    split
    · exact .inl rfl
    · exact .inr rfl
  · split at taken
    · cases taken
      exact .stood
    · cases taken
      exact .found (writeEstopStateOnce_stored ‹_›)
    · cases taken
      exact .planned ‹_›
  · split at taken
    · cases taken
      exact .abandoned
    split at taken
    next patched =>
      cases taken
      obtain ⟨current, rfl⟩ := Shared.patch_eq_some patched
      exact .landed current
    split at taken
    · cases taken
      exact .abandoned
    · cases taken
      exact .conflicted
  · split at taken <;> try contradiction
    rename_i free
    cases taken
    exact .relocked (not_not.mp free)
  · contradiction

def Shared.close (shared : Shared) (write : ClearWrite) (landed : Bool) : Shared :=
  shared.updateRecords write.unrecorded
    (fun record => record.closed landed write.clearedAt write.legacy)

inductive Clearer.Move (me : Nat) (shared : Shared) :
    Clearer → Shared → Option Clearer → List Event → Prop
  | read : Move me shared (.reading call attempt) shared (some (.locking call attempt shared.cell)) [.read me]
  | unread : Move me shared (.reading call attempt) shared none []
  | superseded : Move me shared (.locking call attempt stored) shared none []
  | locked (free : shared.writer = none) (latest : shared.order.supersededByLaterStop call.epoch = false) :
      Move me shared (.locking call attempt stored) { shared with writer := some me }
        (some (.guarding call attempt stored)) []
  | stood : Move me shared (.guarding call attempt stored) { shared with writer := none } none []
  | planned {next : Robot} (plan : clearOnce call.ends shared.path now shared.inflightOf stored.value =
        .write next ended unrecorded) :
      Move me shared (.guarding call attempt stored) shared
        (some (.marking call attempt
          { stored, next, ended, unrecorded, clearedAt := now, legacy })) []
  | marked :
      Move me shared (.marking call attempt write)
        (shared.updateRecords write.unrecorded (fun record => { record with clearing := some me }))
        (some (.patching call attempt write)) []
  | landed (current : write.stored.version = shared.cell.version) :
      Move me shared (.patching call attempt write)
        { shared with cell := shared.cell.write write.next, past := shared.cell :: shared.past }
        (some (.closing call attempt write true false))
        [.wrote me .clear call.epoch .resuming, .ended write.version write.ended]
  | unlanded :
      Move me shared (.patching call attempt write) shared
        (some (.closing call attempt write false conflict)) []
  | closed :
      Move me shared (.closing call attempt write true conflict)
        { shared.close write true with order := { shared.order with stoppedBy := 0 } }
        (some (.ending call write)) []
  | retried :
      Move me shared (.closing call attempt write false conflict)
        { shared.close write false with writer := none } (some (.reading call (attempt + 1))) []
  | failed :
      Move me shared (.closing call attempt write false conflict)
        { shared.close write false with writer := none } none []
  | heldCleared (latest : shared.order.lastStop < call.epoch) :
      Move me shared (.ending call write) { shared with writer := none, held := [] } none
        [.heldCleared write.version write.ended]
  | heldKept : Move me shared (.ending call write) { shared with writer := none } none []

theorem Clearer.step_move {clearer : Clearer}
    (taken : clearer.step me shared act = some (after, next, events)) : clearer.Move me shared after next events := by
  unfold Clearer.step at taken
  split at taken
  · split at taken
    · cases taken
      exact .read
    · cases taken
      exact .unread
  · split at taken <;> try contradiction
    rename_i free
    split at taken
    · cases taken
      exact .superseded
    · cases taken
      exact .locked (not_not.mp free) (Bool.not_eq_true _ ▸ ‹_›)
  · split at taken
    · cases taken
      exact .stood
    · cases taken
      exact .planned ‹_›
  · cases taken
    exact .marked
  · split at taken
    · cases taken
      exact .unlanded
    split at taken
    next patched =>
      cases taken
      obtain ⟨current, rfl⟩ := Shared.patch_eq_some patched
      exact .landed current
    · cases taken
      exact .unlanded
  next landed conflict =>
    cases landed with
    | true =>
      obtain ⟨rfl, rfl, rfl⟩ := taken
      exact .closed
    | false =>
      simp only [Bool.false_eq_true, if_false] at taken
      split at taken
      · cases taken
        exact .retried
      · cases taken
        exact .failed
  · split at taken
    · cases taken
      exact .heldCleared ‹_›
    · cases taken
      exact .heldKept
  · contradiction

inductive Recorder.Move (shared : Shared) :
    Recorder → Shared → Option Recorder → List Event → Prop
  | started {id : String} : Move shared (.tracked id) shared (some (.reading id)) []
  | read {id : String} : Move shared (.reading id) shared (some (.changing id shared.cell)) []
  | repeated {id : String} : Move shared (.reading id) shared (some (.reading id)) []
  | unneeded {id : String} (known : shared.records id = some record) (change : record.change stored.value = .unneeded) :
      Move shared (.changing id stored) shared (some (.answering id)) []
  | appending {id : String} {next : Robot}
      (known : shared.records id = some record) (proceeds : record.waits stored.value = false)
      (change : record.change stored.value = .append next) :
      Move shared (.changing id stored) shared (some (.patching id stored next)) []
  | landed {id : String} {next : Robot} (current : stored.version = shared.cell.version) :
      Move shared (.patching id stored next)
        { shared with cell := shared.cell.write next, past := shared.cell :: shared.past }
        (some (.answering id)) [.recorded id]
  | retried {id : String} {next : Robot} : Move shared (.patching id stored next) shared (some (.reading id)) []
  | answered {id : String} :
      Move shared (.answering id) shared (some (.editReading (.acknowledge id time) (some id))) []
  | editing {next : Robot} (change : edit.change shared.cell.value = some next) :
      Move shared (.editReading edit untracks) shared
        (some (.editPatching edit untracks shared.cell next)) []
  | editRepeated : Move shared (.editReading edit untracks) shared (some (.editReading edit untracks)) []
  | edited {next : Robot} (current : stored.version = shared.cell.version) :
      Move shared (.editPatching edit untracks stored next)
        (Shared.untrack
          { shared with cell := shared.cell.write next, past := shared.cell :: shared.past } untracks)
        none []
  | editRetried {next : Robot} :
      Move shared (.editPatching edit untracks stored next) shared
        (some (.editReading edit untracks)) []
  /-- the write is over or given up: the stop, if it is a stop's record, is no longer tracked -/
  | finished {events : List Event} (full : events = [] ∨ ∃ id, events = [.recordFull id]) :
      Move shared recorder (shared.untrack untracks) none events

theorem Recorder.step_move {recorder : Recorder}
    (taken : recorder.step shared act = some (after, next, events)) : recorder.Move shared after next events := by
  have finished (id : String) : recorder.Move shared (shared.untrackInflight id) none [] :=
    @Recorder.Move.finished shared recorder (some id) [] (.inl rfl)
  unfold Recorder.step at taken
  split at taken
  · split at taken <;> try contradiction
    split at taken
    · cases taken
      exact .started
    · cases taken
      exact finished _
  · split at taken
    · cases taken
      exact finished _
    split at taken <;> cases taken
    · exact .read
    · exact .repeated
    · exact finished _
  · split at taken <;> try contradiction
    split at taken <;> try contradiction
    rename_i proceeds
    split at taken <;> cases taken
    · exact .unneeded ‹_› ‹_›
    · exact @Recorder.Move.finished shared _ (some _) _ (.inr ⟨_, rfl⟩)
    · exact .appending ‹_› (Bool.not_eq_true _ ▸ proceeds) ‹_›
  · split at taken
    · split at taken
      next patched =>
        cases taken
        obtain ⟨current, rfl⟩ := Shared.patch_eq_some patched
        exact .landed current
      · cases taken
        exact .retried
    · cases taken
      exact .retried
    · cases taken
      exact finished _
  · split at taken <;> try contradiction
    split at taken
    · cases taken
      exact finished _
    split at taken
    · cases taken
      exact .answered
    split at taken <;> try contradiction
    cases taken
    exact finished _
  · split at taken
    · cases taken
      exact .finished (.inl rfl)
    split at taken
    · split at taken <;> cases taken
      · exact .editing ‹_›
      · exact .finished (.inl rfl)
    · cases taken
      exact .editRepeated
    · cases taken
      exact .finished (.inl rfl)
  · split at taken
    · split at taken
      next patched =>
        cases taken
        obtain ⟨current, rfl⟩ := Shared.patch_eq_some patched
        exact .edited current
      · cases taken
        exact .editRetried
    · cases taken
      exact .editRetried
    · cases taken
      exact .finished (.inl rfl)
  · contradiction

inductive Move (derive : Option (Robot → List CapabilityStatusEntry)) (me : Nat) (shared : Shared) :
    Thread → Act → Shared → Thread → List Event → Prop
  | triggered :
      Move derive me shared .idle .trigger
        { shared with order := shared.order.issueEstopEpoch true }
        (.write (.looking .trigger (shared.order.issued + 1)))
        [.issued .trigger (shared.order.issued + 1)]
  | confirming :
      Move derive me shared .idle .confirmResume
        { shared with order := shared.order.issueEstopEpoch false }
        (.write (.looking .resume (shared.order.issued + 1)))
        [.issued .resume (shared.order.issued + 1)]
  | clearing {next : Thread}
      (led : next = .clear (.reading { epoch := shared.order.issued + 1, ends } 0) ∨ next = .idle) :
      Move derive me shared .idle (.clearEstop ends)
        { shared with order := shared.order.issueClearEpoch } next
        [.issued .clear (shared.order.issued + 1)]
  | tracked {id : String}
      {copy : Versioned Robot} (fresh : id ∉ shared.seen) :
      Move derive me shared .idle (.track age id scope carrier sentAt)
        { shared with
          seen := id :: shared.seen
          records := Function.update shared.records id
            (some (newStopRecord copy.value id scope carrier sentAt))
          inflight := id :: shared.inflight }
        (.record (.tracked id)) [.tracked me id]
  /-- the first STOPPING arrives, or the adapter answers the EstopClear of an unrecorded stop -/
  | noted {id : String} (entry : ∀ record, (change record).entry = record.entry)
      (clearedAt : ∀ record, (change record).clearedAt = record.clearedAt)
      (clearing : ∀ record, (change record).clearing = record.clearing) :
      Move derive me shared .idle act (shared.updateRecords [id] change) .idle []
  | editing : Move derive me shared .idle act shared (.record (.editReading edit none)) []
  | fencing {id : String} (seen : id ∈ shared.seen) :
      Move derive me shared .idle (.sendFence id) shared (.fence (.sending id)) []
  | registering :
      Move derive me shared .idle .robotRegistered shared
        (.fence (.registering shared.cell.value)) []
  | assigning (found : shared.cached age = some copy) :
      Move derive me shared .idle (.roundTripAssign age) shared (.fence (.registering copy.value)) []
  | wrote {next : Robot} (state : next.estopState = shared.cell.value.estopState)
      (stops : next.stops = shared.cell.value.stops) :
      Move derive me shared .idle (.otherWrite next)
        { shared with cell := shared.cell.write next, past := shared.cell :: shared.past } .idle []
  | told : Move derive me shared .idle act { shared with path, leading } .idle []
  | write {after : Shared} {next : Option Writer}
      {events : List Event} (move : writer.Move derive me shared after next events) :
      Move derive me shared (.write writer) (.write act) after (continueAs .write next) events
  | clear {after : Shared} {next : Option Clearer}
      {events : List Event} (move : clearer.Move me shared after next events) :
      Move derive me shared (.clear clearer) (.clear act) after (continueAs .clear next) events
  | record {after : Shared} {next : Option Recorder}
      {events : List Event} (move : recorder.Move shared after next events) :
      Move derive me shared (.record recorder) (.record act) after (continueAs .record next) events
  | fence : Move derive me shared (.fence fencer) .addHeld (fencer.add shared) .idle []

variable {next : Thread}

theorem begin_move (taken : begin me shared act = some (after, next, events)) :
    Move derive me shared .idle act after next events := by
  unfold begin at taken
  split at taken
  · cases taken
    exact .triggered
  · cases taken
    exact .confirming
  · cases taken
    refine .clearing ?_
    split
    · exact .inl rfl
    · exact .inr rfl
  · split at taken <;> try contradiction
    rename_i fresh
    split at taken <;> try contradiction
    cases taken
    exact .tracked fresh
  · cases taken
    exact .noted (fun _ => rfl) (fun _ => rfl) (fun _ => rfl)
  · cases taken
    exact .editing
  · split at taken
    · cases taken
      exact .noted (fun _ => rfl) (fun _ => rfl) (fun _ => rfl)
    · cases taken
      exact .editing
  · cases taken
    exact .editing
  · split at taken <;> try contradiction
    cases taken
    exact .fencing ‹_›
  · cases taken
    exact .registering
  · split at taken <;> try contradiction
    cases taken
    exact .assigning ‹_›
  · split at taken <;> try contradiction
    rename_i kept
    cases taken
    exact .wrote kept.1 kept.2
  · cases taken
    exact .told
  · cases taken
    exact .told
  · contradiction

theorem proceed_eq_some
    (taken : proceed wrap result = some (after, next, events)) :
    ∃ call, result = some (after, call, events) ∧ next = continueAs wrap call := by
  match result, taken with
  | some (_, call, _), rfl => exact ⟨call, rfl, rfl⟩

theorem dispatch_move
    (taken : (dispatchers derive).step me shared thread act = some (after, next, events)) :
    Move derive me shared thread act after next events := by
  simp only [dispatchers, dispatch] at taken
  split at taken
  · exact begin_move taken
  · obtain ⟨_, moved, rfl⟩ := proceed_eq_some taken
    exact .write (Writer.step_move moved)
  · obtain ⟨_, moved, rfl⟩ := proceed_eq_some taken
    exact .clear (Clearer.step_move moved)
  · obtain ⟨_, moved, rfl⟩ := proceed_eq_some taken
    exact .record (Recorder.step_move moved)
  · cases taken
    exact .fence
  · contradiction

end Swarmada.Safety
