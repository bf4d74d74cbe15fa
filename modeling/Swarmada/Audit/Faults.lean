import Swarmada.Audit.FileSink
import Swarmada.Audit.TamperEvidence

namespace Swarmada.Audit

open Text Transition

variable {setup : Setup} {entries : List Entry} {entry : Entry} {file text : List Char} {fault : Option Fault}
  {sink : FileSink} {now : String}

structure Decoder.Inverse (decoder : Decoder) : Prop where
  unmarshal : ∀ entry : Entry, decoder.unmarshal entry.marshal = some entry
  value : ∀ (entry : Entry) rest, decoder.decode (entry.marshal ++ rest) = .value entry rest
  newline : ∀ rest, decoder.decode ('\n' :: rest) = decoder.decode rest
  eof : decoder.decode [] = .eof

def fileOf (entries : List Entry) : List Char := entries.flatMap line

theorem fileOf_append (entries : List Entry) (entry : Entry) : fileOf (entries ++ [entry]) = fileOf entries ++ line entry := by
  simp [fileOf]

theorem lines_newline (one : '\n' ∉ before) (text : List Char) :
    lines (before ++ '\n' :: text) = before :: lines text := by
  induction before with
  | nil => simp [lines]
  | cons c before ih =>
    have other : c ≠ '\n' := by
      rintro rfl
      exact one List.mem_cons_self
    have inner : '\n' ∉ before := fun member => one (List.mem_cons_of_mem c member)
    rw [List.cons_append, lines, if_neg other, ih inner]

theorem lines_fileOf (entries : List Entry) : lines (fileOf entries) = entries.map Entry.marshal := by
  induction entries with
  | nil => rfl
  | cons entry entries ih =>
    have first : fileOf (entry :: entries) = entry.marshal ++ '\n' :: fileOf entries := by
      simp [fileOf, line]
    rw [first, lines_newline entry.notMem_marshal, ih, List.map_cons]

variable (inverse : setup.decoder.Inverse)

include inverse in
theorem readFrom_newline (fuel : Nat) (text : List Char) :
    readFrom setup (fuel + 1) ('\n' :: text) = readFrom setup (fuel + 1) text := by
  rw [readFrom, readFrom, inverse.newline]

include inverse in
theorem readFrom_fileOf (entries : List Entry)
    (enough : entries.length ≤ fuel) : readFrom setup (fuel + 1) (fileOf entries) = .ok entries := by
  induction entries generalizing fuel with
  | nil =>
    have nothing : fileOf [] = [] := rfl
    rw [nothing, readFrom, inverse.eof]
  | cons entry entries ih =>
    have first : fileOf (entry :: entries) = entry.marshal ++ '\n' :: fileOf entries := by
      simp [fileOf, line]
    cases fuel with
    | zero => simp at enough
    | succ =>
      rw [first, readFrom, inverse.value]
      simp only [readFrom_newline inverse, ih (Nat.le_of_succ_le_succ enough)]

theorem length_le_fileOf (entries : List Entry) : entries.length ≤ (fileOf entries).length := by
  induction entries with
  | nil => exact Nat.le_refl 0
  | cons entry entries ih =>
    have first : fileOf (entry :: entries) = line entry ++ fileOf entries := List.flatMap_cons
    have nonempty : 0 < (line entry).length := by simp [line]
    rw [first, List.length_cons, List.length_append]
    omega

include inverse in
theorem readEntries_fileOf (entries : List Entry) : readEntries setup (fileOf entries) = .ok entries :=
  readFrom_fileOf inverse entries (length_le_fileOf entries)

def ChainedAll (digest : Digest) (entries : List Entry) : Prop :=
  ∀ ns, Chained digest genesisHash 0 (ofNamespace ns entries)

theorem ofNamespace_append (ns : String) (entries : List Entry) (entry : Entry) :
    ofNamespace ns (entries ++ [entry]) = if entry.ns = ns then ofNamespace ns entries ++ [entry] else ofNamespace ns entries := by
  by_cases own : entry.ns = ns <;> simp [ofNamespace, own]

theorem ChainedAll.init (chained : ChainedAll digest (entries ++ [entry])) : ChainedAll digest entries := by
  intro ns
  have whole := chained ns
  rw [ofNamespace_append] at whole
  split at whole
  · exact (chained_append.1 whole).1
  · exact whole

theorem keepHighest_higher {tail : String → Option Entry}
    (higher : ∀ current, tail entry.ns = some current → current.sequenceNumber < entry.sequenceNumber) :
    keepHighest tail entry = Function.update tail entry.ns (some entry) := by
  unfold keepHighest
  split
  next current found =>
    rw [if_pos (higher current found)]
  · rfl

theorem foldl_keepHighest (chained : ChainedAll digest entries) (ns : String) :
    entries.foldl keepHighest (fun _ => none) ns = (ofNamespace ns entries).getLast? := by
  induction entries using List.reverseRecOn generalizing ns with
  | nil => rfl
  | append_singleton entries entry ih =>
    have before := ih chained.init
    have whole := chained entry.ns
    rw [ofNamespace_append, if_pos rfl] at whole
    obtain ⟨init, number, -⟩ := chained_append.1 whole
    have higher : ∀ current, entries.foldl keepHighest (fun _ => none) entry.ns = some current →
        current.sequenceNumber < entry.sequenceNumber := by
      intro current found
      rw [before entry.ns] at found
      obtain ⟨_, split⟩ := List.getLast?_eq_some_iff.1 found
      rw [split] at init number
      have numbered := (chained_append.1 init).2.1
      rw [number, numbered, List.length_append, List.length_singleton]
      omega
    rw [List.foldl_append, List.foldl_cons, List.foldl_nil, keepHighest_higher higher, ofNamespace_append]
    by_cases own : entry.ns = ns
    · subst own
      rw [Function.update_self, if_pos rfl, List.getLast?_concat]
    · rw [Function.update_of_ne (Ne.symm own), if_neg own, before ns]

include inverse in
theorem highest_fileOf (chained : ChainedAll setup.digest entries) (ns : String) :
    highest setup.decoder (fileOf entries) ns = (ofNamespace ns entries).getLast? := by
  have nonempty : ∀ entry : Entry, entry.marshal ≠ [] := by
    intro entry nothing
    obtain ⟨_, starts⟩ := entry.marshal_cons
    rw [nothing] at starts
    cases starts
  have whole : (entries.map Entry.marshal).filter (fun line => line ≠ []) = entries.map Entry.marshal := by
    rw [List.filter_eq_self]
    intro text member
    obtain ⟨entry, _, rfl⟩ := List.mem_map.1 member
    exact decide_eq_true (nonempty entry)
  have parsed : (entries.map Entry.marshal).filterMap setup.decoder.unmarshal = entries := by
    have reads : setup.decoder.unmarshal ∘ Entry.marshal = some := funext inverse.unmarshal
    rw [List.filterMap_map, reads, List.filterMap_some]
  rw [highest, lines_fileOf, whole, parsed, foldl_keepHighest chained]

def filePosition (decoder : Decoder) (file : List Char) (ns : String) : NsState :=
  match highest decoder file ns with
  | some entry => { seq := entry.sequenceNumber, prevHash := entry.chainHash }
  | none => {}

include inverse in
theorem filePosition_fileOf (chained : ChainedAll setup.digest entries) (ns : String) :
    filePosition setup.decoder (fileOf entries) ns = after (ofNamespace ns entries) := by
  unfold filePosition
  rw [highest_fileOf inverse chained]
  rcases List.eq_nil_or_concat' (ofNamespace ns entries) with nothing | ⟨_, _, split⟩
  · rw [nothing]
    rfl
  have chain := chained ns
  rw [split] at chain ⊢
  rw [List.getLast?_concat, after_append]
  have number := (chained_append.1 chain).2.1
  simp [number, after]

/-- The append writes nothing, or all of the line while the position in memory is the file's. -/
def Whole (setup : Setup) (state : State) : Move → Prop
  | .record now entry fault =>
    let sealed := sealEntry setup.digest state.log.version now (state.log.position entry.ns) entry
    state.log.sink.written fault sealed = [] ∨ state.log.sink.written fault sealed = line sealed ∧
      state.log.position entry.ns = filePosition setup.decoder state.log.sink.file entry.ns
  | .restart _ _ => True

/-- The file holds chains, with every entry that Record returned. -/
structure Kept (digest : Digest) (returned : List Entry) (file : List Char) (entries : List Entry) : Prop where
  holds : file = fileOf entries
  chained : ChainedAll digest entries
  includes : returned.reverse.Sublist entries

theorem append_file {after : FileSink} (appended : sink.append fault entry = (after, result)) :
    after.file = sink.file ++ sink.written fault entry := by
  unfold FileSink.append at appended
  split at appended
  · cases appended
    rfl
  split at appended
  · cases appended
    rfl
  · split at appended <;> (cases appended; rfl)

theorem written_of_stored {after : FileSink} (stored : sink.append fault entry = (after, none)) :
    sink.written fault entry = line entry := by
  unfold FileSink.append at stored
  split at stored
  · cases stored
  rename_i isOpen
  split at stored
  · cases stored
  rename_i fine
  split at stored
  · cases stored
  · cases stored
  · simp [FileSink.written, isOpen, fine]

theorem Kept.grow {digest : Digest} {returned : List Entry} {version : String} {st : NsState}
    (kept : Kept digest returned file entries) (position : st = after (ofNamespace entry.ns entries)) :
    Kept digest returned (file ++ line (sealEntry digest version now st entry))
      (entries ++ [sealEntry digest version now st entry]) where
  holds := by rw [kept.holds, fileOf_append]
  chained := by
    intro ns
    by_cases own : ns = entry.ns
    · subst own
      rw [ofNamespace_seal, position]
      exact chained_seal _ _ _ (kept.chained entry.ns)
    · rw [ofNamespace_other own]
      exact kept.chained ns
  includes := kept.includes.trans (List.sublist_append_left _ _)

theorem step_file (taken : step setup state (.restart version unreadable) = some (next, events)) :
    next.log.sink.file = state.log.sink.file ∧ events = [] := by
  cases found : tail setup unreadable state.log.sink.file with
  | error | ok =>
    simp only [step, Log.resume, found] at taken
    cases taken
    exact ⟨rfl, rfl⟩

include inverse in
theorem step_kept {state next : State}
    (kept : ∃ entries, Kept setup.digest returned state.log.sink.file entries) (whole : Whole setup state move)
    (taken : step setup state move = some (next, events)) :
    ∃ entries, Kept setup.digest (events ++ returned) next.log.sink.file entries := by
  obtain ⟨entries, kept⟩ := kept
  cases move with
  | restart =>
    obtain ⟨file, rfl⟩ := step_file taken
    rw [file]
    exact ⟨entries, kept⟩
  | record now entry fault =>
    simp only [step] at taken
    split at taken
    · rcases appended : FileSink.append fault
          (sealEntry setup.digest state.log.version now (state.log.position entry.ns) entry) state.log.sink with
        ⟨sink, _ | error⟩
      · rw [Log.record_stored setup.digest appended] at taken
        cases taken
        have all := written_of_stored appended
        have grown := append_file appended
        have position : state.log.position entry.ns = after (ofNamespace entry.ns entries) := by
          rcases whole with nothing | ⟨_, same⟩
          · rw [all] at nothing
            simp [line] at nothing
          · rw [same, kept.holds, filePosition_fileOf inverse kept.chained]
        have longer := @Kept.grow entries entry _ now _ _ state.log.version _ kept position
        rw [← all, ← grown] at longer
        refine ⟨_, longer.holds, longer.chained, ?_⟩
        rw [List.singleton_append, List.reverse_cons]
        exact kept.includes.append (List.Sublist.refl _)
      · rw [Log.record_refused setup.digest appended] at taken
        cases taken
        have grown := append_file appended
        rcases whole with nothing | ⟨all, same⟩
        · rw [nothing, List.append_nil] at grown
          exact ⟨entries, grown.trans kept.holds, kept.chained, kept.includes⟩
        rw [kept.holds, filePosition_fileOf inverse kept.chained] at same
        have longer := @Kept.grow entries entry _ now _ _ state.log.version _ kept same
        rw [← all, ← grown] at longer
        exact ⟨_, longer⟩
    · cases taken

include inverse in
theorem reaches_kept (run : (process setup).Reaches (fun _ => Whole setup) (started version) returned state) :
    ∃ entries, Kept setup.digest returned state.log.sink.file entries := by
  refine run.invariant (fun returned state => ∃ entries, Kept setup.digest returned state.log.sink.file entries) ?_ ?_
  · exact ⟨[], rfl, fun _ => trivial, List.nil_sublist _⟩
  · intro _ _ _ _ _ _ kept whole taken
    exact step_kept inverse kept whole taken

theorem audit_chain_survives (inverse : setup.decoder.Inverse) {version : String} {returned : List Entry} {state : State}
    (run : (process setup).Reaches (fun _ => Whole setup) (started version) returned state) :
    ∃ entries, readEntries setup state.log.sink.file = .ok entries ∧
      (∀ ns, (verify setup.digest (ofNamespace ns entries)).ok = true) ∧ returned.reverse.Sublist entries := by
  obtain ⟨entries, kept⟩ := reaches_kept inverse run
  refine ⟨entries, ?_, fun ns => verify_ok.2 (kept.chained ns), kept.includes⟩
  rw [kept.holds, readEntries_fileOf inverse]

def InStep (setup : Setup) (state : State) : Prop :=
  state.running = true → ∀ ns, state.log.position ns = filePosition setup.decoder state.log.sink.file ns

def Clean (setup : Setup) (state : State) : Move → Prop
  | .record now entry (some fault) =>
    state.log.sink.written (some fault)
      (sealEntry setup.digest state.log.version now (state.log.position entry.ns) entry) = []
  | _ => True

theorem restart_inStep
    (taken : step setup state (.restart version unreadable) = some (next, events)) : InStep setup next := by
  intro running ns
  cases found : tail setup unreadable state.log.sink.file with
  | error =>
    simp only [step, Log.resume, found] at taken
    cases taken
    cases running
  | ok last =>
    have same : last = highest setup.decoder state.log.sink.file := by
      unfold tail at found
      split at found
      · cases found
      split at found
      · cases found
      · exact (Except.ok.inj found).symm
    simp only [step, Log.resume, found] at taken
    cases taken
    simp only [Log.position, filePosition, Log.new, same]
    cases highest setup.decoder state.log.sink.file ns with
    | none | some => rfl

theorem written_none (entry : Entry) (sink : FileSink) :
    sink.written none entry = [] ∨ sink.written none entry = line entry := by
  unfold FileSink.written
  split
  · exact .inl rfl
  · exact .inr rfl

theorem written_of_refused {after : FileSink} (refused : sink.append none entry = (after, some error)) :
    sink.written none entry = [] := by
  unfold FileSink.append at refused
  split at refused
  next closed =>
    simp [FileSink.written, closed]
  split at refused
  next failed =>
    simp [FileSink.written, failed]
  · cases refused

theorem clean_whole (inStep : InStep setup state)
    (clean : Clean setup state move) (taken : step setup state move = some (next, events)) : Whole setup state move := by
  cases move with
  | restart => trivial
  | record now entry fault =>
    have running : state.running = true := by
      by_contra stopped
      simp [step, stopped] at taken
    cases fault with
    | some => exact .inl clean
    | none =>
      rcases written_none (sealEntry setup.digest state.log.version now (state.log.position entry.ns) entry)
          state.log.sink with nothing | all
      · exact .inl nothing
      · exact .inr ⟨all, inStep running entry.ns⟩

include inverse in
theorem step_inStep {state next : State}
    (kept : ∃ entries, Kept setup.digest returned state.log.sink.file entries) (inStep : InStep setup state)
    (clean : Clean setup state move) (taken : step setup state move = some (next, events)) : InStep setup next := by
  cases move with
  | restart => exact restart_inStep taken
  | record now entry fault =>
    obtain ⟨entries, kept⟩ := kept
    simp only [step] at taken
    split at taken
    next running =>
      rcases appended : FileSink.append fault
          (sealEntry setup.digest state.log.version now (state.log.position entry.ns) entry) state.log.sink with
        ⟨sink, _ | error⟩
      · rw [Log.record_stored setup.digest appended] at taken
        cases taken
        intro _ ns
        have position : ∀ ns, state.log.position ns = after (ofNamespace ns entries) := by
          intro ns
          rw [inStep running ns, kept.holds, filePosition_fileOf inverse kept.chained]
        have longer := @Kept.grow entries entry _ now _ _ state.log.version _ kept (position entry.ns)
        have file := append_file appended
        rw [written_of_stored appended, longer.holds] at file
        rw [Log.position_update, file, filePosition_fileOf inverse longer.chained]
        by_cases own : ns = entry.ns
        · rw [own, ofNamespace_seal, if_pos rfl, after_append, position]
        · rw [ofNamespace_other own, if_neg own, position]
      · rw [Log.record_refused setup.digest appended] at taken
        cases taken
        intro _ ns
        have nothing : state.log.sink.written fault
            (sealEntry setup.digest state.log.version now (state.log.position entry.ns) entry) = [] := by
          cases fault with
          | none => exact written_of_refused appended
          | some => exact clean
        have file := append_file appended
        rw [nothing, List.append_nil] at file
        rw [Log.position_update, file]
        by_cases own : ns = entry.ns
        · rw [own, if_pos rfl, inStep running]
        · rw [if_neg own, inStep running]
    · cases taken

include inverse in
theorem clean_reaches (run : (process setup).Reaches (fun _ => Clean setup) (started version) returned state) :
    (process setup).Reaches (fun _ => Whole setup) (started version) returned state ∧ InStep setup state := by
  induction run with
  | start => exact ⟨.start, fun _ _ => rfl⟩
  | step before clean taken ih =>
    obtain ⟨reached, inStep⟩ := ih
    exact ⟨.step reached (clean_whole inStep clean taken) taken,
      step_inStep inverse (reaches_kept inverse reached) inStep clean taken⟩

open Classical in
noncomputable def front (text : List Char) : Option (Entry × List Char) :=
  if wrote : ∃ read : Entry × List Char, read.1.marshal ++ read.2 = text then some wrote.choose else none

theorem front_marshal (entry : Entry) (rest : List Char) : front (entry.marshal ++ rest) = some (entry, rest) := by
  have wrote : ∃ read : Entry × List Char, read.1.marshal ++ read.2 = entry.marshal ++ rest := ⟨(entry, rest), rfl⟩
  obtain ⟨same, rests⟩ := Entry.marshal_inj wrote.choose_spec
  rw [front, dif_pos wrote]
  exact congrArg some (Prod.ext same rests)

noncomputable def reader : Decoder where
  unmarshal text := (front text).map Prod.fst
  decode text :=
    match text.dropWhile (· = '\n') with
    | [] => .eof
    | text =>
      match front text with
      | some (entry, rest) => .value entry rest
      | none => .malformed "invalid character"

theorem reader_inverse : reader.Inverse where
  unmarshal entry := by
    have whole := front_marshal entry []
    rw [List.append_nil] at whole
    simp only [reader, whole, Option.map_some]
  value entry rest := by
    obtain ⟨_, starts⟩ := entry.marshal_cons
    have read := front_marshal entry rest
    rw [starts, List.cons_append] at read ⊢
    simp [reader, read]
  newline _ := rfl
  eof := rfl

noncomputable def onDisk : Setup where
  digest := plain
  decoder := reader
  path := "audit.ndjson"
  tooLong := fun _ => false

/-- A line kept by a failed sync, then the same entry again: both have the number 1. -/
theorem kept_line_is_repeated :
    ∃ returned state, (process onDisk).Reaches Machine.unrestricted (started "v1") returned state ∧
      ∃ entries, readEntries onDisk state.log.sink.file = .ok entries ∧
        (verify onDisk.digest (ofNamespace "floor" entries)).ok = false := by
  let sealed := sealEntry plain "v1" "t" {} opened
  have ran : (process onDisk).run (started "v1", [])
      [.record "t" opened (some (.sync "EIO")), .record "t" opened none] = some (_, _) := rfl
  refine ⟨_, _, Machine.run_reaches_from .start (Machine.permitted_unrestricted _ _ _) ran, [sealed, sealed], ?_, ?_⟩
  · change readEntries onDisk (([] ++ line sealed) ++ line sealed) = .ok [sealed, sealed]
    have whole : ([] ++ line sealed) ++ line sealed = fileOf [sealed, sealed] := by simp [fileOf]
    rw [whole, readEntries_fileOf reader_inverse]
  · rw [← Bool.not_eq_true, verify_ok]
    rintro ⟨_, _, number, _⟩
    exact absurd number (by decide)

/-- Recorded after a restart, and again with a write that fails at once. -/
theorem audit_chain_survives_restart :
    ∃ returned state, (process onDisk).Reaches (fun _ => Whole onDisk) (started "v1") returned state ∧
      returned.length = 1 ∧
      ∃ entries, readEntries onDisk state.log.sink.file = .ok entries ∧
        (∀ ns, (verify onDisk.digest (ofNamespace ns entries)).ok = true) ∧ returned.reverse.Sublist entries := by
  have ran : (process onDisk).run (started "v1", [])
      [.restart "v1" none, .record "t" opened none, .record "t" opened (some (.write 0 "EIO"))] = some (_, _) := rfl
  have clean : (process onDisk).Permitted (fun _ => Clean onDisk) (started "v1", [])
      [.restart "v1" none, .record "t" opened none, .record "t" opened (some (.write 0 "EIO"))] :=
    ⟨trivial, trivial, rfl, trivial⟩
  obtain ⟨run, -⟩ := clean_reaches reader_inverse (Machine.run_reaches_from .start clean ran)
  exact ⟨_, _, run, rfl, audit_chain_survives reader_inverse run⟩

/-- Over restarts and failed appends that wrote nothing, a log goes on from the last number and hash in its file. -/
theorem log_follows_file (inverse : setup.decoder.Inverse)
    (run : (process setup).Reaches (fun _ => Clean setup) (started version) returned state) (running : state.running = true) :
    ∃ entries, readEntries setup state.log.sink.file = .ok entries ∧
      ∀ ns, state.log.position ns = after (ofNamespace ns entries) := by
  obtain ⟨whole, inStep⟩ := clean_reaches inverse run
  obtain ⟨entries, kept⟩ := reaches_kept inverse whole
  refine ⟨entries, ?_, fun ns => ?_⟩
  · rw [kept.holds, readEntries_fileOf inverse]
  · rw [inStep running, kept.holds, filePosition_fileOf inverse kept.chained]

theorem log_follows_file_restart : ∃ returned state,
    (process onDisk).Reaches (fun _ => Clean onDisk) (started "v1") returned state ∧
      ∃ entries, readEntries onDisk state.log.sink.file = .ok entries ∧
        ∀ ns, state.log.position ns = after (ofNamespace ns entries) := by
  have ran : (process onDisk).run (started "v1", []) [.restart "v1" none, .record "t" opened none] = some (_, _) := rfl
  have run : (process onDisk).Reaches (fun _ => Clean onDisk) (started "v1") _ _ :=
    Machine.run_reaches_from .start (by exact ⟨trivial, trivial, trivial⟩) ran
  exact ⟨_, _, run, log_follows_file reader_inverse run rfl⟩

end Swarmada.Audit
