import Swarmada.Api.Robot
import Swarmada.Transition.Pool
import Swarmada.Transition.Versioned

/-! # The estop hold record

`status.estopHeldBy` as the writers of the record edit it, each a read and a patch under an optimistic lock,
retried on a conflict.
-/

namespace Swarmada.Estopscope

open Api Transition

/-- The carrier whose stop is recorded, with the fields its entry is written with. -/
abbrev HoldRef := EstopHold

/-- An entry names its carrier by kind and name. -/
def carrierOf (hold : EstopHold) : EstopHoldKind × String := (hold.kind, hold.name)

def HoldRef.names (ref : HoldRef) (entry : EstopHold) : Bool := entry.kind = ref.kind && entry.name = ref.name

def recordHold (ref : HoldRef) (held : List EstopHold) : List EstopHold × Bool :=
  if held.any ref.names then (held, false) else (held ++ [ref], true)

def dropHolds (drop : EstopHold → Bool) (held : List EstopHold) : List EstopHold × Bool :=
  let out := held.filter fun entry => !drop entry
  (out, out.length ≠ held.length)

/-- The record, `status.estopHeldBy`, and the version of the robot. -/
abbrev Holds := Versioned (List EstopHold)

/-- What a call makes of the record; every caller drops by kind and name. -/
inductive Edit where
  | record (ref : HoldRef)
  | drop (selects : EstopHoldKind × String → Bool)

def Edit.apply : Edit → List EstopHold → List EstopHold × Bool
  | .record ref => recordHold ref
  | .drop selects => dropHolds fun entry => selects (carrierOf entry)

inductive Call where
  | reading (edit : Edit) (attempt : Nat)
  | patching (edit : Edit) (attempt : Nat) (read : Holds) (next : List EstopHold)
  | returned

/-- The call's next read or patch, a failure that ends it, or a write of the robot that leaves the record. -/
inductive Act where
  | attempt | fail | touch

def defaultBackoffSteps : Nat := 4

/-- `patchHolds`; an edit is applied when its patch lands, or when it is read to change nothing. -/
def Call.step (cell : Holds) :
    Call → Act → Option (Holds × Call × List Edit)
  | .reading edit attempt, .attempt =>
    let (next, changed) := edit.apply cell.value
    if changed then some (cell, .patching edit attempt cell next, []) else some (cell, .returned, [edit])
  | .patching edit attempt read next, .attempt =>
    match cell.swap read next with
    | some written => some (written, .returned, [edit])
    | none =>
      some (cell, if attempt + 1 < defaultBackoffSteps then .reading edit (attempt + 1) else .returned, [])
  | .returned, .attempt => none
  | _, .fail => some (cell, .returned, [])
  | call, .touch => some (cell.write cell.value, call, [])

def holdWriters : Pool Holds Call Act Edit where
  step _ cell call act := call.step cell act

def calling (start : Holds) (edits : Nat → Edit) : Config Holds Call :=
  ⟨start, fun i => .reading (edits i) 0⟩

def entryOf (held : List EstopHold) (carrier : EstopHoldKind × String) : Option EstopHold :=
  held.find? fun entry => carrierOf entry = carrier

def Edit.names (carrier : EstopHoldKind × String) : Edit → Bool
  | .record ref => carrierOf ref = carrier
  | .drop selects => selects carrier

/-- The entry that the edits, the latest first, leave of one carrier: the record that came first since it was last
dropped. -/
def standing (held : List EstopHold) (carrier : EstopHoldKind × String) : List Edit → Option EstopHold
  | [] => entryOf held carrier
  | .record ref :: older =>
    if carrierOf ref = carrier then (standing held carrier older).or (some ref) else standing held carrier older
  | .drop selects :: older => if selects carrier then none else standing held carrier older

variable {held : List EstopHold} {carrier : EstopHoldKind × String} {edit : Edit} {edits : List Edit}

theorem names_iff {ref : HoldRef} : ref.names entry = true ↔ carrierOf entry = carrierOf ref := by
  simp [HoldRef.names, carrierOf]

theorem entryOf_apply : entryOf (edit.apply held).1 carrier =
    match edit with
    | .record ref => if carrierOf ref = carrier then (entryOf held carrier).or (some ref) else entryOf held carrier
    | .drop selects => if selects carrier then none else entryOf held carrier := by
  cases edit with
  | record =>
    simp only [Edit.apply, recordHold]
    split
    next present =>
      obtain ⟨entry, listed, named⟩ := List.any_eq_true.mp present
      split <;> try rfl
      next same =>
      have found : (entryOf held carrier).isSome = true :=
        List.find?_isSome.mpr ⟨entry, listed, by simpa [same] using names_iff.mp named⟩
      rw [Option.or_of_isSome found]
    next =>
      simp only [entryOf, List.find?_append, List.find?_singleton]
      split <;> simp_all
  | drop =>
    simp only [Edit.apply, dropHolds, entryOf, List.find?_filter]
    split
    next selected =>
      refine List.find?_eq_none.mpr fun entry _ both => ?_
      simp only [Bool.not_eq_true', decide_eq_true_eq] at both
      obtain ⟨kept, rfl⟩ := both
      rw [kept] at selected
      contradiction
    next kept =>
      refine congrArg (held.find? ·) (funext fun entry => ?_)
      by_cases same : carrierOf entry = carrier <;> simp_all

theorem nodup_apply (distinct : (held.map carrierOf).Nodup) : ((edit.apply held).1.map carrierOf).Nodup := by
  cases edit with
  | record =>
    simp only [Edit.apply, recordHold]
    split
    · exact distinct
    next absent =>
    rw [List.map_append, List.nodup_append]
    refine ⟨distinct, List.nodup_singleton _, ?_⟩
    rintro _ listed _ last rfl
    obtain ⟨entry, member, same⟩ := List.mem_map.mp listed
    refine absent (List.any_eq_true.mpr ⟨entry, member, names_iff.mpr ?_⟩)
    simpa [same] using last
  | drop => exact distinct.sublist (List.filter_sublist.map _)

theorem standing_last : match edits.find? (Edit.names carrier) with
    | some (.record _) => (standing held carrier edits).isSome = true
    | some (.drop _) => standing held carrier edits = none
    | none => standing held carrier edits = entryOf held carrier := by
  induction edits with
  | nil => rfl
  | cons edit older ih =>
    cases edit with
    | record ref => by_cases same : carrierOf ref = carrier <;> simp_all [standing, Edit.names]
    | drop selects => by_cases same : selects carrier = true <;> simp_all [standing, Edit.names]

theorem apply_unchanged (same : (edit.apply held).2 = false) : (edit.apply held).1 = held := by
  cases edit with
  | record =>
    simp only [Edit.apply, recordHold] at same ⊢
    split <;> simp_all
  | drop =>
    refine List.filter_eq_self.mpr (List.length_filter_eq_length_iff.mp ?_)
    simpa [Edit.apply, dropHolds] using same

/-- The record is what the edits applied so far made of it. -/
structure Applied (start : List EstopHold) (history : List Edit) (cell : Holds) : Prop where
  distinct : (cell.value.map carrierOf).Nodup
  entries : ∀ carrier, entryOf cell.value carrier = standing start carrier history

/-- A call that patches has read the record at this or an earlier moment. -/
def Call.Reads (cell : Holds) : Call → Prop
  | .patching edit _ read next => read.CopyOf id cell ∧ next = (edit.apply read.value).1
  | _ => True

variable {start cell after : Holds} {call next : Call} {act : Act} {events history : List Edit}

theorem Call.Reads.write (reads : call.Reads cell) (value : List EstopHold) : call.Reads (cell.write value) := by
  cases call with
  | patching => exact ⟨reads.1.write value, reads.2⟩
  | _ => trivial

/-- A step writes the record, and what it writes is what it applies. -/
theorem Call.step_writes (reads : call.Reads cell) (taken : call.step cell act = some (after, next, events)) :
    (after = cell ∨ ∃ value, after = cell.write value) ∧ next.Reads after ∧
      (events = [] ∧ after.value = cell.value ∨ ∃ edit, events = [edit] ∧ after.value = (edit.apply cell.value).1) := by
  unfold step at taken
  split at taken
  next edit attempt =>
    dsimp only at taken
    split at taken <;> cases taken
    · exact ⟨Or.inl rfl, ⟨.refl _ _, rfl⟩, Or.inl ⟨rfl, rfl⟩⟩
    next unchanged =>
      exact ⟨Or.inl rfl, trivial, Or.inr ⟨edit, rfl, (apply_unchanged (by simpa using unchanged)).symm⟩⟩
  next edit attempt read value =>
    split at taken <;> cases taken
    next swapped =>
      obtain ⟨same, rfl⟩ := Versioned.swap_eq_some swapped
      have current : read.value = cell.value := reads.1.same same
      exact ⟨Or.inr ⟨_, rfl⟩, trivial, Or.inr ⟨edit, rfl, by rw [← current]; exact reads.2⟩⟩
    next =>
      refine ⟨Or.inl rfl, ?_, Or.inl ⟨rfl, rfl⟩⟩
      split <;> trivial
  next => contradiction
  next =>
    cases taken
    exact ⟨Or.inl rfl, trivial, Or.inl ⟨rfl, rfl⟩⟩
  next =>
    cases taken
    exact ⟨Or.inr ⟨_, rfl⟩, reads.write _, Or.inl ⟨rfl, rfl⟩⟩

theorem Applied.edited (applied : Applied held history cell) (same : after.value = (edit.apply cell.value).1) :
    Applied held (edit :: history) after where
  distinct := same ▸ nodup_apply applied.distinct
  entries carrier := by
    rw [same, entryOf_apply, applied.entries]
    cases edit <;> rfl

variable {calls : Nat → Edit} {config : Config Holds Call}

theorem record_applied (distinct : (start.value.map carrierOf).Nodup)
    (run : holdWriters.machine.Reaches Machine.unrestricted (calling start calls) history config) :
    Applied start.value history config.shared := by
  refine (Pool.assertions_hold (Applied start.value) (fun _ cell _ call => call.Reads cell) ?_ ?_ ?_ ?_ run).1
  · exact ⟨distinct, fun _ => rfl⟩
  · exact fun _ => trivial
  · intro history config me act shared thread events _ applied reads _ taken
    obtain ⟨-, next, ⟨rfl, same⟩ | ⟨_, rfl, same⟩⟩ := Call.step_writes (reads me) taken
    · exact ⟨⟨same ▸ applied.distinct, same ▸ applied.entries⟩, next⟩
    · exact ⟨applied.edited same, next⟩
  · intro history config me act shared thread events other _ applied reads _ taken _
    obtain ⟨rfl | ⟨value, rfl⟩, -⟩ := Call.step_writes (reads me) taken
    · exact reads other
    · exact (reads other).write value

/-- Whatever the calls interleave, each kind and name stands at most once, and it stands when the last edit applied
to it was a record, with the identity that was recorded first since it was last dropped. -/
theorem holds_follow_last_edit (distinct : (start.value.map carrierOf).Nodup)
    (run : holdWriters.machine.Reaches Machine.unrestricted (calling start calls) history config) :
    (config.shared.value.map carrierOf).Nodup ∧ ∀ carrier,
      entryOf config.shared.value carrier = standing start.value carrier history ∧
      match history.find? (Edit.names carrier) with
      | some (.record _) => (entryOf config.shared.value carrier).isSome = true
      | some (.drop _) => entryOf config.shared.value carrier = none
      | none => entryOf config.shared.value carrier = entryOf start.value carrier := by
  have applied := record_applied distinct run
  refine ⟨applied.distinct, fun carrier => ⟨applied.entries carrier, ?_⟩⟩
  rw [applied.entries carrier]
  exact standing_last

def zoneHold (uid : String) : HoldRef := { kind := .fleetZone, name := "z", uid }

def configHold : HoldRef := { kind := .swarmadaConfig, name := "default" }

/-- The zone's record is overtaken by that of the namespace, and read again. -/
theorem holds_follow_last_edit_conflict :
    ∃ history final, holdWriters.machine.Reaches Machine.unrestricted
        (calling ⟨[], 0⟩ fun | 0 => .record (zoneHold "u1") | _ => .record configHold) history final ∧
      final.shared.value = [configHold, zoneHold "u1"] ∧ (final.shared.value.map carrierOf).Nodup := by
  have ran : (holdWriters.machine.run (calling ⟨[], 0⟩ fun | 0 => .record (zoneHold "u1") | _ => .record configHold, [])
      [(0, .attempt), (1, .attempt), (1, .attempt), (0, .attempt), (0, .attempt), (0, .attempt)]).map
        (·.1.shared.value) = some [configHold, zoneHold "u1"] := by
    decide +kernel
  obtain ⟨final, history, reached, value⟩ := Machine.run_reaches_reading (Machine.permitted_unrestricted _ _ _) ran
  exact ⟨history, final, reached, value, (@holds_follow_last_edit ⟨[], 0⟩ _ _ _ List.nodup_nil reached).1⟩

/-- A zone created again under its name records its stop, and the entry keeps the identity of the one before. -/
theorem recreated_carrier_not_recorded :
    ∃ history final, holdWriters.machine.Reaches Machine.unrestricted
        (calling ⟨[], 0⟩ fun | 0 => .record (zoneHold "u1") | _ => .record (zoneHold "u2")) history final ∧
      history = [.record (zoneHold "u2"), .record (zoneHold "u1")] ∧ final.shared.value = [zoneHold "u1"] := by
  have ran : (holdWriters.machine.run (calling ⟨[], 0⟩ fun | 0 => .record (zoneHold "u1") | _ => .record (zoneHold "u2"), [])
      [(0, .attempt), (0, .attempt), (1, .attempt)]).map (fun last => (last.2, last.1.shared.value)) =
        some ([.record (zoneHold "u2"), .record (zoneHold "u1")], [zoneHold "u1"]) := by
    rfl
  obtain ⟨final, history, reached, value⟩ := Machine.run_reaches_reading (Machine.permitted_unrestricted _ _ _) ran
  exact ⟨history, final, reached, (Prod.mk.inj value).1, (Prod.mk.inj value).2⟩

end Swarmada.Estopscope
