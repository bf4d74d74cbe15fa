import Mathlib.Data.List.Basic
import Swarmada.Audit.Log

namespace Swarmada.Audit

open Text

variable {digest : Digest} {entries entries' : List Entry} {entry : Entry} {prev : String} {seq : Nat}

def Chained (digest : Digest) : String → Nat → List Entry → Prop
  | _, _, [] => True
  | prev, seq, entry :: entries =>
    entry.sequenceNumber = seq + 1 ∧ entry.chainHash = computeChainHash digest prev entry ∧
      Chained digest entry.chainHash (seq + 1) entries

def lastHash (prev : String) (entries : List Entry) : String := (entries.getLast?.map Entry.chainHash).getD prev

theorem verifyFrom_ok {res : VerifyResult} :
    (verifyFrom digest entries prev seq res).ok = true ↔ res.ok = true ∧ Chained digest prev seq entries := by
  induction entries generalizing prev seq res with
  | nil => simp [verifyFrom, Chained]
  | cons entry entries ih =>
    rw [verifyFrom, ih, Chained]
    by_cases number : entry.sequenceNumber = seq + 1
    · by_cases hash : computeChainHash digest prev entry = entry.chainHash
      · simp [number, hash]
      · have other : ¬ entry.chainHash = computeChainHash digest prev entry := Ne.symm hash
        simp [number, hash, other]
    · simp only [ne_eq, number, not_false_eq_true, if_true, false_and, and_false, iff_false]
      split <;> simp

theorem isPrefixOf_chainHash (prev : String) (entry : Entry) :
    "sha256:".toList.isPrefixOf (computeChainHash digest prev entry).toList = true := by
  rw [computeChainHash, String.toList_append, List.isPrefixOf_iff_prefix]
  exact List.prefix_append _ _

theorem verify_ok : (verify digest entries).ok = true ↔ Chained digest genesisHash 0 entries := by
  cases entries with
  | nil => simp [verify, verifyFrom, Chained]
  | cons first entries =>
    have walked := @verifyFrom_ok digest (first :: entries) genesisHash 0 { entries := (first :: entries).length }
    rw [verify]
    constructor
    · intro ok
      split at ok
      · exact (walked.1 ok).2
      · cases ok
    intro chained
    have begins : "sha256:".toList.isPrefixOf first.chainHash.toList = true := by
      rw [chained.2.1]
      exact isPrefixOf_chainHash _ _
    rw [if_pos begins]
    exact walked.2 ⟨rfl, chained⟩

theorem chained_append : Chained digest prev seq (entries ++ [entry]) ↔
    Chained digest prev seq entries ∧ entry.sequenceNumber = seq + entries.length + 1 ∧
      entry.chainHash = computeChainHash digest (lastHash prev entries) entry := by
  induction entries generalizing prev seq with
  | nil => simp [Chained, lastHash]
  | cons first entries ih =>
    have last : lastHash first.chainHash entries = lastHash prev (first :: entries) := by
      cases entries with
      | nil => rfl
      | cons => simp [lastHash, List.getLast?_cons]
    have count : seq + 1 + entries.length + 1 = seq + (first :: entries).length + 1 := by
      rw [List.length_cons]
      omega
    rw [List.cons_append, Chained, ih, last, count, Chained]
    simp only [and_assoc]

def Digest.Injective (digest : Digest) : Prop :=
  ∀ prev prev' content content', digest prev content = digest prev' content' → prev = prev' ∧ content = content'

theorem computeChainHash_inj (injective : digest.Injective)
    (same : computeChainHash digest prev entry = computeChainHash digest prev' entry')
    (hashes : entry.chainHash = entry'.chainHash) : prev = prev' ∧ entry = entry' := by
  have texts : digest prev { entry with chainHash := "" }.marshal = digest prev' { entry' with chainHash := "" }.marshal := by
    have lists := congrArg String.toList same
    rw [computeChainHash, computeChainHash, String.toList_append, String.toList_append] at lists
    exact String.toList_inj.mp (List.append_cancel_left lists)
  obtain ⟨prevs, contents⟩ := injective _ _ _ _ texts
  have contents : ({ entry with chainHash := "" } : Entry) = { entry' with chainHash := "" } := by
    have longer : { entry with chainHash := "" }.marshal ++ [] = { entry' with chainHash := "" }.marshal ++ [] := by
      rw [contents]
    exact (Entry.marshal_inj longer).1
  refine ⟨prevs, ?_⟩
  cases entry
  simp_all

theorem chained_inj (injective : digest.Injective) (chained : Chained digest genesisHash 0 entries)
    (chained' : Chained digest genesisHash 0 entries')
    (same : entries.getLast?.map Entry.chainHash = entries'.getLast?.map Entry.chainHash) : entries = entries' := by
  induction entries using List.reverseRecOn generalizing entries' with
  | nil => exact (List.getLast?_eq_none_iff.1 (Option.map_eq_none_iff.1 same.symm)).symm
  | append_singleton entries entry ih =>
    rcases List.eq_nil_or_concat' entries' with rfl | ⟨entries', entry', rfl⟩
    · simp at same
    obtain ⟨chained, _, hash⟩ := chained_append.1 chained
    obtain ⟨init', _, hash'⟩ := chained_append.1 chained'
    have hashes : entry.chainHash = entry'.chainHash := by simpa using same
    obtain ⟨prevs, rfl⟩ := computeChainHash_inj injective (hash.symm.trans (hashes.trans hash')) hashes
    have counts : entries.length = entries'.length := by omega
    have lasts : entries.getLast?.map Entry.chainHash = entries'.getLast?.map Entry.chainHash := by
      rcases List.eq_nil_or_concat' entries with rfl | ⟨_, _, rfl⟩
      · rw [List.length_eq_zero_iff.1 counts.symm]
      rcases List.eq_nil_or_concat' entries' with rfl | ⟨_, _, rfl⟩
      · simp at counts
      · simpa [lastHash] using prevs
    rw [ih chained init' lasts]

structure Keeps {σ : Type} (append : Entry → σ → σ × Option String) (held : σ → List Entry) : Prop where
  stored : ∀ {entry sink after}, append entry sink = (after, none) → held after = held sink ++ [entry]
  refused : ∀ {entry sink after error}, append entry sink = (after, some error) → held after = held sink

theorem MemorySink.keeps : Keeps MemorySink.append MemorySink.entries where
  stored appended := by
    cases appended
    rfl
  refused appended := by cases appended

def ofNamespace (ns : String) (entries : List Entry) : List Entry := entries.filter fun entry => entry.ns = ns

def after (entries : List Entry) : NsState := { seq := entries.length, prevHash := lastHash genesisHash entries }

theorem chained_seal (version now : String) (entry : Entry) (chained : Chained digest genesisHash 0 entries) :
    Chained digest genesisHash 0 (entries ++ [sealEntry digest version now (after entries) entry]) := by
  refine chained_append.2 ⟨chained, ?_, ?_⟩
  · rw [Nat.zero_add]
    rfl
  · rfl

theorem after_append (entries : List Entry) (entry : Entry) :
    after (entries ++ [entry]) = { seq := (after entries).seq + 1, prevHash := entry.chainHash } := by
  simp [after, lastHash]

theorem ofNamespace_seal (version now : String) (st : NsState) (entry : Entry) (entries : List Entry) :
    ofNamespace entry.ns (entries ++ [sealEntry digest version now st entry]) =
      ofNamespace entry.ns entries ++ [sealEntry digest version now st entry] := by
  simp [ofNamespace, sealEntry]

theorem ofNamespace_other (other : ns ≠ entry.ns) (entries : List Entry) :
    ofNamespace ns (entries ++ [sealEntry digest version now st entry]) = ofNamespace ns entries := by
  simp [ofNamespace, sealEntry, Ne.symm other]

section Recorded

variable {σ : Type} {append : Entry → σ → σ × Option String} {held : σ → List Entry}

def recordAll (digest : Digest) (append : Entry → σ → σ × Option String) (calls : List (String × Entry)) (log : Log σ) :
    Log σ :=
  calls.foldl (fun log call => (log.record digest append call.1 call.2).1) log

def Continues (digest : Digest) (held : σ → List Entry) (log : Log σ) : Prop :=
  ∀ ns, Chained digest genesisHash 0 (ofNamespace ns (held log.sink)) ∧
    log.position ns = after (ofNamespace ns (held log.sink))

theorem record_continues (keeps : Keeps append held) (now : String) (entry : Entry)
    (continues : Continues digest held log) : Continues digest held (log.record digest append now entry).1 := by
  intro ns
  obtain ⟨chained, position⟩ := continues ns
  rcases appended : append (sealEntry digest log.version now (log.position entry.ns) entry) log.sink with ⟨_, _ | _⟩
  · rw [Log.record_stored digest appended]
    simp only [Log.position_update, keeps.stored appended]
    by_cases own : ns = entry.ns
    · subst own
      rw [position, ofNamespace_seal, if_pos rfl]
      exact ⟨chained_seal _ _ _ chained, (after_append _ _).symm⟩
    · rw [ofNamespace_other own, if_neg own]
      exact ⟨chained, position⟩
  · rw [Log.record_refused digest appended]
    simp only [Log.position_update, keeps.refused appended]
    refine ⟨chained, ?_⟩
    by_cases own : ns = entry.ns
    · rw [if_pos own, ← own, position]
    · rw [if_neg own, position]

theorem recordAll_continues (keeps : Keeps append held) (calls : List (String × Entry))
    (continues : Continues digest held log) : Continues digest held (recordAll digest append calls log) := by
  induction calls generalizing log with
  | nil => exact continues
  | cons call calls ih => exact ih (record_continues keeps call.1 call.2 continues)

/-- Two verified lists of one length and one last hash are equal; what Record produced and
anything else with its last hash do not both verify. -/
theorem chain_tamper_evident (injective : digest.Injective) (keeps : Keeps append held) :
    (∀ entries entries', entries.length = entries'.length → (verify digest entries).ok = true →
      (verify digest entries').ok = true →
      entries.getLast?.map Entry.chainHash = entries'.getLast?.map Entry.chainHash → entries = entries') ∧
    ∀ sink version calls ns, held sink = [] →
      let produced := ofNamespace ns (held (recordAll digest append calls (.new sink version)).sink)
      (verify digest produced).ok = true ∧
        ∀ tampered, tampered ≠ produced →
          tampered.getLast?.map Entry.chainHash = produced.getLast?.map Entry.chainHash →
          (verify digest tampered).ok = false := by
  constructor
  · intro entries entries' _ ok ok' same
    exact chained_inj injective (verify_ok.1 ok) (verify_ok.1 ok') same
  intro sink version calls ns empty produced
  have fresh : Continues digest held (.new sink version) := by
    intro ns
    have nothing : ofNamespace ns (held (Log.new sink version).sink) = [] := by
      rw [show (Log.new sink version).sink = sink from rfl, empty]
      rfl
    rw [nothing]
    exact ⟨trivial, rfl⟩
  have chained := (recordAll_continues keeps calls fresh ns).1
  refine ⟨verify_ok.2 chained, ?_⟩
  intro tampered differs same
  rw [← Bool.not_eq_true, verify_ok]
  exact fun other => differs (chained_inj injective other chained same)

end Recorded

def plain : Digest := fun prev content => String.ofList (Json.string prev ++ content)

theorem plain_injective : plain.Injective := by
  intro prev prev' content content' same
  exact Json.string_inj (String.ofList_injective same)

def opened : Entry where
  eventType := "ESTOP_TRIGGERED"
  ns := "floor"
  actor := { type := "user", identity := "operator" }
  resource := { kind := "FleetZone", ns := "floor", name := "cell" }
  action := "estop"
  outcome := "Allowed"

def openedLog : List Entry :=
  ofNamespace "floor" (recordAll plain MemorySink.append [("t", opened)] (.new {} "v1")).sink.entries

theorem chain_tamper_evident_insertion : (verify plain (opened :: openedLog)).ok = false := by
  refine ((chain_tamper_evident plain_injective MemorySink.keeps).2 {} "v1" [("t", opened)] "floor" rfl).2 _ ?_ ?_
  · change opened :: openedLog ≠ openedLog
    exact List.cons_ne_self _ _
  rfl

end Swarmada.Audit
