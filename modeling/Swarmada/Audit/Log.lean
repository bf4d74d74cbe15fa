import Mathlib.Logic.Function.Basic
import Swarmada.Audit.Entry

/-! # The hash-chained audit log

Each entry's hash covers the hash before it and the entry's own content, one chain for each
namespace.
-/

namespace Swarmada.Audit

def genesisHash : String := "sha256:0000000000000000000000000000000000000000000000000000000000000000"

def logVersion : String := "1"

abbrev Digest := String → List Char → String

variable (digest : Digest)

def computeChainHash (prev : String) (entry : Entry) : String :=
  "sha256:" ++ digest prev { entry with chainHash := "" }.marshal

structure VerifyResult where
  ok : Bool := true
  entries : Nat
  sequenceGaps : Nat := 0
  hashMismatches : Nat := 0
  genesisOK : Bool := true
deriving DecidableEq, Repr

def verifyFrom : List Entry → String → Nat → VerifyResult → VerifyResult
  | [], _, _, res => res
  | entry :: entries, prev, expectedSeq, res =>
    -- after a gap the count goes on from the number found
    let res : VerifyResult :=
      if entry.sequenceNumber ≠ expectedSeq + 1 then { res with sequenceGaps := res.sequenceGaps + 1, ok := false }
      else res
    let res : VerifyResult :=
      if computeChainHash digest prev entry ≠ entry.chainHash then
        { res with hashMismatches := res.hashMismatches + 1, ok := false }
      else res
    verifyFrom entries entry.chainHash entry.sequenceNumber res

def verify (entries : List Entry) : VerifyResult :=
  let res := verifyFrom digest entries genesisHash 0 { entries := entries.length }
  match entries with
  | [] => res
  | first :: _ =>
    if "sha256:".toList.isPrefixOf first.chainHash.toList then res else { res with genesisOK := false, ok := false }

structure NsState where
  seq : Nat := 0
  prevHash : String := genesisHash
deriving DecidableEq, Repr

structure Log (σ : Type) where
  sink : σ
  state : String → Option NsState := fun _ => none
  version : String

variable {σ : Type}

def Log.new (sink : σ) (swarmadaVersion : String) : Log σ where
  sink := sink
  version := if swarmadaVersion = "" then "v0.1.0" else swarmadaVersion

def Log.position (log : Log σ) (ns : String) : NsState := (log.state ns).getD {}

def sealEntry (version now : String) (st : NsState) (entry : Entry) : Entry :=
  let sealed : Entry := { entry with
    sequenceNumber := st.seq + 1
    eventTime := if entry.eventTime = "" then now else entry.eventTime
    logVersion := logVersion
    swarmadaVersion := version }
  { sealed with chainHash := computeChainHash digest st.prevHash sealed }

def Log.record (append : Entry → σ → σ × Option String) (now : String) (entry : Entry) (log : Log σ) :
    Log σ × Except String Entry :=
  let st := log.position entry.ns
  let sealed := sealEntry digest log.version now st entry
  match append sealed log.sink with
  -- roll back: the chain never advanced
  | (sink, some error) => ({ log with sink := sink, state := Function.update log.state entry.ns (some st) }, .error error)
  | (sink, none) =>
    ({ log with
        sink := sink
        state := Function.update log.state entry.ns (some { seq := st.seq + 1, prevHash := sealed.chainHash }) },
      .ok sealed)

section

variable {append : Entry → σ → σ × Option String} {now : String} {entry : Entry} {log : Log σ} {sink : σ}

theorem Log.record_stored
    (appended : append (sealEntry digest log.version now (log.position entry.ns) entry) log.sink = (sink, none)) :
    log.record digest append now entry =
      ({ log with
          sink := sink
          state := Function.update log.state entry.ns (some
            { seq := (log.position entry.ns).seq + 1
              prevHash := (sealEntry digest log.version now (log.position entry.ns) entry).chainHash }) },
        .ok (sealEntry digest log.version now (log.position entry.ns) entry)) := by
  simp only [Log.record, appended]

theorem Log.record_refused
    (appended : append (sealEntry digest log.version now (log.position entry.ns) entry) log.sink = (sink, some error)) :
    log.record digest append now entry =
      ({ log with sink := sink, state := Function.update log.state entry.ns (some (log.position entry.ns)) }, .error error) := by
  simp only [Log.record, appended]

theorem Log.position_update (log : Log σ) (sink : σ) (st : NsState) (ns ns' : String) :
    Log.position { log with sink := sink, state := Function.update log.state ns (some st) } ns' =
      if ns' = ns then st else log.position ns' := by
  by_cases own : ns' = ns
  · subst own
    simp [Log.position]
  · simp [Log.position, own]

end

def Log.resume (tail : Except String (String → Option Entry)) (log : Log σ) : Log σ × Option String :=
  match tail with
  | .error error => (log, some ("reading audit chain tail: " ++ error))
  | .ok tail =>
    ({ log with
        state := fun ns =>
          match tail ns with
          | some entry => some { seq := entry.sequenceNumber, prevHash := entry.chainHash }
          | none => log.state ns },
      none)

def keepHighest (tail : String → Option Entry) (entry : Entry) : String → Option Entry :=
  match tail entry.ns with
  | some current =>
    if current.sequenceNumber < entry.sequenceNumber then Function.update tail entry.ns (some entry) else tail
  | none => Function.update tail entry.ns (some entry)

structure MemorySink where
  entries : List Entry := []

def MemorySink.append (entry : Entry) (sink : MemorySink) : MemorySink × Option String :=
  ({ entries := sink.entries ++ [entry] }, none)

def MemorySink.forNamespace (sink : MemorySink) (ns : String) : List Entry :=
  sink.entries.filter fun entry => entry.ns = ns

end Swarmada.Audit
