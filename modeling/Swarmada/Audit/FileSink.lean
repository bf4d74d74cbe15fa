import Swarmada.Audit.Log
import Swarmada.Estopscope.Holder
import Swarmada.Transition.Machine

/-! # The audit file

Entries are appended as lines of JSON.  A write can stop after any part of a line, a sync can
fail after all of it, and the process can end at any point and resume from the file.
-/

namespace Swarmada.Audit

open Estopscope Transition

structure FileSink where
  file : List Char := []
  err : Option String := none
  closed : Bool := false
deriving DecidableEq

inductive Fault where
  | write (written : Nat) (error : String)
  | sync (error : String)
deriving DecidableEq

def line (entry : Entry) : List Char := entry.marshal ++ ['\n']

def FileSink.written (fault : Option Fault) (entry : Entry) (sink : FileSink) : List Char :=
  if sink.closed ∨ sink.err ≠ none then []
  else
    match fault with
    | some (.write written _) => (line entry).take written
    | _ => line entry

def FileSink.append (fault : Option Fault) (entry : Entry) (sink : FileSink) : FileSink × Option String :=
  let grown := { sink with file := sink.file ++ sink.written fault entry }
  if sink.closed then (grown, some "audit FileSink is closed")
  else
    match sink.err with
    | some error => (grown, some ("writing audit entry: " ++ error))
    | none =>
      match fault with
      | some (.write _ error) => ({ grown with err := some error }, some ("writing audit entry: " ++ error))
      | some (.sync error) => (grown, some ("fsync audit log: " ++ error))
      | none => (grown, none)

inductive Decoded where
  | eof
  | value (entry : Entry) (rest : List Char)
  | malformed (error : String)

structure Decoder where
  unmarshal : List Char → Option Entry
  decode : List Char → Decoded

def lines : List Char → List (List Char)
  | [] => []
  | c :: text =>
    if c = '\n' then [] :: lines text
    else
      match lines text with
      | [] => [[c]]
      | first :: others => (c :: first) :: others

def highest (decoder : Decoder) (file : List Char) : String → Option Entry :=
  (((lines file).filter fun line => line ≠ []).filterMap decoder.unmarshal).foldl keepHighest fun _ => none

structure Setup where
  digest : Digest
  decoder : Decoder
  path : String
  tooLong : List Char → Bool

def tail (setup : Setup) (unreadable : Option String) (file : List Char) : Except String (String → Option Entry) :=
  match unreadable with
  | some error => .error ("reading audit log " ++ quote setup.path ++ ": " ++ error)
  | none =>
    if (lines file).any setup.tooLong then
      .error ("scanning audit log " ++ quote setup.path ++ ": bufio.Scanner: token too long")
    else .ok (highest setup.decoder file)

def readFrom (setup : Setup) : Nat → List Char → Except String (List Entry)
  | 0, _ => .error ("decoding audit log " ++ quote setup.path ++ ": no progress")
  | fuel + 1, text =>
    match setup.decoder.decode text with
    | .eof => .ok []
    | .malformed error => .error ("decoding audit log " ++ quote setup.path ++ ": " ++ error)
    | .value entry rest =>
      match readFrom setup fuel rest with
      | .ok entries => .ok (entry :: entries)
      | .error error => .error error

/-- Every value takes at least one character of the file. -/
def readEntries (setup : Setup) (file : List Char) : Except String (List Entry) :=
  readFrom setup (file.length + 1) file

structure State where
  log : Log FileSink
  running : Bool := true

inductive Move where
  | record (now : String) (entry : Entry) (fault : Option Fault)
  | restart (version : String) (unreadable : Option String)

/-- A process that cannot resume refuses to start.  A crash inside an append is a write error
and a restart. -/
def step (setup : Setup) (state : State) : Move → Option (State × List Entry)
  | .record now entry fault =>
    if state.running then
      match state.log.record setup.digest (FileSink.append fault) now entry with
      | (log, .ok sealed) => some ({ state with log := log }, [sealed])
      | (log, .error _) => some ({ state with log := log }, [])
    else none
  | .restart version unreadable =>
    let file := state.log.sink.file
    match (Log.new { file := file : FileSink } version).resume (tail setup unreadable file) with
    | (log, none) => some ({ log := log, running := true }, [])
    | (log, some _) => some ({ log := log, running := false }, [])

def process (setup : Setup) : Machine State Move Entry where
  step := step setup

def started (version : String) : State where
  log := .new {} version

end Swarmada.Audit
