import Mathlib.Algebra.Order.Ring.Nat
import Swarmada.Api.Lease
import Swarmada.Transition.Issue
import Swarmada.Transition.Pool
import Swarmada.Transition.Revisions

/-! # Leader terms

`Floor.Next` takes the larger of two stored counters, the election Lease's transitions and
the floor Lease, plus one, and writes it back as the floor.  A process leads under a term
only if the term is above every one it led under before.
-/

namespace Swarmada.Leadership

open Api Transition

def floorLeaseName : String := "swarmada-leader-term"

def annotationTermFloor : String := "swarmada.io/leader-term-floor"

def maxFloorAttempts : Nat := 8

/-- This process's hold on leadership.  Terms are counted without a bound: each raises the
larger of the floor and a 32-bit count by one. -/
structure State where
  leading : Bool := false
  term : Nat := 0
deriving DecidableEq

def State.acquire (state : State) (term : Nat) : State × Bool :=
  if state.leading ∨ term = 0 ∨ term ≤ state.term then (state, false) else ({ leading := true, term }, true)

def State.release (state : State) : State := { state with leading := false }

def transitions : Option (Option Int32) → Nat
  | some (some n) => if n > 0 then n.toInt.toNat else 0
  | _ => 0

def floorOf (ns : String) (lease : DecimalAnnotation) : Except String Nat :=
  match lease with
  | .absent => .ok 0
  | .number value => .ok value
  | .text value => .error ("the leader-term floor " ++ ns ++ "/" ++ floorLeaseName ++ " holds " ++ annotationTermFloor ++
      "=\"" ++ value ++ "\", which is not a term; " ++
      "set it to the highest term issued, or delete the annotation only if no higher term was ever issued")

structure Shared where
  election : Option (Option Int32) := none
  floor : Revisions DecimalAnnotation := {}

inductive Call where
  | idle
  | asking (attempt : Nat)
  | counted (attempt transitions : Nat)
  | computed (attempt : Nat) (read : Option (Versioned DecimalAnnotation)) (term : Nat)
  | recorded (term : Nat)
  | returned (term : Nat)
deriving DecidableEq

structure Process where
  call : Call := .idle
  state : State := {}
deriving DecidableEq

/-- What a write came to: `unanswered` landed and was reported as an error. -/
inductive Answer where
  | answered | failed | unanswered
deriving DecidableEq

inductive Act where
  | next
  | readElection (ok : Bool)
  | readFloor (ok : Bool)
  | write (answer : Answer)
  | giveBack
  | acquire
  | release
  | elect (lease : Option (Option Int32))
  | touch
deriving DecidableEq

inductive Note where
  | failed (process : Nat)
  | leads (process term : Nat)
  | released (process : Nat)
deriving DecidableEq

def retry (me attempt : Nat) : Call × List (Issued Note) :=
  if attempt + 1 < maxFloorAttempts then (.asking (attempt + 1), []) else (.idle, [.other (.failed me)])

/-- The processes that ask for terms, lead under them and give leadership up. -/
def processes (ns : String) : Pool Shared Process Act (Issued Note) where
  step me shared process act :=
    match process.call, act with
    | .idle, .next =>
      if process.state.leading then none else some (shared, { process with call := .asking 0 }, [.began me])
    | .asking attempt, .readElection ok =>
      if ok then some (shared, { process with call := .counted attempt (transitions shared.election) }, [])
      else some (shared, { process with call := .idle }, [.other (.failed me)])
    | .counted attempt count, .readFloor ok =>
      if ok then
        match floorOf ns ((shared.floor.stored.map Versioned.value).getD .absent) with
        | .ok floor =>
          some (shared, { process with call := .computed attempt shared.floor.stored (max floor count + 1) }, [])
        | .error _ => some (shared, { process with call := .idle }, [.other (.failed me)])
      else some (shared, { process with call := .idle }, [.other (.failed me)])
    | .computed attempt read term, .write answer =>
      if answer = .failed then some (shared, { process with call := .idle }, [.other (.failed me)])
      else
        match shared.floor.replace read (.number term) with
        | none => some (shared, { process with call := (retry me attempt).1 }, (retry me attempt).2)
        | some raised =>
          if answer = .answered then
            some ({ shared with floor := raised }, { process with call := .recorded term }, [])
          else some ({ shared with floor := raised }, { process with call := .idle }, [.other (.failed me)])
    | .recorded term, .giveBack => some (shared, { process with call := .returned term }, [.handed me term])
    | .returned term, .acquire =>
      let acquired := process.state.acquire term
      some (shared, { call := .idle, state := acquired.1 }, if acquired.2 then [.other (.leads me term)] else [])
    | .idle, .release =>
      if process.state.leading then some (shared, { process with state := process.state.release }, [.other (.released me)])
      else none
    | .idle, .elect lease => some ({ shared with election := lease }, process, [])
    | .idle, .touch =>
      match shared.floor.stored with
      | some present => some ({ shared with floor := shared.floor.put present.value }, process, [])
      | none => none
    | _, _ => none

end Swarmada.Leadership
