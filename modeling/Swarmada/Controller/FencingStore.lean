import Swarmada.Api.Lease
import Swarmada.Executorguard.Guard
import Swarmada.Transition.Issue
import Swarmada.Transition.Pool
import Swarmada.Transition.Revisions

/-! # The generation store

One Lease per namespace holds the highest assignment generation issued in it.  A process
that assigns an action first reserves the next generation there.  Generations stay below
`generationCeiling`, so the source's 64-bit arithmetic is exact on them.
-/

namespace Swarmada.FencingStore

open Api Executorguard Transition

def fencingToken (generation : Int) : Nat := if generation < 0 then 0 else generation.toNat

/-- A token above the largest 64-bit integer stands for no generation. -/
def generationFromToken (token : Nat) : Option Int := if token > 2 ^ 63 - 1 then none else some token

inductive MintError where
  | storeBehind (mark floor : Nat)
  | atCeiling (next : Nat)
  | conflict
  | failed
deriving DecidableEq

def MintError.text : MintError → String
  | .storeBehind mark floor =>
    "the generation store read " ++ toString mark ++ ", below " ++ toString floor ++
      " already issued in the namespace; it was raised to " ++ toString floor ++ " and the assignment is tried again"
  | .atCeiling next =>
    "the next assignment generation, " ++ toString next ++ ", would pass the ceiling " ++ toString generationCeiling ++
      ": nothing more is assigned in this namespace"
  | .conflict => "conflict"
  | .failed => "the API server failed"

/-- The actions of the namespace with `status.assignmentGeneration`. -/
abbrev Actions := List (String × Nat)

/-- The lowest mark the store may hold: the highest generation a listed action has, and the
highest this process has issued. -/
def generationFloor (minted : Nat) (listed : Actions) : Nat :=
  listed.foldl (fun highest action => max highest action.2) minted

/-- The mark in the Lease; a missing, malformed or negative one is unreadable. -/
def readMark : DecimalAnnotation → Option Nat
  | .number mark => some mark
  | _ => none

inductive Plan where
  | refuse (error : MintError)
  | raise (mark floor : Nat)
  | reserve (next : Nat)
deriving DecidableEq

def reserveBelowCeiling (mark previous : Nat) : Plan :=
  let next := nextGeneration mark previous
  if next > generationCeiling then .refuse (.atCeiling next) else .reserve next

def plan (floor previous now : Nat) (store : Option DecimalAnnotation) : Plan :=
  match store.bind readMark with
  | none => reserveBelowCeiling (seedGeneration floor now) previous
  | some mark =>
    if mark > generationCeiling then .refuse (.atCeiling mark)
    else if mark < floor then .raise mark floor
    else reserveBelowCeiling mark previous

structure Shared where
  store : Revisions DecimalAnnotation := {}
  actions : Actions := []
  past : List Actions := []

inductive Call where
  | idle
  | began (action : String) (previous : Nat)
  | listed (action : String) (previous : Nat) (listing : Actions)
  | read (action : String) (previous : Nat) (listing : Actions) (store : Option (Versioned DecimalAnnotation))
  | reserved (action : String) (generation : Nat)
  | minted (action : String) (generation : Nat)
deriving DecidableEq

structure Process where
  call : Call := .idle
  minted : Nat := 0
deriving DecidableEq

/-- What a write came to: `unanswered` landed and was reported as an error. -/
inductive Answer where
  | answered | failed | unanswered
deriving DecidableEq

inductive Act where
  /-- an assignment of the action begins, on the action as it was `age` writes ago -/
  | mint (action : String) (age : Nat)
  | list (age : Nat)
  | get
  | write (now : Nat) (answer : Answer)
  | giveBack
  | commit (landed : Bool)
  | fail
  | deleteStore
  | garbleStore (text : String)
  | createAction (name : String)
  | deleteAction (name : String)
deriving DecidableEq

inductive Note where
  | refused (process : Nat) (error : MintError)
deriving DecidableEq

def Shared.setActions (shared : Shared) (actions : Actions) : Shared :=
  { shared with actions, past := shared.actions :: shared.past }

def writeMark (shared : Shared) (read : Option (Versioned DecimalAnnotation)) (mark : Nat) : Except MintError Shared :=
  match shared.store.replace read (.number mark) with
  | some store => .ok { shared with store }
  -- a Lease that is gone by now is not found, which is no conflict
  | none => .error (if shared.store.stored.isNone then .failed else .conflict)

def processes : Pool Shared Process Act (Issued Note) where
  step me shared process act :=
    let refuse (shared : Shared) (error : MintError) :=
      some (shared, { process with call := .idle }, [.other (.refused me error)])
    match process.call, act with
    | .idle, .mint action age =>
      match (shared.actions :: shared.past)[age]? with
      | some actions =>
        some (shared, { process with call := .began action ((actions.lookup action).getD 0) }, [.began me])
      | none => none
    | .began action previous, .list age =>
      match (shared.actions :: shared.past)[age]? with
      | some listing => some (shared, { process with call := .listed action previous listing }, [])
      | none => none
    | .began _ _, .fail => refuse shared .failed
    | .listed action previous listing, .get =>
      some (shared, { process with call := .read action previous listing shared.store.stored }, [])
    | .listed _ _ _, .fail => refuse shared .failed
    | .read action previous listing store, .write now answer =>
      match plan (generationFloor process.minted listing) previous now (store.map Versioned.value) with
      | .refuse error => refuse shared error
      | .raise mark floor =>
        match if answer = .failed then .error .failed else writeMark shared store floor with
        | .error error => refuse shared error
        | .ok after => refuse after (if answer = .answered then .storeBehind mark floor else .failed)
      | .reserve next =>
        match if answer = .failed then .error .failed else writeMark shared store next with
        | .error error => refuse shared error
        | .ok after =>
          if answer = .answered then
            some (after, { call := .reserved action next, minted := max process.minted next }, [])
          else refuse after .failed
    | .reserved action generation, .giveBack =>
      some (shared, { process with call := .minted action generation }, [.handed me generation])
    | .minted action generation, .commit landed =>
      let committed := shared.actions.map fun held => if held.1 = action then (held.1, generation) else held
      some (if landed then shared.setActions committed else shared, { process with call := .idle }, [])
    | .idle, .deleteStore => some ({ shared with store := shared.store.remove }, process, [])
    | .idle, .garbleStore text => some ({ shared with store := shared.store.put (.text text) }, process, [])
    | .idle, .createAction name => some (shared.setActions ((name, 0) :: shared.actions), process, [])
    | .idle, .deleteAction name =>
      some (shared.setActions (shared.actions.filter fun held => held.1 ≠ name), process, [])
    | _, _ => none

end Swarmada.FencingStore
