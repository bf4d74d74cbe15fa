import Swarmada.Transition.Pool

/-! # Adapter sessions

One adapter identity has one live stream of each kind.  A handler claims its session
from the server, registers its stream with the kind's dispatcher, closes the stream it
replaced and serves; the server's session map and the dispatcher's stream map have
locks of their own.  A handler stands for its session and its writer, so both maps hold
its number.  An unverified stream claims and registers nothing and is left out.
-/

namespace Swarmada.Controlstream

open Transition

inductive StreamKind where
  | control | safety
deriving DecidableEq, Repr

/-- The key of the session maps and of the dispatchers' stream maps: the certificate's
namespace and adapter name, with the kind that says which of the maps. -/
structure StreamKey where
  kind : StreamKind
  ns : String
  adapter : String
deriving DecidableEq, Repr

structure Server where
  sessions : StreamKey → Option Nat := fun _ => none
  streams : StreamKey → Option Nat := fun _ => none
  superseded : Nat → Bool := fun _ => false

variable (server : Server) (key : StreamKey)

namespace Server

def claimIn (handler : Nat) : Server :=
  { server with sessions := Function.update server.sessions key (some handler) }

def releaseIn (handler : Nat) : Server :=
  if server.sessions key = some handler then
    { server with sessions := Function.update server.sessions key none }
  else server

def registerStream (handler : Nat) : Server :=
  { server with streams := Function.update server.streams key (some handler) }

def deregister (handler : Nat) : Server :=
  if server.streams key = some handler then
    { server with streams := Function.update server.streams key none }
  else server

def supersede : Option Nat → Server
  | some replaced => { server with superseded := Function.update server.superseded replaced true }
  | none => server

end Server

inductive Handler where
  | opening
  | claimed (key : StreamKey) (replaced : Option Nat)
  | registered (key : StreamKey) (replaced : Option Nat)
  | serving (key : StreamKey)
  | ended (key : StreamKey)
  | deregistered (key : StreamKey)
  | closed
deriving DecidableEq, Repr

inductive Ending where
  | superseded | lostLeadership | received
deriving DecidableEq, Repr

inductive Act where
  | claim (key : StreamKey)
  | register
  | supersede
  | finish (why : Ending)
  | deregister
  | release
deriving DecidableEq, Repr

def Handler.step (me : Nat) (server : Server) : Handler → Act → Option (Server × Handler × List Empty)
  | .opening, .claim key => some (server.claimIn key me, .claimed key (server.sessions key), [])
  | .claimed key replaced, .register =>
    some (server.registerStream key me, .registered key replaced, [])
  | .registered key replaced, .supersede => some (server.supersede replaced, .serving key, [])
  | .serving key, .finish why =>
    if why = .superseded ∧ server.superseded me = false then none
    else some (server, .ended key, [])
  -- the deferred calls, the last one deferred first
  | .ended key, .deregister => some (server.deregister key me, .deregistered key, [])
  | .deregistered key, .release => some (server.releaseIn key me, .closed, [])
  | _, _ => none

def handlers : Pool Server Handler Act Empty where
  step := Handler.step

def serverStart : Config Server Handler where
  shared := {}
  threads := fun _ => .opening

def Handler.live : Handler → Bool
  | .registered own _ | .serving own => own = key
  | .opening | .claimed .. | .ended .. | .deregistered .. | .closed => false

end Swarmada.Controlstream
