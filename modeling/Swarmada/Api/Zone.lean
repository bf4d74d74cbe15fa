import Swarmada.Api.Robot

namespace Swarmada.Api

structure ZoneEstopPolicy where
  propagateToChildren : Option Bool := none
deriving DecidableEq, Repr

structure FleetZone where
  name : String
  uid : String := ""
  parentZone : String := ""
  annotations : List (String × String) := []
  finalizers : List String := []
  deleting : Bool := false
  estopPolicy : Option ZoneEstopPolicy := none
deriving DecidableEq, Repr

structure SwarmadaConfig where
  name : String
  uid : String := ""
  annotations : List (String × String) := []
deriving DecidableEq, Repr

def ZoneEstopPolicy.propagatesToChildren (policy : ZoneEstopPolicy) : Bool :=
  policy.propagateToChildren.getD true

def propagatesDown (zone : FleetZone) : Bool :=
  match zone.estopPolicy with
  | none => true
  | some policy => policy.propagatesToChildren

/-- A stop in force or pending: the trigger, or the processed marker that stands until
the clear has been applied. -/
def inForce (annotations : List (String × String)) : Bool :=
  (annotations.lookup triggerAnnotation).isSome || (annotations.lookup processedAnnotation).isSome

def pendingOn (annotations : List (String × String)) : Bool :=
  (annotations.lookup triggerAnnotation).isSome && (annotations.lookup processedAnnotation).isNone

def FleetZone.carries (zone : FleetZone) : Bool := inForce zone.annotations

def FleetZone.pending (zone : FleetZone) : Bool := pendingOn zone.annotations

end Swarmada.Api
