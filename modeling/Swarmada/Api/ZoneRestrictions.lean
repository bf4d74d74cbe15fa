import Swarmada.Api.Zone

namespace Swarmada.Api

inductive ZoneRestrictionMode where
  | denied | required | limited
deriving DecidableEq, Repr

inductive ZoneRestrictionAxis where
  | entry | capability | operating
deriving DecidableEq, Repr

def ZoneRestrictionAxis.text : ZoneRestrictionAxis → String
  | .entry => "Entry"
  | .capability => "Capability"
  | .operating => "Operating"

structure ZoneEntryRestriction where
  mode : ZoneRestrictionMode
  reason : String := ""
deriving DecidableEq, Repr

structure ZoneCapabilityRestriction where
  name : String
  mode : ZoneRestrictionMode
  reason : String := ""
deriving DecidableEq, Repr

structure ZoneOperatingRestriction where
  subject : String
  mode : ZoneRestrictionMode
  max : String := ""
  allowed : List String := []
  reason : String := ""
deriving DecidableEq, Repr

structure ZoneRestrictions where
  entry : Option ZoneEntryRestriction := none
  capabilities : List ZoneCapabilityRestriction := []
  operating : List ZoneOperatingRestriction := []
deriving DecidableEq, Repr

structure EffectiveZoneRestriction where
  axis : ZoneRestrictionAxis
  subject : String := ""
  mode : ZoneRestrictionMode
  max : String := ""
  allowed : Option (List String) := none
  reason : String := ""
  inheritedFrom : String
deriving DecidableEq, Repr

def EffectiveZoneRestriction.encoded (rule : EffectiveZoneRestriction) : EffectiveZoneRestriction :=
  { rule with allowed := if rule.allowed = some [] then none else rule.allowed }

structure ZoneSpec where
  parentZone : String := ""
  restrictions : Option ZoneRestrictions := none
deriving DecidableEq, Repr

/-- A zone without its status. -/
structure Zone where
  name : String
  generation : Nat := 1
  spec : ZoneSpec := {}
deriving DecidableEq, Repr

structure Condition where
  status : Bool
  reason : String
  message : String
deriving DecidableEq, Repr

structure ZoneStatus where
  /-- `status.restrictions.effective`; `none` until a first reconcile has published it -/
  restrictions : Option (List EffectiveZoneRestriction) := none
  restrictionsResolved : Option Condition := none
  restrictionsConsistent : Option Condition := none
deriving DecidableEq, Repr

end Swarmada.Api
