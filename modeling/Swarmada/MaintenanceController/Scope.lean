import Swarmada.Api.ZoneMaintenance
import Swarmada.Estopscope.Moves

namespace Swarmada.MaintenanceController

open Api Estopscope

def zmAncestorWalkCap : Nat := 64

def zmExpansionDepthCap : Nat := 8

structure ZmScope where
  namespaceWide : Bool := false
  zones : List String := []
  unresolved : List UnresolvedMember := []
deriving DecidableEq, Repr

def zoneNamed (zones : List CompositeZone) (name : String) : Option CompositeZone :=
  zones.find? (fun zone => zone.name = name)

/-- The zones `name` is composed of, and the members that do not resolve.  `path` has the
zones above `name` on this path, and `left` is how many more edges the bound admits. -/
def expandMembers (all : List CompositeZone) : Nat → List String → String → List String × List UnresolvedMember
  | left, path, name =>
    if name ∈ path then ([], [{ name, reason := .cycle }])
    else
      match left with
      | 0 => ([], [{ name, reason := .depthExceeded }])
      | left + 1 =>
        match zoneNamed all name with
        | none => ([name], if path = [] then [] else [{ name, reason := .notFound }])
        | some zone =>
          let members := zone.memberZones.map (expandMembers all left (name :: path))
          (name :: members.flatMap Prod.fst, members.flatMap Prod.snd)

def resolveScope (all : List CompositeZone) (scope : ZoneMaintenanceScope) : ZmScope :=
  match scope with
  | .namespace => { namespaceWide := true }
  | .zone zoneName =>
    if zoneName = "" then {}
    else
      let (zones, unresolved) := expandMembers all (zmExpansionDepthCap + 1) [] zoneName
      { zones, unresolved }

def describeUnresolved (members : List UnresolvedMember) : String :=
  ", ".intercalate ((members.map fun member => member.name ++ ": " ++ member.reason.text).insertionSort (· ≤ ·))

def underZones (all : List CompositeZone) (targets : List String) : Nat → String → Bool
  | 0, _ => false
  | left + 1, zone =>
    if zone = "" then false
    else if zone ∈ targets then true
    else
      match zoneNamed all zone with
      | none => false
      | some found => underZones all targets left found.parentZone

def robotInScope (all : List CompositeZone) (scope : ZmScope) (robot : FleetRobot) : Bool :=
  scope.namespaceWide || (scope.zones ≠ [] && underZones all scope.zones zmAncestorWalkCap (reportedZone robot.toRobot))

def covers (all : List CompositeZone) (window : ZoneMaintenance) (robot : FleetRobot) : Bool :=
  robotInScope all (resolveScope all window.spec.scope) robot

/-- A member of a member is in scope, and so is a zone below it. -/
example :
    covers
      [{ name := "site", memberZones := ["hall"] }, { name := "hall", memberZones := ["dock", "lost"] },
       { name := "dock" }, { name := "bay", parentZone := "dock" }]
      { name := "w", spec := { scope := .zone "site" } }
      { ns := "plant", name := "r1", zone := "bay" } = true := by
  decide +kernel

end Swarmada.MaintenanceController
