import Swarmada.Api.Robot

namespace Swarmada.Estopscope

open Api

inductive Kind where
  | robot | zone | namespace
deriving DecidableEq, Repr

structure Holder where
  kind : Kind
  name : String
  value : String := ""
  /-- read from `status.estopHeldBy` and not from the zone tree -/
  recorded : Bool := false
  clearing : Bool := false
  orphaned : Bool := false
  pending : Bool := false
deriving DecidableEq, Repr

def quote (text : String) : String := "\"" ++ text ++ "\""

def Holder.describe (holder : Holder) : String :=
  if holder.orphaned then
    let what := if holder.kind = .namespace then "SwarmadaConfig " ++ holder.name
      else "zone " ++ holder.name
    "the estop of " ++ what ++ ", which no longer exists (recorded in status.estopHeldBy)"
  else if holder.clearing then
    if holder.kind = .namespace then
      "the namespace estop (SwarmadaConfig " ++ holder.name ++ "), whose clear is being applied"
    else "the estop on zone " ++ holder.name ++ ", whose clear is being applied"
  else
    match holder.kind with
    | .robot => "its own robot-scope estop (" ++ triggerAnnotation ++ "=" ++ quote holder.value ++ ")"
    | .zone => "the estop on zone " ++ holder.name ++ " (" ++ triggerAnnotation ++ "=" ++
        quote holder.value ++ ")"
    | .namespace => "the namespace estop (SwarmadaConfig " ++ holder.name ++ ", " ++
        triggerAnnotation ++ "=" ++ quote holder.value ++ ")"

def holdKind : EstopHoldKind → Kind
  | .swarmadaConfig => .namespace
  | .fleetZone => .zone

/-- A stop that holds the robot as the robot itself records it: its own trigger
first, then the first entry of `status.estopHeldBy`. -/
def heldOnRecord (robot : Robot) : Option Holder :=
  match robot.trigger with
  | some value => some { kind := .robot, name := robot.name, value }
  | none =>
    robot.estopHeldBy.head?.map fun hold =>
      { kind := holdKind hold.kind, name := hold.name, recorded := true }

end Swarmada.Estopscope
