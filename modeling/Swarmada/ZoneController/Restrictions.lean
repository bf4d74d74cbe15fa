import Swarmada.Api.ZoneRestrictions
import Swarmada.Estopscope.Holder

/-! # Zone restriction resolution

The fold of an ancestor chain into the rules in force at its end.  `parseFloat` is
`strconv.ParseFloat`, with whatever order its results have.
-/

namespace Swarmada.ZoneController

open Api Estopscope

variable {ν : Type} [LT ν] [DecidableLT ν] (parseFloat : String → Option ν)

structure ZoneRestrictionContradiction where
  axis : ZoneRestrictionAxis
  subject : String
  deniedBy : String
  requiredBy : String
deriving DecidableEq, Repr

def ZoneRestrictionContradiction.text (contradiction : ZoneRestrictionContradiction) : String :=
  let axis := contradiction.axis.text.toLower
  let subject := if contradiction.subject = "" then axis else contradiction.subject
  axis ++ " " ++ quote subject ++ " is Denied by zone " ++ quote contradiction.deniedBy ++
    " and Required by zone " ++ quote contradiction.requiredBy ++ "; resolved to Denied"

def modeRank : ZoneRestrictionMode → Nat
  | .denied => 3
  | .required => 2
  | .limited => 1

/-- The smaller of two decimal bounds.  No bound, and a bound that does not parse, lose to
any other. -/
def tighterMax (a b : String) : String :=
  if a = "" then b
  else if b = "" then a
  else
    match parseFloat a, parseFloat b with
    | none, none => a
    | none, some _ => b
    | some _, none => a
    | some av, some bv => if bv < av then b else a

def intersectAllowed : Option (List String) → Option (List String) → Option (List String)
  | none, b => b
  | some a, none => some a
  | some a, some b => some ((a.filter (· ∈ b)).insertionSort (· ≤ ·))

structure Folded where
  rule : EffectiveZoneRestriction
  deniedBy : Option String := none
  requiredBy : Option String := none
  boundBy : Option String := none
deriving DecidableEq, Repr

def Folded.key (folded : Folded) : ZoneRestrictionAxis × String := (folded.rule.axis, folded.rule.subject)

def reasonFromZone (rule : EffectiveZoneRestriction) (zoneName : String) : String :=
  if rule.inheritedFrom = zoneName then rule.reason else ""

def deny (deniedBy : Option String) (rule : EffectiveZoneRestriction) : EffectiveZoneRestriction :=
  let bare := { rule with max := "", allowed := none }
  let zone := deniedBy.getD ""
  if zone = "" then bare
  else
    let named := { bare with inheritedFrom := zone }
    let reason := reasonFromZone named zone
    if reason = "" then named else { named with reason := reason }

def Folded.merge (zoneName : String) (rule : EffectiveZoneRestriction) (current : Folded) : Folded :=
  let deniedBy := if rule.mode = .denied then current.deniedBy.or (some zoneName) else current.deniedBy
  let requiredBy := if rule.mode = .required then current.requiredBy.or (some zoneName) else current.requiredBy
  let newMax := tighterMax parseFloat current.rule.max rule.max
  let newAllowed := intersectAllowed current.rule.allowed rule.allowed
  -- the zone that narrows a bound is the one to edit to change it
  let boundBy : Option String :=
    if newMax ≠ current.rule.max ∨ newAllowed ≠ current.rule.allowed then some zoneName else current.boundBy
  let bounded : EffectiveZoneRestriction := { current.rule with max := newMax, allowed := newAllowed }
  let moded : EffectiveZoneRestriction :=
    if modeRank rule.mode > modeRank bounded.mode then
      { bounded with mode := rule.mode, reason := rule.reason, inheritedFrom := rule.inheritedFrom }
    else if bounded.mode = .limited ∧ boundBy.getD "" = zoneName then
      { bounded with reason := rule.reason, inheritedFrom := rule.inheritedFrom }
    else bounded
  { rule := if moded.mode = .denied then deny deniedBy moded else moded, deniedBy, requiredBy, boundBy }

def foldRule (zoneName : String) (rule : EffectiveZoneRestriction) (acc : List Folded) : List Folded :=
  if acc.any (fun folded => folded.key = (rule.axis, rule.subject)) then
    acc.map fun folded =>
      if folded.key = (rule.axis, rule.subject) then folded.merge parseFloat zoneName rule else folded
  else
    acc ++ [{ rule
              deniedBy := if rule.mode = .denied then some zoneName else none
              requiredBy := if rule.mode = .required then some zoneName else none }]

/-- The rules the zone declares, in the order they are folded. -/
def declared (zone : Zone) : List EffectiveZoneRestriction :=
  match zone.spec.restrictions with
  | none => []
  | some restrictions =>
    (restrictions.entry.toList.map fun rule =>
      { axis := .entry, mode := rule.mode, reason := rule.reason, inheritedFrom := zone.name }) ++
    (restrictions.capabilities.map fun rule =>
      { axis := .capability, subject := rule.name, mode := rule.mode, reason := rule.reason,
        inheritedFrom := zone.name }) ++
    restrictions.operating.map fun rule =>
      { axis := .operating, subject := rule.subject, mode := rule.mode, max := rule.max,
        allowed := if rule.allowed = [] then none else some rule.allowed, reason := rule.reason,
        inheritedFrom := zone.name }

def foldChain (chain : List Zone) : List Folded :=
  chain.foldl (fun acc zone => (declared zone).foldl (fun acc rule => foldRule parseFloat zone.name rule acc) acc) []

def isSpace (c : Char) : Bool := c.isWhitespace || c = '\x0b' || c = '\x0c' || c = '\u0085' || c = ' '

def trimSpace (text : String) : String :=
  String.ofList ((text.toList.dropWhile isSpace).reverse.dropWhile isSpace).reverse

/-- An allow-list that intersected to the empty one permits nothing, and is a denial. -/
def Folded.settle (folded : Folded) : Folded :=
  if folded.rule.mode = .limited ∧ folded.rule.allowed = some [] then
    let bound := folded.boundBy.getD ""
    let inheritedFrom := if bound = "" then folded.rule.inheritedFrom else bound
    { folded with
      rule := { folded.rule with
        mode := .denied, max := "", allowed := none, inheritedFrom
        reason := trimSpace
          (folded.rule.reason ++ " (no value is permitted by every allow-list in the zone chain)") }
      deniedBy := some inheritedFrom }
  else folded

def Folded.contradiction (folded : Folded) : Option ZoneRestrictionContradiction :=
  match folded.deniedBy, folded.requiredBy with
  | some deniedBy, some requiredBy =>
    some { axis := folded.rule.axis, subject := folded.rule.subject, deniedBy, requiredBy }
  | _, _ => none

def Folded.notAfter (a b : Folded) : Prop :=
  if a.rule.axis = b.rule.axis then a.rule.subject ≤ b.rule.subject else a.rule.axis.text ≤ b.rule.axis.text

instance : DecidableRel Folded.notAfter := fun a b =>
  inferInstanceAs (Decidable
    (if a.rule.axis = b.rule.axis then a.rule.subject ≤ b.rule.subject else a.rule.axis.text ≤ b.rule.axis.text))

/-- The rules in force at the end of a chain that is given from its root down, and the
contradictions in it. -/
def resolveZoneRestrictions (chain : List Zone) : List EffectiveZoneRestriction × List ZoneRestrictionContradiction :=
  let folded := ((foldChain parseFloat chain).map Folded.settle).insertionSort Folded.notAfter
  (folded.map Folded.rule, folded.filterMap Folded.contradiction)

/-- An outer denial stands over what the zones below allow. -/
example :
    (resolveZoneRestrictions String.toNat?
      [{ name := "site",
         spec := { restrictions := some { capabilities := [{ name := "wash", mode := .denied, reason := "wet" }] } } },
       { name := "cell",
         spec := { parentZone := "site",
                   restrictions := some { capabilities := [{ name := "wash", mode := .required }] } } }]) =
      ([{ axis := .capability, subject := "wash", mode := .denied, reason := "wet", inheritedFrom := "site" }],
        [{ axis := .capability, subject := "wash", deniedBy := "site", requiredBy := "cell" }]) := by
  decide +kernel

end Swarmada.ZoneController
