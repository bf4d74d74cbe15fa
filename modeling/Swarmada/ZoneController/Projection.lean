import Mathlib.Data.List.Perm.Subperm
import Swarmada.Text.Records
import Swarmada.ZoneController.Restrictions

/-! # The published restrictions of a zone

`reconcileRestrictions` folds the ancestor chain again only when the chain's fingerprint
moved.  The fingerprint is kept in memory; what was published is in the zone's status, and
the write of it can fail.
-/

namespace Swarmada.ZoneController

open Api Estopscope Text

def byName (all : List Zone) (name : String) : Option Zone := all.find? (fun zone => zone.name = name)

def climb (all : List Zone) : Nat → List String → List Zone → Zone → Option (List Zone × String)
  | 0, _, _, _ => none
  | fuel + 1, seen, chain, current =>
    if current.name ∈ seen then some (chain, "parentZone chain revisits zone " ++ quote current.name)
    else if current.spec.parentZone = "" then some (current :: chain, "")
    else
      match byName all current.spec.parentZone with
      | none => some (current :: chain, "zone " ++ quote current.name ++ " names parentZone " ++
          quote current.spec.parentZone ++ ", which does not exist in this namespace")
      | some next => climb all fuel (current.name :: seen) (current :: chain) next

/-- The zone's chain from the root down, and why it does not resolve. -/
def ancestorChain (name : String) (all : List Zone) : List Zone × String :=
  match byName all name with
  | none => ([], "zone " ++ quote name ++ " is not in the namespace listing")
  | some self => (climb all (all.length + 1) [] [] self).getD ([], "")

def restrictionsFingerprint (chain : List Zone) (unresolvable : String) : String :=
  chain.foldl (fun text zone => text ++ "|" ++ zone.name ++ "@" ++ toString zone.generation) unresolvable

def resolvedCondition (unresolvable : String) : Condition :=
  if unresolvable ≠ "" then
    { status := false, reason := "AncestorChainUnresolvable"
      message := "ancestor chain does not resolve (" ++ unresolvable ++ "); restrictions declared above this " ++
        "zone cannot be read, so the zone is not dispatchable until it resolves" }
  else
    { status := true, reason := "Resolved"
      message := "effective restriction set resolved from this zone and its ancestor chain" }

def consistentCondition (contradictions : List ZoneRestrictionContradiction) : Condition :=
  if contradictions = [] then
    { status := true, reason := "Consistent", message := "no subject is both Denied and Required in this zone chain" }
  else
    { status := false, reason := "RestrictionContradiction"
      message := "; ".intercalate (contradictions.map ZoneRestrictionContradiction.text) }

section
variable {ν : Type} [LT ν] [DecidableLT ν] (parseFloat : String → Option ν)

def projection (chain : List Zone × String) : ZoneStatus :=
  let resolved := resolveZoneRestrictions parseFloat chain.1
  { restrictions := some resolved.1
    restrictionsResolved := some (resolvedCondition chain.2)
    restrictionsConsistent := some (consistentCondition resolved.2) }

def reconcileRestrictions (name : String) (all : List Zone) (restrictFP : String) (status : ZoneStatus) :
    String × ZoneStatus :=
  let chain := ancestorChain name all
  let fingerprint := restrictionsFingerprint chain.1 chain.2
  if restrictFP = fingerprint ∧ status.restrictions ≠ none then (fingerprint, status)
  else (fingerprint, projection parseFloat chain)

end

def encodedStatus (status : ZoneStatus) : ZoneStatus :=
  { status with restrictions := status.restrictions.map (List.map EffectiveZoneRestriction.encoded) }

/-- The merge patch from `original` to `next` over the status `present`.  The conditions
are one list and are sent whole, when one of them differs: `conditions` is whether another
condition of the zone does. -/
def mergePatch (conditions : Bool) (original next present : ZoneStatus) : ZoneStatus :=
  let restrictions :=
    if (encodedStatus original).restrictions = (encodedStatus next).restrictions then present.restrictions
    else (encodedStatus next).restrictions
  if conditions ∨ original.restrictionsResolved ≠ next.restrictionsResolved ∨
      original.restrictionsConsistent ≠ next.restrictionsConsistent then
    { restrictions
      restrictionsResolved := next.restrictionsResolved
      restrictionsConsistent := next.restrictionsConsistent }
  else { present with restrictions }

variable {all : List Zone} {name : String} {zone : Zone}

theorem mem_of_byName (found : byName all name = some zone) : zone ∈ all := List.mem_of_find?_eq_some found

theorem byName_ne_none : byName all name ≠ none ↔ ∃ zone ∈ all, zone.name = name := by
  simp [byName]

theorem climb_isSome {fuel : Nat} {seen : List String} {chain : List Zone} {current : Zone} (inside : current ∈ all)
    (known : ∀ earlier ∈ seen, earlier ∈ all.map Zone.name) (distinct : seen.Nodup)
    (enough : all.length < fuel + seen.length) : (climb all fuel seen chain current).isSome := by
  induction fuel generalizing seen chain current with
  | zero =>
    have fits : seen.length ≤ (all.map Zone.name).length := (distinct.subperm known).length_le
    rw [List.length_map] at fits
    omega
  | succ fuel ih =>
    unfold climb
    split
    · rfl
    rename_i fresh
    split
    · rfl
    split
    · rfl
    rename_i next found
    refine ih (mem_of_byName found) ?_ (List.nodup_cons.mpr ⟨fresh, distinct⟩) (by simp; omega)
    intro earlier member
    rcases List.mem_cons.mp member with rfl | before
    · exact List.mem_map_of_mem inside
    · exact known earlier before

/-- What a chain with its text is made of: listed zones, not nothing, and a text that does
not end in a digit. -/
structure Readable (all : List Zone) (chain : List Zone × String) : Prop where
  listed : ∀ zone ∈ chain.1, zone ∈ all
  shown : chain.1 ≠ [] ∨ chain.2 ≠ ""
  ends : ∀ c, chain.2.toList.getLast? = some c → c.isDigit = false

theorem ends_append {text tail : String} (found : tail.toList.getLast? = some last)
    (mark : last.isDigit = false) : ∀ c, (text ++ tail).toList.getLast? = some c → c.isDigit = false := by
  intro c final
  rw [String.toList_append, List.getLast?_append, found] at final
  cases final
  exact mark

theorem getLast_quote (text : String) : (quote text).toList.getLast? = some '"' := by
  simp [quote, List.getLast?_cons]

theorem climb_readable {fuel : Nat} (inside : current ∈ all) (listed : ∀ zone ∈ chain, zone ∈ all)
    (climbed : climb all fuel seen chain current = some result) : Readable all result := by
  induction fuel generalizing seen chain current with
  | zero => contradiction
  | succ fuel ih =>
    have further : ∀ zone ∈ current :: chain, zone ∈ all := List.forall_mem_cons.mpr ⟨inside, listed⟩
    unfold climb at climbed
    split at climbed
    · cases climbed
      exact ⟨listed, .inr (by simp), ends_append (getLast_quote _) (by decide)⟩
    split at climbed
    · cases climbed
      exact ⟨further, .inl (by simp), by simp⟩
    split at climbed
    · cases climbed
      exact ⟨further, .inl (by simp), ends_append rfl (by decide)⟩
    next next found =>
      exact ih (mem_of_byName found) further climbed

theorem ancestorChain_readable (name : String) (all : List Zone) : Readable all (ancestorChain name all) := by
  unfold ancestorChain
  split
  · exact ⟨by simp, .inr (by simp), ends_append rfl (by decide)⟩
  rename_i self found
  have inside := mem_of_byName found
  obtain ⟨result, climbed⟩ := Option.isSome_iff_exists.mp
    (@climb_isSome all (all.length + 1) [] [] self inside (by simp) List.nodup_nil (by simp))
  rw [climbed]
  exact climb_readable inside (by simp) climbed

theorem toList_restrictionsFingerprint : (restrictionsFingerprint chain unresolvable).toList = unresolvable.toList ++
      (chain.map fun zone => (zone.name, zone.generation)).flatMap (record '|' '@') := by
  unfold restrictionsFingerprint
  induction chain generalizing unresolvable with
  | nil => simp
  | cons zone chain ih =>
    rw [List.foldl_cons, ih]
    simp [record, Nat.toString_eq_repr]

theorem restrictionsFingerprint_ne_empty (readable : Readable all chain) :
    restrictionsFingerprint chain.1 chain.2 ≠ "" := by
  intro empty
  have nothing := congrArg String.toList empty
  rw [toList_restrictionsFingerprint] at nothing
  obtain ⟨lead, records⟩ := List.append_eq_nil_iff.mp nothing
  rcases readable.shown with zones | text
  · obtain ⟨first, rest, shape⟩ := List.exists_cons_of_ne_nil zones
    simp [shape, record] at records
  · exact text (String.toList_eq_nil_iff.mp lead)

def validName (name : String) : Bool :=
  name ≠ "" && name.toList.all (fun c => c.isLower || c.isDigit || c = '-' || c = '.')

theorem bar_notMem (valid : validName name = true) : '|' ∉ name.toList := by
  intro member
  obtain ⟨-, characters⟩ := Bool.and_eq_true_iff.mp valid
  exact absurd (List.all_eq_true.mp characters '|' member) (by decide)

def Determined (pool : Zone → Prop) : Prop :=
  ∀ zone, pool zone → ∀ other, pool other → zone.name = other.name → zone.generation = other.generation →
    zone.spec = other.spec

theorem Determined.chain_eq (determined : Determined pool) {chain other : List Zone}
    (inside : ∀ zone ∈ chain, pool zone) (inside' : ∀ zone ∈ other, pool zone)
    (same : (chain.map fun zone => (zone.name, zone.generation)) = other.map fun zone => (zone.name, zone.generation)) :
    chain = other := by
  induction chain generalizing other with
  | nil => exact (List.map_eq_nil_iff.mp same.symm).symm
  | cons zone chain ih =>
    cases other with
    | nil => contradiction
    | cons first =>
      obtain ⟨heads, tails⟩ := List.cons.inj same
      obtain ⟨names, generations⟩ := Prod.mk.inj heads
      have specs := determined zone (inside zone (by simp)) first (inside' first (by simp)) names generations
      have zones : zone = first := by
        cases zone
        simp_all
      rw [zones, ih (fun zone member => inside zone (by simp [member]))
        (fun zone member => inside' zone (by simp [member])) tails]

theorem restrictionsFingerprint_inj (determined : Determined pool)
    (named : ∀ zone, pool zone → validName zone.name = true) {listing other : List Zone}
    (inside : ∀ zone ∈ listing, pool zone) (inside' : ∀ zone ∈ other, pool zone)
    (same : restrictionsFingerprint (ancestorChain name listing).1 (ancestorChain name listing).2 =
      restrictionsFingerprint (ancestorChain name other).1 (ancestorChain name other).2) :
    ancestorChain name listing = ancestorChain name other := by
  have readable := ancestorChain_readable name listing
  have readable' := ancestorChain_readable name other
  have listed : ∀ zone ∈ (ancestorChain name listing).1, pool zone :=
    fun zone member => inside zone (readable.listed zone member)
  have listed' : ∀ zone ∈ (ancestorChain name other).1, pool zone :=
    fun zone member => inside' zone (readable'.listed zone member)
  have texts := congrArg String.toList same
  rw [toList_restrictionsFingerprint, toList_restrictionsFingerprint] at texts
  obtain ⟨leads, records⟩ := records_inj (by decide)
    (List.forall_mem_map.mpr fun zone member => bar_notMem (named zone (listed zone member)))
    (List.forall_mem_map.mpr fun zone member => bar_notMem (named zone (listed' zone member)))
    readable.ends readable'.ends texts
  exact Prod.ext (determined.chain_eq listed listed' records) (String.toList_inj.mp leads)

theorem encoded_encoded (rule : EffectiveZoneRestriction) : rule.encoded.encoded = rule.encoded := by
  unfold EffectiveZoneRestriction.encoded
  split <;> simp_all

theorem encodedStatus_encodedStatus (status : ZoneStatus) :
    encodedStatus (encodedStatus status) = encodedStatus status := by
  have twice : EffectiveZoneRestriction.encoded ∘ EffectiveZoneRestriction.encoded = EffectiveZoneRestriction.encoded :=
    funext encoded_encoded
  simp [encodedStatus, twice]

theorem mergePatch_self {conditions : Bool} {status next : ZoneStatus} (read : encodedStatus status = status) :
    mergePatch conditions status next status = encodedStatus next := by
  have restrictions : (if (encodedStatus status).restrictions = (encodedStatus next).restrictions then
      status.restrictions else (encodedStatus next).restrictions) = (encodedStatus next).restrictions := by
    split
    next same =>
      rw [← same, read]
    · rfl
  unfold mergePatch
  rw [restrictions]
  split
  · rfl
  rename_i same
  simp only [not_or, ne_eq, Decidable.not_not] at same
  rw [same.2.1, same.2.2]
  rfl

end Swarmada.ZoneController
