import Mathlib.Algebra.Group.Nat.Defs
import Swarmada.Text.Records

namespace Swarmada.TaskController

open Text

def childName (taskName actionName : String) : String := taskName ++ "-" ++ actionName

def iterationChildName (taskName member : String) (iteration : Nat) : String :=
  if iteration = 0 then childName taskName member else childName taskName member ++ "-i" ++ toString iteration

def compChildName (taskName actionName : String) : String := taskName ++ "-" ++ actionName ++ "-comp"

inductive Purpose
  | iteration (member : String) (number : Nat)
  | compensation (member : String)
deriving DecidableEq, Repr

def Purpose.name (taskName : String) : Purpose → String
  | .iteration member number => iterationChildName taskName member number
  | .compensation member => compChildName taskName member

/-- The purposes a task with these members has children for; an iteration is an `int32`. -/
def Purpose.Of (members : List String) : Purpose → Prop
  | .iteration member number => member ∈ members ∧ number < 2 ^ 31
  | .compensation member => member ∈ members

/-- A FleetAction, with the UID of its controller and what it was generated for. -/
structure OwnedChild where
  name : String
  controller : String
  generatedFor : Purpose

/-- The child the task reads: the object of the name, when the task controls it. -/
def ownedChild (taskName uid : String) (objects : List OwnedChild) (purpose : Purpose) : Option OwnedChild :=
  (objects.find? fun object => object.name = purpose.name taskName).filter fun object => object.controller = uid

/-- No member's name is another's with the ending of a compensation or an iteration. -/
def Apart (members : List String) : Prop :=
  ∀ a ∈ members, ∀ b ∈ members, b ≠ a ++ "-comp" ∧ ∀ number, 0 < number → number < 2 ^ 31 → b ≠ a ++ "-i" ++ toString number

variable {taskName a b : String} {m n : Nat}

theorem toString_toList (n : Nat) : (toString n).toList = Nat.toDigits 10 n := by
  rw [Nat.toString_eq_repr, Nat.toList_repr]

theorem append_right_inj (same : a ++ ending = b ++ ending) : a = b := by
  have texts := congrArg String.toList same
  rw [String.toList_append, String.toList_append] at texts
  exact String.toList_inj.mp (List.append_cancel_right texts)

theorem append_left_inj (same : start ++ a = start ++ b) : a = b := by
  have texts := congrArg String.toList same
  rw [String.toList_append, String.toList_append] at texts
  exact String.toList_inj.mp (List.append_cancel_left texts)

theorem iterated_inj (same : a ++ "-i" ++ toString m = b ++ "-i" ++ toString n) : a = b ∧ m = n := by
  have texts := congrArg String.toList same
  have marked : (a.toList ++ ['-']) ++ 'i' :: Nat.toDigits 10 m = (b.toList ++ ['-']) ++ 'i' :: Nat.toDigits 10 n := by
    simpa using texts
  obtain ⟨names, numbers⟩ := append_cons_inj_last (notMem_toDigits rfl) (notMem_toDigits rfl) marked
  exact ⟨String.toList_inj.mp (List.append_cancel_right names), toDigits_inj numbers⟩

theorem iterated_ne_comp : a ++ "-i" ++ toString m ≠ b ++ "-comp" := by
  intro same
  have texts := congrArg (fun text => text.toList.getLast?) same
  simp only [String.toList_append, toString_toList] at texts
  obtain ⟨c, last⟩ := Option.ne_none_iff_exists'.mp (mt List.getLast?_eq_none_iff.mp (@Nat.toDigits_ne_nil m 10))
  have digit := toDigits_last last
  rw [List.getLast?_append, last] at texts
  have mark : c = 'p' := by simpa [List.getLast?_append] using texts
  rw [mark] at digit
  contradiction

theorem childName_inj (same : childName taskName a = childName taskName b) : a = b := append_left_inj same

theorem compChildName_eq : compChildName taskName a = childName taskName (a ++ "-comp") := by
  rw [compChildName, childName, String.append_assoc]

theorem iterationChildName_eq (started : 0 < n) :
    iterationChildName taskName a n = childName taskName (a ++ "-i" ++ toString n) := by
  rw [iterationChildName, if_neg (Nat.ne_of_gt started), childName, childName]
  simp only [String.append_assoc]

def Purpose.ending : Purpose → String
  | .iteration member number => if number = 0 then member else member ++ "-i" ++ toString number
  | .compensation member => member ++ "-comp"

theorem Purpose.name_eq (purpose : Purpose) : purpose.name taskName = childName taskName purpose.ending := by
  cases purpose with
  | compensation => exact compChildName_eq
  | iteration _ number =>
    by_cases plain : number = 0
    · simp [Purpose.name, Purpose.ending, iterationChildName, plain]
    · rw [Purpose.name, iterationChildName_eq (Nat.pos_of_ne_zero plain), Purpose.ending, if_neg plain]

theorem ending_iteration_inj (apart : Apart members) (aIn : a ∈ members) (bIn : b ∈ members)
    (within : m < 2 ^ 31) (same : (Purpose.iteration a m).ending = (Purpose.iteration b n).ending) (ordered : n ≤ m) :
    a = b ∧ m = n := by
  simp only [Purpose.ending] at same
  by_cases plain : m = 0
  · obtain rfl : n = 0 := by omega
    simpa [plain] using same
  rw [if_neg plain] at same
  by_cases other : n = 0
  · rw [if_pos other] at same
    exact absurd same.symm ((apart a aIn b bIn).2 m (Nat.pos_of_ne_zero plain) within)
  · rw [if_neg other] at same
    exact iterated_inj same

theorem ending_ne_comp (apart : Apart members) (aIn : a ∈ members) (bIn : b ∈ members) :
    (Purpose.iteration a m).ending ≠ (Purpose.compensation b).ending := by
  simp only [Purpose.ending]
  split
  · exact (apart b bIn a aIn).1
  · exact iterated_ne_comp

theorem ending_inj (apart : Apart members) {p q : Purpose} (pOf : p.Of members)
    (qOf : q.Of members) (same : p.ending = q.ending) : p = q := by
  cases p with
  | compensation =>
    cases q with
    | compensation => rw [append_right_inj same]
    | iteration => exact absurd same.symm (ending_ne_comp apart qOf.1 pOf)
  | iteration _ m =>
    cases q with
    | compensation => exact absurd same (ending_ne_comp apart pOf.1 qOf)
    | iteration _ n =>
      rcases Nat.le_total n m with ordered | ordered
      · obtain ⟨rfl, rfl⟩ := ending_iteration_inj apart pOf.1 qOf.1 pOf.2 same ordered
        rfl
      · obtain ⟨rfl, rfl⟩ := ending_iteration_inj apart qOf.1 pOf.1 qOf.2 same.symm ordered
        rfl

/-- A child is read for what it was generated for, and the names are distinct, exactly when no
member is named like another's compensation or iteration. -/
theorem child_names_distinct_iff (taskName uid : String) (members : List String) :
    ((∀ p q : Purpose, p.Of members → q.Of members → p.name taskName = q.name taskName → p = q) ∧
        ∀ objects : List OwnedChild,
          (∀ object ∈ objects, object.controller = uid →
            object.generatedFor.Of members ∧ object.name = object.generatedFor.name taskName) →
          ∀ p : Purpose, p.Of members → ∀ child, ownedChild taskName uid objects p = some child → child.generatedFor = p) ↔
      Apart members := by
  constructor
  · rintro ⟨distinct, _⟩ a aIn b bIn
    constructor
    · rintro rfl
      have clash := distinct (.compensation a) (.iteration (a ++ "-comp") 0) aIn ⟨bIn, by decide⟩
        (by simp [Purpose.name, iterationChildName, compChildName_eq])
      contradiction
    rintro number started within rfl
    have clash := distinct (.iteration a number) (.iteration (a ++ "-i" ++ toString number) 0) ⟨aIn, within⟩
      ⟨bIn, by decide⟩ (iterationChildName_eq started)
    rw [Purpose.iteration.injEq] at clash
    omega
  · intro apart
    have distinct : ∀ p q : Purpose, p.Of members → q.Of members → p.name taskName = q.name taskName → p = q := by
      intro p q pOf qOf same
      rw [p.name_eq, q.name_eq] at same
      exact ending_inj apart pOf qOf (childName_inj same)
    refine ⟨distinct, fun objects generated p pOf child read => ?_⟩
    obtain ⟨found, owned⟩ := Option.filter_eq_some_iff.mp read
    obtain ⟨generatedOf, named⟩ := generated child (List.mem_of_find?_eq_some found) (by simpa using owned)
    have asked : child.name = p.name taskName := by simpa using List.find?_some found
    exact distinct _ _ generatedOf pOf (named.symm.trans asked)

/-- The child of the member `pick-comp` is read as the compensation of `pick`. -/
theorem member_read_as_compensation : (["pick", "pick-comp", "scan", "scan-i1"] : List String).Nodup ∧
      ownedChild "t" "u1" [⟨"t-pick-comp", "u1", .iteration "pick-comp" 0⟩] (.compensation "pick") =
        some ⟨"t-pick-comp", "u1", .iteration "pick-comp" 0⟩ ∧
      (Purpose.iteration "scan" 1).name "t" = (Purpose.iteration "scan-i1" 0).name "t" := by
  refine ⟨by decide, rfl, by decide⟩

end Swarmada.TaskController
