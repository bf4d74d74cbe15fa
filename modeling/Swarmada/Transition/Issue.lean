import Swarmada.Transition.Machine

/-! # Numbers issued in order

Callers ask for a number again and again.  A call begins, takes a number above every number
taken before, and hands it out some time later, or never.  The numbers handed out are then
distinct, and a call that begins after another one handed out its number gets a larger one.
-/

namespace Swarmada.Transition

universe u

inductive Issued (ε : Type u) where
  | began (caller : Nat)
  | handed (caller number : Nat)
  | other (event : ε)
deriving DecidableEq

namespace Issued

variable {ε : Type u}

def begins (caller : Nat) : Issued ε → Bool
  | .began someone => someone = caller
  | _ => false

/-- The history up to the beginning of the caller's last call. -/
def beforeCall (caller : Nat) (history : List (Issued ε)) : List (Issued ε) :=
  (history.dropWhile fun event => !begins caller event).tail

def InOrder (older : List (Issued ε)) : Issued ε → Prop
  | .handed caller number =>
    (∀ someone earlier, .handed someone earlier ∈ older → earlier ≠ number) ∧
    ∀ someone earlier, .handed someone earlier ∈ beforeCall caller older → earlier < number
  | _ => True

theorem beforeCall_cons
    (runs : begins caller event = false) : beforeCall caller (event :: history) = beforeCall caller history := by
  simp [beforeCall, runs]

theorem mem_of_beforeCall
    (member : event ∈ beforeCall caller history) : event ∈ history :=
  (List.dropWhile_suffix _).subset (List.mem_of_mem_tail member)

end Issued

open Issued

variable {ε : Type u}

/-- `high` is the highest number taken, and `taken` says which caller has a number that it
has not handed out yet. -/
structure Issuing (high : Nat) (taken : Nat → Option Nat) (history : List (Issued ε)) : Prop where
  handed_le : ∀ caller number, .handed caller number ∈ history → number ≤ high
  taken_le : ∀ caller number, taken caller = some number → number ≤ high
  taken_new : ∀ caller number, taken caller = some number →
    ∀ someone earlier, .handed someone earlier ∈ history → earlier ≠ number
  taken_apart : ∀ caller other number, taken caller = some number → taken other = some number → caller = other
  taken_above : ∀ caller number, taken caller = some number →
    ∀ someone earlier, .handed someone earlier ∈ beforeCall caller history → earlier < number
  ordered : Always InOrder history

namespace Issuing

variable {high : Nat} {taken : Nat → Option Nat} {history : List (Issued ε)} {me number : Nat}

theorem start (nothing : ∀ caller, taken caller = none) (high : Nat) : Issuing high taken ([] : List (Issued ε)) := by
  constructor <;> simp [nothing, Always]

variable (issuing : Issuing high taken history)
include issuing

/-- A caller gives up, and the number it took is lost. -/
theorem drop (me : Nat) : Issuing high (Function.update taken me none) history := by
  have still {caller number : Nat} (has : Function.update taken me none caller = some number) :
      taken caller = some number := by
    by_cases own : caller = me
    · simp [own] at has
    · rwa [Function.update_of_ne own] at has
  exact ⟨issuing.handed_le, fun caller number has => issuing.taken_le caller number (still has),
    fun caller number has => issuing.taken_new caller number (still has),
    fun caller other number has same => issuing.taken_apart caller other number (still has) (still same),
    fun caller number has => issuing.taken_above caller number (still has), issuing.ordered⟩

/-- A caller takes a number above every one before. -/
theorem take (above : high < number) : Issuing number (Function.update taken me (some number)) history := by
  have cases_ {caller taken_ : Nat} (has : Function.update taken me (some number) caller = some taken_) :
      caller = me ∧ taken_ = number ∨ caller ≠ me ∧ taken caller = some taken_ := by
    by_cases own : caller = me
    · left
      simp only [own, Function.update_self, Option.some.injEq] at has
      exact ⟨own, has.symm⟩
    · right
      rw [Function.update_of_ne own] at has
      exact ⟨own, has⟩
  have handedBelow {someone earlier : Nat} (member : .handed someone earlier ∈ history) : earlier < number :=
    Nat.lt_of_le_of_lt (issuing.handed_le someone earlier member) above
  refine ⟨fun caller earlier member => Nat.le_of_lt (handedBelow member), fun caller earlier has => ?_,
    fun caller earlier has someone before member => ?_, fun caller other earlier has same => ?_,
    fun caller earlier has someone before member => ?_, issuing.ordered⟩
  · rcases cases_ has with ⟨-, rfl⟩ | ⟨-, old⟩
    · exact Nat.le_refl _
    · exact Nat.le_of_lt (Nat.lt_of_le_of_lt (issuing.taken_le caller earlier old) above)
  · rcases cases_ has with ⟨-, rfl⟩ | ⟨-, old⟩
    · exact Nat.ne_of_lt (handedBelow member)
    · exact issuing.taken_new caller earlier old someone before member
  · rcases cases_ has with ⟨rfl, rfl⟩ | ⟨-, old⟩ <;> rcases cases_ same with ⟨rfl, fresh⟩ | ⟨-, old'⟩
    · rfl
    · exact absurd (issuing.taken_le other _ old') (Nat.not_le_of_lt above)
    · subst fresh
      exact absurd (issuing.taken_le caller _ old) (Nat.not_le_of_lt above)
    · exact issuing.taken_apart caller other earlier old old'
  · rcases cases_ has with ⟨-, rfl⟩ | ⟨-, old⟩
    · exact handedBelow (mem_of_beforeCall member)
    · exact issuing.taken_above caller earlier old someone before member

/-- The highest number may jump. -/
theorem raise (above : high ≤ higher) : Issuing higher taken history :=
  { issuing with
    handed_le := fun caller number member => Nat.le_trans (issuing.handed_le caller number member) above
    taken_le := fun caller number has => Nat.le_trans (issuing.taken_le caller number has) above }

theorem begin_ (free : taken me = none) : Issuing high taken (.began me :: history) := by
  refine ⟨fun caller number member => issuing.handed_le caller number (by simpa using member), issuing.taken_le,
    fun caller number has someone earlier member =>
      issuing.taken_new caller number has someone earlier (by simpa using member),
    issuing.taken_apart, fun caller number has someone earlier member => ?_, trivial, issuing.ordered⟩
  have other : begins caller (.began me : Issued ε) = false := by
    refine decide_eq_false fun same => ?_
    rw [← same, free] at has
    contradiction
  rw [beforeCall_cons other] at member
  exact issuing.taken_above caller number has someone earlier member

theorem note (event : ε) : Issuing high taken (.other event :: history) := by
  refine ⟨fun caller number member => issuing.handed_le caller number (by simpa using member), issuing.taken_le,
    fun caller number has someone earlier member =>
      issuing.taken_new caller number has someone earlier (by simpa using member),
    issuing.taken_apart, fun caller number has someone earlier member => ?_, trivial, issuing.ordered⟩
  exact issuing.taken_above caller number has someone earlier member

theorem hand (has : taken me = some number) :
    Issuing high (Function.update taken me none) (.handed me number :: history) := by
  have rest := issuing.drop me
  refine ⟨fun caller earlier member => ?_, rest.taken_le, fun caller earlier other someone before member => ?_,
    rest.taken_apart, fun caller earlier other someone before member => ?_,
    ⟨fun someone earlier member => issuing.taken_new me number has someone earlier member,
      fun someone earlier member => issuing.taken_above me number has someone earlier member⟩, issuing.ordered⟩
  · rcases List.mem_cons.mp member with same | old
    · cases same
      exact issuing.taken_le me number has
    · exact issuing.handed_le caller earlier old
  · rcases List.mem_cons.mp member with same | old
    · cases same
      rintro rfl
      by_cases own : caller = me
      · simp [own] at other
      · rw [Function.update_of_ne own] at other
        exact own (issuing.taken_apart caller me _ other has)
    · exact rest.taken_new caller earlier other someone before old
  · rw [beforeCall_cons rfl] at member
    exact rest.taken_above caller earlier other someone before member

end Issuing

end Swarmada.Transition
