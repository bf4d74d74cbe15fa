import Mathlib.Algebra.Group.Nat.Defs
import Mathlib.Data.List.Basic

/-! # The executor guard

The one decision behind every path that gives an action to a robot or frees a robot from
one.  Times are seconds on one clock, and a zero time is `none`.
-/

namespace Swarmada.Executorguard

def maxLease : Nat := 300

def maxSkew : Nat := 60

def coveredRecheck : Nat := 5

/-- A robot that records the action and is not the one it is bound to. -/
structure Recorder where
  robot : String
  cancelConfirmed : Bool := false
  ended : Bool := false
  covered : String := ""
deriving DecidableEq, Repr

structure Input where
  horizon : Option Nat
  /-- the latest moment the action is known to have re-entered Pending, been created or settled -/
  reference : Option Nat
  recorders : List Recorder
  now : Nat
  skew : Nat
  moveAuthorized : Bool := false
  actionGone : Bool := false
deriving DecidableEq, Repr

structure Decision where
  release : List String := []
  blocked : String := ""
  wait : Nat := 0
  why : String := ""
  stop : String := ""
deriving DecidableEq, Repr

def Decision.dispatchable (d : Decision) : Bool := d.blocked == ""

/-- A stop keeps the record, unless an authorized requeue moves the work. -/
def keepsRecord (covered : String) (moveAuthorized : Bool) : Bool :=
  covered != "" && !moveAuthorized

variable (input : Input)

def Input.dead : Nat :=
  match input.horizon with
  | some horizon => horizon + input.skew
  | none =>
    match input.reference with
    | some reference => reference + (maxLease + input.skew)
    | none => input.now + (maxLease + input.skew)

def Input.leaseDead : Bool := !decide (input.now < input.dead)

def coveredWhy (covered : String) : String :=
  "the robot is under the emergency stop of " ++ covered ++ ": work a stop paused goes to " ++
    "another robot only through a requeue the estop-clear verb on that stop authorizes, or once " ++
    "the stop is cleared"

def Input.decideRecorder (d : Decision) (r : Recorder) : Decision :=
  if keepsRecord r.covered input.moveAuthorized then
    if d.blocked = "" then
      { d with blocked := r.robot, wait := coveredRecheck, stop := r.covered, why := coveredWhy r.covered }
    else d
  else if r.cancelConfirmed then
    { d with release := d.release ++ [r.robot], why := "the adapter acknowledged the cancel" }
  else if r.ended then
    { d with release := d.release ++ [r.robot], why := "the robot reported the action ended" }
  else if input.leaseDead then
    { d with release := d.release ++ [r.robot], why := "the lease is provably dead" }
  else if d.blocked = "" then
    { d with
      blocked := r.robot
      wait := input.dead - input.now + 1
      why :=
        if input.horizon = none then
          "the previous executor's lease horizon is not known; waiting the longest lease the " ++
            "configuration admits plus the clock-skew margin"
        else "the previous executor's lease is not provably dead" }
  else d

/-- Whether the action may be given to a robot now, and which records may be released. -/
def Input.decide : Decision :=
  input.recorders.foldl input.decideRecorder {}

def later (out time : Option Nat) : Option Nat :=
  match time with
  | none => out
  | some t => if out.all (· < t) then some t else out

def latest (times : List (Option Nat)) : Option Nat := times.foldl later none

def deleteLosesKey (robot : String) (input : Input) : Bool × Option Nat :=
  if input.actionGone then (true, none)
  else
    let input := { input with recorders := [{ robot := robot }] }
    if input.decide.dispatchable then (false, none)
    else if input.horizon = none ∧ input.reference = none then (true, none)
    else (true, some (input.now + input.decide.wait))

def generationCeiling : Nat := 2 ^ 62

def seedGeneration (highest now : Nat) : Nat := max highest now

def nextGeneration (highWater previous : Nat) : Nat := max highWater previous + 1

def stopOutcome (stops : List String) : Bool := !stops.isEmpty

def waitsForAPerson (stops : List String) (confirmed leaseDead heldByOperator : Bool) : Bool :=
  !stops.isEmpty && !confirmed && leaseDead && !heldByOperator

def pausedRequeueRuns (covered seen askedUnderThese : Bool) : Bool :=
  !covered || !seen || askedUnderThese

theorem later_le_left (time : Option Nat) (found : out = some low) :
    ∃ kept, later out time = some kept ∧ low ≤ kept := by
  subst found
  cases time with
  | none => exact ⟨low, rfl, Nat.le_refl _⟩
  | some t =>
    by_cases less : low < t
    · exact ⟨t, by simp [later, less], Nat.le_of_lt less⟩
    · exact ⟨low, by simp [later, less], Nat.le_refl _⟩

theorem later_le_right (out : Option Nat) (t : Nat) : ∃ kept, later out (some t) = some kept ∧ t ≤ kept := by
  cases out with
  | none => exact ⟨t, by simp [later], Nat.le_refl _⟩
  | some low =>
    by_cases less : low < t
    · exact ⟨t, by simp [later, less], Nat.le_refl _⟩
    · exact ⟨low, by simp [later, less], Nat.le_of_not_lt less⟩

theorem foldl_later_le {times : List (Option Nat)} {out : Option Nat} {low : Nat} (found : out = some low) :
    ∃ last, times.foldl later out = some last ∧ low ≤ last := by
  induction times generalizing out low with
  | nil => exact ⟨low, found, Nat.le_refl _⟩
  | cons time times ih =>
    obtain ⟨_, grown, above⟩ := later_le_left time found
    obtain ⟨last, reached, bound⟩ := ih grown
    exact ⟨last, reached, Nat.le_trans above bound⟩

theorem le_latest {times : List (Option Nat)} {t : Nat} (member : some t ∈ times) :
    ∃ last, latest times = some last ∧ t ≤ last := by
  suffices general : ∀ out, ∃ last, times.foldl later out = some last ∧ t ≤ last from general none
  induction times with
  | nil => simp at member
  | cons time times ih =>
    intro out
    rcases List.mem_cons.mp member with this | below
    · obtain ⟨_, grown, above⟩ := later_le_right out t
      obtain ⟨last, reached, bound⟩ := @foldl_later_le times _ _ grown
      exact ⟨last, this ▸ reached, Nat.le_trans above bound⟩
    · exact ih below _

def Input.Proved (r : Recorder) : Prop :=
  r.cancelConfirmed = true ∨ r.ended = true ∨ input.leaseDead = true

/-- The loop releases only what is proved, and what it neither releases nor blocks on does
not exist: once it is dispatchable every recorder has its proof. -/
structure Input.Decided (input : Input) (seen : List Recorder) (d : Decision) : Prop where
  released : ∀ name ∈ d.release, ∃ r ∈ seen, r.robot = name ∧ input.Proved r
  proved : d.blocked = "" → ∀ r ∈ seen, r.robot ≠ "" → input.Proved r
  waits : d.wait = 0 → d.blocked = ""

variable {seen : List Recorder}

theorem Input.Decided.grow {input : Input} {d : Decision} (decided : input.Decided seen d) (r : Recorder) :
    ∀ name ∈ d.release, ∃ r' ∈ seen ++ [r], r'.robot = name ∧ input.Proved r' := by
  intro name member
  obtain ⟨found, inSeen, rest⟩ := decided.released name member
  exact ⟨found, List.mem_append_left _ inSeen, rest⟩

theorem Input.Decided.release {input : Input} {d : Decision} {r : Recorder}
    (decided : input.Decided seen d) (proof : input.Proved r) (why : String) :
    input.Decided (seen ++ [r]) { d with release := d.release ++ [r.robot], why := why } := by
  refine ⟨fun name member => ?_, fun free r' member named => ?_, decided.waits⟩
  · rcases List.mem_append.mp member with earlier | this
    · exact decided.grow r name earlier
    · rw [List.mem_singleton] at this
      exact ⟨r, by simp, this.symm, proof⟩
  · rcases List.mem_append.mp member with earlier | this
    · exact decided.proved free r' earlier named
    · rw [List.mem_singleton] at this
      rwa [this]

theorem Input.Decided.block {input : Input} {d : Decision} {r : Recorder}
    (decided : input.Decided seen d) {wait : Nat} (positive : 0 < wait) (why stop : String) :
    input.Decided (seen ++ [r])
      (if d.blocked = "" then { d with blocked := r.robot, wait := wait, why := why, stop := stop } else d) := by
  split
  · refine ⟨decided.grow r, fun free r' member named => ?_, fun none => absurd none (Nat.ne_of_gt positive)⟩
    rcases List.mem_append.mp member with earlier | this
    · exact decided.proved ‹_› r' earlier named
    · rw [List.mem_singleton] at this
      exact absurd (this ▸ free) named
  · exact ⟨decided.grow r, fun free => absurd free ‹_›, decided.waits⟩

theorem Input.Decided.recorder {input : Input} {d : Decision} (decided : input.Decided seen d) (r : Recorder) :
    input.Decided (seen ++ [r]) (input.decideRecorder d r) := by
  unfold decideRecorder
  split
  · exact decided.block (by decide) (coveredWhy r.covered) r.covered
  split
  · exact decided.release (.inl ‹_›) _
  split
  · exact decided.release (.inr (.inl ‹_›)) _
  split
  · exact decided.release (.inr (.inr ‹_›)) _
  · exact decided.block (Nat.succ_pos _) _ d.stop

theorem Input.decided : input.Decided input.recorders input.decide := by
  suffices general : ∀ rest seen d, input.Decided seen d →
      input.Decided (seen ++ rest) (rest.foldl input.decideRecorder d) by
    exact general input.recorders [] {} ⟨by simp, by simp, fun _ => rfl⟩
  intro rest
  induction rest with
  | nil =>
    simpa using decided
  | cons r rest ih =>
    intro seen d decided
    have next := ih (seen ++ [r]) _ (decided.recorder r)
    rwa [List.append_assoc] at next

end Swarmada.Executorguard
