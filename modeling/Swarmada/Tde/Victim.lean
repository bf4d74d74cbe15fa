import Mathlib.Data.List.MinMax
import Mathlib.Data.Prod.Lex
import Mathlib.Data.String.Basic
import Mathlib.Order.OrderDual
import Swarmada.Tde.Engine

namespace Swarmada.Tde

open OrderDual

def Evictable (mayEvict : String → Bool) (entry : ZoneReservation) : Bool :=
  isPreemptibleBand entry.priority && mayEvict entry.actionID

/-- Reserved before Occupied, then the lower band, then the later grant, then the smaller action id. -/
def BetterVictim (a b : ZoneReservation) : Prop :=
  a.state = .reserved ∧ b.state = .occupied ∨ a.state = b.state ∧
    (priorityRank b.priority < priorityRank a.priority ∨ priorityRank a.priority = priorityRank b.priority ∧
      (b.grantedAt < a.grantedAt ∨ a.grantedAt = b.grantedAt ∧ a.actionID < b.actionID))

def victimKey (entry : ZoneReservation) : Bool ×ₗ ℕᵒᵈ ×ₗ ℕᵒᵈ ×ₗ String :=
  toLex (entry.state = .occupied,
    toLex (toDual (priorityRank entry.priority), toLex (toDual entry.grantedAt, entry.actionID)))

variable {mayEvict : String → Bool} {zone : ZoneState} {reservations : List ZoneReservation} {a b : ZoneReservation}

theorem victimKey_lt : victimKey a < victimKey b ↔ BetterVictim a b := by
  simp only [victimKey, BetterVictim, Prod.Lex.toLex_lt_toLex, toDual_lt_toDual, toDual_inj]
  cases a.state <;> cases b.state <;> simp

theorem lessPreemptible_iff : lessPreemptible a b = true ↔ victimKey a < victimKey b := by
  rw [victimKey_lt]
  unfold lessPreemptible BetterVictim
  cases a.state <;> cases b.state <;> simp <;> split_ifs <;> simp_all

theorem actionID_of_key (same : victimKey a = victimKey b) : a.actionID = b.actionID := by
  simp only [victimKey, toLex_inj, Prod.mk.injEq] at same
  exact same.2.2.2

/-- The scan keeps the least of the entries that may be evicted. -/
theorem victimIndex_argmin :
    victimIndex mayEvict reservations =
      (reservations.zipIdx.filter (fun entry => Evictable mayEvict entry.1)).argmin (fun entry => victimKey entry.1) := by
  unfold victimIndex List.argmin
  rw [List.foldl_filter]
  congr 1
  funext best candidate
  by_cases may : Evictable mayEvict candidate.1 = true
  · have admitted : (!isPreemptibleBand candidate.1.priority || !mayEvict candidate.1.actionID) = false := by
      simpa [Evictable] using may
    rw [if_neg (by simp [admitted]), if_pos may]
    cases best with
    | none => rfl
    | some held => simp only [lessPreemptible_iff, List.argAux]
  · have refused : (!isPreemptibleBand candidate.1.priority || !mayEvict candidate.1.actionID) = true := by
      simpa [Evictable, or_iff_not_imp_left] using may
    rw [if_pos refused, if_neg may]

/-- What a preemption does with the zone: the one best victim leaves the list, or nobody may be evicted. -/
def Preempts (mayEvict : String → Bool) (zone : ZoneState) : Option (ZoneReservation × ZoneState) → Prop
  | none => ∀ entry ∈ zone.reservations, Evictable mayEvict entry = false
  | some (victim, left) => Evictable mayEvict victim = true ∧
      (∃ before after, zone.reservations = before ++ victim :: after ∧
        left = { zone with reservations := before ++ after }) ∧
      ∀ other ∈ zone.reservations, Evictable mayEvict other = true → other ≠ victim → BetterVictim victim other

theorem preempt_preempts (distinct : (zone.reservations.map ZoneReservation.actionID).Nodup) :
    Preempts mayEvict zone (preempt mayEvict zone) := by
  unfold preempt
  cases found : victimIndex mayEvict zone.reservations with
  | none =>
    rw [victimIndex_argmin] at found
    intro entry member
    obtain ⟨index, inside, rfl⟩ := List.getElem_of_mem member
    have listed : (zone.reservations[index], index) ∈ zone.reservations.zipIdx := by
      simp [List.mem_zipIdx_iff_getElem?, List.getElem?_eq_getElem inside]
    have empty := List.filter_eq_nil_iff.mp (List.argmin_eq_none.mp found) _ listed
    simpa using empty
  | some victim =>
    rw [victimIndex_argmin] at found
    obtain ⟨chosen, least, -⟩ := List.argmin_eq_some_iff.mp found
    obtain ⟨listed, may⟩ := List.mem_filter.mp chosen
    obtain ⟨inside, here⟩ := List.getElem?_eq_some_iff.mp (List.mem_zipIdx_iff_getElem?.mp listed)
    refine ⟨may, ⟨zone.reservations.take victim.2, zone.reservations.drop (victim.2 + 1), ?_, ?_⟩, ?_⟩
    · rw [← here, List.getElem_cons_drop, List.take_append_drop]
    · rw [List.eraseIdx_eq_take_drop_succ]
    · intro other member admitted apart
      obtain ⟨index, within, rfl⟩ := List.getElem_of_mem member
      have candidate : (zone.reservations[index], index) ∈
          zone.reservations.zipIdx.filter (fun entry => Evictable mayEvict entry.1) := by
        simp [List.mem_zipIdx_iff_getElem?, List.getElem?_eq_getElem within, admitted]
      rw [← victimKey_lt]
      refine (least _ candidate).lt_of_ne fun same => apart ?_
      exact (List.inj_on_of_nodup_map distinct (here ▸ List.getElem_mem inside) member (actionID_of_key same)).symm

/-- One entry leaves the list, the best victim of those that may be evicted, and every order of the list gives the same. -/
theorem preempt_unique_best (mayEvict : String → Bool) (zone : ZoneState)
    (distinct : (zone.reservations.map ZoneReservation.actionID).Nodup) :
    Preempts mayEvict zone (preempt mayEvict zone) ∧
      ∀ shuffled : ZoneState, shuffled.reservations.Perm zone.reservations →
        (preempt mayEvict shuffled).map Prod.fst = (preempt mayEvict zone).map Prod.fst := by
  refine ⟨preempt_preempts distinct, fun shuffled perm => ?_⟩
  have here := @preempt_preempts mayEvict zone distinct
  have there := @preempt_preempts mayEvict shuffled ((perm.map _).nodup_iff.mpr distinct)
  generalize preempt mayEvict zone = evicted at here ⊢
  generalize preempt mayEvict shuffled = moved at there ⊢
  cases evicted with
  | none =>
    cases moved with
    | none => rfl
    | some chosen =>
      obtain ⟨may, ⟨before, after, split, -⟩, -⟩ := there
      have listed : chosen.1 ∈ zone.reservations := perm.mem_iff.mp (by simp [split])
      rw [here _ listed] at may
      contradiction
  | some victim =>
    obtain ⟨may, ⟨before, after, split, -⟩, best⟩ := here
    have listed : victim.1 ∈ zone.reservations := by simp [split]
    cases moved with
    | none =>
      rw [there _ (perm.mem_iff.mpr listed)] at may
      contradiction
    | some chosen =>
      obtain ⟨admitted, ⟨left, right, parts, -⟩, least⟩ := there
      have member : chosen.1 ∈ zone.reservations := perm.mem_iff.mp (by simp [parts])
      refine congrArg some ?_
      by_contra apart
      have first := victimKey_lt.mpr (best _ member admitted apart)
      have second := victimKey_lt.mpr (least _ (perm.mem_iff.mpr listed) may (Ne.symm apart))
      exact lt_asymm first second

def dockHeld : ZoneState where
  reservations :=
    [{ robotID := "r1", actionID := "a1", priority := .normal, state := .occupied, grantedAt := 3 },
      { robotID := "r2", actionID := "a2", priority := .low, state := .reserved, grantedAt := 1 },
      { robotID := "r3", actionID := "a3", priority := .low, state := .reserved, grantedAt := 2 }]

theorem preempt_unique_best_dock :
    (preempt (· ≠ "a3") dockHeld).map (fun taken => taken.1.actionID) = some "a2" ∧
      Preempts (· ≠ "a3") dockHeld (preempt (· ≠ "a3") dockHeld) :=
  ⟨by decide +kernel, (preempt_unique_best _ dockHeld (by decide)).1⟩

end Swarmada.Tde
