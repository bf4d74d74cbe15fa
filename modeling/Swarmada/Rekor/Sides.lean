import Swarmada.Rekor.Verify

namespace Swarmada.Rekor

open Hash

variable {δ κ : Type} {lib : Primitives δ κ} {fuel more index size index' size' : Nat} {taken rest : List Bool}

theorem shift_mono (le : fuel ≤ more) (ends : shift fuel index size = some (index', size')) :
    shift more index size = some (index', size') := by
  induction more generalizing fuel index size with
  | zero =>
    obtain rfl : fuel = 0 := by omega
    exact ends
  | succ more ih =>
    rw [shift]
    cases fuel with
    | zero =>
      rw [shift] at ends
      split at ends
      · cases ends
      rename_i odd
      rw [if_neg odd]
      exact ends
    | succ =>
      rw [shift] at ends
      split at ends
      next even =>
        rw [if_pos even]
        exact ih (by omega) ends
      next odd =>
        rw [if_neg odd]
        exact ends

theorem shift_zero (fuel size : Nat) : shift fuel 0 size = none := by
  induction fuel generalizing size with
  | zero => rfl
  | succ fuel ih => exact ih (size / 2)

theorem shift_odd (fuel : Nat) (odd : index % 2 = 1) (size : Nat) : shift fuel index size = some (index, size) := by
  cases fuel <;> rw [shift, if_neg (by omega)]

theorem shift_lone (level : Nat) (odd : index % 2 = 1) :
    shift (level + 1) (2 ^ (level + 1) * index) (2 ^ (level + 1) * index + 1) = some (index, index) := by
  have halves : ∀ level size, size = 2 ^ level * index → shift level size size = some (index, index) := by
    intro level
    induction level with
    | zero =>
      rintro _ rfl
      rw [Nat.pow_zero, Nat.one_mul]
      exact shift_odd 0 odd index
    | succ level ih =>
      rintro _ rfl
      have double : 2 ^ (level + 1) * index = 2 * (2 ^ level * index) := by
        rw [Nat.pow_succ', Nat.mul_assoc]
      rw [shift, if_pos (by omega)]
      exact ih _ (by omega)
  have double : 2 ^ (level + 1) * index = 2 * (2 ^ level * index) := by
    rw [Nat.pow_succ', Nat.mul_assoc]
  have same : (2 ^ (level + 1) * index + 1) / 2 = 2 ^ (level + 1) * index / 2 := by omega
  rw [shift, if_pos (by omega), same]
  exact halves level _ (by omega)

inductive Follows : List Bool → Nat → Nat → Prop
  | done (index size : Nat) : Follows [] index size
  | left {rest : List Bool} {fuel index size index' size' : Nat} (inside : size ≠ 0)
      (edge : index % 2 = 1 ∨ index + 1 = size) (shifted : shift fuel index size = some (index', size'))
      (follows : Follows rest (index' / 2) (size' / 2)) : Follows (true :: rest) index size
  | right {rest : List Bool} {index size : Nat} (inside : size ≠ 0)
      (inner : ¬ (index % 2 = 1 ∨ index + 1 = size)) (follows : Follows rest (index / 2) (size / 2)) :
      Follows (false :: rest) index size

theorem follows_odd (inside : size ≠ 0) (odd : index % 2 = 1) :
    Follows (side :: rest) index size ↔ side = true ∧ Follows rest (index / 2) (size / 2) := by
  constructor
  · intro follows
    cases follows with
    | left _ _ shifted follows =>
      rw [shift_odd _ odd] at shifted
      cases shifted
      exact ⟨rfl, follows⟩
    | right _ inner => exact absurd (.inl odd) inner
  · rintro ⟨rfl, follows⟩
    exact .left inside (.inl odd) (shift_odd 0 odd size) follows

theorem follows_even (inside : size ≠ 0) (even : index % 2 = 0) (inner : index + 1 ≠ size) :
    Follows (side :: rest) index size ↔ side = false ∧ Follows rest (index / 2) (size / 2) := by
  constructor
  · intro follows
    cases follows with
    | left => omega
    | right _ _ follows => exact ⟨rfl, follows⟩
  · rintro ⟨rfl, follows⟩
    exact .right inside (by omega) follows

theorem follows_lone (level : Nat) (odd : index % 2 = 1) :
    Follows (side :: rest) (2 ^ (level + 1) * index) (2 ^ (level + 1) * index + 1) ↔
      side = true ∧ Follows rest (index / 2) (index / 2) := by
  constructor
  · intro follows
    cases follows with
    | @left _ fuel _ _ _ _ _ _ shifted follows =>
      have longer := shift_mono (Nat.le_max_left fuel (level + 1)) shifted
      rw [shift_mono (Nat.le_max_right fuel (level + 1)) (shift_lone level odd)] at longer
      cases longer
      exact ⟨rfl, follows⟩
    | right => omega
  · rintro ⟨rfl, follows⟩
    exact .left (by omega) (.inr rfl) (shift_lone level odd) follows

theorem follows_zero : ¬ Follows (side :: rest) index 0 := by
  intro follows
  cases follows with
  | left inside | right inside => exact inside rfl

theorem recompute_mono (le : fuel ≤ more) (ends : recompute lib fuel texts computed index size = some (.ok result)) :
    recompute lib more texts computed index size = some (.ok result) := by
  induction texts generalizing computed index size with
  | nil => exact ends
  | cons text texts ih =>
    rw [recompute] at ends ⊢
    split at ends
    · cases ends
    split at ends
    · cases ends
    rename_i inside
    rw [if_neg inside]
    split at ends
    next edge =>
      rw [if_pos edge]
      split at ends
      · cases ends
      rename_i shifted
      simp only [shift_mono le shifted]
      exact ih ends
    next inner =>
      rw [if_neg inner]
      exact ih ends

theorem recompute_ok :
    (∃ fuel, recompute lib fuel texts computed index size = some (.ok result)) ↔
      ∃ taken siblings, texts.map lib.decodeDigest = siblings.map some ∧ Follows taken index size ∧
        taken.length = siblings.length ∧ lib.hash.climb computed (taken.zip siblings) = result := by
  induction texts generalizing computed index size with
  | nil =>
    constructor
    · rintro ⟨_, ends⟩
      cases ends
      exact ⟨[], [], rfl, .done _ _, rfl, rfl⟩
    rintro ⟨taken, siblings, decoded, _, lengths, climbed⟩
    obtain rfl : siblings = [] := List.map_eq_nil_iff.1 decoded.symm
    obtain rfl : taken = [] := List.length_eq_zero_iff.1 lengths
    exact ⟨0, by rw [← climbed]; rfl⟩
  | cons text texts ih =>
    constructor
    · rintro ⟨fuel, ends⟩
      rw [recompute] at ends
      split at ends
      · cases ends
      rename_i sibling decoded
      split at ends
      · cases ends
      rename_i inside
      split at ends
      next edge =>
        split at ends
        · cases ends
        rename_i shifted
        obtain ⟨taken, siblings, others, follows, lengths, climbed⟩ := ih.1 ⟨fuel, ends⟩
        refine ⟨true :: taken, sibling :: siblings, ?_, .left inside edge shifted follows, ?_, climbed⟩
        · rw [List.map_cons, decoded, others, List.map_cons]
        · rw [List.length_cons, lengths, List.length_cons]
      next inner =>
        obtain ⟨taken, siblings, others, follows, lengths, climbed⟩ := ih.1 ⟨fuel, ends⟩
        refine ⟨false :: taken, sibling :: siblings, ?_, .right inside inner follows, ?_, climbed⟩
        · rw [List.map_cons, decoded, others, List.map_cons]
        · rw [List.length_cons, lengths, List.length_cons]
    · rintro ⟨taken, siblings, decoded, follows, lengths, climbed⟩
      cases siblings with
      | nil => cases decoded
      | cons _ siblings =>
        obtain ⟨first, others⟩ := List.cons.inj decoded
        cases follows with
        | done => cases lengths
        | @left taken fuel _ _ _ _ inside edge shifted follows =>
          obtain ⟨more, ends⟩ := ih.2 ⟨taken, siblings, others, follows, Nat.succ.inj lengths, climbed⟩
          refine ⟨max fuel more, ?_⟩
          rw [recompute, first]
          simp only [if_neg inside, if_pos edge, shift_mono (Nat.le_max_left fuel more) shifted]
          exact recompute_mono (Nat.le_max_right fuel more) ends
        | @right taken _ _ inside inner follows =>
          obtain ⟨more, ends⟩ := ih.2 ⟨taken, siblings, others, follows, Nat.succ.inj lengths, climbed⟩
          refine ⟨more, ?_⟩
          rw [recompute, first]
          simp only [if_neg inside, if_neg inner]
          exact ends

theorem not_follows_below (below : index < size) : ¬ Follows (sides (size + 1) index) index size := by
  induction size using Nat.strongRecOn generalizing index with
  | ind size ih =>
    have half : (size + 1 + 1) / 2 = size / 2 + 1 := by omega
    rw [sides_step (by omega) (by omega), half]
    by_cases odd : index % 2 = 1
    · rw [if_pos odd, List.singleton_append, follows_odd (by omega) odd]
      rintro ⟨_, follows⟩
      exact ih (size / 2) (by omega) (by omega) follows
    rw [if_neg odd, if_neg (by omega), List.singleton_append]
    by_cases edge : index + 1 = size
    · intro follows
      cases follows with
      | right _ inner => exact inner (.inr edge)
    · rw [follows_even (by omega) (by omega) edge]
      rintro ⟨_, follows⟩
      exact ih (size / 2) (by omega) (by omega) follows

/-- An index that equals the size it is left with follows the sides of the last leaf when its
bits are all set. -/
theorem follows_equal : Follows (sides (index + 1) index) index index ↔ ∃ bits, index + 1 = 2 ^ bits := by
  induction index using Nat.strongRecOn with
  | ind index ih =>
    by_cases nothing : index = 0
    · subst nothing
      rw [sides_one]
      exact ⟨fun _ => ⟨0, rfl⟩, fun _ => .done 0 0⟩
    by_cases odd : index % 2 = 1
    · have half : (index + 1 + 1) / 2 = index / 2 + 1 := by omega
      rw [sides_step (by omega) (by omega), half, if_pos odd, List.singleton_append, follows_odd (by omega) odd,
        ih _ (by omega)]
      constructor
      · rintro ⟨_, bits, _⟩
        exact ⟨bits + 1, by rw [Nat.pow_succ]; omega⟩
      rintro ⟨bits, full⟩
      cases bits with
      | zero => omega
      | succ bits =>
        exact ⟨rfl, bits, by omega⟩
    · constructor
      · intro follows
        -- every sibling of the last leaf is on the left, and the loop puts the first on the right
        have all := (sides_last (Nat.lt_succ_self index)).2 rfl
        have some : sides (index + 1) index ≠ [] := sides_ne_nil (by omega)
        cases path : sides (index + 1) index with
        | nil => exact absurd path some
        | cons side =>
          rw [path, follows_even nothing (by omega) (by omega)] at follows
          have left := all side (by rw [path]; exact List.mem_cons_self)
          exact absurd (follows.1.symm.trans left) (by decide)
      · rintro ⟨bits, full⟩
        cases bits with
        | zero => omega
        | succ =>
          omega

end Swarmada.Rekor
