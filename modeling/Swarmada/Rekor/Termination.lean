import Swarmada.Rekor.Inclusion

namespace Swarmada.Rekor

open Hash

variable {δ κ : Type} {lib : Primitives δ κ} {fuel index size : Nat} {computed : δ}

def wellFormed (lib : Primitives δ κ) (texts : List String) : List String :=
  texts.takeWhile fun text => (lib.decodeDigest text).isSome

theorem recompute_equal (texts : List String) : (recompute lib fuel texts computed index index).isSome := by
  induction texts generalizing index computed with
  | nil => rfl
  | cons text texts ih =>
    rw [recompute]
    cases lib.decodeDigest text with
    | none => rfl
    | some =>
      by_cases nothing : index = 0
      · simp only [if_pos nothing]
        rfl
      by_cases odd : index % 2 = 1
      · simp only [if_neg nothing, if_pos (.inl odd : index % 2 = 1 ∨ index + 1 = index), shift_odd fuel odd]
        exact ih
      · simp only [if_neg nothing, if_neg (by omega : ¬ (index % 2 = 1 ∨ index + 1 = index))]
        exact ih

theorem log2_half (many : 1 < size) : size.log2 = (size / 2).log2 + 1 := by
  rw [Nat.log2_def, if_pos (by omega)]

theorem lone_above (even : index % 2 = 0) (nonzero : index ≠ 0) : ¬ index < 2 ^ (index + 1).log2 := by
  intro below
  have le : 2 ^ (index + 1).log2 ≤ index + 1 := Nat.log2_self_le (by omega)
  rw [log2_half (by omega), Nat.pow_succ] at below le
  omega

theorem recompute_ends (texts : List String) (inside : index < size) :
    (∃ fuel, (recompute lib fuel texts computed index size).isSome) ↔
      (index < 2 ^ size.log2 → (wellFormed lib texts).length ≤ size.log2) := by
  induction texts generalizing index size computed with
  | nil => exact ⟨fun _ _ => Nat.zero_le _, fun _ => ⟨0, rfl⟩⟩
  | cons text texts ih =>
    cases decoded : lib.decodeDigest text with
    | none =>
      have stops : wellFormed lib (text :: texts) = [] := by simp [wellFormed, decoded]
      simp [recompute, decoded, stops]
    | some =>
      have more : (wellFormed lib (text :: texts)).length = (wellFormed lib texts).length + 1 := by
        simp [wellFormed, decoded]
      have nonempty : size ≠ 0 := by omega
      -- both sides of the level above
      have half : ∀ computed : δ, 1 < size → index / 2 < size / 2 →
          ((∃ fuel, (recompute lib fuel texts computed (index / 2) (size / 2)).isSome) ↔
            (index < 2 ^ size.log2 → (wellFormed lib (text :: texts)).length ≤ size.log2)) := by
        intro computed many above
        have same : index / 2 < 2 ^ (size / 2).log2 ↔ index < 2 ^ ((size / 2).log2 + 1) := by omega
        rw [ih above, more, log2_half many, same, Nat.succ_le_succ_iff]
      by_cases odd : index % 2 = 1
      · have edge : index % 2 = 1 ∨ index + 1 = size := .inl odd
        simp only [recompute, decoded, if_neg nonempty, if_pos edge, shift_odd _ odd]
        exact half _ (by omega) (by omega)
      by_cases last : index + 1 = size
      · have edge : index % 2 = 1 ∨ index + 1 = size := .inr last
        simp only [recompute, decoded, if_neg nonempty, if_pos edge]
        by_cases nothing : index = 0
        · obtain ⟨rfl, rfl⟩ : index = 0 ∧ size = 1 := by omega
          have long : ¬ (0 < 2 ^ Nat.log2 1 → (wellFormed lib (text :: texts)).length ≤ Nat.log2 1) := by
            rw [more]
            exact fun short => absurd (short (by decide)) (Nat.not_succ_le_zero _)
          refine iff_of_false ?_ long
          rintro ⟨_, ended⟩
          rw [shift_zero] at ended
          cases ended
        · -- the index leaves the subtree below the highest bit
          obtain ⟨level, lone, oddLone, split⟩ := Nat.exists_eq_two_pow_mul_odd nothing
          have oddMod : lone % 2 = 1 := Nat.odd_iff.1 oddLone
          cases level with
          | zero => omega
          | succ level =>
            subst last
            have above := lone_above (by omega) nothing
            refine iff_of_true ⟨level + 1, ?_⟩ fun below => absurd below above
            rw [split, shift_lone level oddMod]
            exact recompute_equal texts
      · have inner : ¬ (index % 2 = 1 ∨ index + 1 = size) := by omega
        simp only [recompute, decoded, if_neg nonempty, if_neg inner]
        exact half _ (by omega) (by omega)

variable [DecidableEq δ]

def Readable (lib : Primitives δ κ) (entry : LogEntry) : Prop :=
  (∃ root, lib.decodeDigest entry.inclusionProof.rootHash = some root) ∧ ∃ bytes, lib.decodeBase64 entry.body = .ok bytes

theorem verifyInclusionProof_isSome
    (range : ¬ (entry.inclusionProof.treeSize ≤ 0 ∨ entry.inclusionProof.logIndex < 0 ∨
      entry.inclusionProof.treeSize ≤ entry.inclusionProof.logIndex))
    (decodedRoot : lib.decodeDigest entry.inclusionProof.rootHash = some root)
    (decoded : lib.decodeBase64 entry.body = .ok bytes) :
    (verifyInclusionProof lib fuel entry).isSome = (recompute lib fuel entry.inclusionProof.hashes
      (lib.hash.leaf bytes) entry.inclusionProof.logIndex.toNat entry.inclusionProof.treeSize.toNat).isSome := by
  simp only [verifyInclusionProof, if_neg range, decodedRoot, decoded]
  cases recompute lib fuel entry.inclusionProof.hashes (lib.hash.leaf bytes) entry.inclusionProof.logIndex.toNat
      entry.inclusionProof.treeSize.toNat with
  | none => rfl
  | some result =>
    cases result with
    | error => rfl
    | ok computed =>
      by_cases reached : computed = root <;> simp [reached]

theorem verifyInclusionProof_ends (lib : Primitives δ κ) (entry : LogEntry) :
    (∃ fuel, (verifyInclusionProof lib fuel entry).isSome) ↔
      (0 ≤ entry.inclusionProof.logIndex → entry.inclusionProof.logIndex < entry.inclusionProof.treeSize →
        Readable lib entry → entry.inclusionProof.logIndex.toNat < 2 ^ entry.inclusionProof.treeSize.toNat.log2 →
        (wellFormed lib entry.inclusionProof.hashes).length ≤ entry.inclusionProof.treeSize.toNat.log2) := by
  by_cases range : entry.inclusionProof.treeSize ≤ 0 ∨ entry.inclusionProof.logIndex < 0 ∨
      entry.inclusionProof.treeSize ≤ entry.inclusionProof.logIndex
  · refine iff_of_true ⟨0, ?_⟩ (by omega)
    simp only [verifyInclusionProof, if_pos range]
    rfl
  cases root : lib.decodeDigest entry.inclusionProof.rootHash with
  | none =>
    refine iff_of_true ⟨0, ?_⟩ ?_
    · simp only [verifyInclusionProof, if_neg range, root]
      rfl
    rintro _ _ ⟨⟨_, decoded⟩, _⟩
    rw [root] at decoded
    cases decoded
  | some digest =>
    cases body : lib.decodeBase64 entry.body with
    | error =>
      refine iff_of_true ⟨0, ?_⟩ ?_
      · simp only [verifyInclusionProof, if_neg range, root, body]
        rfl
      rintro _ _ ⟨_, _, decoded⟩
      rw [body] at decoded
      cases decoded
    | ok bytes =>
      simp only [verifyInclusionProof_isSome range root body]
      rw [recompute_ends _ (by omega)]
      exact ⟨fun short _ _ _ => short, fun short => short (by omega) (by omega) ⟨⟨digest, root⟩, bytes, body⟩⟩

theorem wellFormed_unary (texts : List String) : wellFormed unary texts = texts := by
  induction texts with
  | nil => rfl
  | cons text texts ih =>
    exact congrArg (text :: ·) ih

/-- The check of the first of three leaves with its own audit path never returns. -/
theorem verifyInclusionProof_hangs : ¬ ∃ fuel, (verifyInclusionProof unary fuel
      (logged unary unary.text (fun leaf => [UInt8.ofNat leaf]) 3 0)).isSome := by
  rintro ⟨fuel, ended⟩
  rw [verifyInclusionProof_isSome (by simp [logged]) (unary_digest _) (unary_base64 _)] at ended
  have short := (recompute_ends _ (by decide : 0 < 3)).1 ⟨fuel, ended⟩ (by decide)
  have two : (sides 3 0).length = 2 := by
    rw [sides_step (by decide) (by decide), sides_step (by decide) (by decide)]
    simp [sides_one]
  rw [wellFormed_unary, logged, List.length_map, length_auditPath, two] at short
  exact absurd short (by decide)

end Swarmada.Rekor
