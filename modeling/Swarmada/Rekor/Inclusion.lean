import Mathlib.Data.Nat.Factorization.Basic
import Mathlib.Logic.Encodable.Basic
import Mathlib.Logic.Equiv.List
import Swarmada.Rekor.Sides

namespace Swarmada.Rekor

open Hash

variable {δ κ : Type} {lib : Primitives δ κ} {fuel index size other : Nat} {taken : List Bool}

theorem follows_half (even : size % 2 = 0) (inside : index < size) (within : other < size) :
    Follows (sides size other) index size ↔
      other % 2 = index % 2 ∧ Follows (sides (size / 2) (other / 2)) (index / 2) (size / 2) := by
  have half : (size + 1) / 2 = size / 2 := by omega
  rw [sides_step (by omega) within, half]
  by_cases odd : index % 2 = 1
  · by_cases same : other % 2 = 1
    · rw [if_pos same, List.singleton_append, follows_odd (by omega) odd, same, odd]
      simp
    · rw [if_neg same, if_neg (by omega), List.singleton_append, follows_odd (by omega) odd]
      simp [odd, same]
  by_cases differ : other % 2 = 1
  · rw [if_pos differ, List.singleton_append, follows_even (by omega) (by omega) (by omega)]
    simp [differ]
    omega
  · have same : other % 2 = index % 2 := by omega
    rw [if_neg differ, if_neg (by omega), List.singleton_append, follows_even (by omega) (by omega) (by omega)]
    simp [same]

theorem follows_odd_last (level : Nat) (odd : other % 2 = 1) :
    Follows (sides (2 ^ (level + 1) * other + 1) (2 ^ (level + 1) * other)) (2 ^ (level + 1) * other)
      (2 ^ (level + 1) * other + 1) ↔ ∃ bits, other = 2 ^ bits - 1 := by
  have half : (other + 1 + 1) / 2 = other / 2 + 1 := by omega
  rw [sides_lone, sides_step (by omega) (by omega), if_pos odd, half, List.singleton_append, follows_lone level odd,
    follows_equal]
  constructor
  · rintro ⟨_, bits, _⟩
    exact ⟨bits + 1, by omega⟩
  rintro ⟨bits, rfl⟩
  cases bits with
  | zero => omega
  | succ bits => exact ⟨rfl, bits, by omega⟩

theorem follows_last (odd : size % 2 = 1) (many : 1 < size) (inside : index < size) :
    Follows (sides size index) index size ↔
      index + 1 = size ∧ ∃ level bits, index = 2 ^ (level + 1) * (2 ^ bits - 1) := by
  by_cases last : index + 1 = size
  · subst last
    constructor
    · intro follows
      obtain ⟨level, lone, oddLone, rfl⟩ := Nat.exists_eq_two_pow_mul_odd (show index ≠ 0 by omega)
      have oddMod : lone % 2 = 1 := Nat.odd_iff.1 oddLone
      cases level with
      | zero => omega
      | succ level =>
        obtain ⟨bits, rfl⟩ := (follows_odd_last level oddMod).1 follows
        exact ⟨rfl, level, bits, rfl⟩
    · rintro ⟨_, level, bits, rfl⟩
      cases bits with
      | zero => simp at many
      | succ bits =>
        have pos := Nat.two_pow_pos bits
        exact (follows_odd_last level (by omega)).2 ⟨bits + 1, rfl⟩
  · have half : (size + 1) / 2 = size / 2 + 1 := by omega
    constructor
    · intro follows
      rw [sides_step many inside, half] at follows
      by_cases oddIndex : index % 2 = 1
      · rw [if_pos oddIndex, List.singleton_append, follows_odd (by omega) oddIndex] at follows
        exact absurd follows.2 (not_follows_below (by omega))
      · rw [if_neg oddIndex, if_neg last, List.singleton_append, follows_even (by omega) (by omega) last] at follows
        exact absurd follows.2 (not_follows_below (by omega))
    · exact fun both => absurd both.1 last

/-- The set bits of the size above its lowest stand together, and the index is in the last
block, which has the size of the lowest bit. -/
theorem follows_sides (inside : index < size) : Follows (sides size index) index size ↔
      ∃ low high bits, low < high ∧ size = 2 ^ low + 2 ^ high * (2 ^ bits - 1) ∧ size ≤ index + 2 ^ low := by
  induction size using Nat.strongRecOn generalizing index with
  | ind size ih =>
    by_cases even : size % 2 = 0
    · rw [follows_half even inside inside, ih (size / 2) (by omega) (by omega)]
      constructor
      · rintro ⟨_, low, high, bits, _, _, _⟩
        refine ⟨low + 1, high + 1, bits, by omega, ?_, by omega⟩
        rw [Nat.pow_succ', Nat.pow_succ', Nat.mul_assoc]
        omega
      rintro ⟨low, high, bits, _, sum, _⟩
      obtain ⟨high, rfl⟩ : ∃ up, high = up + 1 := ⟨high - 1, by omega⟩
      rw [Nat.pow_succ', Nat.mul_assoc] at sum
      cases low with
      | zero => omega
      | succ low => exact ⟨rfl, low, high, bits, by omega, by omega, by omega⟩
    by_cases many : 1 < size
    · rw [follows_last (by omega) many inside]
      constructor
      · rintro ⟨_, level, bits, rfl⟩
        exact ⟨0, level + 1, bits, by omega, by omega, by omega⟩
      rintro ⟨low, high, bits, _, sum, _⟩
      obtain ⟨high, rfl⟩ : ∃ up, high = up + 1 := ⟨high - 1, by omega⟩
      cases low with
      | zero => exact ⟨by omega, high, bits, by omega⟩
      | succ =>
        rw [Nat.pow_succ' (n := high), Nat.mul_assoc] at sum
        omega
    · obtain ⟨rfl, rfl⟩ : size = 1 ∧ index = 0 := by omega
      rw [sides_one]
      exact ⟨fun _ => ⟨0, 1, 0, by omega, rfl, Nat.le_refl 1⟩, fun _ => .done 0 1⟩

theorem left_of_follows_equal {bits : Nat} (full : index + 1 = 2 ^ bits) (follows : Follows taken index index) :
    ∀ side ∈ taken, side = true := by
  induction taken generalizing index bits with
  | nil => simp
  | cons side taken ih =>
    cases bits with
    | zero =>
      obtain rfl : index = 0 := by omega
      exact absurd follows follows_zero
    | succ bits =>
      rw [follows_odd (by omega) (by omega)] at follows
      obtain ⟨rfl, follows⟩ := follows
      have rest := @ih (index / 2) bits (by omega) follows
      simpa using rest

theorem sides_unique (inside : index < size) (own : Follows (sides size index) index size) (within : other < size)
    (follows : Follows (sides size other) index size) : other = index := by
  induction size using Nat.strongRecOn generalizing index other with
  | ind size ih =>
    by_cases even : size % 2 = 0
    · obtain ⟨_, follows⟩ := (follows_half even inside within).1 follows
      obtain ⟨_, own⟩ := (follows_half even inside inside).1 own
      have halves := ih (size / 2) (by omega) (by omega) own (by omega) follows
      omega
    by_cases many : 1 < size
    · obtain ⟨last, level, bits, rfl⟩ := (follows_last (by omega) many inside).1 own
      have all : ∀ side ∈ sides size other, side = true := by
        subst last
        cases path : sides (2 ^ (level + 1) * (2 ^ bits - 1) + 1) other with
        | nil => simp
        | cons =>
          cases bits with
          | zero => simp at many
          | succ bits =>
            have pos := Nat.two_pow_pos bits
            rw [path, follows_lone level (by omega)] at follows
            obtain ⟨rfl, follows⟩ := follows
            have rest := @left_of_follows_equal _ _ bits (by omega) follows
            simpa using rest
      have edge := (sides_last within).1 all
      omega
    · omega

/-! ## Blocks of full subtrees

Equal leaves make equal subtrees, whose hashes can be swapped unseen.  A swap needs two subtrees
of one size, so the index lies in a full block there, where the sides are the bits of the index.
-/

def Aligned (taken : List Bool) (index size : Nat) : Prop :=
  ∀ level, (index / 2 ^ level + 1) * 2 ^ level ≤ size →
    ∀ bit < level, bit < taken.length → taken[bit]? = some (index.testBit bit)

theorem aligned_of_follows (follows : Follows taken index size) : Aligned taken index size := by
  induction taken generalizing index size with
  | nil =>
    intro level block bit below short
    exact absurd short (Nat.not_lt_zero bit)
  | cons side taken ih =>
    intro level block bit below short
    cases level with
    | zero => omega
    | succ level =>
      have halves : index / 2 ^ (level + 1) = index / 2 / 2 ^ level := by
        rw [Nat.pow_succ', Nat.div_div_eq_div_mul]
      have double : (index / 2 ^ (level + 1) + 1) * 2 ^ (level + 1) = 2 * ((index / 2 / 2 ^ level + 1) * 2 ^ level) := by
        rw [halves, Nat.pow_succ', Nat.mul_left_comm]
      have next : (index / 2 / 2 ^ level + 1) * 2 ^ level ≤ size / 2 := by omega
      have inside : index / 2 < (index / 2 / 2 ^ level + 1) * 2 ^ level :=
        (Nat.div_lt_iff_lt_mul (Nat.two_pow_pos level)).1 (Nat.lt_succ_self _)
      have step : side = index.testBit 0 ∧ Follows taken (index / 2) (size / 2) := by
        by_cases odd : index % 2 = 1
        · have parts := (follows_odd (by omega) odd).1 follows
          exact ⟨by simp [parts.1, Nat.testBit_zero, odd], parts.2⟩
        · have parts := (follows_even (by omega) (by omega) (by omega)).1 follows
          exact ⟨by simp [parts.1, Nat.testBit_zero, odd], parts.2⟩
      obtain ⟨rfl, rest⟩ := step
      cases bit with
      | zero => rfl
      | succ bit =>
        rw [List.getElem?_cons_succ, Nat.testBit_succ]
        exact ih rest level next bit (by omega) (Nat.lt_of_succ_lt_succ short)

theorem Aligned.full (aligned : Aligned taken index (2 ^ level)) (inside : index < 2 ^ level)
    (lengths : taken.length = level) : taken = sides (2 ^ level) index := by
  rw [sides_full level inside]
  apply List.ext_getElem?
  intro bit
  by_cases below : bit < level
  · have block : (index / 2 ^ level + 1) * 2 ^ level ≤ 2 ^ level := by
      rw [Nat.div_eq_of_lt inside, Nat.zero_add, Nat.one_mul]
    rw [aligned level block bit below (by omega)]
    simp [below]
  · rw [List.getElem?_eq_none (by omega), List.getElem?_eq_none (by simpa using below)]

theorem Aligned.left {side : Bool} {half : Nat} (aligned : Aligned (taken ++ [side]) index size) (le : half ≤ size) :
    Aligned taken index half := by
  intro level block bit below short
  rw [← aligned level (by omega) bit below (by rw [List.length_append]; omega)]
  exact (List.getElem?_append_left short).symm

theorem Aligned.right {side : Bool} {half : Nat} (aligned : Aligned (taken ++ [side]) (2 ^ half + index) size)
    (small : size ≤ 2 ^ half + 2 ^ half) : Aligned taken index (size - 2 ^ half) := by
  intro level block bit below short
  have pos := Nat.two_pow_pos level
  have expand : (index / 2 ^ level + 1) * 2 ^ level = index / 2 ^ level * 2 ^ level + 2 ^ level := Nat.succ_mul _ _
  have order : level ≤ half := (Nat.pow_le_pow_iff_right (by decide : 1 < 2)).1 (by omega)
  have whole : 2 ^ half = 2 ^ (half - level) * 2 ^ level := by
    rw [← Nat.pow_add, Nat.sub_add_cancel order]
  have quotient : (2 ^ half + index) / 2 ^ level = 2 ^ (half - level) + index / 2 ^ level := by
    rw [whole, Nat.mul_comm, Nat.mul_add_div pos]
  have shifted : ((2 ^ half + index) / 2 ^ level + 1) * 2 ^ level = 2 ^ half + (index / 2 ^ level + 1) * 2 ^ level := by
    rw [quotient, Nat.add_assoc, Nat.add_mul, ← whole]
  have same : (taken ++ [side])[bit]? = taken[bit]? := List.getElem?_append_left short
  rw [← same, ← Nat.testBit_two_pow_add_gt (by omega : bit < half) index]
  exact aligned level (by omega) bit below (by rw [List.length_append]; omega)

section Honest

variable {hash : TreeHash Bytes δ} {leaves : Nat → Bytes} {start : Nat}

theorem full_of_twins (free : hash.Free) (many : 1 < size) (twins : hash.root (merkle leaves start (splitPoint size)) =
      hash.root (merkle leaves (start + splitPoint size) (size - splitPoint size))) :
    ∃ level, size = 2 ^ level := by
  have small := splitPoint_lt many
  have sizes := congrArg Tree.size (free.root_inj twins)
  rw [size_merkle (splitPoint_pos size), size_merkle (by omega)] at sizes
  have split : splitPoint size = 2 ^ (size - 1).log2 := rfl
  exact ⟨(size - 1).log2 + 1, by rw [Nat.pow_succ]; omega⟩

theorem length_auditPath : (auditPath hash leaves start size index).length = (sides size index).length := by
  have fst : (auditPath hash leaves start size index).map Prod.fst = sides size index := sides_auditPath
  rw [← fst, List.length_map]

theorem climb_top
    (lengths : lower.length = path.length) :
    hash.climb below ((lower ++ [side]).zip ((path ++ [top]).map Prod.snd)) =
      hash.step (hash.climb below (lower.zip (path.map Prod.snd))) (side, top.2) := by
  rw [List.map_append, List.zip_append (by rw [List.length_map, lengths])]
  exact TreeHash.climb_append _ _ _

theorem sides_of_climb (free : hash.Free) (inside : index < size) (aligned : Aligned taken index size)
    (lengths : taken.length = (sides size index).length)
    (climbed : hash.climb (hash.leaf (leaves (start + index)))
        (taken.zip ((auditPath hash leaves start size index).map Prod.snd)) = hash.root (merkle leaves start size)) :
    taken = sides size index := by
  induction size using Nat.strongRecOn generalizing taken start index with
  | ind size ih =>
    by_cases many : 1 < size
    · have small := splitPoint_lt many
      have pos := splitPoint_pos size
      have tree : merkle leaves start size = .node (merkle leaves start (splitPoint size))
          (merkle leaves (start + splitPoint size) (size - splitPoint size)) := by
        rw [merkle, dif_pos many]
      have whole : (∃ level, size = 2 ^ level) → taken = sides size index := by
        rintro ⟨level, rfl⟩
        rw [sides_full level inside, List.length_map, List.length_range] at lengths
        exact aligned.full inside lengths
      rcases List.eq_nil_or_concat' taken with rfl | ⟨lower, side, rfl⟩
      · exact absurd (List.length_eq_zero_iff.1 lengths.symm) (sides_ne_nil many)
      by_cases left : index < splitPoint size
      · rw [sides_left many left, List.length_append, List.length_append] at lengths
        have shorter : lower.length = (sides (splitPoint size) index).length := Nat.succ.inj lengths
        rw [auditPath_left many left, tree, climb_top (by rw [length_auditPath, shorter])] at climbed
        cases side with
        | true => exact whole (full_of_twins free many (free.node_inj climbed).1.symm)
        | false =>
          have inner := ih _ small left (aligned.left (by omega)) shorter (free.node_inj climbed).1
          rw [sides_left many left, inner]
      · obtain ⟨index, rfl⟩ : ∃ rest, index = splitPoint size + rest := ⟨index - splitPoint size, by omega⟩
        rw [sides_right many (by omega), List.length_append, List.length_append, Nat.add_sub_cancel_left] at lengths
        have shorter : lower.length = (sides (size - splitPoint size) index).length := Nat.succ.inj lengths
        rw [auditPath_right many index, tree, climb_top (by rw [length_auditPath, shorter]), ← Nat.add_assoc] at climbed
        cases side with
        | false => exact whole (full_of_twins free many (free.node_inj climbed).2)
        | true =>
          have inner := ih (size - splitPoint size) (by omega) (by omega) (aligned.right (le_splitPoint size)) shorter
            (free.node_inj climbed).2
          rw [sides_right many (by omega), Nat.add_sub_cancel_left, inner]
    · rw [sides, dif_neg many] at lengths ⊢
      exact List.length_eq_zero_iff.1 lengths

end Honest

variable [DecidableEq δ]

def Accepts (lib : Primitives δ κ) (entry : LogEntry) : Prop :=
  ∃ fuel, verifyInclusionProof lib fuel entry = some (.ok ())

theorem accepts_iff {entry : LogEntry} (atIndex : entry.inclusionProof.logIndex = index)
    (ofSize : entry.inclusionProof.treeSize = size) (inside : index < size) :
    Accepts lib entry ↔ ∃ value siblings taken, lib.decodeBase64 entry.body = .ok value ∧
      entry.inclusionProof.hashes.map lib.decodeDigest = siblings.map some ∧ Follows taken index size ∧
      taken.length = siblings.length ∧
      lib.decodeDigest entry.inclusionProof.rootHash = some (lib.hash.climb (lib.hash.leaf value) (taken.zip siblings)) := by
  have range : ¬ ((size : Int) ≤ 0 ∨ (index : Int) < 0 ∨ (size : Int) ≤ index) := by omega
  constructor
  · rintro ⟨fuel, accepted⟩
    rw [verifyInclusionProof] at accepted
    simp only [atIndex, ofSize, if_neg range, Int.toNat_natCast] at accepted
    split at accepted
    · cases accepted
    rename_i root decodedRoot
    split at accepted
    · cases accepted
    rename_i value decoded
    split at accepted
    · cases accepted
    · cases accepted
    rename_i computed ends
    split at accepted
    next reached =>
      obtain ⟨taken, siblings, others, follows, lengths, climbed⟩ := recompute_ok.1 ⟨fuel, ends⟩
      exact ⟨value, siblings, taken, decoded, others, follows, lengths, by rw [climbed, reached, decodedRoot]⟩
    · cases accepted
  · rintro ⟨value, siblings, taken, decoded, others, follows, lengths, reached⟩
    obtain ⟨fuel, ends⟩ : ∃ fuel, recompute lib fuel entry.inclusionProof.hashes (lib.hash.leaf value) index size =
        some (.ok (lib.hash.climb (lib.hash.leaf value) (taken.zip siblings))) :=
      recompute_ok.2 ⟨taken, siblings, others, follows, lengths, rfl⟩
    refine ⟨fuel, ?_⟩
    rw [verifyInclusionProof]
    simp only [atIndex, ofSize, if_neg range, Int.toNat_natCast, reached, decoded, ends, if_pos]

/-- What a log with these leaves returns for one of them. -/
def logged (lib : Primitives δ κ) (encodeBase64 : Bytes → String) (leaves : Nat → Bytes) (size index : Nat) : LogEntry where
  body := encodeBase64 (leaves index)
  inclusionProof := {
    hashes := (auditPath lib.hash leaves 0 size index).map fun step => lib.hexDigest step.2
    logIndex := index
    rootHash := lib.hexDigest (lib.hash.root (merkle leaves 0 size))
    treeSize := size }

omit [DecidableEq δ] in
theorem logged_hashes (hex : ∀ digest, lib.decodeDigest (lib.hexDigest digest) = some digest)
    (encodeBase64 : Bytes → String) (leaves : Nat → Bytes) :
    (logged lib encodeBase64 leaves size index).inclusionProof.hashes.map lib.decodeDigest =
      ((auditPath lib.hash leaves 0 size index).map Prod.snd).map some := by
  rw [logged, List.map_map, List.map_map]
  exact List.map_congr_left fun step _ => hex step.2

theorem accepts_logged (free : lib.hash.Free)
    (hex : ∀ digest, lib.decodeDigest (lib.hexDigest digest) = some digest) (encodeBase64 : Bytes → String)
    (base64 : ∀ bytes, lib.decodeBase64 (encodeBase64 bytes) = .ok bytes) (leaves : Nat → Bytes)
    (inside : index < size) :
    Accepts lib (logged lib encodeBase64 leaves size index) ↔ Follows (sides size index) index size := by
  constructor
  · intro accepted
    obtain ⟨value, siblings, taken, decoded, others, follows, lengths, reached⟩ := (accepts_iff rfl rfl inside).1 accepted
    obtain rfl : leaves index = value := Except.ok.inj ((base64 _).symm.trans decoded)
    obtain rfl : (auditPath lib.hash leaves 0 size index).map Prod.snd = siblings :=
      List.map_injective_iff.2 (Option.some_injective δ) ((logged_hashes hex encodeBase64 leaves).symm.trans others)
    rw [List.length_map, length_auditPath] at lengths
    have climbed : lib.hash.climb (lib.hash.leaf (leaves (0 + index)))
        (taken.zip ((auditPath lib.hash leaves 0 size index).map Prod.snd)) = lib.hash.root (merkle leaves 0 size) := by
      rw [Nat.zero_add]
      exact Option.some.inj (reached.symm.trans (hex _))
    rw [← sides_of_climb free inside (aligned_of_follows follows) lengths climbed]
    exact follows
  · intro follows
    have up : lib.hash.Up (merkle leaves 0 size) (.leaf (leaves (0 + index))) (auditPath lib.hash leaves 0 size index) :=
      up_auditPath inside
    rw [Nat.zero_add] at up
    refine (accepts_iff rfl rfl inside).2 ⟨leaves index, _, sides size index, base64 _,
      logged_hashes hex encodeBase64 leaves, follows, ?_, ?_⟩
    · rw [List.length_map, length_auditPath]
    · rw [← List.zip_of_prod sides_auditPath rfl]
      exact (hex _).trans (congrArg some up.climb.symm)

def unary : Primitives Nat Unit where
  decodeBase64 text := .ok (text.toList.map fun char => UInt8.ofNat char.toNat)
  decodeDigest text := some text.toList.length
  hexDigest digest := String.ofList (List.replicate digest 'f')
  hash := {
    leaf := fun bytes => 2 * Encodable.encode (bytes.map UInt8.toNat)
    node := fun left right => 2 * Nat.pair left right + 1 }
  text bytes := String.ofList (bytes.map fun byte => Char.ofNat byte.toNat)
  toLower := id
  jsonString := id
  sum256 _ := []
  verifyASN1 _ _ _ := true
  ed25519Verify _ _ _ := true
  verifyPKCS1v15 _ _ _ := none

theorem unary_free : unary.hash.Free where
  leaf_inj := by
    intro a b same
    have codes : Encodable.encode (a.map UInt8.toNat) = Encodable.encode (b.map UInt8.toNat) :=
      Nat.eq_of_mul_eq_mul_left (by decide) same
    exact List.map_injective_iff.2 (fun _ _ => UInt8.toNat_inj.1) (Encodable.encode_injective codes)
  node_inj := by
    intro a b c d same
    have pairs : 2 * Nat.pair a b + 1 = 2 * Nat.pair c d + 1 := same
    exact Nat.pair_eq_pair.1 (by omega)
  disjoint := by
    intro value left right same
    have parity : 2 * Encodable.encode (value.map UInt8.toNat) = 2 * Nat.pair left right + 1 := same
    omega

theorem unary_digest (digest : Nat) : unary.decodeDigest (unary.hexDigest digest) = some digest := by
  simp [unary]

theorem unary_base64 (bytes : Bytes) : unary.decodeBase64 (unary.text bytes) = .ok bytes := by
  have codes : ∀ code < 256, (Char.ofNat code).toNat = code := by decide +kernel
  have back : ∀ byte : UInt8, UInt8.ofNat (Char.ofNat byte.toNat).toNat = byte := by
    intro byte
    rw [codes _ byte.toNat_lt, UInt8.ofNat_toNat]
  simp [unary, Function.comp_def, back]

theorem verifyInclusionProof_exact (free : lib.hash.Free)
    (hex : ∀ digest, lib.decodeDigest (lib.hexDigest digest) = some digest) (encodeBase64 : Bytes → String)
    (base64 : ∀ bytes, lib.decodeBase64 (encodeBase64 bytes) = .ok bytes) (leaves : Nat → Bytes)
    (inside : index < size) :
    (Accepts lib (logged lib encodeBase64 leaves size index) ∧
      ∀ entry : LogEntry, entry.inclusionProof.treeSize = size → entry.inclusionProof.logIndex = index →
        lib.decodeDigest entry.inclusionProof.rootHash = some (lib.hash.root (merkle leaves 0 size)) →
        Accepts lib entry → lib.decodeBase64 entry.body = .ok (leaves index) ∧
          entry.inclusionProof.hashes.map lib.decodeDigest =
            (auditPath lib.hash leaves 0 size index).map fun step => some step.2) ↔
      ∃ low high bits, low < high ∧ size = 2 ^ low + 2 ^ high * (2 ^ bits - 1) ∧ size ≤ index + 2 ^ low := by
  rw [← follows_sides inside, accepts_logged free hex encodeBase64 base64 leaves inside]
  refine ⟨And.left, fun follows => ⟨follows, ?_⟩⟩
  intro entry ofSize atIndex root accepted
  obtain ⟨value, siblings, taken, decoded, others, goes, lengths, reached⟩ := (accepts_iff atIndex ofSize inside).1 accepted
  have climbed : lib.hash.climb (lib.hash.leaf value) (taken.zip siblings) = lib.hash.root (merkle leaves 0 size) :=
    Option.some.inj (reached.symm.trans root)
  obtain ⟨other, within, rfl, path⟩ := auditPath_of_up (by omega) (free.up climbed)
  have fst : taken = sides size other := by
    rw [← sides_auditPath, ← path, List.map_fst_zip (Nat.le_of_eq lengths)]
  have snd : siblings = (auditPath lib.hash leaves 0 size other).map Prod.snd := by
    rw [← path, List.map_snd_zip (Nat.le_of_eq lengths.symm)]
  obtain rfl : other = index := sides_unique inside follows within (fst ▸ goes)
  rw [Nat.zero_add] at decoded
  refine ⟨decoded, ?_⟩
  rw [others, snd, List.map_map]
  rfl

theorem verifyInclusionProof_last_of_seven :
    Accepts unary (logged unary unary.text (fun leaf => [UInt8.ofNat leaf]) 7 6) :=
  ((verifyInclusionProof_exact unary_free unary_digest unary.text unary_base64 _ (by decide)).2
    ⟨0, 1, 2, by decide, by decide, by decide⟩).1

/-- Of three leaves the first is not accepted with its own audit path. -/
theorem verifyInclusionProof_first_of_three :
    ¬ Accepts unary (logged unary unary.text (fun leaf => [UInt8.ofNat leaf]) 3 0) := by
  rw [accepts_logged unary_free unary_digest unary.text unary_base64 _ (by decide),
    follows_last (by decide) (by decide) (by decide)]
  rintro ⟨last, _⟩
  exact absurd last (by decide)

end Swarmada.Rekor
