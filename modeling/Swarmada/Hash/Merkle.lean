import Mathlib.Data.List.Induction
import Mathlib.Data.Nat.Log
import Mathlib.Tactic.Linarith

/-! # Merkle trees

A tree over the leaves of a log, as RFC 6962 builds it: a tree of more than one leaf is split
at the largest power of two below its size.
-/

namespace Swarmada.Hash

universe u v

variable {α : Type u} {δ : Type v}

inductive Tree (α : Type u) where
  | leaf (value : α)
  | node (left right : Tree α)

structure TreeHash (α : Type u) (δ : Type v) where
  leaf : α → δ
  node : δ → δ → δ

/-- No two leaves, no two pairs, and no leaf and pair have the same hash. -/
structure TreeHash.Free (hash : TreeHash α δ) : Prop where
  leaf_inj : ∀ {a b}, hash.leaf a = hash.leaf b → a = b
  node_inj : ∀ {a b c d}, hash.node a b = hash.node c d → a = c ∧ b = d
  disjoint : ∀ value left right, hash.leaf value ≠ hash.node left right

def TreeHash.root (hash : TreeHash α δ) : Tree α → δ
  | .leaf value => hash.leaf value
  | .node left right => hash.node (hash.root left) (hash.root right)

def TreeHash.step (hash : TreeHash α δ) (below : δ) (side : Bool × δ) : δ :=
  if side.1 then hash.node side.2 below else hash.node below side.2

def TreeHash.climb (hash : TreeHash α δ) (below : δ) (path : List (Bool × δ)) : δ := path.foldl hash.step below

/-- `path` leads from `below` up to the root of the tree. -/
inductive TreeHash.Up (hash : TreeHash α δ) : Tree α → Tree α → List (Bool × δ) → Prop
  | here (tree : Tree α) : Up hash tree tree []
  | left {left below : Tree α} {path : List (Bool × δ)} (right : Tree α) (up : Up hash left below path) :
      Up hash (.node left right) below (path ++ [(false, hash.root right)])
  | right {right below : Tree α} {path : List (Bool × δ)} (left : Tree α) (up : Up hash right below path) :
      Up hash (.node left right) below (path ++ [(true, hash.root left)])

variable {hash : TreeHash α δ} {tree below other : Tree α} {path path' : List (Bool × δ)} {value : α}

theorem TreeHash.climb_append (below : δ) (path : List (Bool × δ)) (side : Bool × δ) :
    hash.climb below (path ++ [side]) = hash.step (hash.climb below path) side := by
  simp [TreeHash.climb]

theorem TreeHash.Up.climb (up : hash.Up tree below path) : hash.climb (hash.root below) path = hash.root tree := by
  induction up with
  | here => rfl
  | left right up ih | right left up ih =>
    rw [TreeHash.climb_append, ih]
    rfl

/-- A path that reaches the root of a tree is a path of the tree. -/
theorem TreeHash.Free.up (free : hash.Free) (reached : hash.climb (hash.leaf value) path = hash.root tree) :
    hash.Up tree (.leaf value) path := by
  induction path using List.reverseRecOn generalizing tree with
  | nil =>
    cases tree with
    | leaf =>
      cases free.leaf_inj reached
      exact .here _
    | node => exact absurd reached (free.disjoint _ _ _)
  | append_singleton path side ih =>
    obtain ⟨onLeft, _⟩ := side
    rw [TreeHash.climb_append] at reached
    cases tree with
    | leaf => cases onLeft <;> exact absurd reached.symm (free.disjoint _ _ _)
    | node left right =>
      -- the last step up takes the two halves of the root apart
      cases onLeft with
      | true =>
        obtain ⟨rfl, rest⟩ := free.node_inj reached
        exact .right left (ih rest)
      | false =>
        obtain ⟨rest, rfl⟩ := free.node_inj reached
        exact .left right (ih rest)

theorem TreeHash.Free.root_inj (free : hash.Free) (same : hash.root tree = hash.root other) : tree = other := by
  induction tree generalizing other with
  | leaf =>
    cases other with
    | leaf => rw [free.leaf_inj same]
    | node => exact absurd same (free.disjoint _ _ _)
  | node left right ihLeft ihRight =>
    cases other with
    | leaf => exact absurd same.symm (free.disjoint _ _ _)
    | node =>
      obtain ⟨sameLeft, sameRight⟩ := free.node_inj same
      rw [ihLeft sameLeft, ihRight sameRight]

def Tree.size : Tree α → Nat
  | .leaf _ => 1
  | .node left right => left.size + right.size

def splitPoint (size : Nat) : Nat := 2 ^ (size - 1).log2

theorem splitPoint_pos (size : Nat) : 0 < splitPoint size := Nat.two_pow_pos _

theorem splitPoint_lt (many : 1 < size) : splitPoint size < size := by
  have below : 2 ^ (size - 1).log2 ≤ size - 1 := Nat.log2_self_le (by omega)
  unfold splitPoint
  omega

theorem le_splitPoint (size : Nat) : size ≤ splitPoint size + splitPoint size := by
  have above : size - 1 < 2 ^ ((size - 1).log2 + 1) := Nat.lt_log2_self
  unfold splitPoint
  omega

theorem splitPoint_double (many : 2 < size) : splitPoint size = 2 * splitPoint ((size + 1) / 2) := by
  have half : (size + 1) / 2 - 1 = (size - 1) / 2 := by omega
  have halved : (size - 1).log2 = ((size - 1) / 2).log2 + 1 := by
    rw [Nat.log2_def, if_pos (by omega)]
  rw [splitPoint, splitPoint, half, halved, Nat.pow_succ, Nat.mul_comm]

def merkle (leaves : Nat → α) (start size : Nat) : Tree α :=
  if many : 1 < size then
    have := splitPoint_lt many
    have := splitPoint_pos size
    .node (merkle leaves start (splitPoint size)) (merkle leaves (start + splitPoint size) (size - splitPoint size))
  else .leaf (leaves start)
termination_by size

def auditPath (hash : TreeHash α δ) (leaves : Nat → α) (start size index : Nat) : List (Bool × δ) :=
  if many : 1 < size then
    have := splitPoint_lt many
    have := splitPoint_pos size
    if index < splitPoint size then
      auditPath hash leaves start (splitPoint size) index ++
        [(false, hash.root (merkle leaves (start + splitPoint size) (size - splitPoint size)))]
    else
      auditPath hash leaves (start + splitPoint size) (size - splitPoint size) (index - splitPoint size) ++
        [(true, hash.root (merkle leaves start (splitPoint size)))]
  else []
termination_by size

def sides (size index : Nat) : List Bool :=
  if many : 1 < size then
    have := splitPoint_lt many
    have := splitPoint_pos size
    if index < splitPoint size then sides (splitPoint size) index ++ [false]
    else sides (size - splitPoint size) (index - splitPoint size) ++ [true]
  else []
termination_by size

variable {leaves : Nat → α} {start size index : Nat}

theorem size_merkle (nonempty : 0 < size) : (merkle leaves start size).size = size := by
  induction size using Nat.strongRecOn generalizing start with
  | ind size ih =>
    rw [merkle]
    split
    next many =>
      have := splitPoint_lt many
      have := splitPoint_pos size
      rw [Tree.size, ih _ (by omega) (by omega), ih _ (by omega) (by omega)]
      omega
    · rw [Tree.size]
      omega

theorem auditPath_left (many : 1 < size) (inside : index < splitPoint size) :
    auditPath hash leaves start size index = auditPath hash leaves start (splitPoint size) index ++
      [(false, hash.root (merkle leaves (start + splitPoint size) (size - splitPoint size)))] := by
  rw [auditPath, dif_pos many, if_pos inside]

theorem auditPath_right (many : 1 < size) (index : Nat) : auditPath hash leaves start size (splitPoint size + index) =
      auditPath hash leaves (start + splitPoint size) (size - splitPoint size) index ++
        [(true, hash.root (merkle leaves start (splitPoint size)))] := by
  rw [auditPath, dif_pos many, if_neg (by omega), Nat.add_sub_cancel_left]

theorem sides_auditPath : (auditPath hash leaves start size index).map Prod.fst = sides size index := by
  induction size using Nat.strongRecOn generalizing start index with
  | ind size ih =>
    rw [auditPath, sides]
    split
    next many =>
      have := splitPoint_lt many
      have := splitPoint_pos size
      split
      · rw [List.map_append, ih _ (by omega)]
        rfl
      · rw [List.map_append, ih _ (by omega)]
        rfl
    · rfl

theorem up_auditPath (inside : index < size) :
    hash.Up (merkle leaves start size) (.leaf (leaves (start + index))) (auditPath hash leaves start size index) := by
  induction size using Nat.strongRecOn generalizing start index with
  | ind size ih =>
    rw [auditPath, merkle]
    split
    next many =>
      have := splitPoint_lt many
      have := splitPoint_pos size
      split
      · exact .left _ (ih _ (by omega) (by omega))
      have inner := @ih (size - splitPoint size) (by omega) (start + splitPoint size) (index - splitPoint size)
        (by omega)
      have same : start + splitPoint size + (index - splitPoint size) = start + index := by omega
      rw [same] at inner
      exact .right _ inner
    · obtain rfl : index = 0 := by omega
      exact .here _

/-- A path up from a leaf is the audit path of one of the leaves. -/
theorem auditPath_of_up (nonempty : 0 < size) (up : hash.Up (merkle leaves start size) (.leaf value) path) :
    ∃ index < size, value = leaves (start + index) ∧ path = auditPath hash leaves start size index := by
  induction size using Nat.strongRecOn generalizing start path with
  | ind size ih =>
    rw [merkle] at up
    split at up
    next many =>
      have := splitPoint_lt many
      have := splitPoint_pos size
      cases up with
      | left _ up =>
        obtain ⟨index, inside, value, rfl⟩ := ih _ (by omega) (by omega) up
        exact ⟨index, by omega, value, (auditPath_left many inside).symm⟩
      | right _ up =>
        obtain ⟨index, _, value, rfl⟩ := ih _ (by omega) (by omega) up
        exact ⟨splitPoint size + index, by omega, by rw [value, Nat.add_assoc], (auditPath_right many index).symm⟩
    next few =>
      cases up with
      | here =>
        refine ⟨0, nonempty, rfl, ?_⟩
        rw [auditPath, dif_neg few]

theorem sides_one (index : Nat) : sides 1 index = [] := by
  rw [sides, dif_neg (by omega)]

theorem sides_left (many : 1 < size) (inside : index < splitPoint size) :
    sides size index = sides (splitPoint size) index ++ [false] := by
  rw [sides, dif_pos many, if_pos inside]

theorem sides_right (many : 1 < size) (outside : splitPoint size ≤ index) :
    sides size index = sides (size - splitPoint size) (index - splitPoint size) ++ [true] := by
  rw [sides, dif_pos many, if_neg (by omega)]

/-- One level of the tree: the sibling of an odd index is on the left, that of an even one on
the right, and the last index of an odd size has none. -/
theorem sides_step (many : 1 < size) (inside : index < size) :
    sides size index = (if index % 2 = 1 then [true] else if index + 1 = size then [] else [false]) ++
      sides ((size + 1) / 2) (index / 2) := by
  induction size using Nat.strongRecOn generalizing index with
  | ind size ih =>
    have small := splitPoint_lt many
    by_cases two : size = 2
    · subst two
      have split : splitPoint 2 = 1 := rfl
      by_cases left : index = 0
      · subst left
        rw [sides_left many (by omega), split, sides_one]
        rfl
      · obtain rfl : index = 1 := by omega
        rw [sides_right many (by omega), split, sides_one]
        rfl
    · have pos := splitPoint_pos ((size + 1) / 2)
      have double : splitPoint size = 2 * splitPoint ((size + 1) / 2) := splitPoint_double (by omega)
      have halves : 1 < (size + 1) / 2 := by omega
      by_cases left : index < splitPoint size
      · have inner := @ih (splitPoint size) small index (by omega) left
        have even : (splitPoint size + 1) / 2 = splitPoint ((size + 1) / 2) := by omega
        rw [sides_left many left, inner, sides_left halves (by omega), even, List.append_assoc]
        by_cases odd : index % 2 = 1
        · rw [if_pos odd, if_pos odd]
        · rw [if_neg odd, if_neg odd, if_neg (by omega), if_neg (by omega)]
      rw [sides_right many (by omega), sides_right halves (by omega)]
      by_cases last : size - splitPoint size = 1
      · have single : (size + 1) / 2 - splitPoint ((size + 1) / 2) = 1 := by omega
        rw [last, single, sides_one, sides_one, if_neg (by omega), if_pos (by omega)]
        rfl
      have inner := @ih (size - splitPoint size) (by omega) (index - splitPoint size) (by omega) (by omega)
      have rest : (size - splitPoint size + 1) / 2 = (size + 1) / 2 - splitPoint ((size + 1) / 2) := by omega
      have shifted : (index - splitPoint size) / 2 = index / 2 - splitPoint ((size + 1) / 2) := by omega
      have parity : (index - splitPoint size) % 2 = index % 2 := by omega
      have edge : index - splitPoint size + 1 = size - splitPoint size ↔ index + 1 = size := by omega
      rw [inner, rest, shifted, parity, List.append_assoc]
      simp only [edge]

/-- In a full tree the sides are the bits of the index. -/
theorem sides_full (level : Nat) (inside : index < 2 ^ level) :
    sides (2 ^ level) index = (List.range level).map index.testBit := by
  induction level generalizing index with
  | zero => exact sides_one index
  | succ level ih =>
    have half : (2 ^ (level + 1) + 1) / 2 = 2 ^ level := by omega
    rw [sides_step (by omega) inside, half, ih (by omega), List.range_succ_eq_map, List.map_cons, List.map_map]
    have first : (if index % 2 = 1 then [true] else if index + 1 = 2 ^ (level + 1) then [] else [false]) =
        [index.testBit 0] := by
      by_cases odd : index % 2 = 1
      · simp [Nat.testBit_zero, odd]
      · rw [if_neg odd, if_neg (by omega)]
        simp [Nat.testBit_zero, odd]
    have rest : (index / 2).testBit = index.testBit ∘ Nat.succ := by
      funext bit
      exact (Nat.testBit_succ index bit).symm
    rw [first, rest]
    rfl

/-- The last leaf is the one whose siblings all stand on the left. -/
theorem sides_last (inside : index < size) : (∀ side ∈ sides size index, side = true) ↔ index + 1 = size := by
  induction size using Nat.strongRecOn generalizing index with
  | ind size ih =>
    by_cases many : 1 < size
    · have := splitPoint_lt many
      have := splitPoint_pos size
      by_cases left : index < splitPoint size
      · rw [sides_left many left]
        constructor
        · intro all
          exact absurd (all false (by simp)) (by simp)
        · omega
      · have inner := @ih (size - splitPoint size) (by omega) (index - splitPoint size) (by omega)
        have edge : index - splitPoint size + 1 = size - splitPoint size ↔ index + 1 = size := by omega
        rw [sides_right many (by omega), ← edge, ← inner]
        simp
    · obtain ⟨rfl, rfl⟩ : size = 1 ∧ index = 0 := by omega
      simp [sides_one]

theorem sides_ne_nil (many : 1 < size) : sides size index ≠ [] := by
  rw [sides, dif_pos many]
  split <;> simp

/-- The last leaf of an odd size moves up alone. -/
theorem sides_lone (level odd : Nat) : sides (2 ^ level * odd + 1) (2 ^ level * odd) = sides (odd + 1) odd := by
  induction level with
  | zero => rw [Nat.pow_zero, Nat.one_mul]
  | succ level ih =>
    by_cases nothing : odd = 0
    · rw [nothing, Nat.mul_zero]
    have pos : 0 < 2 ^ level * odd := Nat.mul_pos (Nat.two_pow_pos level) (by omega)
    have double : 2 ^ (level + 1) * odd = 2 * (2 ^ level * odd) := by
      rw [Nat.pow_succ', Nat.mul_assoc]
    have up : (2 * (2 ^ level * odd) + 1 + 1) / 2 = 2 ^ level * odd + 1 := by omega
    have half : 2 * (2 ^ level * odd) / 2 = 2 ^ level * odd := by omega
    rw [double, sides_step (by omega) (by omega), if_neg (by omega), if_pos rfl, up, half, ih]
    rfl

end Swarmada.Hash
