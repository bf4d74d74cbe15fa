import Mathlib.Data.List.Basic
import Mathlib.Logic.Relation

/-! # Chains of a partial successor

A node has at most one successor, so what lies beyond it is a chain.  A walk along the
chain is bounded by the number of nodes it may meet; a walk that also gives up at a node
met before fails on the same chains, since a chain that comes back never ends.
-/

namespace Swarmada.Graph

universe u

variable {α : Type u} {next other : α → Option α} {left : Nat} {start : Option α} {node far : α}
  {nodes : List α}

/-- The nodes met, when there are at most `left` of them. -/
def chain (next : α → Option α) : Nat → Option α → Option (List α)
  | _, none => some []
  | 0, some _ => none
  | left + 1, some node => (chain next left (next node)).map (node :: ·)

/-- The same walk, given up at a node in `seen`. -/
def guardedChain [DecidableEq α] (next : α → Option α) : Nat → List α → Option α → Option (List α)
  | _, _, none => some []
  | 0, _, some _ => none
  | left + 1, seen, some node =>
    if node ∈ seen then none else (guardedChain next left (node :: seen) (next node)).map (node :: ·)

def Beyond (next : α → Option α) (node far : α) : Prop :=
  Relation.TransGen (fun here there => next here = some there) node far

theorem beyond_iff : Beyond next node far ↔ ∃ first, next node = some first ∧ (first = far ∨ Beyond next first far) := by
  unfold Beyond
  rw [Relation.TransGen.head'_iff]
  simp only [Relation.reflTransGen_iff_eq_or_transGen, @eq_comm _ far]

theorem chain_succ (stepped : chain next (left + 1) (some node) = some nodes) :
    ∃ rest, chain next left (next node) = some rest ∧ nodes = node :: rest := by
  obtain ⟨rest, walked, same⟩ := Option.map_eq_some_iff.mp stepped
  exact ⟨rest, walked, same.symm⟩

theorem chain_length (walked : chain next left start = some nodes) : nodes.length ≤ left := by
  induction left generalizing start nodes with
  | zero =>
    cases start with
    | none =>
      cases walked
      exact Nat.le_refl 0
    | some => contradiction
  | succ left ih =>
    cases start with
    | none =>
      cases walked
      exact Nat.zero_le _
    | some =>
      obtain ⟨_, shorter, rfl⟩ := chain_succ walked
      exact Nat.succ_le_succ (ih shorter)

/-- A completed walk meets what lies beyond the node. -/
theorem mem_chain (walked : chain next left (next node) = some nodes) : far ∈ nodes ↔ Beyond next node far := by
  rw [beyond_iff]
  induction left generalizing node nodes with
  | zero =>
    cases step : next node with
    | none =>
      rw [step] at walked
      cases walked
      simp
    | some =>
      rw [step] at walked
      contradiction
  | succ left ih =>
    cases step : next node with
    | none =>
      rw [step] at walked
      cases walked
      simp
    | some =>
      rw [step] at walked
      obtain ⟨_, shorter, rfl⟩ := chain_succ walked
      rw [List.mem_cons, ih shorter, ← beyond_iff, @eq_comm _ far]
      simp

/-- What lies beyond itself has a successor that does. -/
theorem Beyond.rotate (back : Beyond next node node) : ∃ first, next node = some first ∧ Beyond next first first := by
  obtain ⟨first, step, same | rest⟩ := beyond_iff.mp back
  · subst same
    exact ⟨first, step, back⟩
  · exact ⟨first, step, Relation.TransGen.tail rest step⟩

theorem not_beyond_self (walked : chain next left (some node) = some nodes) : ¬ Beyond next node node := by
  induction left generalizing node nodes with
  | zero => contradiction
  | succ left ih =>
    intro back
    obtain ⟨_, step, again⟩ := back.rotate
    obtain ⟨_, shorter, -⟩ := chain_succ walked
    rw [step] at shorter
    exact ih shorter again

/-- Giving up at a node met before loses no chain that ends. -/
theorem guardedChain_eq_chain [DecidableEq α] (met : ∀ node ∈ start, ∀ earlier ∈ seen, Beyond next earlier node) :
    guardedChain next left seen start = chain next left start := by
  induction left generalizing start seen with
  | zero => cases start <;> simp only [guardedChain, chain]
  | succ left ih =>
    cases start with
    | none => simp only [guardedChain, chain]
    | some node =>
      have leads : ∀ earlier ∈ seen, Beyond next earlier node := met node rfl
      by_cases again : node ∈ seen
      · have endless : chain next (left + 1) (some node) = none := by
          rw [Option.eq_none_iff_forall_ne_some]
          intro nodes walked
          exact not_beyond_self walked (leads node again)
        rw [guardedChain, if_pos again, endless]
      rw [guardedChain, if_neg again, chain, ih]
      intro further step earlier member
      have stepped : next node = some further := step
      rcases List.mem_cons.mp member with rfl | older
      · exact Relation.TransGen.single stepped
      · exact Relation.TransGen.tail (leads earlier older) stepped

/-- A walk sees the successor only at the nodes of a region it does not leave. -/
theorem chain_congr {inside : α → Prop} (agree : ∀ node, inside node → other node = next node)
    (stays : ∀ node far, inside node → next node = some far → inside far) (begins : ∀ node ∈ start, inside node) :
    chain other left start = chain next left start := by
  induction left generalizing start with
  | zero => cases start <;> simp only [chain]
  | succ left ih =>
    cases start with
    | none => simp only [chain]
    | some node =>
      have here : inside node := begins node rfl
      rw [chain, chain, agree node here, ih]
      intro far step
      exact stays node far here step

end Swarmada.Graph
