import Swarmada.TaskController.Settled

/-! # The retention of a loop

A settled iteration names its loop by the anchor member, and the loops of an accepted tree may
share one.
-/

namespace Swarmada.TaskController

open Api Flow

variable {ν : Type} [LT ν] [LE ν] [DecidableRel fun a b : ν => a < b] [DecidableRel fun a b : ν => a ≤ b]

/-- The place of the loop that `findLoopNode` finds among the nodes of the tree. -/
def foundAt (flow : FlowNode ν) (anchor : String) : Option Nat :=
  (subnodes flow).findIdx? fun node => (loopOver anchor node).isSome

theorem findIdx?_eq_length_iff (matches_ : found here = true) :
    (before ++ here :: after).findIdx? found = some before.length ↔ ∀ node ∈ before, found node = false := by
  induction before with
  | nil => simp [List.findIdx?_cons, matches_]
  | cons first before ih =>
    rw [List.forall_mem_cons, ← ih, List.cons_append, List.findIdx?_cons]
    cases found first <;> simp

theorem findSome?_eq_bind_findIdx? (find : α → Option β) (list : List α) :
    list.findSome? find = (list.findIdx? fun a => (find a).isSome).bind fun i => list[i]?.bind find := by
  induction list with
  | nil => rfl
  | cons first rest ih =>
    rw [List.findSome?_cons, List.findIdx?_cons]
    cases here : find first with
    | none => simp [ih, Option.bind_map]
    | some => simp [here]

/-- A settlement is reported for a loop of the tree, and its bookkeeping finds that loop exactly if no loop before it has
the same anchor. -/
theorem settled_loop_found_iff {ctx : Context ν} {flow : FlowNode ν} {settlement : IterationSettlement}
    (reported : .settled settlement ∈ (evaluate ctx flow).2) :
    findLoopNode flow settlement.anchorMember =
        ((foundAt flow settlement.anchorMember).bind fun place =>
          (subnodes flow)[place]?.bind (loopOver settlement.anchorMember)) ∧
      (∃ before spec body after, subnodes flow = before ++ .loop spec body :: after ∧
        .settled settlement ∈ loopReport ctx (spec, body)) ∧
      ∀ before spec body after, subnodes flow = before ++ .loop spec body :: after →
        .settled settlement ∈ loopReport ctx (spec, body) →
        (foundAt flow settlement.anchorMember = some before.length ↔
          ∀ node ∈ before, loopOver (anchorMember body) node = none) := by
  refine ⟨?_, ?_, fun before spec body after placed own => ?_⟩
  · rw [findLoopNode_eq, findSome?_eq_bind_findIdx?]
    rfl
  · obtain ⟨loop, member, own⟩ := exists_loopReport reported rfl
    obtain ⟨before, after, placed⟩ := List.append_of_mem (loop_subnodes member)
    exact ⟨before, loop.1, loop.2, after, placed, own⟩
  · have anchor := (loopReport_anchor own).2.1 settlement rfl
    rw [foundAt, placed, anchor, findIdx?_eq_length_iff (by simp [loopOver])]
    simp

def scans (keep : Int) : LoopSpec :=
  { mode := .times, times := some 1, retention := some { keepIterationRecords := keep } }

def scanned : Context Nat where
  now := 0
  child _ _ := { exist := true, phase := .succeeded }
  loopProgress _ := { iteration := 1 }
  parseFloat _ := none

theorem settled_loop_found_scan :
    .settled ⟨"scan", 1, .succeeded⟩ ∈ (evaluate scanned (.loop (scans 5) (.run "scan"))).2 ∧
      foundAt (.loop (scans 5) (.run "scan") : FlowNode Nat) "scan" = some 0 := by
  have reported : .settled ⟨"scan", 1, .succeeded⟩ ∈ (evaluate scanned (.loop (scans 5) (.run "scan"))).2 := by
    decide +kernel
  have found := (settled_loop_found_iff reported).2.2 [] (scans 5) (.run "scan") [.run "scan"] rfl (by decide +kernel)
  exact ⟨reported, found.mpr (List.forall_mem_nil _)⟩

/-- Each loop settles an iteration, and the first one's retention is applied to both. -/
theorem second_scan_kept_as_first :
    validateStructure (fun member => member = "scan")
        (.sequence [.loop (scans 5) (.run "scan"), .loop (scans 1) (.run "scan")] : FlowNode Nat) = .ok () ∧
      settlements (evaluate scanned (.sequence [.loop (scans 5) (.run "scan"), .loop (scans 1) (.run "scan")])).2 =
        [⟨"scan", 1, .succeeded⟩, ⟨"scan", 1, .succeeded⟩] ∧
      .settled ⟨"scan", 1, .succeeded⟩ ∈ loopReport scanned (scans 1, .run "scan") ∧
      findLoopNode (.sequence [.loop (scans 5) (.run "scan"), .loop (scans 1) (.run "scan")] : FlowNode Nat) "scan" =
        some (scans 5) := by
  exact ⟨rfl, by decide +kernel, by decide +kernel, by decide +kernel⟩

end Swarmada.TaskController
