import Swarmada.Executorguard.Guard

namespace Swarmada.Executorguard

/-- No stop keeps the recorder's record, and it is provably off the action. -/
def Input.releases (input : Input) (r : Recorder) : Bool :=
  (r.covered = "" || input.moveAuthorized) && (r.cancelConfirmed || r.ended || input.leaseDead)

def Input.at (input : Input) (now : Nat) : Input := { input with now }

variable {input : Input} {r : Recorder} {d : Decision} {later : Nat}

theorem keepsRecord_eq : keepsRecord r.covered input.moveAuthorized = !(r.covered = "" || input.moveAuthorized) := by
  unfold keepsRecord
  by_cases free : r.covered = "" <;> simp [free]

theorem uncovered_iff : keepsRecord r.covered input.moveAuthorized = false ↔ (r.covered = "" || input.moveAuthorized) = true := by
  rw [keepsRecord_eq, Bool.not_eq_false']

theorem decideRecorder_release (released : input.releases r = true) :
    (input.decideRecorder d r).release = d.release ++ [r.robot] ∧ (input.decideRecorder d r).blocked = d.blocked ∧
      (input.decideRecorder d r).wait = d.wait := by
  unfold Input.releases at released
  simp only [Bool.and_eq_true] at released
  obtain ⟨uncovered, proof⟩ := released
  unfold Input.decideRecorder
  rw [keepsRecord_eq, uncovered, if_neg (by simp)]
  split_ifs with cancelled ended dead
  · exact ⟨rfl, rfl, rfl⟩
  · exact ⟨rfl, rfl, rfl⟩
  · exact ⟨rfl, rfl, rfl⟩
  all_goals simp [cancelled, ended, dead] at proof

def Input.waitFor (input : Input) (r : Recorder) : Nat :=
  if keepsRecord r.covered input.moveAuthorized then coveredRecheck else input.dead - input.now + 1

theorem decideRecorder_block (unreleased : input.releases r = false) : (input.decideRecorder d r).release = d.release ∧
      (input.decideRecorder d r).blocked = (if d.blocked = "" then r.robot else d.blocked) ∧
      (input.decideRecorder d r).wait = (if d.blocked = "" then input.waitFor r else d.wait) := by
  unfold Input.waitFor Input.decideRecorder
  by_cases kept : keepsRecord r.covered input.moveAuthorized = true
  · rw [if_pos kept, if_pos kept]
    split_ifs <;> exact ⟨rfl, rfl, rfl⟩
  have uncovered := uncovered_iff.mp (Bool.not_eq_true _ ▸ kept)
  simp only [Input.releases, uncovered, Bool.true_and, Bool.or_eq_false_iff] at unreleased
  obtain ⟨⟨running, unended⟩, alive⟩ := unreleased
  simp only [running, unended, alive, Bool.false_eq_true, if_false]
  split_ifs <;> exact ⟨rfl, rfl, rfl⟩

structure Input.Tallied (input : Input) (seen : List Recorder) (d : Decision) : Prop where
  release : d.release = (seen.filter input.releases).map Recorder.robot
  free : d.blocked = "" → ∀ r ∈ seen, input.releases r = true
  blocked : d.blocked ≠ "" → ∃ r ∈ seen, r.robot = d.blocked ∧ input.releases r = false ∧ d.wait = input.waitFor r

theorem Input.Tallied.recorder (tallied : input.Tallied seen d) (named : r.robot ≠ "") :
    input.Tallied (seen ++ [r]) (input.decideRecorder d r) := by
  cases released : input.releases r with
  | true =>
    obtain ⟨release, blocked, wait⟩ := decideRecorder_release (d := d) released
    refine ⟨?_, fun free r' member => ?_, fun held => ?_⟩
    · rw [release, tallied.release, List.filter_append, List.map_append]
      simp [released]
    · rw [blocked] at free
      rcases List.mem_append.mp member with earlier | last
      · exact tallied.free free r' earlier
      · rwa [List.mem_singleton.mp last]
    · rw [blocked, wait] at *
      obtain ⟨blocker, blockerIn, rest⟩ := tallied.blocked held
      exact ⟨blocker, List.mem_append_left _ blockerIn, rest⟩
  | false =>
    obtain ⟨release, blocked, wait⟩ := decideRecorder_block (d := d) released
    by_cases free : d.blocked = ""
    · rw [if_pos free] at blocked wait
      refine ⟨?_, fun none => absurd (blocked.symm.trans none) named, fun _ => ⟨r, by simp, blocked.symm, released, wait⟩⟩
      rw [release, tallied.release, List.filter_append, List.map_append]
      simp [released]
    rw [if_neg free] at blocked wait
    refine ⟨?_, fun none => absurd (blocked.symm.trans none) free, fun _ => ?_⟩
    · rw [release, tallied.release, List.filter_append, List.map_append]
      simp [released]
    · obtain ⟨blocker, blockerIn, same, rest⟩ := tallied.blocked free
      exact ⟨blocker, List.mem_append_left _ blockerIn, same.trans blocked.symm, rest.1, wait.trans rest.2⟩

theorem Input.tallied (named : ∀ r ∈ input.recorders, r.robot ≠ "") : input.Tallied input.recorders input.decide := by
  have loop : ∀ rest seen d, (∀ r ∈ rest, r.robot ≠ "") → input.Tallied seen d →
      input.Tallied (seen ++ rest) (rest.foldl input.decideRecorder d) := by
    intro rest
    induction rest with
    | nil =>
      simpa using tallied
    | cons r rest ih =>
      intro seen d named tallied
      have next := ih (seen ++ [r]) _ (fun r' member => named r' (List.mem_cons_of_mem _ member))
        (tallied.recorder (named r List.mem_cons_self))
      rwa [List.append_assoc] at next
  exact loop input.recorders [] {} named ⟨rfl, by simp, by simp⟩

def Input.Bounded (input : Input) : Prop := input.horizon ≠ none ∨ input.reference ≠ none

theorem dead_at (bounded : input.Bounded) : (input.at later).dead = input.dead := by
  obtain ⟨horizon, reference, _, _, _, _, _⟩ := input
  cases horizon with
  | some => rfl
  | none =>
    cases reference with
    | some => rfl
    | none => simp [Input.Bounded] at bounded

theorem leaseDead_iff : input.leaseDead = true ↔ input.dead ≤ input.now := by
  simp [Input.leaseDead]

theorem leaseDead_unbounded (unbounded : ¬ input.Bounded) : input.leaseDead = false := by
  obtain ⟨_, _, _, _, _, _, _⟩ := input
  simp only [Input.Bounded, not_or, not_not] at unbounded
  obtain ⟨rfl, rfl⟩ := unbounded
  rw [← Bool.not_eq_true, leaseDead_iff]
  simp only [Input.dead, maxLease]
  omega

theorem leaseDead_later (dead : input.leaseDead = true) (from_now : input.now ≤ later) :
    (input.at later).leaseDead = true := by
  have bounded : input.Bounded := by
    by_contra unbounded
    simp [leaseDead_unbounded unbounded] at dead
  rw [leaseDead_iff] at dead ⊢
  rw [dead_at bounded]
  exact Nat.le_trans dead from_now

theorem releases_later (released : input.releases r = true) (from_now : input.now ≤ later) :
    (input.at later).releases r = true := by
  simp only [Input.releases, Bool.and_eq_true, Bool.or_eq_true] at released ⊢
  refine ⟨released.1, released.2.imp_right fun dead => leaseDead_later dead from_now⟩

theorem releases_after_wait (uncovered : keepsRecord r.covered input.moveAuthorized = false) (bounded : input.Bounded)
    (waited : input.now + input.waitFor r ≤ later) : (input.at later).releases r = true := by
  have dead : (input.at later).leaseDead = true := by
    rw [leaseDead_iff, dead_at bounded]
    simp only [Input.waitFor, uncovered, Bool.false_eq_true, if_false] at waited
    change input.dead ≤ later
    omega
  have free := uncovered_iff.mp uncovered
  simp only [Input.releases, Bool.and_eq_true, Bool.or_eq_true]
  exact ⟨by simpa [Input.at] using free, .inr dead⟩

theorem releases_unbounded (unbounded : ¬ input.Bounded) (unreleased : input.releases r = false)
    (uncovered : keepsRecord r.covered input.moveAuthorized = false) : (input.at later).releases r = false := by
  have alive : (input.at later).leaseDead = false := leaseDead_unbounded unbounded
  have free := uncovered_iff.mp uncovered
  simp only [Input.releases, free, Bool.true_and, Bool.or_eq_false_iff] at unreleased
  simp [Input.releases, unreleased.1, alive]

def Input.alone (input : Input) (robot : String) : Input := { input with recorders := [{ robot }] }

theorem alone_releases {robot : String} : (input.alone robot).releases { robot } = input.leaseDead := by
  have same : (input.alone robot).leaseDead = input.leaseDead := rfl
  simp [Input.releases, same]

theorem alone_decide {robot : String} (named : robot ≠ "") :
    (input.alone robot).decide.release = (if input.leaseDead then [robot] else []) ∧
      (input.alone robot).decide.dispatchable = input.leaseDead ∧
      (input.leaseDead = false → (input.alone robot).decide.wait = input.dead - input.now + 1) := by
  have released := @alone_releases input robot
  cases dead : input.leaseDead with
  | true =>
    obtain ⟨release, blocked, _⟩ := decideRecorder_release (d := {}) (released.trans dead)
    have free : (input.alone robot).decide.blocked = "" := blocked
    exact ⟨release, by simp [Decision.dispatchable, free], by simp⟩
  | false =>
    obtain ⟨release, blocked, wait⟩ := decideRecorder_block (d := {}) (released.trans dead)
    refine ⟨release, ?_, fun _ => wait⟩
    have held : (input.alone robot).decide.blocked = robot := blocked
    simp [Decision.dispatchable, held, named]

theorem deleteLosesKey_permits (named : robot ≠ "") :
    (deleteLosesKey robot input).1 = false ↔ input.actionGone = false ∧ robot ∈ (input.alone robot).decide.release := by
  obtain ⟨release, dispatchable, _⟩ := @alone_decide input robot named
  unfold deleteLosesKey
  cases gone : input.actionGone with
  | true => simp
  | false =>
    change (if (input.alone robot).decide.dispatchable then _ else _ : Bool × Option Nat).1 = false ↔ _
    rw [release, dispatchable]
    cases dead : input.leaseDead with
    | true => simp
    | false =>
      split_ifs <;> simp

theorem deleteLosesKey_until (named : robot ≠ "")
    (refused : deleteLosesKey robot input = (true, some time)) (reached : time ≤ later) :
    (deleteLosesKey robot (input.at later)).1 = false := by
  obtain ⟨_, dispatchable, wait⟩ := @alone_decide input robot named
  unfold deleteLosesKey at refused
  cases gone : input.actionGone with
  | true => simp [gone] at refused
  | false =>
    rw [if_neg (by simp [gone])] at refused
    change (if (input.alone robot).decide.dispatchable then _ else _ : Bool × Option Nat) = _ at refused
    rw [dispatchable] at refused
    cases dead : input.leaseDead with
    | true => simp [dead] at refused
    | false =>
      simp only [dead, Bool.false_eq_true, if_false] at refused
      by_cases unbounded : input.horizon = none ∧ input.reference = none
      · rw [if_pos unbounded] at refused
        simp at refused
      rw [if_neg unbounded] at refused
      have bounded : input.Bounded := not_and_or.mp unbounded
      have due : input.now + (input.alone robot).decide.wait = time := Option.some.inj (congrArg Prod.snd refused)
      rw [wait dead] at due
      have deadLater : (input.at later).leaseDead = true := by
        rw [leaseDead_iff, dead_at bounded]
        change input.dead ≤ later
        omega
      rw [deleteLosesKey_permits named, (alone_decide named).1, deadLater]
      exact ⟨gone, List.mem_singleton_self robot⟩

/-- One robot is covered, one has acknowledged its cancel, and the lease of the third runs for two
more minutes. -/
def threeRecorders : Input where
  horizon := some 100
  reference := none
  recorders := [{ robot := "r1" }, { robot := "r2", cancelConfirmed := true }, { robot := "r3", covered := "zone/hall" }]
  now := 10
  skew := 30

end Swarmada.Executorguard
