import Swarmada.Command.FenceMoves
import Swarmada.Transition.Mutex

namespace Swarmada.Command

open Api Transition

variable {settings : Settings} {start me sender call : Nat} {state after : FenceState}
  {wire stop : String} {events history : List Event} {thread next : Thread}

def heldAfter : List Event → List String
  | [] => []
  | .added stop :: older => addHeld (heldAfter older) stop
  | .heldCleared :: _ => []
  | _ :: older => heldAfter older

/-- The call has found no stop in force, and none has been added since. -/
def Checked (history : List Event) (call : Nat) : Prop :=
  ∃ since before, history = since ++ .checked call :: before ∧ ∀ stop, .added stop ∉ since

/-- The stops in force when fences begin on a new stream: those the dispatcher holds, and
those the Robot it has read records. -/
def InForce (before : List Event) (robot : Robot) (stop : String) : Prop :=
  stop ∈ heldAfter before ∨ stop ∈ recordedInForce robot

/-- The call has sent down the stream the fence of every stop in force when it began,
but for those a clear ended meanwhile, and of every stop in force now. -/
def FencedBy (history : List Event) (call sender : Nat) (wire : String) : Prop :=
  ∃ during robot before, history = during ++ .fencing call sender wire robot :: before ∧
    (∀ stop, InForce before robot stop → .fenceSent sender wire stop ∈ during ∨ .heldCleared ∈ during) ∧
    ∀ stop ∈ heldAfter history, .fenceSent sender wire stop ∈ during

def Fenced (history : List Event) (sender : Nat) (wire : String) : Prop :=
  ∃ call since before, history = since ++ .ready call sender wire :: before ∧
    FencedBy before call sender wire

/-- An AssignAction or a motion Command is sent only while no stop is in force, an AssignAction with none added since
its check and, on a stream registered in the run, after the fences sent there; a stop's fence follows its add. -/
def FenceOrdered (older : List Event) : Event → Prop
  | .assignSent call sender wire =>
    heldAfter older = [] ∧ Checked older call ∧ (.opened sender ∈ older → Fenced older sender wire)
  | .fenceSent _ _ stop => .added stop ∈ older
  | .motionSent .. => heldAfter older = []
  | _ => True

theorem mem_heldAfter (member : stop ∈ heldAfter history) : .added stop ∈ history := by
  induction history with
  | nil => simp [heldAfter] at member
  | cons event older ih =>
    cases event with
    | added =>
      simp only [heldAfter, mem_addHeld] at member
      rcases member with rfl | member
      · simp
      · exact List.mem_cons_of_mem _ (ih member)
    | heldCleared => simp [heldAfter] at member
    | _ => exact List.mem_cons_of_mem _ (ih member)

theorem heldAfter_quiet (quiet : ∀ stop, .added stop ∉ events) : heldAfter (events ++ history) = heldAfter history ∨
      .heldCleared ∈ events ∧ heldAfter (events ++ history) = [] := by
  induction events with
  | nil => simp
  | cons event events ih =>
    have rest := ih fun stop member => quiet stop (List.mem_cons_of_mem _ member)
    cases event with
    | added stop => exact absurd List.mem_cons_self (quiet stop)
    | heldCleared => simp [heldAfter]
    | _ => simpa [heldAfter] using rest

theorem heldAfter_quiet_nil (quiet : ∀ stop, .added stop ∉ events) (none : heldAfter history = []) :
    heldAfter (events ++ history) = [] := by
  rcases @heldAfter_quiet events history quiet with same | ⟨-, cleared⟩
  · rw [same, none]
  · exact cleared

theorem Checked.quiet (quiet : ∀ stop, .added stop ∉ events) (checked : Checked history call) :
    Checked (events ++ history) call := by
  obtain ⟨since, before, rfl, none⟩ := checked
  refine ⟨events ++ since, before, by simp, fun stop member => ?_⟩
  rcases List.mem_append.mp member with new | old
  · exact quiet stop new
  · exact none stop old

theorem Fenced.later (fenced : Fenced history sender wire) : Fenced (events ++ history) sender wire := by
  obtain ⟨call, since, before, rfl, sent⟩ := fenced
  exact ⟨call, events ++ since, before, by simp, sent⟩

def Adding (history : List Event) (me : Nat) (pass : Pass) (rest : List String) : Prop :=
  ∃ during before, history = during ++ .fencing me pass.sender pass.wire pass.robot :: before ∧
    ∀ stop, InForce before pass.robot stop →
      stop ∈ rest ∨ stop ∈ heldAfter history ∨ .heldCleared ∈ during

def Sending (history : List Event) (me : Nat) (pass : Pass) (rest : List String) : Prop :=
  ∃ during before, history = during ++ .fencing me pass.sender pass.wire pass.robot :: before ∧
    (∀ stop, InForce before pass.robot stop →
      stop ∈ rest ∨ .fenceSent pass.sender pass.wire stop ∈ during ∨ .heldCleared ∈ during) ∧
    (∀ stop ∈ heldAfter history, stop ∈ rest ∨ .fenceSent pass.sender pass.wire stop ∈ during) ∧
    ∀ stop ∈ rest, .added stop ∈ history

def Pass.Named (pass : Pass) : Prop := pass.assigning = true → pass.wire = pass.robot.wire

def FencedSince (start : Nat) (history : List Event) (sender : Nat) (wire : String) : Prop :=
  sender < start ∨ Fenced history sender wire

def Placed (start : Nat) (history : List Event) (me : Nat) : Thread → Prop
  | .fenceLookup _ stop false | .fenceSend _ _ stop false => .added stop ∈ history
  | .assign _ (.ready _) => Checked history me ∧ heldAfter history = []
  | .assign robot (.recheck sender) => FencedSince start history sender robot.wire
  | .assign robot (.send sender) =>
    Checked history me ∧ heldAfter history = [] ∧ FencedSince start history sender robot.wire
  | .adding pass rest => pass.Named ∧ Adding history me pass rest
  | .sending pass rest => pass.Named ∧ Sending history me pass rest
  | .move (.looking _ true) | .move (.sending _ true _) => heldAfter history = []
  | _ => True

structure Standing (start : Nat) (history : List Event) (state : FenceState) : Prop where
  held : state.held = heldAfter history
  opened : start ≤ state.opened
  streams : ∀ sender, .opened sender ∈ history → start ≤ sender
  ready : ∀ mark ∈ state.ready, FencedSince start history mark.1 mark.2
  ordered : Always FenceOrdered history

variable {pass : Pass}

theorem FencedSince.later (fenced : FencedSince start history sender wire) :
    FencedSince start (events ++ history) sender wire :=
  fenced.imp_right Fenced.later

theorem Adding.quiet (quiet : ∀ stop, .added stop ∉ events)
    (adding : Adding history me pass rest) : Adding (events ++ history) me pass rest := by
  obtain ⟨during, before, split, covered⟩ := adding
  refine ⟨events ++ during, before, by simp [split], fun stop inForce => ?_⟩
  have kept := @heldAfter_quiet events history quiet
  rcases covered stop inForce with waiting | held | cleared
  · exact .inl waiting
  · rcases kept with same | ⟨cleared, -⟩
    · exact .inr (.inl (same ▸ held))
    · exact .inr (.inr (List.mem_append_left _ cleared))
  · exact .inr (.inr (List.mem_append_right _ cleared))

theorem Sending.quiet (quiet : ∀ stop, .added stop ∉ events)
    (sending : Sending history me pass rest) : Sending (events ++ history) me pass rest := by
  obtain ⟨during, before, split, covered, held, added⟩ := sending
  refine ⟨events ++ during, before, by simp [split], fun stop inForce => ?_, fun stop member => ?_,
    fun stop member => List.mem_append_right _ (added stop member)⟩
  · have known := covered stop inForce
    simp only [List.mem_append]
    tauto
  have earlier : stop ∈ heldAfter history := by
    rcases @heldAfter_quiet events history quiet with same | ⟨-, none⟩
    · exact same ▸ member
    · simp [none] at member
  exact (held stop earlier).imp_right (List.mem_append_right _)

theorem Placed.quiet (quiet : ∀ stop, .added stop ∉ events) (placed : Placed start history me thread) :
    Placed start (events ++ history) me thread := by
  unfold Placed at placed ⊢
  split
  · exact List.mem_append_right _ placed
  · exact List.mem_append_right _ placed
  · exact ⟨placed.1.quiet quiet, heldAfter_quiet_nil quiet placed.2⟩
  · exact FencedSince.later placed
  · exact ⟨placed.1.quiet quiet, heldAfter_quiet_nil quiet placed.2.1, placed.2.2.later⟩
  · exact ⟨placed.1, placed.2.quiet quiet⟩
  · exact ⟨placed.1, placed.2.quiet quiet⟩
  · exact heldAfter_quiet_nil quiet placed
  · exact heldAfter_quiet_nil quiet placed
  · trivial

variable (move : Move settings me state thread after next events)

include move in
theorem Move.lock : LockStep me state.lock after.lock thread.holdsLock next.holdsLock := by
  cases move with
  | outside _ lock _ later => exact .kept lock (by simp [later])
  | fenceAdded free | fenceLocked free | assignLocked free | registerFences free | moveLocked free =>
    exact .taken free rfl
  | returned before => exact .released rfl before rfl
  | moveReturned inside later => exact .released rfl inside later
  | moveSent later | holdSent later => exact .released rfl rfl later
  | fenceSent | clearedFenceSent | assignSent | passDone => exact .released rfl rfl rfl
  | _ => exact .kept rfl id

include move in
theorem Move.added (member : .added stop ∈ events) : state.lock = none ∨ thread.holdsLock = true := by
  cases move with
  | fenceAdded free => exact .inl free
  | passAdded => exact .inr rfl
  | _ => simp at member

include move in
theorem Move.held (held : state.held = heldAfter history) : after.held = heldAfter (events ++ history) := by
  cases move with
  | outside frame => rw [frame.held, held, List.nil_append]
  | moveLocked _ _ frame =>
    simp only [FenceState.locked, List.nil_append]
    rw [frame.held, held]
  | heldCleared => rfl
  | fenceAdded => simp [FenceState.addHeld, FenceState.locked, heldAfter, held]
  | passAdded => simp [FenceState.addHeld, heldAfter, held]
  | _ => exact held

include move in
theorem Move.opened_le : state.opened ≤ after.opened ∧ ∀ sender, .opened sender ∈ events → sender = state.opened := by
  cases move with
  | opened => simp [FenceState.registerStream]
  | outside frame => simp [frame.opened]
  | moveLocked _ _ frame => simp [FenceState.locked, frame.opened]
  | _ => exact ⟨le_refl _, by simp⟩

theorem Sending.done (sending : Sending history me pass []) :
    Fenced (.ready me pass.sender pass.wire :: history) pass.sender pass.wire := by
  obtain ⟨during, before, split, covered, held, -⟩ := sending
  refine ⟨me, [], history, rfl, during, pass.robot, before, split, fun stop inForce => ?_,
    fun stop member => ?_⟩
  · simpa using covered stop inForce
  · simpa using held stop member

include move in
theorem Move.ready (placed : Placed start history me thread)
    (ready : ∀ mark ∈ state.ready, FencedSince start history mark.1 mark.2) :
    ∀ mark ∈ after.ready, FencedSince start (events ++ history) mark.1 mark.2 := by
  have old (mark : Nat × String) (member : mark ∈ state.ready) :
      FencedSince start (events ++ history) mark.1 mark.2 :=
    (ready mark member).later
  cases move with
  | outside frame | moveLocked _ _ frame => exact fun mark member => old mark (frame.ready mark member)
  | passReady | passDone =>
    intro mark member
    rcases List.mem_cons.mp member with rfl | earlier
    · exact .inr placed.2.done
    · exact old mark earlier
  | _ => exact old

include move in
theorem Move.ordered (placed : Placed start history me thread) (standing : Standing start history state) :
    Always FenceOrdered (events ++ history) := by
  have past := standing.ordered
  cases move with
  | fenceSent | moveSent => exact ⟨placed, past⟩
  | passSent =>
    obtain ⟨-, _, _, -, -, -, added⟩ := placed
    exact ⟨added _ List.mem_cons_self, past⟩
  | @assignSent _ sender =>
    obtain ⟨checked, none, fenced⟩ := placed
    refine ⟨⟨none, checked, fun opened => ?_⟩, past⟩
    have late := standing.streams sender opened
    exact fenced.resolve_left (by omega)
  | _ => first | exact past | exact ⟨trivial, past⟩

include move in
theorem Move.standing (placed : Placed start history me thread) (standing : Standing start history state) :
    Standing start (events ++ history) after := by
  obtain ⟨grows, fresh⟩ := move.opened_le
  constructor
  case held => exact move.held standing.held
  case opened => exact standing.opened.trans grows
  case streams =>
    intro sender member
    rcases List.mem_append.mp member with new | old
    · rw [fresh sender new]
      exact standing.opened
    · exact standing.streams sender old
  case ready => exact move.ready placed standing.ready
  case ordered => exact move.ordered placed standing

theorem Thread.placed_of_unlocked (outside : thread.holdsLock = false) : Placed start history me thread := by
  unfold Placed
  split <;> trivial

theorem Move.placed (move : Move (managerSettings latch) me state thread after next events)
    (placed : Placed start history me thread) (standing : Standing start history state) :
    Placed start (events ++ history) me next := by
  have none (empty : state.held = []) : heldAfter history = [] := by rw [← standing.held, empty]
  cases move with
  | outside _ _ _ later | moveReturned _ later | moveSent later | holdSent later =>
    exact Thread.placed_of_unlocked later
  | fenceAdded => exact List.mem_cons_self
  | @fenceFound _ _ _ cleared =>
    cases cleared with
    | true => trivial
    | false => exact placed
  | assignChecked empty =>
    have checked : Checked (.checked me :: history) me := ⟨[], history, rfl, by simp⟩
    exact ⟨checked, none empty⟩
  | assignRechecked empty =>
    have checked : Checked (.checked me :: history) me := ⟨[], history, rfl, by simp⟩
    have fenced : FencedSince start ([.checked me] ++ history) _ _ := FencedSince.later placed
    exact ⟨checked, none empty, fenced⟩
  | assignReady ready =>
    have fenced := standing.ready _ (ready rfl)
    exact ⟨placed.1, placed.2, fenced⟩
  | assignFences =>
    refine ⟨fun _ => rfl, [], history, rfl, fun stop inForce => ?_⟩
    rcases inForce with held | recorded
    · exact .inr (.inl held)
    · exact .inl recorded
  | registerFences =>
    refine ⟨by simp [Pass.Named], [], history, rfl, fun stop inForce => ?_⟩
    rcases inForce with held | recorded
    · exact .inr (.inl held)
    · exact .inl recorded
  | @passAdded stop =>
    obtain ⟨named, during, before, split, covered⟩ := placed
    refine ⟨named, .added stop :: during, before, by simp [split], fun other inForce => ?_⟩
    have known := covered other inForce
    simp only [List.mem_cons, List.cons_append, List.nil_append, heldAfter, mem_addHeld] at known ⊢
    tauto
  | passListed =>
    obtain ⟨named, during, before, split, covered⟩ := placed
    have listed (stop : String) : stop ∈ heldStops state.held ↔ stop ∈ heldAfter history := by
      rw [heldStops, List.mem_insertionSort, standing.held]
    refine ⟨named, during, before, split, fun stop inForce => ?_, fun stop member => ?_,
      fun stop member => mem_heldAfter ((listed stop).mp member)⟩
    · have known := covered stop inForce
      rw [listed]
      tauto
    · exact .inl ((listed stop).mpr member)
  | @passSent stop _ pass =>
    obtain ⟨named, during, before, split, covered, held, added⟩ := placed
    refine ⟨named, .fenceSent pass.sender pass.wire stop :: during, before, by simp [split],
      fun other inForce => ?_, fun other member => ?_,
      fun other member => List.mem_cons_of_mem _ (added other (List.mem_cons_of_mem _ member))⟩
    · have known := covered other inForce
      simp only [List.mem_cons] at known ⊢
      rcases known with (rfl | _) | _ | _ <;> tauto
    · have known := held other member
      simp only [List.mem_cons] at known ⊢
      rcases known with (rfl | _) | _ <;> tauto
  | passReady assigning =>
    obtain ⟨named, sending⟩ := placed
    have fenced := sending.done
    rw [named assigning] at fenced ⊢
    exact .inr fenced
  | @moveLocked admits _ _ _ _ _ _ checked =>
    cases admits with
    | true => exact none (checked rfl)
    | false => trivial
  | moveFound =>
    rename_i admits sender
    cases admits with
    | true => exact placed
    | false => trivial
  | _ => trivial

theorem Created.standing (created : Created config) : Standing config.shared.opened [] config.shared where
  held := created.held
  opened := le_refl _
  streams := by simp
  ready := fun mark member => .inl (created.marks mark member)
  ordered := trivial

def stoppedRobot : Robot :=
  { ns := "default", name := "r1", adapter := "a1", estopState := .stopped,
    stops := [{ id := "s1", scope := .robot, carrier := none, sentAt := 0 }] }

def takenOver : Config FenceState Thread where
  shared := { stored := stoppedRobot, past := [{ ns := "default", name := "r1", adapter := "a1" }] }
  threads := fun _ => .idle

theorem takenOver_created : Created takenOver where
  held := rfl
  lock := rfl
  marks := by simp [takenOver]
  idle := fun _ => rfl

def steps (me count : Nat) : List (Nat × Act) := List.replicate count (me, .next true)

end Swarmada.Command
