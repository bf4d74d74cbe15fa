import Swarmada.Command.Dispatcher

namespace Swarmada.Command

open Api Transition

variable {settings : Settings} {me : Nat} {state after : FenceState}

def Mover.holdsLock : Mover → Bool
  | .looking .. | .sending .. => true
  | .counting .. | .reading .. | .checking .. | .holding .. | .releasing .. => false

def Thread.holdsLock : Thread → Bool
  | .fenceLookup .. | .fenceSend .. | .adding .. | .sending .. => true
  | .assign _ .lock => false
  | .assign .. => true
  | .move mover => mover.holdsLock
  | .idle | .fence .. | .registering .. | .registered .. | .forgetting .. | .negotiating .. => false

structure Frame (state after : FenceState) : Prop where
  held : after.held = state.held
  opened : after.opened = state.opened
  ready : ∀ mark ∈ after.ready, mark ∈ state.ready

theorem Frame.refl (state : FenceState) : Frame state state := ⟨rfl, rfl, fun _ member => member⟩

inductive Move (settings : Settings) (me : Nat) (state : FenceState) :
    Thread → FenceState → Thread → List Event → Prop
  | outside {after : FenceState} (frame : Frame state after)
      (lock : after.lock = state.lock) (before : thread.holdsLock = false)
      (later : next.holdsLock = false) : Move settings me state thread after next []
  | opened : Move settings me state .idle (state.registerStream adapter) .idle [.opened state.opened]
  | heldCleared : Move settings me state .idle state.clearHeld .idle [.heldCleared]
  | fenceAdded (free : state.lock = none) :
      Move settings me state (.fence robot stop false) ((state.addHeld stop).locked me)
        (.fenceLookup robot stop false) [.added stop]
  | fenceLocked (free : state.lock = none) :
      Move settings me state (.fence robot stop true) (state.locked me) (.fenceLookup robot stop true) []
  | fenceFound (found : state.streams robot.adapter = some sender) :
      Move settings me state (.fenceLookup robot stop cleared) state
        (.fenceSend sender robot.wire stop cleared) []
  | fenceSent :
      Move settings me state (.fenceSend sender wire stop false) state.unlocked .idle
        [.fenceSent sender wire stop]
  | clearedFenceSent :
      Move settings me state (.fenceSend sender wire stop true) state.unlocked .idle
        [.clearedFenceSent sender wire stop]
  | returned (before : thread.holdsLock = true) : Move settings me state thread state.unlocked .idle []
  | assignLocked (free : state.lock = none) :
      Move settings me state (.assign robot .lock) (state.locked me) (.assign robot .lookup) []
  | assignFound (found : state.streams robot.adapter = some sender) :
      Move settings me state (.assign robot .lookup) state (.assign robot (.contract sender)) []
  | assignBound : Move settings me state (.assign robot (.contract sender)) state (.assign robot (.held sender)) []
  | assignChecked (none : state.held = []) :
      Move settings me state (.assign robot (.held sender)) state (.assign robot (.ready sender))
        [.checked me]
  | assignReady (ready : settings.requireRegister = true → (sender, robot.wire) ∈ state.ready) :
      Move settings me state (.assign robot (.ready sender)) state (.assign robot (.send sender)) []
  | assignUnready : Move settings me state (.assign robot (.ready sender)) state (.assign robot (.registered sender)) []
  | assignFences (registered : (sender, robot.wire) ∈ state.registered) :
      Move settings me state (.assign robot (.registered sender)) state
        (.adding { sender, wire := robot.wire, robot, assigning := true } (recordedInForce robot))
        [.fencing me sender robot.wire robot]
  | assignRechecked (none : state.held = []) :
      Move settings me state (.assign robot (.recheck sender)) state (.assign robot (.send sender))
        [.checked me]
  | assignSent :
      Move settings me state (.assign robot (.send sender)) state.unlocked .idle
        [.assignSent me sender robot.wire]
  | registerFences (free : state.lock = none) :
      Move settings me state (.registered sender wire robot) (state.locked me)
        (.adding { sender, wire, robot, assigning := false } (recordedInForce robot))
        [.fencing me sender wire robot]
  | passAdded {pass : Pass} :
      Move settings me state (.adding pass (stop :: rest)) (state.addHeld stop) (.adding pass rest)
        [.added stop]
  | passListed {pass : Pass} : Move settings me state (.adding pass []) state (.sending pass (heldStops state.held)) []
  | passSent {pass : Pass} :
      Move settings me state (.sending pass (stop :: rest)) state (.sending pass rest)
        [.fenceSent pass.sender pass.wire stop]
  | passReady {pass : Pass} (assigning : pass.assigning = true) :
      Move settings me state (.sending pass []) (state.markReady pass.sender pass.wire)
        (.assign pass.robot (.recheck pass.sender)) [.ready me pass.sender pass.wire]
  | passDone {pass : Pass} :
      Move settings me state (.sending pass []) (state.markReady pass.sender pass.wire).unlocked .idle
        [.ready me pass.sender pass.wire]
  | moveLocked {after : FenceState}
      (free : state.lock = none) (outside : mover.holdsLock = false) (frame : Frame state after)
      (checked : admits = true → state.held = []) :
      Move settings me state (.move mover) (after.locked me) (.move (.looking call admits)) []
  | moveFound : Move settings me state (.move (.looking call admits)) state (.move (.sending call admits sender)) []
  | moveReturned (inside : mover.holdsLock = true)
      (later : next.holdsLock = false) : Move settings me state (.move mover) state.unlocked next []
  | moveSent (later : next.holdsLock = false) :
      Move settings me state (.move (.sending call true sender)) state.unlocked next
        [.motionSent me sender call.motion]
  | holdSent (later : next.holdsLock = false) :
      Move settings me state (.move (.sending call false sender)) state.unlocked next
        [.holdSent me sender call.motion]

theorem MotionCall.returned_holdsLock (call : MotionCall) :
    ((call.returned.map Thread.move).getD .idle).holdsLock = false := by
  unfold MotionCall.returned
  split <;> rfl

variable {events : List Event}

theorem begin_move (taken : begin state act = some (after, next, events)) :
    Move settings me state .idle after next events := by
  have called {thread : Robot → Thread} {age : Nat} (out : ∀ robot, (thread robot).holdsLock = false)
      (read : (state.version age).map (fun robot => (state, thread robot, ([] : List Event))) =
        some (after, next, events)) : Move settings me state .idle after next events := by
    obtain ⟨robot, -, same⟩ := Option.map_eq_some_iff.mp read
    cases same
    exact .outside (.refl state) rfl rfl (out robot)
  cases act with
  | sendFence | sendClearedFence | roundTripAssign | roundTripMotion | roundTripHold | robotReleased =>
    exact called (fun _ => rfl) taken
  | robotRegistered =>
    cases taken
    exact .outside ⟨rfl, rfl, fun _ member => member⟩ rfl rfl rfl
  | registerStream =>
    cases taken
    exact .opened
  | deregister =>
    cases taken
    unfold FenceState.deregister
    split <;> exact .outside ⟨rfl, rfl, fun _ member => member⟩ rfl rfl rfl
  | streamNegotiated =>
    simp only [begin] at taken
    split at taken <;> cases taken <;> exact .outside (.refl state) rfl rfl rfl
  | clearHeld =>
    cases taken
    exact .heldCleared
  | write =>
    simp only [begin] at taken
    split at taken <;> try contradiction
    cases taken
    exact .outside ⟨rfl, rfl, fun _ member => member⟩ rfl rfl rfl
  | next => contradiction

theorem Assign.step_move (taken : stage.step settings me state robot = some (after, next, events)) :
    Move settings me state (.assign robot stage) after next events := by
  cases stage <;> simp only [Assign.step] at taken
  case lock =>
    split at taken <;> try contradiction
    rename_i free
    cases taken
    exact .assignLocked (by simpa using free)
  case lookup =>
    split at taken <;> cases taken
    · exact .returned rfl
    next found =>
      exact .assignFound found
  case contract sender =>
    split at taken <;> cases taken
    · exact .returned rfl
    · exact .assignBound
  case held sender =>
    split at taken <;> cases taken
    next none =>
      exact .assignChecked none
    · exact .returned rfl
  case ready sender =>
    split at taken <;> cases taken
    · exact .assignUnready
    next ready =>
      exact .assignReady (by simpa using ready)
  case registered sender =>
    split at taken <;> cases taken
    next registered =>
      exact .assignFences (by simpa using registered)
    · exact .returned rfl
  case recheck sender =>
    split at taken <;> cases taken
    next none =>
      exact .assignRechecked none
    · exact .returned rfl
  case send sender =>
    cases taken
    exact .assignSent

theorem FenceState.held_of_passed {gen : Nat}
    (passed : state.checkMotion call gen current = .passed) : state.held = [] := by
  unfold checkMotion at passed
  split at passed <;> try contradiction
  split at passed <;> try contradiction
  split at passed <;> try contradiction
  rename_i standing
  by_contra some
  exact standing (.inl some)

theorem Mover.step_move (taken : mover.step me state ok = some (after, next, events)) :
    Move settings me state (.move mover) after ((next.map Thread.move).getD .idle) events := by
  have withheld {motions : List Motion} : Frame state { state with withheld := motions } :=
    ⟨rfl, rfl, fun _ member => member⟩
  cases mover with
  | counting =>
    cases taken
    exact .outside (.refl state) rfl rfl rfl
  | reading call =>
    cases ok with
    | true =>
      cases taken
      exact .outside (.refl state) rfl rfl rfl
    | false =>
      cases taken
      exact .outside (.refl state) rfl rfl call.returned_holdsLock
  | checking call =>
    simp only [Mover.step] at taken
    split at taken <;> try contradiction
    rename_i free
    split at taken <;> cases taken
    · exact .outside (.refl state) rfl rfl call.returned_holdsLock
    · split
      · exact .outside withheld rfl rfl rfl
      · exact .outside (.refl state) rfl rfl rfl
    · exact .outside withheld rfl rfl call.returned_holdsLock
    next passed =>
      refine .moveLocked (by simpa using free) rfl ?_ (fun _ => FenceState.held_of_passed passed)
      split
      · exact withheld
      · exact .refl state
  | holding =>
    simp only [Mover.step] at taken
    split at taken <;> try contradiction
    rename_i free
    cases taken
    exact .moveLocked (by simpa using free) rfl withheld (by simp)
  | looking call =>
    simp only [Mover.step] at taken
    split at taken <;> cases taken
    · exact .moveReturned rfl call.returned_holdsLock
    · exact .moveFound
  | sending call admits =>
    cases taken
    cases admits with
    | true => exact .moveSent call.returned_holdsLock
    | false => exact .holdSent call.returned_holdsLock
  | releasing _ todo =>
    cases todo with
    | nil =>
      cases taken
      exact .outside (.refl state) rfl rfl rfl
    | cons =>
      simp only [Mover.step] at taken
      split at taken <;> cases taken
      · exact .outside (.refl state) rfl rfl rfl
      · exact .outside withheld rfl rfl rfl

theorem Thread.step_move (taken : thread.step settings me state ok = some (after, next, events)) :
    Move settings me state thread after next events := by
  cases thread with
  | idle => contradiction
  | fence _ _ cleared =>
    cases cleared <;> simp only [Thread.step] at taken <;> split at taken
    · contradiction
    next free =>
      cases taken
      exact .fenceAdded (by simpa using free)
    · contradiction
    next free =>
      cases taken
      exact .fenceLocked (by simpa using free)
  | fenceLookup =>
    simp only [Thread.step] at taken
    split at taken <;> cases taken
    · exact .returned rfl
    next found =>
      exact .fenceFound found
  | fenceSend _ _ _ cleared =>
    cases taken
    cases ok <;> cases cleared
    · exact .returned rfl
    · exact .returned rfl
    · exact .fenceSent
    · exact .clearedFenceSent
  | assign => exact Assign.step_move taken
  | registering _ _ attempts =>
    cases attempts with
    | zero =>
      cases taken
      exact .outside (.refl state) rfl rfl rfl
    | succ =>
      simp only [Thread.step] at taken
      split at taken <;> cases taken <;> exact .outside (.refl state) rfl rfl rfl
  | registered =>
    simp only [Thread.step] at taken
    split at taken <;> try contradiction
    rename_i free
    cases taken
    exact .registerFences (by simpa using free)
  | adding _ rest =>
    cases rest <;> cases taken
    · exact .passListed
    · exact .passAdded
  | sending _ rest =>
    cases rest <;> simp only [Thread.step] at taken <;> split at taken <;> cases taken
    next assigning =>
      exact .passReady assigning
    · exact .passDone
    · exact .passSent
    · exact .returned rfl
  | move =>
    simp only [Thread.step] at taken
    split at taken <;> try contradiction
    rename_i moved
    cases taken
    exact Mover.step_move moved
  | forgetting =>
    cases taken
    exact .outside ⟨rfl, rfl, fun _ member => List.mem_of_mem_filter member⟩ rfl rfl rfl
  | negotiating =>
    cases taken
    exact .outside ⟨rfl, rfl, fun _ member => member⟩ rfl rfl rfl

theorem dispatch_move (taken : dispatch settings me state thread act = some (after, next, events)) :
    Move settings me state thread after next events := by
  unfold dispatch at taken
  split at taken
  · exact Thread.step_move taken
  · split at taken <;> try contradiction
    exact begin_move taken

end Swarmada.Command
