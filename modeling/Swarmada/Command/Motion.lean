import Swarmada.Command.Fence

namespace Swarmada.Command

open Api Estopscope

def heldByStop (robot : Robot) : Bool :=
  match robot.estopState with
  | .stopping | .stopped | .failed | .resuming => true
  | .unset | .normal => (heldOnRecord robot).isSome

structure MotionCall where
  robot : Robot
  motion : Motion
  released : Bool := false
  attempt : Nat := 0
  rest : List Motion := []

inductive Mover where
  | counting (call : MotionCall)
  | reading (call : MotionCall) (gen : Nat)
  | checking (call : MotionCall) (gen : Nat) (current : Robot)
  | holding (call : MotionCall)
  /-- under the lock; `admits` tells a motion from a hold -/
  | looking (call : MotionCall) (admits : Bool)
  | sending (call : MotionCall) (admits : Bool) (sender : Nat)
  | releasing (robot : Robot) (todo : List Motion)

def MotionCall.returned (call : MotionCall) : Option Mover :=
  if call.released then some (.releasing call.robot call.rest) else none

inductive MotionCheck where
  | notWithheld | reread | withheld | passed
deriving DecidableEq

def FenceState.checkMotion (state : FenceState) (call : MotionCall) (gen : Nat) (current : Robot) : MotionCheck :=
  if call.released && !state.isWithheld call.motion then .notWithheld
  else if state.gen ≠ gen ∧ call.attempt < 8 then .reread
  else if state.held ≠ [] ∨ state.gen ≠ gen ∨ heldByStop current then .withheld
  else .passed

/-- One step of a motion Command. `ok` is what its read, its send or, for a grant of a
release, the FleetZones' queues answered. -/
def Mover.step (me : Nat) (state : FenceState) : Mover → Bool → Option (FenceState × Option Mover × List Event)
  | .counting call, _ => some (state, some (.reading call state.gen), [])
  | .reading call gen, true => some (state, some (.checking call gen state.stored), [])
  | .reading call _, false => some (state, call.returned, [])
  | .checking call gen current, _ =>
    if state.lock.isSome then none
    else
      match state.checkMotion call gen current with
      | .notWithheld => some (state, call.returned, [])
      | .reread =>
        let kept := if call.released then state.withhold call.motion else state
        some (kept, some (.counting { call with attempt := call.attempt + 1 }), [])
      | .withheld => some (state.withhold call.motion, call.returned, [])
      | .passed =>
        let taken := if call.released then state.takeWithheld call.motion else state
        some (taken.locked me, some (.looking call true), [])
  | .holding call, _ =>
    if state.lock.isSome then none
    else some ((state.takeWithheld call.motion).locked me, some (.looking call false), [])
  | .looking call admits, _ =>
    match state.streams call.robot.adapter with
    | none => some (state.unlocked, call.returned, [])
    | some sender => some (state, some (.sending call admits sender), [])
  | .sending call admits sender, _ =>
    some (state.unlocked, call.returned,
      [if admits then .motionSent me sender call.motion else .holdSent me sender call.motion])
  | .releasing _ [], _ => some (state, none, [])
  | .releasing robot (motion :: rest), stands =>
    if motion.zone ≠ "" ∨ stands then
      some (state, some (.counting { robot, motion, released := true, rest }), [])
    else some (state.takeWithheld motion, some (.releasing robot rest), [])

def FenceState.toRelease (state : FenceState) : List Motion :=
  state.withheld.insertionSort (fun first second => first.key ≤ second.key)

end Swarmada.Command
