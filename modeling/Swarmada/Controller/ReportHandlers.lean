import Swarmada.Controller.ActionReports

/-! # Handlers of reports

Any number of reports about one action are handled at once, while the controllers write the
action, delete it and create it again, and the robots, the streams and the stops change.
-/

namespace Swarmada.ActionReports

open Api Transition

/-- The action, and the report each handler has. -/
structure Setting where
  ns : String
  name : String
  reports : Nat → ActionStatusUpdate

structure Shared where
  action : Revisions ActionStatus
  past : List (Option (Versioned ActionStatus)) := []
  robots : String → Option String := fun _ => none
  streams : Nat → Option (String → Bool) := fun _ => none
  stops : String → List String := fun _ => []

def Shared.write (shared : Shared) (action : Revisions ActionStatus) : Shared :=
  { shared with action, past := shared.action.stored :: shared.past }

inductive Handling where
  | waiting
  | reading (attempt : Nat)
  | authorizing (attempt : Nat) (copy : Versioned ActionStatus) (startOnly : Bool)
  | deciding (attempt : Nat) (copy : Versioned ActionStatus)
  | writing (attempt : Nat) (copy : Versioned ActionStatus) (next : ActionStatus)
  | done

inductive Change where
  | control (next : ActionStatus)
  | create (status : ActionStatus)
  | remove
  | surroundings (robots : String → Option String) (streams : Nat → Option (String → Bool))
      (stops : String → List String)

inductive Act where
  | receive
  /-- the first read of a live report shows the action as it was `age` writes ago -/
  | read (age : Nat)
  | authorize (now : Nat)
  /-- `found` is the action that the report names as its successor -/
  | decide (now : Nat) (found : Option (ActionPhase × String))
  | write (answered : Bool)
  | abort
  | change (change : Change)

inductive Note where
  | served (report : Nat) (robot : String)
  | stopsRead (report version : Nat) (robot : String) (stops : List String)
  | acknowledged (report : Nat)
deriving DecidableEq

/-- The stream of the report may act on `robot`, asked by the id its adapter knows it by. -/
def streamServesAssignedRobot (shared : Shared) (me : Nat) (robot : String) : Bool :=
  match shared.streams me, shared.robots robot with
  | some authorize, some robotID => authorize robotID
  | _, _ => false

def retrySteps : Nat := 5

def Shared.shows (shared : Shared) (report : ActionStatusUpdate) (attempt age : Nat) :
    Option (Option (Versioned ActionStatus)) :=
  if report.retained || attempt > 1 then some shared.action.stored
  else (shared.action.stored :: shared.past)[age]?

def Shared.change (shared : Shared) : Change → Option Shared
  | .control next =>
    if shared.action.stored.isSome then some (shared.write (shared.action.put next)) else none
  | .create status =>
    if shared.action.stored.isNone then some (shared.write (shared.action.put status)) else none
  | .remove => some (shared.write shared.action.remove)
  | .surroundings robots streams stops => some { shared with robots, streams, stops }

def admitted (me attempt : Nat) (copy : Versioned ActionStatus) : Admission → Handling × List Note
  | .drop => (.done, [])
  | .acknowledge => (.done, [.acknowledged me])
  | .check startOnly => (.authorizing attempt copy startOnly, [])

def authorized (now : Nat) (shared : Shared) (me : Nat) (report : ActionStatusUpdate) (attempt : Nat)
    (copy : Versioned ActionStatus) (startOnly : Bool) : Handling × List Note :=
  if !streamServesAssignedRobot shared me copy.value.assignedRobot then (.done, [])
  else
    -- a retained outcome's token was compared before its stream was asked
    let notes := [.served me copy.value.assignedRobot]
    if !(report.retained || tokenMatches copy.value report) then (.done, notes)
    else if startOnly then (.writing attempt copy (recordStartOnly now copy.value), notes)
    else (.deciding attempt copy, notes)

def decided (now : Nat) (setting : Setting) (shared : Shared) (me attempt : Nat) (copy : Versioned ActionStatus)
    (found : Option (ActionPhase × String)) : Handling × List Note :=
  let report := setting.reports me
  let status := copy.value
  let stops := shared.stops status.assignedRobot
  -- only a failure looks for stops
  let notes : List Note :=
    if report.state = .failed then [.stopsRead me copy.version status.assignedRobot stops] else []
  if report.retained then
    match decideRetained now status report stops with
    | .write next => (.writing attempt copy next, notes)
    | .acknowledge => (.done, .acknowledged me :: notes)
    | .refuse => (.done, notes)
  else
    let refusal := verifySupersession setting.ns setting.name status report.supersedingActionID found
    match decideLive now status report stops refusal with
    | some next => (.writing attempt copy next, notes)
    | none => (.done, notes)

def handlers (setting : Setting) : Pool Shared Handling Act Note where
  step me shared handling act :=
    let report := setting.reports me
    match handling, act with
    | .waiting, .receive =>
      if report.retained && !isTerminalReport report.state then some (shared, .done, [])
      else some (shared, .reading 1, [])
    | .reading attempt, .read age =>
      match shared.shows report attempt age with
      | none => none
      | some none => some (shared, .done, if report.retained then [.acknowledged me] else [])
      | some (some copy) => some (shared, admitted me attempt copy (admission copy.value report))
    | .authorizing attempt copy startOnly, .authorize now =>
      some (shared, authorized now shared me report attempt copy startOnly)
    | .deciding attempt copy, .decide now found => some (shared, decided now setting shared me attempt copy found)
    | .writing attempt copy next, .write answered =>
      match shared.action.swap copy next with
      | some action =>
        some (shared.write action, .done, if report.retained && answered then [.acknowledged me] else [])
      | none =>
        -- a conflict is tried again; an absent action or a lost answer is an error
        if answered && shared.action.stored.isSome && attempt < retrySteps then
          some (shared, .reading (attempt + 1), [])
        else some (shared, .done, [])
    | .waiting, .abort => none
    | _, .abort => some (shared, .done, [])
    | _, .change change =>
      match shared.change change with
      | none => none
      | some after => some (after, handling, [])
    | _, _ => none

variable {setting : Setting} {me : Nat} {shared after : Shared} {handling next : Handling} {act : Act}
  {events : List Note} {report : ActionStatusUpdate} {startOnly : Bool}

inductive Effect (setting : Setting) (me : Nat) (shared : Shared) (handling : Handling) (act : Act) :
    Shared → Handling → List Note → Prop
  | rests {next : Handling} {events : List Note} (still : next = .done ∨ ∃ attempt, next = .reading attempt)
      (silent : .acknowledged me ∉ events) : Effect setting me shared handling act shared next events
  | gone (retained : (setting.reports me).retained = true) (absent : shared.action.stored = none) :
      Effect setting me shared handling act shared .done [.acknowledged me]
  | late {copy : Versioned ActionStatus} (retained : (setting.reports me).retained = true)
      (stored : shared.action.stored = some copy) (over_ : ended copy.value.phase = true) :
      Effect setting me shared handling act shared .done [.acknowledged me]
  | reads {attempt : Nat} {copy : Versioned ActionStatus} {startOnly : Bool}
      (shown : some copy ∈ shared.action.stored :: shared.past)
      (admits : admission copy.value (setting.reports me) = .check startOnly) :
      Effect setting me shared handling act shared (.authorizing attempt copy startOnly) []
  | serves {attempt : Nat} {copy : Versioned ActionStatus} (was : handling = .authorizing attempt copy false)
      (token : (setting.reports me).retained = false → tokenMatches copy.value (setting.reports me) = true) :
      Effect setting me shared handling act shared (.deciding attempt copy) [.served me copy.value.assignedRobot]
  | starts {now attempt : Nat} {copy : Versioned ActionStatus} (was : handling = .authorizing attempt copy true) :
      Effect setting me shared handling act shared (.writing attempt copy (recordStartOnly now copy.value))
        [.served me copy.value.assignedRobot]
  | decides {attempt : Nat} {copy : Versioned ActionStatus} {next : ActionStatus} {events : List Note}
      (was : handling = .deciding attempt copy)
      (failure : next.phase = .failed → .stopsRead me copy.version copy.value.assignedRobot [] ∈ events ∧
        (setting.reports me).endCause ≠ .estop)
      (records : (setting.reports me).retained = true → Records (setting.reports me) next.phase)
      (silent : .acknowledged me ∉ events) :
      Effect setting me shared handling act shared (.writing attempt copy next) events
  | leaves {attempt : Nat} {copy : Versioned ActionStatus} {events : List Note}
      (retained : (setting.reports me).retained = true) (was : handling = .deciding attempt copy)
      (failed : (setting.reports me).state = .failed)
      (stopped : shared.stops copy.value.assignedRobot ≠ [] ∨ (setting.reports me).endCause = .estop) :
      Effect setting me shared handling act shared .done events
  | writes {attempt : Nat} {copy : Versioned ActionStatus} {next : ActionStatus}
      {events : List Note} (was : handling = .writing attempt copy next)
      (swapped : shared.action.swap copy next = some action)
      (own : .acknowledged me ∈ events → (setting.reports me).retained = true) :
      Effect setting me shared handling act (shared.write action) .done events
  | changes {after : Shared} (asked : act = .change change) (changed : shared.change change = some after) :
      Effect setting me shared handling act after handling []

variable {attempt : Nat} {copy : Versioned ActionStatus}

theorem admitted_effect (shown : some copy ∈ shared.action.stored :: shared.past)
    (current : (setting.reports me).retained = true → shared.action.stored = some copy)
    (gave : admitted me attempt copy (admission copy.value (setting.reports me)) = (next, events)) :
    Effect setting me shared handling act shared next events := by
  cases admits : admission copy.value (setting.reports me) with
  | drop =>
    simp only [admits, admitted] at gave
    cases gave
    exact .rests (.inl rfl) (by simp)
  | acknowledge =>
    simp only [admits, admitted] at gave
    cases gave
    obtain ⟨retained, over_⟩ := admission_acknowledge admits
    exact .late retained (current retained) over_
  | check =>
    simp only [admits, admitted] at gave
    cases gave
    exact .reads shown admits

variable {now : Nat}

theorem authorized_effect (was : handling = .authorizing attempt copy startOnly)
    (gave : authorized now shared me (setting.reports me) attempt copy startOnly = (next, events)) :
    Effect setting me shared handling act shared next events := by
  unfold authorized at gave
  split at gave
  · cases gave
    exact .rests (.inl rfl) (by simp)
  split at gave
  · cases gave
    exact .rests (.inl rfl) (by simp)
  rename_i passes
  cases startOnly with
  | true =>
    cases gave
    exact .starts was
  | false =>
    cases gave
    refine .serves was fun live => ?_
    simpa [live] using passes

theorem decided_effect (was : handling = .deciding attempt copy)
    (gave : decided now setting shared me attempt copy found = (next, events)) :
    Effect setting me shared handling act shared next events := by
  have silent : Note.acknowledged me ∉ (if (setting.reports me).state = .failed then
      [Note.stopsRead me copy.version copy.value.assignedRobot (shared.stops copy.value.assignedRobot)] else []) := by
    split <;> simp
  unfold decided at gave
  dsimp only at gave
  split at gave
  next retained =>
    split at gave
    next written writes =>
      cases gave
      refine .decides was (fun fails => ?_) (fun _ => decideRetained_records writes) silent
      obtain ⟨failed, clear, named⟩ := decideRetained_failed writes fails
      simp [failed, clear, named]
    next leaves =>
      cases gave
      obtain ⟨failed, stopped⟩ := decideRetained_acknowledge leaves
      exact .leaves retained was failed stopped
    · cases gave
      exact .rests (.inl rfl) silent
  next live =>
    split at gave
    next written writes =>
      cases gave
      refine .decides was (fun fails => ?_) (fun retained => absurd retained live) silent
      obtain ⟨failed, clear, named⟩ := decideLive_failed writes fails
      simp [failed, clear, named]
    · cases gave
      exact .rests (.inl rfl) silent

theorem step_effect (taken : (handlers setting).step me shared handling act = some (after, next, events)) :
    Effect setting me shared handling act after next events := by
  unfold handlers at taken
  dsimp only at taken
  split at taken
  · split at taken
    · cases taken
      exact .rests (.inl rfl) (by simp)
    · cases taken
      exact .rests (.inr ⟨_, rfl⟩) (by simp)
  next attempt age =>
    cases shown : shared.shows (setting.reports me) attempt age with
    | none => simp [shown] at taken
    | some read =>
      have current : (setting.reports me).retained = true → shared.action.stored = read := by
        intro retained
        simpa [Shared.shows, retained] using shown
      cases read with
      | none =>
        simp only [shown, Option.some.injEq, Prod.mk.injEq] at taken
        obtain ⟨rfl, rfl, rfl⟩ := taken
        split
        · exact .gone ‹_› (current ‹_›)
        · exact .rests (.inl rfl) (by simp)
      | some =>
        simp only [shown] at taken
        obtain ⟨rfl, gave⟩ := Prod.mk.inj (Option.some.inj taken)
        refine admitted_effect ?_ current gave
        unfold Shared.shows at shown
        split at shown
        · rw [Option.some.inj shown]
          exact List.mem_cons_self
        · exact List.mem_of_getElem? shown
  · obtain ⟨rfl, gave⟩ := Prod.mk.inj (Option.some.inj taken)
    exact authorized_effect rfl gave
  · obtain ⟨rfl, gave⟩ := Prod.mk.inj (Option.some.inj taken)
    exact decided_effect rfl gave
  · split at taken
    next action swapped =>
      cases taken
      refine .writes rfl swapped fun member => ?_
      simp_all
    · split at taken
      · cases taken
        exact .rests (.inr ⟨_, rfl⟩) (by simp)
      · cases taken
        exact .rests (.inl rfl) (by simp)
  · contradiction
  · cases taken
    exact .rests (.inl rfl) (by simp)
  · split at taken <;> try contradiction
    rename_i changed
    cases taken
    exact .changes rfl changed
  · contradiction

/-- What the note of a handler says of the moment it is made. -/
def Note.Holds (shared : Shared) (me : Nat) : Note → Prop
  | .served i robot => i = me ∧ streamServesAssignedRobot shared me robot = true
  | .stopsRead i _ robot stops => i = me ∧ stops = shared.stops robot
  | .acknowledged i => i = me

theorem decided_holds : ∀ note ∈ (decided now setting shared me attempt copy found).2, note.Holds shared me := by
  have reads : ∀ note ∈ (if (setting.reports me).state = .failed then
      [Note.stopsRead me copy.version copy.value.assignedRobot (shared.stops copy.value.assignedRobot)] else []),
      note.Holds shared me := by
    intro note member
    split at member <;> try contradiction
    cases List.mem_singleton.mp member
    exact ⟨rfl, rfl⟩
  unfold decided
  dsimp only
  split
  · split
    · exact reads
    · exact List.forall_mem_cons.mpr ⟨rfl, reads⟩
    · exact reads
  · split <;> exact reads

theorem authorized_holds :
    ∀ note ∈ (authorized now shared me report attempt copy startOnly).2, note.Holds shared me := by
  unfold authorized
  split
  · simp
  rename_i serves
  have served : ∀ note ∈ [Note.served me copy.value.assignedRobot], note.Holds shared me := by
    intro note member
    cases List.mem_singleton.mp member
    exact ⟨rfl, by simpa using serves⟩
  split
  · exact served
  split <;> exact served

theorem admitted_holds : ∀ note ∈ (admitted me attempt copy gate).2, note.Holds shared me := by
  cases gate <;> simp [admitted, Note.Holds]

theorem step_holds (taken : (handlers setting).step me shared handling act = some (after, next, events)) :
    ∀ note ∈ events, note.Holds shared me := by
  have acknowledges (asked : Bool) : ∀ note ∈ (if asked then [Note.acknowledged me] else []), note.Holds shared me := by
    cases asked <;> simp [Note.Holds]
  unfold handlers at taken
  dsimp only at taken
  split at taken
  · split at taken <;> cases taken <;> simp
  · split at taken
    · contradiction
    · cases taken
      exact acknowledges _
    obtain ⟨rfl, gave⟩ := Prod.mk.inj (Option.some.inj taken)
    have made : _ = events := congrArg Prod.snd gave
    rw [← made]
    exact admitted_holds
  · obtain ⟨rfl, gave⟩ := Prod.mk.inj (Option.some.inj taken)
    have made : _ = events := congrArg Prod.snd gave
    rw [← made]
    exact authorized_holds
  · obtain ⟨rfl, gave⟩ := Prod.mk.inj (Option.some.inj taken)
    have made : _ = events := congrArg Prod.snd gave
    rw [← made]
    exact decided_holds
  · split at taken
    · cases taken
      exact acknowledges _
    · split at taken <;> cases taken <;> simp
  · contradiction
  · cases taken
    simp
  · split at taken <;> try contradiction
    cases taken
    simp
  · contradiction

end Swarmada.ActionReports
