import Swarmada.Controlstream.Session

namespace Swarmada.Controlstream

open Transition

variable {me other : Nat} {server after : Server} {handler next theirs : Handler} {act : Act}
  {events : List Empty} {key : StreamKey}

/-- The dispatcher holds the stream of the session's current entry, once that entry has
registered and until it ends. -/
def LiveRegistered (config : Config Server Handler) : Prop :=
  ∀ key current, config.shared.sessions key = some current → (config.threads current).live key = true →
    config.shared.streams key = some current

/-- No handler registers while the current entry of its session is another handler, which
has registered and not ended. -/
def inTurn (config : Config Server Handler) (label : Nat × Act) : Bool :=
  match label.2, config.threads label.1 with
  | .register, .claimed key _ =>
    match config.shared.sessions key with
    | some current => current = label.1 || !(config.threads current).live key
    | none => true
  | _, _ => true

def InTurn (_ : List Empty) (config : Config Server Handler) (label : Nat × Act) : Prop :=
  inTurn config label = true

inductive Move (me : Nat) (server : Server) : Handler → Act → Server → Handler → Prop
  | claimed (key : StreamKey) :
      Move me server .opening (.claim key) (server.claimIn key me) (.claimed key (server.sessions key))
  | registered (key : StreamKey) (replaced : Option Nat) :
      Move me server (.claimed key replaced) .register (server.registerStream key me)
        (.registered key replaced)
  | superseded (key : StreamKey) (replaced : Option Nat) :
      Move me server (.registered key replaced) .supersede (server.supersede replaced) (.serving key)
  | finished (key : StreamKey) (why : Ending) : Move me server (.serving key) (.finish why) server (.ended key)
  | deregistered (key : StreamKey) :
      Move me server (.ended key) .deregister (server.deregister key me) (.deregistered key)
  | released (key : StreamKey) : Move me server (.deregistered key) .release (server.releaseIn key me) .closed

theorem Handler.step_move (taken : handler.step me server act = some (after, next, events)) :
    Move me server handler act after next := by
  unfold Handler.step at taken
  split at taken
  case h_4 =>
    split at taken <;> try contradiction
    cases taken
    exact .finished _ _
  case h_7 => contradiction
  all_goals
    cases taken
    constructor

theorem Server.supersede_maps (replaced : Option Nat) : (server.supersede replaced).sessions = server.sessions ∧
      (server.supersede replaced).streams = server.streams := by
  cases replaced <;> exact ⟨rfl, rfl⟩

theorem Server.releaseIn_sessions {handler current : Nat}
    (present : (server.releaseIn own handler).sessions key = some current) : server.sessions key = some current := by
  unfold Server.releaseIn at present
  split at present
  · by_cases same : key = own
    · simp [same] at present
    · simpa [same] using present
  · exact present

theorem Server.releaseIn_streams (own : StreamKey) (handler : Nat) :
    (server.releaseIn own handler).streams = server.streams := by
  unfold Server.releaseIn
  split <;> rfl

theorem Server.deregister_sessions (own : StreamKey) (handler : Nat) :
    (server.deregister own handler).sessions = server.sessions := by
  unfold Server.deregister
  split <;> rfl

theorem Server.deregister_streams {handler current : Nat} (different : current ≠ handler)
    (registered : server.streams key = some current) : (server.deregister own handler).streams key = some current := by
  unfold Server.deregister
  split
  next mine =>
    have distinct : key ≠ own := by
      rintro rfl
      exact different (Option.some.inj (registered.symm.trans mine))
    simpa [distinct] using registered
  · exact registered

def Registered (server : Server) (me : Nat) (handler : Handler) : Prop :=
  ∀ key, server.sessions key = some me → handler.live key = true → server.streams key = some me

theorem Move.registered_own (move : Move me server handler act after next)
    (registered : Registered server me handler) : Registered after me next := by
  intro key current live
  cases move with
  | registered own =>
    have same : own = key := by simpa [Handler.live] using live
    simp [Server.registerStream, same]
  | superseded _ replaced =>
    obtain ⟨sessions, streams⟩ := @Server.supersede_maps server replaced
    rw [sessions] at current
    rw [streams]
    exact registered key current live
  | _ => simp [Handler.live] at live

theorem Move.registered_other (move : Move me server handler act after next)
    (registered : Registered server other theirs) (different : other ≠ me)
    (inTurn : act = .register → ∀ key replaced, handler = .claimed key replaced →
      server.sessions key = some other → theirs.live key = false) :
    Registered after other theirs := by
  intro key current live
  cases move with
  | claimed own =>
    have distinct : key ≠ own := by
      rintro rfl
      have same : some me = some other := by simpa [Server.claimIn] using current
      exact different (Option.some.inj same).symm
    have before : server.sessions key = some other := by simpa [Server.claimIn, distinct] using current
    exact registered key before live
  | registered own replaced =>
    have distinct : key ≠ own := by
      rintro rfl
      have dead := inTurn rfl key replaced rfl current
      simp [dead] at live
    have before := registered key current live
    simpa [Server.registerStream, distinct] using before
  | superseded _ replaced =>
    obtain ⟨sessions, streams⟩ := @Server.supersede_maps server replaced
    rw [sessions] at current
    rw [streams]
    exact registered key current live
  | finished => exact registered key current live
  | deregistered =>
    rw [Server.deregister_sessions] at current
    exact Server.deregister_streams different (registered key current live)
  | released =>
    rw [Server.releaseIn_streams]
    exact registered key (Server.releaseIn_sessions current) live

/-- In every run whose handlers register in turn the registered stream is the live one. -/
theorem live_stream_registered {history : List Empty} {config : Config Server Handler}
    (run : handlers.machine.Reaches InTurn serverStart history config) : LiveRegistered config := by
  have holds := Pool.assertions_hold (fun _ _ => True) (fun _ server i handler => Registered server i handler)
    trivial ?initially ?own ?others run
  case initially =>
    intro i key current
    simp [serverStart] at current
  case own =>
    intro history config me act shared thread events _ _ threads _ taken
    exact ⟨trivial, (Handler.step_move taken).registered_own (threads me)⟩
  case others =>
    intro history config me act shared thread events other _ _ threads inTurn taken different
    refine (Handler.step_move taken).registered_other (threads other) different ?_
    intro registers key replaced claimed current
    simpa [InTurn, Controlstream.inTurn, registers, claimed, current, different] using inTurn
  intro key current session live
  exact holds.2 current key session live

/-- The condition is the weakest: a handler that registers out of turn leaves a state in
which the registered stream is not the live one. -/
theorem register_out_of_turn
    (claimed : config.threads me = .claimed key replaced) (session : config.shared.sessions key = some current)
    (different : current ≠ me) (live : (config.threads current).live key = true) :
    ∃ later events, handlers.machine.step config (me, .register) = some (later, events) ∧
      ¬ LiveRegistered later := by
  refine ⟨⟨config.shared.registerStream key me, Function.update config.threads me (.registered key replaced)⟩,
    [], by simp [Pool.machine, handlers, claimed, Handler.step], fun registered => ?_⟩
  have still := registered key current session (by simpa [different] using live)
  have mine : some me = some current := by simpa [Server.registerStream] using still
  exact different (Option.some.inj mine).symm

def safetyKey : StreamKey := { kind := .safety, ns := "default", adapter := "a1" }

/-- A reconnect: the second handler replaces the first, and the first ends. -/
theorem live_stream_registered_run : ∃ config, LiveRegistered config ∧ config.shared.sessions safetyKey = some 1 ∧
      config.shared.streams safetyKey = some 1 := by
  have permitted : handlers.machine.Permitted (fun _ config label => inTurn config label = true)
      (serverStart, [])
      [(0, .claim safetyKey), (0, .register), (0, .supersede), (1, .claim safetyKey), (1, .register),
        (1, .supersede), (0, .finish .superseded), (0, .deregister), (0, .release)] := by
    decide +kernel
  have ran : (handlers.machine.run (serverStart, [])
      [(0, .claim safetyKey), (0, .register), (0, .supersede), (1, .claim safetyKey), (1, .register),
        (1, .supersede), (0, .finish .superseded), (0, .deregister), (0, .release)]).map
        (fun last => (last.1.shared.sessions safetyKey, last.1.shared.streams safetyKey)) =
      some (some 1, some 1) := by
    decide +kernel
  obtain ⟨⟨config, _⟩, reached, shape⟩ := Option.map_eq_some_iff.mp ran
  obtain ⟨session, stream⟩ := Prod.mk.inj shape
  exact ⟨config, live_stream_registered (Machine.run_reaches_from .start permitted reached), session, stream⟩

/-- The second handler is through before the first has registered: the late register takes the stream map, and when
the first handler ends the live stream is registered nowhere. -/
theorem late_register_takes_stream :
    ∃ history config, handlers.machine.Reaches Machine.unrestricted serverStart history config ∧
      config.shared.sessions safetyKey = some 1 ∧ (config.threads 1).live safetyKey = true ∧
      config.shared.streams safetyKey = none := by
  have ran : (handlers.machine.run (serverStart, [])
      [(0, .claim safetyKey), (1, .claim safetyKey), (1, .register), (1, .supersede), (0, .register),
        (0, .supersede), (0, .finish .superseded), (0, .deregister), (0, .release)]).map
        (fun last => (last.1.shared.sessions safetyKey, (last.1.threads 1).live safetyKey,
          last.1.shared.streams safetyKey)) = some (some 1, true, none) := by
    decide +kernel
  obtain ⟨⟨config, history⟩, reached, shape⟩ := Option.map_eq_some_iff.mp ran
  simp only [Prod.mk.injEq] at shape
  obtain ⟨session, live, stream⟩ := shape
  exact ⟨history, config, Machine.run_reaches_from .start (Machine.permitted_unrestricted _ _ _) reached,
    session, live, stream⟩

end Swarmada.Controlstream
