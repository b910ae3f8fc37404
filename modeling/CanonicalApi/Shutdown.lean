import CanonicalApi.Lib.Transition
import Mathlib.Algebra.Group.Nat.Defs
import Mathlib.Control.Monad.Basic

/-!
# `CanonicalApi.Shutdown`: the drain of the process

`shutdown::serve` runs the HTTP server and a reducer of lifecycle events side by side: signals,
the end of stdin and the deadline arrive on a channel, and the reducer starts a graceful
shutdown of the server or forces it. `serve` returns when the future of the server is ready.
The handlers of the server spawn `run_quote_analysis` tasks that run on their own.

The server is a parameter, `AxumServer`: its state, its own moves, what its `Handle` does and
when its future is ready. `AxumServer.Documented` says what its documentation promises: the
future of a server that was not shut down is ready with `Ok` exactly when a graceful shutdown
was requested and all connections are closed. A handler runs while its connection is open.

`serve` does not look at the spawned tasks: it can return `Graceful` while one of them runs.
`graceful_drains_when` has the condition under which it does not: the last connection that
closes in a drain, or the drain that starts without one, finds all tasks finished.
-/

set_option autoImplicit false

namespace CanonicalApi

open Transition (System)

namespace Shutdown

/-! ## The reducer -/

/-- How far the shutdown has come. -/
inductive Phase where
  | running
  | draining
  | forcing
  | stopped
deriving DecidableEq, Repr

/-- What can happen to a process that is shut down. -/
inductive Event where
  | sigInt
  | sigTerm
  | eof
  | deadline
  | drainFailed
deriving DecidableEq, Repr

/-- The events that a second of which forces the shutdown. -/
def Event.isSignal : Event → Bool
  | .sigInt | .sigTerm => true
  | .eof | .deadline | .drainFailed => false

/-- What the loop has to do after an event. -/
inductive Action where
  | none
  | startGraceful
  | force
deriving DecidableEq, Repr

/-- The state of the shutdown: its phase, whether there is a terminal, what started it, how many
signals came, and what forced it. -/
structure State where
  phase : Phase
  tty : Bool
  trigger : Option Event
  signalCount : Nat
  forcedBy : Option Event
deriving DecidableEq, Repr

/-- The process runs, and nothing has happened yet. -/
def State.new (tty : Bool) : State := ⟨.running, tty, .none, 0, .none⟩

/-- `u32::saturating_add(1)`. -/
def saturatingSucc (n : Nat) : Nat := min (n + 1) (2 ^ 32 - 1)

/-- How the process ended. -/
inductive Outcome where
  | graceful
  | forced (event : Event)
deriving DecidableEq, Repr

/-- `reduce`: the next state and what the loop has to do. The first signal starts the graceful
shutdown, and a second one forces it. -/
def reduce (state : State) (event : Event) : State × Action :=
  match state.phase with
  | .stopped | .forcing => (state, .none)
  | .running =>
      -- Ctrl-D is armed only after the first interactive SIGINT.
      if event = .eof then (state, .none)
      else if event.isSignal = true then
        ({ state with
            phase := .draining, trigger := some event,
            signalCount := saturatingSucc state.signalCount },
          .startGraceful)
      else if event = .drainFailed then
        ({ state with phase := .forcing, trigger := some event, forcedBy := some event }, .force)
      else (state, .none)
  | .draining =>
      if event = .deadline ∨ event = .drainFailed ∨ event = .sigInt ∨ event = .sigTerm ∨
          event = .eof ∧ state.tty = true ∧ state.trigger = some .sigInt then
        ({ state with
            phase := .forcing, forcedBy := some event,
            signalCount :=
              if event.isSignal = true then saturatingSucc state.signalCount
              else state.signalCount },
          .force)
      else (state, .none)

/-! ## The server -/

/-- The server of `axum_server` with its `Handle`. A move accepts a connection, serves it or
closes it. -/
structure AxumServer where
  Server : Type
  Move : Type
  start : Server
  move : Server → Move → Option Server
  gracefulShutdown : Server → Server
  shutdown : Server → Server
  connectionCount : Server → Nat
  result : Server → Option (Except String Unit)
  /-- `graceful_shutdown` was called. -/
  draining : Server → Bool
  /-- `shutdown` was called. -/
  stopping : Server → Bool

/-- What the documentation of `axum_server` promises. The server itself is not in the repository, so
every result on a graceful end has this as its hypothesis. -/
structure AxumServer.Documented (http : AxumServer) : Prop where
  start_stopping : http.stopping http.start = false
  start_draining : http.draining http.start = false
  move_stopping : ∀ {s m s'}, http.move s m = some s' → http.stopping s' = http.stopping s
  move_draining : ∀ {s m s'}, http.move s m = some s' → http.draining s' = http.draining s
  graceful_stopping : ∀ s, http.stopping (http.gracefulShutdown s) = http.stopping s
  graceful_draining : ∀ s, http.draining (http.gracefulShutdown s) = true
  graceful_connections : ∀ s,
    http.connectionCount (http.gracefulShutdown s) = http.connectionCount s
  shutdown_stopping : ∀ s, http.stopping (http.shutdown s) = true
  /-- A server that was not shut down serves until it has drained. -/
  serves : ∀ {s}, http.stopping s = false →
    (http.result s = some (.ok ()) ↔ http.draining s = true ∧ http.connectionCount s = 0)

/-! ## The process -/

/-- The fields of `shutdown::Config` that the loop reads, apart from the length of the grace
period. -/
structure Config where
  tty : Bool
  watchStdinEof : Bool
deriving DecidableEq, Repr

/-- A `run_quote_analysis` task. -/
inductive Worker where
  | running
  | finished
deriving DecidableEq, Repr

/-- The process: the locals of `serve_with_events`, the server, the sources of the events and
the spawned tasks. -/
structure Process (http : AxumServer) where
  state : State
  server : http.Server := http.start
  events : List Event := []
  eventsOpen : Bool := true
  deadlineTask : Bool := false
  eofWatcherArmed : Bool := false
  eofWatcher : Bool := false
  workers : List Worker := []
  returned : Option (Except String Outcome) := none

namespace Process

variable {http : AxumServer}

/-- The branch of the loop where the server is ready. It ends the loop: with an outcome that depends
on whether an event has forced the end, or with the error of the server. -/
def onResult (s : Process http) : Except String Unit → Process http
  | .ok () =>
      { s with
        deadlineTask := false
        state := { s.state with phase := .stopped }
        returned := some (.ok
          (match s.state.forcedBy with
          | some event => .forced event
          | none => .graceful)) }
  | .error error =>
      { s with
        deadlineTask := false
        state := (reduce s.state .drainFailed).1
        server :=
          if (reduce s.state .drainFailed).2 = .force then http.shutdown s.server else s.server
        returned := some (.error error) }

/-- What the loop does with an event: the reducer gives the action, and the loop carries it out. The
watcher of the standard input is started once, and only for an interactive `SIGINT`. -/
def handle (config : Config) (s : Process http) (event : Event) : Process http :=
  match reduce s.state event with
  | (state, .none) => { s with state }
  | (state, .startGraceful) =>
      let arm := state.tty && event == .sigInt && config.watchStdinEof && !s.eofWatcherArmed
      { s with
        state
        eofWatcherArmed := s.eofWatcherArmed || arm
        eofWatcher := s.eofWatcher || arm
        server := http.gracefulShutdown s.server
        deadlineTask := true }
  | (state, .force) =>
      { s with state, deadlineTask := false, server := http.shutdown s.server }

/-- The branch of the loop where the channel is ready. -/
def onEvent (config : Config) (s : Process http) : Option Event → Process http
  | some event => s.handle config event
  | none => { s with eventsOpen := false }.handle config .drainFailed

/-- Every spawned task has finished. -/
def Idle (s : Process http) : Prop := ∀ w ∈ s.workers, w = .finished

instance (s : Process http) : Decidable s.Idle :=
  inferInstanceAs (Decidable (∀ w ∈ s.workers, w = .finished))

end Process

/-- A move of the server, a handler that spawns a task, the end of the task `i`, what the
sources of the events do, and the two branches of the loop. -/
inductive Step (http : AxumServer) where
  | http (move : http.Move)
  | accept
  | finish (i : Nat)
  | signal (event : Event)
  | stdinEof
  | deadline
  | pollServer
  | pollEvents

/-- The step function. After the return of `serve` nothing moves: `main` returns, and this drops
the runtime with its tasks. `events_tx` lives as long as the loop, so the channel is never
closed while it is empty. -/
def next (http : AxumServer) (config : Config) (s : Process http) :
    Step http → Option (Process http)
  | .http move =>
      if s.returned.isSome = true then none
      else (http.move s.server move).map fun server => { s with server }
  | .accept =>
      if s.returned.isSome = true ∨ http.connectionCount s.server = 0 then none
      else some { s with workers := s.workers ++ [.running] }
  | .finish i =>
      if s.returned.isSome = true ∨ s.workers[i]? ≠ some .running then none
      else some { s with workers := s.workers.set i .finished }
  | .signal event =>
      if s.returned.isSome = true ∨ event.isSignal = false then none
      else some { s with events := s.events ++ [event] }
  | .stdinEof =>
      if s.returned.isSome = true ∨ s.eofWatcher = false then none
      else some { s with events := s.events ++ [.eof], eofWatcher := false }
  | .deadline =>
      if s.returned.isSome = true ∨ s.deadlineTask = false then none
      else some { s with events := s.events ++ [.deadline], deadlineTask := false }
  | .pollServer =>
      if s.returned.isSome = true then none
      else (http.result s.server).map s.onResult
  | .pollEvents =>
      if s.returned.isSome = true ∨ s.eventsOpen = false then none
      else
        match s.events with
        | event :: rest => some ({ s with events := rest }.onEvent config (some event))
        | [] => none

/-- The process at the start of the loop. -/
def start (http : AxumServer) (config : Config) : Process http where
  state := State.new config.tty

/-- The transition system of the process. -/
def system (http : AxumServer) (config : Config) : System (Process http) (Step http) :=
  System.ofFun (start http config) (next http config)

/-! ## What a step does -/

/-- The reducer leaves the state as it is, starts the drain or forces it. -/
theorem reduce_cases (state : State) (event : Event) :
    reduce state event = (state, .none) ∨
    (state.phase = .running ∧ event.isSignal = true ∧
      reduce state event =
        ({ state with
            phase := .draining, trigger := some event,
            signalCount := saturatingSucc state.signalCount },
          .startGraceful)) ∨
    ∃ trigger signalCount, reduce state event =
      (⟨.forcing, state.tty, trigger, signalCount, some event⟩, .force) := by
  unfold reduce
  cases hphase : state.phase with
  | stopped | forcing => exact .inl rfl
  | running =>
    dsimp only
    split
    · exact .inl rfl
    · split
      · next hsignal => exact .inr (.inl ⟨rfl, hsignal, rfl⟩)
      · split
        · exact .inr (.inr ⟨_, _, rfl⟩)
        · exact .inl rfl
  | draining =>
    dsimp only
    split
    · exact .inr (.inr ⟨_, _, rfl⟩)
    · exact .inl rfl

section

variable {http : AxumServer} {config : Config}

/-- The phase agrees with the server, as long as the loop runs. A forced end is known from
`forcedBy`. -/
def Coherent (s : Process http) : Prop :=
  match s.state.phase with
  | .running =>
      s.state.forcedBy = none ∧ http.stopping s.server = false ∧
        http.draining s.server = false
  | .draining =>
      s.state.forcedBy = none ∧ http.stopping s.server = false ∧
        http.draining s.server = true
  | .forcing => s.state.forcedBy ≠ none
  | .stopped => False

/-- An event keeps this. -/
theorem Coherent.handle (hhttp : http.Documented) {s : Process http} (hs : Coherent s)
    (event : Event) : Coherent (s.handle config event) := by
  unfold Process.handle
  rcases reduce_cases s.state event with hsame | ⟨hrunning, -, hgraceful⟩ | ⟨_, _, hforce⟩
  · rw [hsame]
    exact hs
  · rw [hgraceful]
    simp only [Coherent, hrunning] at hs ⊢
    exact ⟨hs.1, (hhttp.graceful_stopping _).trans hs.2.1, hhttp.graceful_draining _⟩
  · rw [hforce]
    exact nofun

/-- A move of the server keeps this. -/
theorem Coherent.move (hhttp : http.Documented) {s : Process http} (hs : Coherent s)
    {move : http.Move} {server : http.Server} (h : http.move s.server move = some server) :
    Coherent { s with server } := by
  unfold Coherent at hs ⊢
  cases hphase : s.state.phase <;> simp only [hphase] at hs ⊢
  · exact ⟨hs.1, (hhttp.move_stopping h).trans hs.2.1, (hhttp.move_draining h).trans hs.2.2⟩
  · exact ⟨hs.1, (hhttp.move_stopping h).trans hs.2.1, (hhttp.move_draining h).trans hs.2.2⟩
  · exact hs

/-- Whatever step is taken, the loop runs before it. -/
theorem returned_of_next {s s' : Process http} {a : Step http}
    (h : next http config s a = some s') : s.returned = none := by
  cases hreturned : s.returned with
  | none => rfl
  | some outcome => cases a <;> simp [next, hreturned] at h

/-- A step that is not a poll of the server leaves the loop running. -/
theorem Coherent.step (hhttp : http.Documented) {s s' : Process http} {a : Step http}
    (hs : s.returned = none → Coherent s) (h : next http config s a = some s') :
    s'.returned = none → Coherent s' := by
  have hrunning := returned_of_next h
  have hcoherent := hs hrunning
  intro hopen
  cases a with
  | http move =>
    simp only [next, hrunning, Option.isSome_none, Bool.false_eq_true, if_false] at h
    obtain ⟨server, hserver, rfl⟩ := Option.map_eq_some_iff.mp h
    exact hcoherent.move hhttp hserver
  | pollServer =>
    simp only [next, hrunning, Option.isSome_none, Bool.false_eq_true, if_false] at h
    obtain ⟨result, -, rfl⟩ := Option.map_eq_some_iff.mp h
    -- Either result of the server ends the function.
    cases result <;> cases hopen
  | pollEvents =>
    simp only [next] at h
    split at h
    · cases h
    · split at h
      · next event rest hevents =>
        cases h
        exact Coherent.handle (s := { s with events := rest }) hhttp hcoherent event
      · cases h
  -- What happens outside of the loop changes neither the phase nor the server.
  | accept | finish | signal | stdinEof | deadline =>
    simp only [next] at h
    split at h
    · cases h
    · cases h
      exact hcoherent

/-- It holds in every state of every run. -/
theorem coherent_of_reachable (hhttp : http.Documented) {s : Process http}
    (hs : (system http config).Reachable s) : s.returned = none → Coherent s := by
  refine System.ReachableWith.induct (I := fun s => s.returned = none → Coherent s)
    (fun s h0 _ => ?_) (fun s a s' _ ih _ h => ?_) hs
  · obtain rfl := h0
    exact ⟨rfl, hhttp.start_stopping, hhttp.start_draining⟩
  · have hnext : next http config s a = some s' := h
    exact Coherent.step hhttp ih hnext

end

/-! ## When a graceful shutdown has drained -/

section

variable {http : AxumServer}

/-- The condition on a step: the last connection that closes in a drain, or the drain that
starts without a connection, finds every spawned task finished. -/
def FindsIdle (s : Process http) : Step http → Prop
  | .http move =>
      s.state.phase = .draining → http.connectionCount s.server ≠ 0 →
        (http.move s.server move).map http.connectionCount = some 0 → s.Idle
  | .pollEvents =>
      s.state.phase = .running → http.connectionCount s.server = 0 →
        s.events.head?.map Event.isSignal = some true → s.Idle
  | _ => True

instance (s : Process http) (a : Step http) : Decidable (FindsIdle s a) := by
  cases a <;> unfold FindsIdle <;> infer_instance

/-- What the condition keeps: a drain without connections is idle, and so is the process when
`serve` has returned `Graceful`. -/
structure Drained (s : Process http) : Prop where
  draining : s.returned = none → s.state.phase = .draining →
    http.connectionCount s.server = 0 → s.Idle
  graceful : s.returned = some (.ok .graceful) → s.Idle

variable {config : Config}

/-- The loop returns `Graceful` only from a drain without connections. -/
theorem drained_of_graceful (hhttp : http.Documented) {s : Process http} (hs : Coherent s)
    (hresult : http.result s.server = some (.ok ()))
    (h : (s.onResult (.ok ())).returned = some (.ok .graceful)) :
    s.state.phase = .draining ∧ http.connectionCount s.server = 0 := by
  have hunforced : s.state.forcedBy = none := by
    cases hforced : s.state.forcedBy with
    | none => rfl
    | some event => simp [Process.onResult, hforced] at h
  unfold Coherent at hs
  cases hphase : s.state.phase <;> simp only [hphase] at hs
  · have hdrained := (hhttp.serves hs.2.1).mp hresult
    rw [hs.2.2] at hdrained
    cases hdrained.1
  · exact ⟨rfl, ((hhttp.serves hs.2.1).mp hresult).2⟩
  · exact absurd hunforced hs

/-- A drain without connections returns `Graceful` at the next poll of the server. -/
theorem graceful_of_drained (hhttp : http.Documented) {s : Process http} (hs : Coherent s)
    (hopen : s.returned = none) (hphase : s.state.phase = .draining)
    (hcount : http.connectionCount s.server = 0) :
    ∃ s', next http config s .pollServer = some s' ∧
      s'.returned = some (.ok .graceful) ∧ s'.workers = s.workers := by
  simp only [Coherent, hphase] at hs
  have hresult := (hhttp.serves hs.2.1).mpr ⟨hs.2.2, hcount⟩
  refine ⟨s.onResult (.ok ()), ?_, ?_, rfl⟩
  · simp [next, hopen, hresult]
  · simp [Process.onResult, hs.1]

/-- A step that meets the condition keeps this. -/
theorem Drained.step (hhttp : http.Documented) {s s' : Process http} {a : Step http}
    (hs : Drained s) (hcoherent : Coherent s) (hidle : FindsIdle s a)
    (h : next http config s a = some s') : Drained s' := by
  have hrunning := returned_of_next h
  cases a with
  -- Connections close here, and the last of them is where the workers must be idle.
  | http move =>
    simp only [next, hrunning, Option.isSome_none, Bool.false_eq_true, if_false] at h
    obtain ⟨server, hserver, rfl⟩ := Option.map_eq_some_iff.mp h
    refine ⟨fun _ hphase hcount => ?_, fun hgraceful => ?_⟩
    · by_cases hbefore : http.connectionCount s.server = 0
      · exact hs.draining hrunning hphase hbefore
      · exact hidle hphase hbefore (by rw [hserver, Option.map_some, hcount])
    · cases hgraceful
  -- A new worker needs an open connection, so nothing is claimed about it yet.
  | accept =>
    simp only [next] at h
    split at h
    · cases h
    · next hopen =>
      cases h
      rw [not_or] at hopen
      refine ⟨fun _ _ hcount => absurd hcount hopen.2, fun hgraceful => ?_⟩
      rw [show s.returned = some (.ok .graceful) from hgraceful] at hrunning
      cases hrunning
  -- A finished worker stays finished.
  | finish i =>
    simp only [next] at h
    split at h
    · cases h
    · cases h
      have hset : s.Idle →
          ({ s with workers := s.workers.set i .finished } : Process http).Idle := by
        intro hworkers w hw
        rcases List.mem_or_eq_of_mem_set hw with hold | rfl
        · exact hworkers w hold
        · rfl
      exact ⟨fun hopen hphase hcount => hset (hs.draining hopen hphase hcount),
        fun hgraceful => hset (hs.graceful hgraceful)⟩
  | signal | stdinEof | deadline =>
    simp only [next] at h
    split at h
    · cases h
    · cases h
      exact ⟨hs.draining, hs.graceful⟩
  | pollServer =>
    simp only [next, hrunning, Option.isSome_none, Bool.false_eq_true, if_false] at h
    obtain ⟨result, hresult, rfl⟩ := Option.map_eq_some_iff.mp h
    cases result with
    | error error => exact ⟨nofun, nofun⟩
    | ok =>
      refine ⟨nofun, fun hgraceful => ?_⟩
      -- A graceful end means that the drain had begun and no connection is left.
      obtain ⟨hphase, hcount⟩ := drained_of_graceful hhttp hcoherent hresult hgraceful
      exact hs.draining hrunning hphase hcount
  | pollEvents =>
    simp only [next] at h
    split at h
    · cases h
    · split at h
      · next event rest hevents =>
        cases h
        have hgraceful : s.returned ≠ some (.ok .graceful) := by
          rw [hrunning]
          exact nofun
        unfold Process.onEvent Process.handle
        dsimp only
        -- The event changes nothing, starts the drain or forces the end.
        rcases reduce_cases s.state event with
          hsame | ⟨hphase, hsignal, hdrain⟩ | ⟨_, _, hforce⟩
        · rw [hsame]
          exact ⟨hs.draining, hs.graceful⟩
        · rw [hdrain]
          refine ⟨fun _ _ hcount => ?_, fun h => absurd h hgraceful⟩
          rw [hhttp.graceful_connections] at hcount
          exact hidle hphase hcount (by simp [hevents, hsignal])
        · rw [hforce]
          exact ⟨nofun, fun h => absurd h hgraceful⟩
      · cases h

/-- A step that does not meet the condition leaves a drain without connections and with a task
that runs. -/
theorem drained_of_not_findsIdle (hhttp : http.Documented) {s s' : Process http} {a : Step http}
    (hidle : ¬ FindsIdle s a) (h : next http config s a = some s') :
    s'.returned = none ∧ s'.state.phase = .draining ∧ http.connectionCount s'.server = 0 ∧
      ¬ s'.Idle := by
  have hrunning := returned_of_next h
  cases a with
  -- The last connection ends while the loop drains.
  | http move =>
    simp only [FindsIdle, Classical.not_imp] at hidle
    obtain ⟨hphase, -, hlast, hbusy⟩ := hidle
    obtain ⟨server, hserver, hcount⟩ := Option.map_eq_some_iff.mp hlast
    simp only [next, hrunning, hserver, Option.isSome_none, Bool.false_eq_true, if_false,
      Option.map_some, Option.some.injEq] at h
    subst h
    exact ⟨rfl, hphase, hcount, hbusy⟩
  -- The signal that starts the draining is taken while no connection is open.
  | pollEvents =>
    simp only [FindsIdle, Classical.not_imp] at hidle
    obtain ⟨hphase, hcount, hfirst, hbusy⟩ := hidle
    obtain ⟨event, hevent, hsignal⟩ := Option.map_eq_some_iff.mp hfirst
    obtain ⟨rest, hevents⟩ := List.head?_eq_some_iff.mp hevent
    have hreduce : reduce s.state event =
        ({ s.state with
            phase := .draining, trigger := some event,
            signalCount := saturatingSucc s.state.signalCount }, .startGraceful) := by
      cases event <;> simp_all [reduce, Event.isSignal]
    simp only [next] at h
    split at h
    · cases h
    · rw [hevents] at h
      simp only [Process.onEvent, Process.handle, hreduce, Option.some.injEq] at h
      subst h
      exact ⟨hrunning, rfl, (hhttp.graceful_connections _).trans hcount, hbusy⟩
  | accept | finish | signal | stdinEof | deadline | pollServer => exact absurd trivial hidle

end

end Shutdown

open Shutdown

/-- When `Graceful` means drained. In every run in which the last connection that closes in a
drain, or the drain that starts without a connection, finds all spawned tasks finished, `serve`
returns `Graceful` only with all of them finished. After any other such step the next poll of the
server returns `Graceful` with a task that runs. -/
theorem graceful_drains_when {http : AxumServer} (hhttp : http.Documented)
    (config : Shutdown.Config) :
    (∀ s, (system http config).ReachableWith FindsIdle s →
      s.returned = some (.ok .graceful) → s.Idle) ∧
    ∀ s, (system http config).Reachable s → ∀ a s', next http config s a = some s' →
      ¬ FindsIdle s a →
        ∃ s'', next http config s' .pollServer = some s'' ∧
          s''.returned = some (.ok .graceful) ∧ ¬ s''.Idle := by
  refine ⟨fun s hs => ?_, fun s hs a s' h hidle => ?_⟩
  · -- The loop may only end gracefully from a drained state, which every such step keeps.
    have hdrained : Drained s := by
      refine hs.induct (fun s h0 => ?_) fun s a s' hr ih hidle h => ?_
      · obtain rfl := h0
        exact ⟨nofun, nofun⟩
      · have hnext : next http config s a = some s' := h
        have hcoherent := coherent_of_reachable hhttp hr.reachable (returned_of_next hnext)
        exact ih.step hhttp hcoherent hidle hnext
    exact hdrained.graceful
  · -- Without connections the server future is ready, and nothing else is asked.
    obtain ⟨hopen, hphase, hcount, hbusy⟩ := drained_of_not_findsIdle hhttp hidle h
    have hs' : (system http config).Reachable s' := .step hs trivial h
    obtain ⟨s'', hpoll, hgraceful, hworkers⟩ :=
      graceful_of_drained hhttp (coherent_of_reachable hhttp hs' hopen) hopen hphase hcount
    refine ⟨s'', hpoll, hgraceful, fun hidle'' => hbusy ?_⟩
    unfold Process.Idle at hidle'' ⊢
    rw [← hworkers]
    exact hidle''

/-- A server that accepts and closes connections and does nothing else. Its state is the number
of connections and which shutdowns were called. -/
def testHttp : AxumServer where
  Server := Nat × Bool × Bool
  Move := Bool
  start := (0, false, false)
  move s connect :=
    if connect = true then
      if s.2 = (false, false) then some (s.1 + 1, s.2) else none
    else if s.1 = 0 then none else some (s.1 - 1, s.2)
  gracefulShutdown s := (s.1, true, s.2.2)
  shutdown s := (s.1, s.2.1, true)
  connectionCount s := s.1
  result s := if s.2.2 = true ∨ s.2.1 = true ∧ s.1 = 0 then some (.ok ()) else none
  draining s := s.2.1
  stopping s := s.2.2

/-- The server of the example behaves as documented. -/
theorem testHttp_documented : testHttp.Documented := by
  have hmove : ∀ {s m s'}, testHttp.move s m = some s' → s'.2 = s.2 := by
    intro s m s' h
    simp only [testHttp] at h
    split at h
    · split at h
      · cases h
        rfl
      · cases h
    · split at h
      · cases h
      · cases h
        rfl
  refine ⟨rfl, rfl, fun h => congrArg Prod.snd (hmove h), fun h => congrArg Prod.fst (hmove h),
    fun _ => rfl, fun _ => rfl, fun _ => rfl, fun _ => rfl, fun {s} hstopping => ?_⟩
  have hstopping : s.2.2 = false := hstopping
  simp [testHttp, hstopping]

/-- A task that ends before the last connection of the drain closes. `serve` returns `Graceful`, and
no task is left behind. -/
theorem graceful_drains_when_test :
    ∃ s, s.returned = some (.ok .graceful) ∧ s.workers ≠ [] ∧
      (system testHttp ⟨false, true⟩).ReachableWith FindsIdle s ∧ s.Idle := by
  have hrun : ∃ s, (System.ofFun (start testHttp ⟨false, true⟩)
      (System.guarded FindsIdle (next testHttp ⟨false, true⟩))).Reachable s ∧
      decide (s.returned = some (.ok .graceful) ∧ s.workers ≠ []) = true :=
    System.exists_reachable_of_run
      [.http true, .accept, .signal .sigTerm, .pollEvents, .finish 0, .http false, .pollServer]
      (fun (s : Process testHttp) =>
        decide (s.returned = some (.ok .graceful) ∧ s.workers ≠ []))
      (by decide)
  obtain ⟨s, hs, hreturned⟩ := hrun
  have hreturned := of_decide_eq_true hreturned
  have hs : (system testHttp ⟨false, true⟩).ReachableWith FindsIdle s :=
    System.ReachableWith.of_guarded hs
  exact ⟨s, hreturned.1, hreturned.2, hs,
    (graceful_drains_when testHttp_documented ⟨false, true⟩).1 s hs hreturned.1⟩

/-- A task outlives the connection of its request, and `serve` returns `Graceful` while it
runs. -/
theorem graceful_abandons_task :
    testHttp.Documented ∧
      ¬ ∀ s, (system testHttp ⟨false, true⟩).Reachable s →
        s.returned = some (.ok .graceful) → s.Idle := by
  refine ⟨testHttp_documented, fun hclaim => ?_⟩
  have hrun : ∃ s, (system testHttp ⟨false, true⟩).Reachable s ∧
      decide (s.returned = some (.ok .graceful) ∧ ¬ s.Idle) = true :=
    System.exists_reachable_of_run
      [.http true, .accept, .http false, .signal .sigTerm, .pollEvents, .pollServer]
      (fun (s : Process testHttp) => decide (s.returned = some (.ok .graceful) ∧ ¬ s.Idle))
      (by decide)
  obtain ⟨s, hs, hbusy⟩ := hrun
  have hbusy := of_decide_eq_true hbusy
  exact hbusy.2 (hclaim s hs hbusy.1)

end CanonicalApi
