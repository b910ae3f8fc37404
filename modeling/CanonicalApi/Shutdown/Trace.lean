import CanonicalApi.Shutdown
import Mathlib.Data.List.Basic

/-!
# `CanonicalApi.Shutdown.Trace`: what the loop performs for the events it receives

`serve_with_events` feeds every event to the reducer and performs its action on the server. Here
the loop takes any events, in any order, and the server may move and finish at any point
(`loop`). `loopWithTrace` records the events with the actions that were performed for them.

`Lifecycle` says which traces there are: events without effect, then the signal that starts the
drain, again events without effect, then the event that forces, and events without effect; or a
failure that forces without a drain. It fixes the state of the reducer along with the trace.
`Lifecycle.step` is the step lemma, and `shutdown_runs` reads the results off the trace.

The process of `CanonicalApi.Shutdown`, with its own sources of events, is one way to feed the
loop: `exists_loop_of_system`.
-/

set_option autoImplicit false

namespace CanonicalApi

open Transition (System)

namespace Shutdown

/-! ## The loop -/

/-- The events in the order in which the loop received them, with the actions it performed. -/
abbrev ActionTrace : Type := List (Event × Action)

/-- A move of the server, an event or the end of the channel, and the result of the server. -/
inductive Poll (http : AxumServer) where
  | http (move : http.Move)
  | event (event : Option Event)
  | server

/-- The loop of `serve_with_events` with any source of events. Nothing is said about where they come
from, so the results hold for every order of signals. -/
def poll (http : AxumServer) (config : Config) (s : Process http) :
    Poll http → Option (Process http)
  | .http move =>
      if s.returned.isSome = true then none
      else (http.move s.server move).map fun server => { s with server }
  | .event event =>
      if s.returned.isSome = true ∨ s.eventsOpen = false then none
      else some (s.onEvent config event)
  | .server =>
      if s.returned.isSome = true then none
      else (http.result s.server).map s.onResult

/-- The event that the loop feeds to the reducer. -/
def received (event : Option Event) : Event := event.getD .drainFailed

/-- The trace after a step of the loop. -/
def traceAfter {http : AxumServer} (trace : ActionTrace) (s : Process http) :
    Poll http → ActionTrace
  | .event event => trace ++ [(received event, (reduce s.state (received event)).2)]
  | .http _ | .server => trace

/-- The runs of the loop of `serve_with_events`. -/
def loop (http : AxumServer) (config : Config) : System (Process http) (Poll http) :=
  System.ofFun (start http config) (poll http config)

/-- The loop with its trace. -/
def loopWithTrace (http : AxumServer) (config : Config) :
    System (Process http × ActionTrace) (Poll http) :=
  (loop http config).recording [] fun trace s a _ => traceAfter trace s a

/-- What an action does to the server. -/
def Action.perform (http : AxumServer) : Action → http.Server → http.Server
  | .none => id
  | .startGraceful => http.gracefulShutdown
  | .force => http.shutdown

section

variable {http : AxumServer}

/-- The loop performs the action of the reducer and takes its state. -/
theorem handle_eq (config : Config) (s : Process http) (event : Event) :
    (s.handle config event).state = (reduce s.state event).1 ∧
      (s.handle config event).server = (reduce s.state event).2.perform http s.server ∧
      (s.handle config event).returned = s.returned ∧
      (s.handle config event).eventsOpen = s.eventsOpen := by
  unfold Process.handle
  obtain ⟨state, action⟩ := reduce s.state event
  cases action <;> exact ⟨rfl, rfl, rfl, rfl⟩

/-- The end of the channel counts as a failure of the drain. -/
theorem onEvent_eq (config : Config) (s : Process http) (event : Option Event) :
    (s.onEvent config event).state = (reduce s.state (received event)).1 ∧
      (s.onEvent config event).server =
        (reduce s.state (received event)).2.perform http s.server ∧
      (s.onEvent config event).returned = s.returned := by
  cases event with
  | some event =>
    obtain ⟨hstate, hserver, hreturned, -⟩ := handle_eq config s event
    exact ⟨hstate, hserver, hreturned⟩
  | none =>
    obtain ⟨hstate, hserver, hreturned, -⟩ :=
      handle_eq config { s with eventsOpen := false } .drainFailed
    exact ⟨hstate, hserver, hreturned⟩

end

/-! ## The traces -/

/-- An event that is not a signal and has no effect. -/
structure Quiet (x : Event × Action) : Prop where
  isSignal : x.1.isSignal = false
  action : x.2 = .none

/-- The traces that the reducer gives, with its state after them: quiet events, one start of the
drain at most, one forced end at most. -/
inductive Lifecycle (tty : Bool) : ActionTrace → State → Prop where
  | running {before : ActionTrace} (hbefore : ∀ x ∈ before, Quiet x) :
      Lifecycle tty before (State.new tty)
  | draining {before during : ActionTrace} {trigger : Event} (hbefore : ∀ x ∈ before, Quiet x)
      (htrigger : trigger.isSignal = true) (hduring : ∀ x ∈ during, Quiet x) :
      Lifecycle tty (before ++ (trigger, .startGraceful) :: during)
        ⟨.draining, tty, some trigger, 1, none⟩
  | failed {before after : ActionTrace} (hbefore : ∀ x ∈ before, Quiet x)
      (hafter : ∀ x ∈ after, x.2 = .none) :
      Lifecycle tty (before ++ (.drainFailed, .force) :: after)
        ⟨.forcing, tty, some .drainFailed, 0, some .drainFailed⟩
  | forced {before during after : ActionTrace} {trigger cause : Event}
      (hbefore : ∀ x ∈ before, Quiet x) (htrigger : trigger.isSignal = true)
      (hduring : ∀ x ∈ during, Quiet x)
      (hcause : cause = .eof → tty = true ∧ trigger = .sigInt)
      (hafter : ∀ x ∈ after, x.2 = .none) :
      Lifecycle tty ((before ++ (trigger, .startGraceful) :: during) ++ (cause, .force) :: after)
        ⟨.forcing, tty, some trigger, if cause.isSignal = true then 2 else 1, some cause⟩

/-! ### Lists of events -/

/-- What holds of a list holds of the list with one more item. -/
theorem forall_mem_concat {p : Event × Action → Prop} {l : ActionTrace} (h : ∀ x ∈ l, p x)
    {y : Event × Action} (hy : p y) : ∀ x ∈ l ++ [y], p x := by
  intro x hx
  rcases List.mem_append.mp hx with hx | hx
  · exact h x hx
  · rw [List.mem_singleton.mp hx]
    exact hy

/-- A quiet part of a trace has no action. -/
theorem ne_of_quiet {l : ActionTrace} (h : ∀ x ∈ l, Quiet x) {action : Action}
    (haction : action ≠ .none) : ∀ x ∈ l, x.2 ≠ action := by
  intro x hx
  rw [(h x hx).action]
  exact haction.symm

/-- A part of a trace in which nothing is to be done has no other action. -/
theorem ne_of_none {l : ActionTrace} (h : ∀ x ∈ l, x.2 = .none) {action : Action}
    (haction : action ≠ .none) : ∀ x ∈ l, x.2 ≠ action := by
  intro x hx
  rw [h x hx]
  exact haction.symm

/-- An action that was performed once was performed at one place. -/
theorem split_unique {l l' before after : ActionTrace} {x : Event × Action} {event : Event}
    {action : Action} (h : l ++ x :: l' = before ++ (event, action) :: after)
    (hl : ∀ y ∈ l, y.2 ≠ action) (hl' : ∀ y ∈ l', y.2 ≠ action) :
    l = before ∧ x = (event, action) ∧ l' = after :=
  (List.append_cons_inj_of_notMem (fun hx => hl _ hx rfl) fun hx => hl' _ hx rfl).mp h

/-- The trace up to the event that forces, and the whole trace when none does. -/
def upToForce : ActionTrace → ActionTrace
  | [] => []
  | x :: rest => if x.2 = .force then [x] else x :: upToForce rest

/-- A part without a force lies before the force. -/
theorem upToForce_append {l : ActionTrace} (h : ∀ x ∈ l, x.2 ≠ .force) (rest : ActionTrace) :
    upToForce (l ++ rest) = l ++ upToForce rest := by
  induction l with
  | nil => rfl
  | cons x l ih =>
    rw [List.forall_mem_cons] at h
    rw [List.cons_append, upToForce, if_neg h.1, ih h.2, List.cons_append]

/-- The number of signals of a trace. -/
def signals (trace : ActionTrace) : Nat := trace.countP fun x => x.1.isSignal

/-- A quiet part has no signal. -/
theorem signals_of_quiet {l : ActionTrace} (h : ∀ x ∈ l, Quiet x) : signals l = 0 := by
  rw [signals, List.countP_eq_zero]
  intro x hx
  rw [(h x hx).isSignal]
  exact Bool.false_ne_true

/-- Signals add up over the parts of a trace. -/
theorem signals_append (l l' : ActionTrace) : signals (l ++ l') = signals l + signals l' :=
  List.countP_append

/-- One event more is one signal more, if it is one. -/
theorem signals_cons (x : Event × Action) (l : ActionTrace) :
    signals (x :: l) = signals l + if x.1.isSignal = true then 1 else 0 :=
  List.countP_cons

namespace Lifecycle

variable {tty : Bool} {trace : ActionTrace} {state : State}

/-- In a drain everything but an `Eof` that does not count forces. -/
theorem reduce_draining (tty : Bool) (trigger event : Event) :
    reduce ⟨.draining, tty, some trigger, 1, none⟩ event =
      if event = .eof ∧ ¬ (tty = true ∧ trigger = .sigInt)
      then (⟨.draining, tty, some trigger, 1, none⟩, .none)
      else (⟨.forcing, tty, some trigger, if event.isSignal = true then 2 else 1, some event⟩,
        .force) := by
  cases event with
  | eof =>
    simp only [reduce, Event.isSignal, Option.some.injEq]
    by_cases h : tty = true ∧ trigger = .sigInt <;> simp [h]
  | sigInt | sigTerm | deadline | drainFailed => simp [reduce, Event.isSignal, saturatingSucc]

/-- Every event keeps the shape. -/
theorem step (h : Lifecycle tty trace state) (event : Event) :
    Lifecycle tty (trace ++ [(event, (reduce state event).2)]) (reduce state event).1 := by
  cases h with
  | running hbefore =>
    cases event with
    | sigInt | sigTerm => exact .draining hbefore rfl nofun
    | drainFailed => exact .failed hbefore nofun
    | eof | deadline => exact .running (forall_mem_concat hbefore ⟨rfl, rfl⟩)
  | draining hbefore htrigger hduring =>
    rw [reduce_draining]
    split
    · next hquiet =>
      obtain ⟨rfl, -⟩ := hquiet
      rw [List.append_assoc, List.cons_append]
      exact .draining hbefore htrigger (forall_mem_concat hduring ⟨rfl, rfl⟩)
    · next hforces =>
      refine .forced hbefore htrigger hduring (fun heof => ?_) nofun
      rw [not_and, not_not] at hforces
      exact hforces heof
  | failed hbefore hafter =>
    rw [List.append_assoc, List.cons_append]
    exact .failed hbefore (forall_mem_concat hafter rfl)
  | forced hbefore htrigger hduring hcause hafter =>
    rw [List.append_assoc, List.cons_append]
    exact .forced hbefore htrigger hduring hcause (forall_mem_concat hafter rfl)

/-- The drain starts once, for the first signal. -/
theorem startGraceful_cases (h : Lifecycle tty trace state) {before after : ActionTrace}
    {event : Event} (htrace : trace = before ++ (event, .startGraceful) :: after) :
    (∀ x ∈ before, Quiet x) ∧ event.isSignal = true ∧ (∀ x ∈ after, x.2 ≠ .startGraceful) ∧
      state.trigger = some event := by
  have hstart : Action.startGraceful ≠ .none := nofun
  have hmem : (event, Action.startGraceful) ∈ trace := by
    rw [htrace]
    exact List.mem_append_right _ List.mem_cons_self
  cases h with
  | running hbefore => exact absurd rfl (ne_of_quiet hbefore hstart _ hmem)
  | draining hbefore htrigger hduring =>
    have hrest := ne_of_quiet hduring hstart
    obtain ⟨rfl, heq, rfl⟩ := split_unique htrace (ne_of_quiet hbefore hstart) hrest
    cases heq
    exact ⟨hbefore, htrigger, hrest, rfl⟩
  | failed hbefore hafter =>
    rcases List.mem_append.mp hmem with hmem | hmem
    · exact absurd rfl (ne_of_quiet hbefore hstart _ hmem)
    · rcases List.mem_cons.mp hmem with hmem | hmem
      · cases hmem
      · exact absurd rfl (ne_of_none hafter hstart _ hmem)
  | @forced before' during after' trigger cause hbefore htrigger hduring hcause hafter =>
    have hrest : ∀ x ∈ during ++ (cause, Action.force) :: after', x.2 ≠ .startGraceful := by
      rw [List.forall_mem_append, List.forall_mem_cons]
      exact ⟨ne_of_quiet hduring hstart, nofun, ne_of_none hafter hstart⟩
    rw [List.append_assoc, List.cons_append] at htrace
    obtain ⟨rfl, heq, rfl⟩ := split_unique htrace (ne_of_quiet hbefore hstart) hrest
    cases heq
    exact ⟨hbefore, htrigger, hrest, rfl⟩

/-- The event that forces comes once and nothing happens after it. It is a failure before the
first signal, or an event in the drain, and then `Eof` only in an interactive drain. -/
theorem force_cases (h : Lifecycle tty trace state) {before after : ActionTrace} {event : Event}
    (htrace : trace = before ++ (event, .force) :: after) :
    (∀ x ∈ before, x.2 ≠ .force) ∧ (∀ x ∈ after, x.2 = .none) ∧ state.forcedBy = some event ∧
      (event = .drainFailed ∨ ∃ trigger, trigger.isSignal = true ∧
        (trigger, .startGraceful) ∈ before ∧ state.trigger = some trigger ∧
          (event = .eof → tty = true ∧ trigger = .sigInt)) := by
  have hforce : Action.force ≠ .none := nofun
  have hmem : (event, Action.force) ∈ trace := by
    rw [htrace]
    exact List.mem_append_right _ List.mem_cons_self
  cases h with
  | running hbefore => exact absurd rfl (ne_of_quiet hbefore hforce _ hmem)
  | draining hbefore htrigger hduring =>
    rcases List.mem_append.mp hmem with hmem | hmem
    · exact absurd rfl (ne_of_quiet hbefore hforce _ hmem)
    · rcases List.mem_cons.mp hmem with hmem | hmem
      · cases hmem
      · exact absurd rfl (ne_of_quiet hduring hforce _ hmem)
  | failed hbefore hafter =>
    have hfirst := ne_of_quiet hbefore hforce
    obtain ⟨rfl, heq, rfl⟩ := split_unique htrace hfirst (ne_of_none hafter hforce)
    cases heq
    exact ⟨hfirst, hafter, rfl, .inl rfl⟩
  | @forced before' during after' trigger cause hbefore htrigger hduring hcause hafter =>
    have hfirst : ∀ x ∈ before' ++ (trigger, Action.startGraceful) :: during, x.2 ≠ .force := by
      rw [List.forall_mem_append, List.forall_mem_cons]
      exact ⟨ne_of_quiet hbefore hforce, nofun, ne_of_quiet hduring hforce⟩
    obtain ⟨rfl, heq, rfl⟩ := split_unique htrace hfirst (ne_of_none hafter hforce)
    cases heq
    refine ⟨hfirst, hafter, rfl, .inr ⟨trigger, htrigger, ?_, rfl, hcause⟩⟩
    exact List.mem_append_right _ List.mem_cons_self

/-- The reducer remembers the event that forced. -/
theorem forcedBy_eq_some_iff (h : Lifecycle tty trace state) (event : Event) :
    state.forcedBy = some event ↔ (event, .force) ∈ trace := by
  constructor
  · intro hforced
    cases h with
    | running | draining => cases hforced
    | failed | forced =>
      cases hforced
      exact List.mem_append_right _ List.mem_cons_self
  · intro hmem
    obtain ⟨before, after, htrace⟩ := List.append_of_mem hmem
    obtain ⟨-, -, hforced, -⟩ := h.force_cases htrace
    exact hforced

/-- Before the first signal the deadline and the end of stdin change nothing. -/
theorem reduce_early (h : Lifecycle tty trace state) (hnone : ∀ x ∈ trace, x.1.isSignal = false)
    {event : Event} (hevent : event = .deadline ∨ event = .eof) :
    reduce state event = (state, .none) := by
  cases h with
  | running => rcases hevent with rfl | rfl <;> rfl
  | draining hbefore htrigger hduring =>
    have hsignal := hnone _ (List.mem_append_right _ List.mem_cons_self)
    rw [htrigger] at hsignal
    cases hsignal
  | failed | forced => rfl

/-- The counter has the signals up to the event that forces. -/
theorem signalCount_eq (h : Lifecycle tty trace state) :
    state.signalCount = signals (upToForce trace) := by
  have hforce : Action.force ≠ .none := nofun
  cases h with
  | running hbefore =>
    rw [← List.append_nil trace, upToForce_append (ne_of_quiet hbefore hforce), upToForce,
      signals_append, signals_of_quiet hbefore]
    rfl
  | @draining before during trigger hbefore htrigger hduring =>
    have hduring' : upToForce during = during := by
      have happend := upToForce_append (ne_of_quiet hduring hforce) []
      rwa [upToForce, List.append_nil] at happend
    rw [upToForce_append (ne_of_quiet hbefore hforce), upToForce, if_neg nofun, hduring',
      signals_append, signals_cons, signals_of_quiet hbefore, signals_of_quiet hduring,
      if_pos htrigger]
  | failed hbefore hafter =>
    rw [upToForce_append (ne_of_quiet hbefore hforce), upToForce, if_pos rfl, signals_append,
      signals_of_quiet hbefore]
    rfl
  | @forced before during after trigger cause hbefore htrigger hduring hcause hafter =>
    have hfirst : ∀ x ∈ before ++ (trigger, Action.startGraceful) :: during, x.2 ≠ .force := by
      rw [List.forall_mem_append, List.forall_mem_cons]
      exact ⟨ne_of_quiet hbefore hforce, nofun, ne_of_quiet hduring hforce⟩
    rw [upToForce_append hfirst, upToForce, if_pos rfl]
    simp only [signals_append, signals_cons, signals_of_quiet hbefore, signals_of_quiet hduring,
      htrigger, if_true]
    show (if cause.isSignal = true then 2 else 1) =
      0 + (0 + 1) + (0 + if cause.isSignal = true then 1 else 0)
    split <;> rfl

end Lifecycle

/-! ## Runs -/

/-- The outcome that the loop returns in a state of the reducer. -/
def outcomeOf (state : State) : Outcome :=
  match state.forcedBy with
  | some event => .forced event
  | none => .graceful

/-- The outcome is forced by what the state names. -/
theorem outcomeOf_eq_forced_iff (state : State) (event : Event) :
    outcomeOf state = .forced event ↔ state.forcedBy = some event := by
  unfold outcomeOf
  cases state.forcedBy <;> simp

/-- The outcome is graceful when nothing has forced it. -/
theorem outcomeOf_eq_graceful_iff (state : State) :
    outcomeOf state = .graceful ↔ state.forcedBy = none := by
  unfold outcomeOf
  cases state.forcedBy <;> simp

section

variable {http : AxumServer} {config : Config}

/-- The trace has its shape, and the loop and its result are in the state that goes with it. -/
def Follows (config : Config) (s : Process http) (trace : ActionTrace) : Prop :=
  ∃ state, Lifecycle config.tty trace state ∧ (s.returned = none → s.state = state) ∧
    ∀ outcome, s.returned = some (.ok outcome) →
      s.state = { state with phase := .stopped } ∧ outcome = outcomeOf state

/-- Every step of the loop keeps this. -/
theorem Follows.poll {s s' : Process http} {trace : ActionTrace} {a : Poll http}
    (hs : Follows config s trace) (h : poll http config s a = some s') :
    Follows config s' (traceAfter trace s a) := by
  obtain ⟨state, htrace, hopen, -⟩ := hs
  cases a with
  -- The server moves without an event, so the trace stays.
  | http move =>
    simp only [Shutdown.poll] at h
    split at h
    · cases h
    · next hrunning =>
      have hreturned : s.returned = none := Option.not_isSome_iff_eq_none.mp hrunning
      obtain ⟨server, -, rfl⟩ := Option.map_eq_some_iff.mp h
      refine ⟨state, htrace, hopen, fun outcome houtcome => ?_⟩
      rw [show s.returned = _ from houtcome] at hreturned
      cases hreturned
  -- An event adds its action to the trace.
  | event event =>
    simp only [Shutdown.poll] at h
    split at h
    · cases h
    · next hrunning =>
      rw [not_or] at hrunning
      have hreturned : s.returned = none := Option.not_isSome_iff_eq_none.mp hrunning.1
      obtain ⟨hstate, -, hreturned'⟩ := onEvent_eq config s event
      cases h
      rw [hopen hreturned] at hstate
      refine ⟨_, ?_, fun _ => hstate, fun outcome houtcome => ?_⟩
      · rw [traceAfter, hopen hreturned]
        exact htrace.step (received event)
      · rw [hreturned', hreturned] at houtcome
        cases houtcome
  -- The end of the server fixes the outcome from the state so far.
  | server =>
    simp only [Shutdown.poll] at h
    split at h
    · cases h
    · next hrunning =>
      have hreturned : s.returned = none := Option.not_isSome_iff_eq_none.mp hrunning
      obtain ⟨result, -, rfl⟩ := Option.map_eq_some_iff.mp h
      cases result with
      | error error => exact ⟨state, htrace, nofun, nofun⟩
      | ok =>
        refine ⟨state, htrace, nofun, fun outcome houtcome => ?_⟩
        rw [← hopen hreturned]
        cases houtcome
        exact ⟨rfl, rfl⟩

/-- It holds in every run. -/
theorem follows_of_reachable {s : Process http} {trace : ActionTrace}
    (hs : (loopWithTrace http config).Reachable (s, trace)) : Follows config s trace := by
  refine System.ReachableWith.induct (I := fun p => Follows config p.1 p.2)
    (fun p h0 => ?_) (fun p a p' _ ih _ h => ?_) hs
  · obtain ⟨hstart, htrace⟩ := h0
    have hstart : p.1 = start http config := hstart
    rw [hstart, htrace]
    exact ⟨_, .running nofun, fun _ => rfl, nofun⟩
  · obtain ⟨hpoll, htrace⟩ := h
    rw [htrace]
    exact ih.poll hpoll

/-! ### The process is one way to feed the loop -/

/-- The loop is where the process is. -/
structure Agrees (s l : Process http) : Prop where
  state : l.state = s.state
  server : l.server = s.server
  eventsOpen : l.eventsOpen = s.eventsOpen
  returned : l.returned = s.returned

/-- The loop handles an event as the system does. -/
theorem Agrees.onEvent {s l : Process http} (h : Agrees s l) (event : Event) :
    Agrees (s.onEvent config (some event)) (l.onEvent config (some event)) := by
  obtain ⟨hstate, hserver, hreturned, hopen⟩ := handle_eq config s event
  obtain ⟨hstate', hserver', hreturned', hopen'⟩ := handle_eq config l event
  refine ⟨?_, ?_, ?_, ?_⟩
  · exact hstate'.trans (by rw [h.state]; exact hstate.symm)
  · exact hserver'.trans (by rw [h.state, h.server]; exact hserver.symm)
  · exact hopen'.trans (h.eventsOpen.trans hopen.symm)
  · exact hreturned'.trans (h.returned.trans hreturned.symm)

/-- The loop handles the end of the server as the system does. -/
theorem Agrees.onResult {s l : Process http} (h : Agrees s l) (result : Except String Unit) :
    Agrees (s.onResult result) (l.onResult result) := by
  cases result with
  | ok => refine ⟨?_, h.server, h.eventsOpen, ?_⟩ <;> simp only [Process.onResult, h.state]
  | error error =>
    refine ⟨?_, ?_, h.eventsOpen, rfl⟩ <;> simp only [Process.onResult, h.state, h.server]

/-- A step of the process is a step of the loop, or the loop stays where it is. -/
theorem Agrees.next {s s' l : Process http} {a : Step http} (hl : Agrees s l)
    (h : next http config s a = some s') :
    Agrees s' l ∨ ∃ b l', poll http config l b = some l' ∧ Agrees s' l' := by
  have hrunning := returned_of_next h
  have hrunning' : l.returned = none := hl.returned.trans hrunning
  cases a with
  -- The server moves on both sides.
  | http move =>
    simp only [Shutdown.next, hrunning, Option.isSome_none, Bool.false_eq_true, if_false] at h
    obtain ⟨server, hserver, rfl⟩ := Option.map_eq_some_iff.mp h
    refine .inr ⟨.http move, { l with server }, ?_, hl.state, rfl, hl.eventsOpen, hrunning'⟩
    simp [poll, hrunning', hl.server, hserver]
  | pollServer =>
    simp only [Shutdown.next, hrunning, Option.isSome_none, Bool.false_eq_true, if_false] at h
    obtain ⟨result, hresult, rfl⟩ := Option.map_eq_some_iff.mp h
    refine .inr ⟨.server, l.onResult result, ?_, hl.onResult result⟩
    simp [poll, hrunning', hl.server, hresult]
  | pollEvents =>
    simp only [Shutdown.next] at h
    split at h
    · cases h
    · next hopen =>
      rw [not_or, Bool.not_eq_false] at hopen
      split at h
      · next event rest hevents =>
        cases h
        -- The loop reads the event that is next in the channel.
        have hrest : Agrees { s with events := rest } l :=
          ⟨hl.state, hl.server, hl.eventsOpen, hl.returned⟩
        refine .inr ⟨.event (some event), l.onEvent config (some event), ?_, hrest.onEvent event⟩
        simp [poll, hrunning', hl.eventsOpen, hopen.2]
      · cases h
  | accept | finish | signal | stdinEof | deadline =>
    simp only [Shutdown.next] at h
    split at h
    · cases h
    · cases h
      -- The loop sees nothing of the other steps.
      exact .inl ⟨hl.state, hl.server, hl.eventsOpen, hl.returned⟩

/-- Every run of the process is a run of the loop with a trace. -/
theorem exists_loop_of_system {s : Process http} (hs : (system http config).Reachable s) :
    ∃ l trace, (loopWithTrace http config).Reachable (l, trace) ∧ Agrees s l := by
  have hloop : ∃ l, (loop http config).Reachable l ∧ Agrees s l := by
    refine hs.induct (I := fun s => ∃ l, (loop http config).Reachable l ∧ Agrees s l)
      (fun s h0 => ?_) (fun s a s' _ ih _ h => ?_)
    · exact ⟨s, .init h0, rfl, rfl, rfl, rfl⟩
    · obtain ⟨l, hl, hagrees⟩ := ih
      have hnext : next http config s a = some s' := h
      rcases hagrees.next hnext with hsame | ⟨b, l', hpoll, hagrees'⟩
      · exact ⟨l, hl, hsame⟩
      · exact ⟨l', .step hl trivial hpoll, hagrees'⟩
  obtain ⟨l, hl, hagrees⟩ := hloop
  obtain ⟨trace, htrace⟩ := System.ReachableWith.recording hl
  exact ⟨l, trace, htrace, hagrees⟩

end

end Shutdown

open Shutdown

/-- The runs of the shutdown loop, for any events in any order and a server that moves and
finishes at any point. Before the first signal a `Deadline` or `Eof` leaves everything as it is.
Let a run end with the server future completing successfully.

- `StartGraceful` is performed at most once, for the first `SigInt` or `SigTerm`, and `Force` at
  most once. After `Force` nothing is performed.
- The outcome is `Forced` with the event for which `Force` was performed, and `Graceful` when it
  was not. The event is `Eof` only with a terminal and a drain that `SigInt` started.
- The counter has the `SigInt` and `SigTerm` events up to the one that forced. -/
theorem shutdown_runs (http : AxumServer) (config : Shutdown.Config) :
    (∀ s trace event, (loopWithTrace http config).Reachable (s, trace) → s.returned = none →
      (∀ x ∈ trace, x.1.isSignal = false) → event = .deadline ∨ event = .eof →
        s.onEvent config (some event) = s) ∧
    ∀ s trace outcome, (loopWithTrace http config).Reachable (s, trace) →
      s.returned = some (.ok outcome) →
        (∀ before event after, trace = before ++ (event, .startGraceful) :: after →
          event.isSignal = true ∧ (∀ x ∈ before, x.1.isSignal = false) ∧
            ∀ x ∈ before ++ after, x.2 ≠ .startGraceful) ∧
        (∀ before event after, trace = before ++ (event, .force) :: after →
          (∀ x ∈ before, x.2 ≠ .force) ∧ ∀ x ∈ after, x.2 = .none) ∧
        (∀ event, outcome = .forced event ↔ (event, .force) ∈ trace) ∧
        (outcome = .graceful ↔ ∀ x ∈ trace, x.2 ≠ .force) ∧
        (outcome = .forced .eof → config.tty = true ∧ (.sigInt, .startGraceful) ∈ trace ∧
          s.state.trigger = some .sigInt) ∧
        s.state.signalCount = signals (upToForce trace) := by
  refine ⟨?_, ?_⟩
  · intro s trace event hs hopen hnone hevent
    -- The state is what the trace makes of the initial one, so each clause is one about traces.
    obtain ⟨state, htrace, hstate, -⟩ := follows_of_reachable hs
    have hreduce := htrace.reduce_early hnone hevent
    rw [← hstate hopen] at hreduce
    show s.handle config event = s
    unfold Process.handle
    rw [hreduce]
  · intro s trace outcome hs hreturned
    obtain ⟨state, htrace, -, hresult⟩ := follows_of_reachable hs
    obtain ⟨hstate, rfl⟩ := hresult outcome hreturned
    have hforced : ∀ event, outcomeOf state = .forced event ↔ (event, .force) ∈ trace := by
      intro event
      rw [outcomeOf_eq_forced_iff, htrace.forcedBy_eq_some_iff]
    rw [hstate]
    refine ⟨?_, ?_, hforced, ?_, ?_, htrace.signalCount_eq⟩
    · intro before event after hsplit
      obtain ⟨hbefore, hsignal, hafter, -⟩ := htrace.startGraceful_cases hsplit
      refine ⟨hsignal, fun x hx => (hbefore x hx).isSignal, ?_⟩
      rw [List.forall_mem_append]
      exact ⟨ne_of_quiet hbefore nofun, hafter⟩
    · intro before event after hsplit
      obtain ⟨hbefore, hafter, -, -⟩ := htrace.force_cases hsplit
      exact ⟨hbefore, hafter⟩
    · rw [outcomeOf_eq_graceful_iff, Option.eq_none_iff_forall_ne_some]
      constructor
      · intro hnot x hx hforce
        exact hnot x.1 ((htrace.forcedBy_eq_some_iff x.1).mpr (by rw [← hforce]; exact hx))
      · intro hnot event hevent
        exact hnot _ ((htrace.forcedBy_eq_some_iff event).mp hevent) rfl
    · intro heof
      obtain ⟨before, after, hsplit⟩ := List.append_of_mem ((hforced .eof).mp heof)
      -- What forced the end is a failure before the first signal or an event after it.
      obtain ⟨-, -, -, hcause⟩ := htrace.force_cases hsplit
      rcases hcause with hfailed | ⟨trigger, -, hmem, htrigger, hinteractive⟩
      · cases hfailed
      · obtain ⟨htty, rfl⟩ := hinteractive rfl
        refine ⟨htty, ?_, htrigger⟩
        rw [hsplit]
        exact List.mem_append_left _ hmem

/-- A run with an early deadline, an interactive drain and the end of stdin in it. One signal is in
its trace, and the state has counted one. -/
theorem shutdown_runs_test :
    ∃ (s : Process testHttp) (trace : ActionTrace),
      (loopWithTrace testHttp ⟨true, true⟩).Reachable (s, trace) ∧
        (.sigInt, .startGraceful) ∈ trace ∧ s.state.signalCount = signals (upToForce trace) ∧
          signals (upToForce trace) = 1 := by
  have hrun : ∃ p, (System.ofFun (start testHttp ⟨true, true⟩, [])
        (System.record (poll testHttp ⟨true, true⟩)
          fun trace s a _ => traceAfter trace s a)).Reachable p ∧
      decide (p.1.returned = some (.ok (.forced .eof)) ∧ signals (upToForce p.2) = 1) = true :=
    System.exists_reachable_of_run
      [.event (some .deadline), .event (some .sigInt), .event (some .eof), .server]
      (fun (p : Process testHttp × ActionTrace) =>
        decide (p.1.returned = some (.ok (.forced .eof)) ∧ signals (upToForce p.2) = 1))
      (by decide)
  obtain ⟨⟨s, trace⟩, hs, hreturned⟩ := hrun
  have hreturned := of_decide_eq_true hreturned
  have hs : (loopWithTrace testHttp ⟨true, true⟩).Reachable (s, trace) :=
    System.ReachableWith.of_record hs
  obtain ⟨-, -, -, -, heof, hcount⟩ :=
    (shutdown_runs testHttp ⟨true, true⟩).2 s trace _ hs hreturned.1
  exact ⟨s, trace, hs, (heof rfl).2.1, hcount, hreturned.2⟩

end CanonicalApi
