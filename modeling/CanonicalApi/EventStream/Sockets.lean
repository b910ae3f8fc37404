import CanonicalApi.EventStream
import CanonicalApi.Lib.Semaphore

/-!
# `CanonicalApi.EventStream.Sockets`: many connections

The connections of a process beside each other, as `Tasks` on one source, with the permits of
`QuoteAdmission` for sockets. `quote_events` takes a permit once it has found the quote, and the
permit goes with the upgraded connection into `stream_quote_events`. It is back when the handler
fails or is dropped and when the stream ends.

`connection_reachable` says that each connection is a run of `EventStream.system` of its own: the
others only delay it. So what holds of one connection holds of all of them. `socket_capacity` counts
the permits.
-/

set_option autoImplicit false

namespace CanonicalApi

open Transition (System)

/-- `WEBSOCKET_MAX_CONNECTIONS`. -/
def websocketMaxConnections : Nat := 1024

section

variable [CanonicalLib]

/-- The source with the permits that are left. -/
structure SocketState (source : EventSource) where
  source : source.State
  sockets : Nat

/-- The handlers and workers of the source, a request for the events of a quote by its owner, its
connection, or a connection whose handler was dropped. `permit` tells whether the connection owns a
permit. -/
inductive SocketTask where
  | outside
  | requested (quoteId : Uuid) (subject : String)
  | connection (quoteId : Uuid) (subject : String) (stream : EventStream) (permit : Bool)
  | dropped (quoteId : Uuid) (subject : String) (stream : EventStream)

/-- What comes from outside in a poll: a step of the source, the reservation of a permit, a step of
the stream, or the drop of the handler. -/
inductive SocketInput (source : EventSource) where
  | publish (a : source.Action)
  | reserve
  | resume (a : EventStream.Action source)
  | cancel

/-- The handler or the stream has returned. -/
def StreamStage.ended : StreamStage → Bool
  | refused _ | closed => true
  | _ => false

/-- The connection owns a permit for certain. -/
def StreamStage.reserved : StreamStage → Bool
  | upgrading _ | greeting _ | waiting | handling _ => true
  | _ => false

section

variable {source : EventSource}

/-- The permit goes back when its owner is gone. -/
def SocketState.release (state : SocketState source) (permit : Bool) : SocketState source :=
  if permit then { state with sockets := state.sockets + 1 } else state

/-- A step of the stream that is allowed without a look at the permits. -/
def EventStream.Action.inner : EventStream.Action source → Bool
  | .outside _ | .noPermit => false
  | _ => true

/-- A step of a connection on its own. `latest` comes after the reservation, so it needs the permit.
The steps of the source and the refusal for want of a permit are not its own. -/
def resumeConnection (state : SocketState source) (quoteId : Uuid) (subject : String)
    (stream : EventStream) (permit : Bool) (a : EventStream.Action source) :
    Option EventStream :=
  if a.inner = false then none
  else
    match a, permit with
    | .latest _, false => none
    | _, _ =>
        (EventStream.step source quoteId subject ⟨state.source, stream⟩ a).map
          EventStream.Connection.stream

/-- `reserve_websocket`, after the quote was found. Without a permit left the request is refused,
and the stream never opens. -/
def reserveConnection (state : SocketState source) (quoteId : Uuid) (subject : String)
    (stream : EventStream) : Option (SocketState source × SocketTask) :=
  match stream.stage with
  | .found _ =>
      if state.sockets = 0 then
        some (state, .connection quoteId subject
          { stream with stage := .refused websocketCapacityReached } false)
      else
        some ({ state with sockets := state.sockets - 1 },
          .connection quoteId subject stream true)
  | _ => none

/-- A task from one await point to the next. The task `outside` stands for everything else that the
process does; the others are connections. A connection gives its permit back when it ends, and when
its handler is dropped before the upgrade. -/
def SocketTask.poll (state : SocketState source) (task : SocketTask)
    (input : SocketInput source) :
    Option (SocketState source × SocketTask × Option SocketTask) :=
  match task, input with
  | outside, .publish a =>
      (source.next state.source a).map fun after => ({ state with source := after }, outside, none)
  | requested quoteId subject, .resume a =>
      (resumeConnection state quoteId subject {} false a).map fun stream =>
        (state, connection quoteId subject stream false, none)
  | requested quoteId subject, .cancel => some (state, dropped quoteId subject {}, none)
  | connection quoteId subject stream false, .reserve =>
      (reserveConnection state quoteId subject stream).map fun (state, task) => (state, task, none)
  | connection quoteId subject stream permit, .resume a =>
      (resumeConnection state quoteId subject stream permit a).map fun stream =>
        (state.release (permit && stream.stage.ended),
          connection quoteId subject stream (permit && !stream.stage.ended), none)
  | connection quoteId subject stream permit, .cancel =>
      -- The handler is dropped, or the upgrade does not take place.
      if stream.stage.isOpen then none
      else some (state.release permit, dropped quoteId subject stream, none)
  | _, _ => none

end

/-- The connections of a process, which share its permits. None is dropped without a poll: the
cancellation of a handler is an input of its own, because it gives a permit back. -/
@[reducible] def socketTasks (source : EventSource) : Tasks where
  Shared := SocketState source
  Task := SocketTask
  Input := SocketInput source
  start := ⟨source.start, websocketMaxConnections⟩
  arrives state
    | .outside | .requested _ _ => some state
    | _ => none
  poll := SocketTask.poll
  droppable _ := false

/-! ### One poll -/

section

variable {source : EventSource}

/-- A poll: what it does to the state, and the next await point of the task. Each constructor that
moves a stream names the step of the stream model that it is. -/
inductive SocketPolled (state : SocketState source) :
    SocketTask → SocketState source → SocketTask → Prop where
  | publishes {a : source.Action} {after : source.State} :
      source.next state.source a = some after →
      SocketPolled state .outside { state with source := after } .outside
  | begins {quoteId : Uuid} {subject : String} {stream : EventStream}
      {a : EventStream.Action source} :
      EventStream.step source quoteId subject ⟨state.source, {}⟩ a =
        some ⟨state.source, stream⟩ →
      stream.stage.reserved = false →
      SocketPolled state (.requested quoteId subject) state
        (.connection quoteId subject stream false)
  | withdraws {quoteId : Uuid} {subject : String} :
      SocketPolled state (.requested quoteId subject) state (.dropped quoteId subject {})
  | full {quoteId : Uuid} {subject : String} {stream stream' : EventStream} :
      state.sockets = 0 → stream'.stage = .refused websocketCapacityReached →
      EventStream.step source quoteId subject ⟨state.source, stream⟩ .noPermit =
        some ⟨state.source, stream'⟩ →
      SocketPolled state (.connection quoteId subject stream false) state
        (.connection quoteId subject stream' false)
  | reserves {quoteId : Uuid} {subject : String} {stream : EventStream} {record : QuoteRecord} :
      state.sockets ≠ 0 → stream.stage = .found record →
      SocketPolled state (.connection quoteId subject stream false)
        { state with sockets := state.sockets - 1 } (.connection quoteId subject stream true)
  | resumes {quoteId : Uuid} {subject : String} {stream stream' : EventStream} {permit : Bool}
      {a : EventStream.Action source} :
      EventStream.step source quoteId subject ⟨state.source, stream⟩ a =
        some ⟨state.source, stream'⟩ →
      (permit = false → stream.stage.reserved = false → stream'.stage.reserved = false) →
      SocketPolled state (.connection quoteId subject stream permit)
        (state.release (permit && stream'.stage.ended))
        (.connection quoteId subject stream' (permit && !stream'.stage.ended))
  | drops {quoteId : Uuid} {subject : String} {stream : EventStream} {permit : Bool} :
      SocketPolled state (.connection quoteId subject stream permit) (state.release permit)
        (.dropped quoteId subject stream)

/-- A stream gets to a reserved stage only from one, or through `latest`. -/
theorem reserved_of_step {quoteId : Uuid} {subject : String} {s s' : EventStream.Connection source}
    {a : EventStream.Action source} (h : EventStream.step source quoteId subject s a = some s')
    (hlatest : ∀ read, a ≠ .latest read) (hbefore : s.stream.stage.reserved = false) :
    s'.stream.stage.reserved = false := by
  cases a with
  | outside a =>
    obtain ⟨after, -, rfl⟩ := Option.map_eq_some_iff.mp h
    exact hbefore
  | find read =>
    simp only [EventStream.step] at h
    split at h
    · split at h <;> cases h <;> rfl
    · cases h
  | noPermit =>
    simp only [EventStream.step] at h
    split at h
    · cases h
      rfl
    · cases h
  -- This action alone follows the reservation; the stages before it hold no permit.
  | latest read => exact absurd rfl (hlatest read)
  | subscribe =>
    simp only [EventStream.step] at h
    split at h
    · next hstage =>
      rw [hstage] at hbefore
      cases hbefore
    · cases h
  | greet read delivered =>
    simp only [EventStream.step] at h
    split at h
    · next hstage =>
      rw [hstage] at hbefore
      cases hbefore
    · cases h
  | recv =>
    simp only [EventStream.step] at h
    split at h
    · next hstage =>
      rw [hstage] at hbefore
      cases hbefore
    · cases h
  | send read delivered =>
    simp only [EventStream.step] at h
    split at h
    · next hstage =>
      rw [hstage] at hbefore
      cases hbefore
    · cases h
  | close =>
    simp only [EventStream.step] at h
    split at h
    · cases h
      rfl
    · cases h
      rfl
    · cases h
      rfl
    · cases h

/-- A step of the stream itself leaves the source alone. -/
theorem source_of_step {quoteId : Uuid} {subject : String} {s s' : EventStream.Connection source}
    {a : EventStream.Action source} (h : EventStream.step source quoteId subject s a = some s')
    (hinner : a.inner = true) : s'.source = s.source := by
  have hmoves := EventStream.moves_of_step h
  cases hmoves with
  | outside _ => cases hinner
  | connects _ _ => rfl
  | subscribes _ => rfl
  | greets _ _ => rfl
  | skips _ => rfl
  | receives _ _ => rfl
  | lags _ _ => rfl
  | sends _ _ => rfl
  | closes _ => rfl

/-- What a step of a connection on its own is. -/
theorem step_of_resume {state : SocketState source} {quoteId : Uuid} {subject : String}
    {stream stream' : EventStream} {permit : Bool} {a : EventStream.Action source}
    (h : resumeConnection state quoteId subject stream permit a = some stream') :
    EventStream.step source quoteId subject ⟨state.source, stream⟩ a =
        some ⟨state.source, stream'⟩ ∧
      (permit = false → stream.stage.reserved = false → stream'.stage.reserved = false) := by
  unfold resumeConnection at h
  split at h
  · cases h
  · next hinner =>
    rw [Bool.not_eq_false] at hinner
    split at h
    · cases h
    · next hlatest =>
      obtain ⟨⟨after, stream₁⟩, hstep, rfl⟩ := Option.map_eq_some_iff.mp h
      -- An inner action of a connection leaves the source as it is.
      have hsource : after = state.source := source_of_step hstep hinner
      subst hsource
      refine ⟨hstep, fun hpermit hbefore => ?_⟩
      refine reserved_of_step hstep (fun read heq => ?_) hbefore
      exact hlatest read heq hpermit

/-- Every poll is one of these. -/
theorem socketPolled_of_poll {state state' : SocketState source} {task task' : SocketTask}
    {input : SocketInput source} {child? : Option SocketTask}
    (h : task.poll state input = some (state', task', child?)) :
    SocketPolled state task state' task' ∧ child? = none := by
  cases task with
  | outside =>
    cases input with
    | publish a =>
      obtain ⟨after, hafter, heq⟩ := Option.map_eq_some_iff.mp h
      cases heq
      exact ⟨.publishes hafter, rfl⟩
    | reserve => cases h
    | resume a => cases h
    | cancel => cases h
  | requested quoteId subject =>
    cases input with
    | resume a =>
      obtain ⟨stream, hresume, heq⟩ := Option.map_eq_some_iff.mp h
      cases heq
      obtain ⟨hstep, hreserved⟩ := step_of_resume hresume
      exact ⟨.begins hstep (hreserved rfl rfl), rfl⟩
    | cancel =>
      cases h
      exact ⟨.withdraws, rfl⟩
    | publish a => cases h
    | reserve => cases h
  | connection quoteId subject stream permit =>
    cases input with
    | publish a => cases permit <;> cases h
    | reserve =>
      cases permit with
      | true => cases h
      | false =>
        obtain ⟨⟨after, task₁⟩, hreserve, heq⟩ := Option.map_eq_some_iff.mp h
        cases heq
        -- The reservation fails only when no permit is free.
        unfold reserveConnection at hreserve
        split at hreserve
        · next record hstage =>
          split at hreserve
          · next hzero =>
            cases hreserve
            refine ⟨.full hzero rfl ?_, rfl⟩
            simp only [EventStream.step, hstage]
          · next hne =>
            cases hreserve
            exact ⟨.reserves hne hstage, rfl⟩
        · cases hreserve
    | resume a =>
      have h : (resumeConnection state quoteId subject stream permit a).map (fun stream =>
          (state.release (permit && stream.stage.ended),
            SocketTask.connection quoteId subject stream (permit && !stream.stage.ended), none)) =
          some (state', task', child?) := by cases permit <;> exact h
      obtain ⟨stream', hresume, heq⟩ := Option.map_eq_some_iff.mp h
      cases heq
      obtain ⟨hstep, hreserved⟩ := step_of_resume hresume
      exact ⟨.resumes hstep hreserved, rfl⟩
    | cancel =>
      have h : (if stream.stage.isOpen = true then none
          else some (state.release permit, SocketTask.dropped quoteId subject stream, none)) =
          some (state', task', child?) := by cases permit <;> exact h
      obtain ⟨-, heq⟩ := Option.ite_none_left_eq_some.mp h
      cases heq
      exact ⟨.drops, rfl⟩
  | dropped quoteId subject stream => cases input <;> cases h

/-! ### Each connection on its own -/

/-- The stream of a task, with its quote and owner. -/
def SocketTask.stream? : SocketTask → Option (Uuid × String × EventStream)
  | outside => none
  | requested quoteId subject => some (quoteId, subject, {})
  | connection quoteId subject stream _ => some (quoteId, subject, stream)
  | dropped quoteId subject stream => some (quoteId, subject, stream)

/-- Giving a permit back does not touch the source. -/
@[simp] theorem source_release (state : SocketState source) (permit : Bool) :
    (state.release permit).source = state.source := by
  unfold SocketState.release
  split <;> rfl

/-- A permit that is given back is free again. -/
theorem sockets_release (state : SocketState source) (permit : Bool) :
    (state.release permit).sockets = state.sockets + permit.toNat := by
  cases permit <;> rfl

/-- A step of the process moves the source by one of its steps, or not at all. -/
theorem source_of_socketStep {s s' : (socketTasks source).State} {a : (socketTasks source).Action}
    (h : Tasks.Step s a s') : s'.shared.source = s.shared.source ∨
      ∃ b, source.next s.shared.source b = some s'.shared.source := by
  cases h with
  | @arrive pid p shared harrives hnone =>
    cases p with
    | outside =>
      cases harrives
      exact .inl rfl
    | requested quoteId subject =>
      cases harrives
      exact .inl rfl
    | connection quoteId subject stream permit => cases harrives
    | dropped quoteId subject stream => cases harrives
  | poll hp hchild hpoll =>
    obtain ⟨hpolled, -⟩ := socketPolled_of_poll hpoll
    cases hpolled with
    -- Only a publication moves the source; the others move permits or connections.
    | publishes hnext => exact .inr ⟨_, hnext⟩
    | begins _ _ => exact .inl rfl
    | withdraws => exact .inl rfl
    | full _ _ _ => exact .inl rfl
    | reserves _ _ => exact .inl rfl
    | resumes _ _ => exact .inl (source_release _ _)
    | drops => exact .inl (source_release _ _)
  | drop hp hdrop => cases hdrop

/-- A connection that has not begun beside a source that runs. -/
theorem connecting_reachable {state : source.State}
    (h : (System.ofFun source.start source.next).Reachable state) (quoteId : Uuid)
    (subject : String) :
    (EventStream.system source quoteId subject).Reachable ⟨state, {}⟩ := by
  refine System.ReachableWith.induct
    (I := fun state => (EventStream.system source quoteId subject).Reachable ⟨state, {}⟩) ?_ ?_ h
  · intro state hstate
    obtain rfl := hstate
    exact .init rfl
  · intro state a after _ hstate _ hnext
    have hnext : source.next state a = some after := hnext
    refine .step (a := .outside a) hstate trivial ?_
    show (source.next state a).map _ = _
    rw [hnext]
    rfl

/-- The source runs, and each stream runs beside it. -/
structure StreamsReachable (s : (socketTasks source).State) : Prop where
  running : (System.ofFun source.start source.next).Reachable s.shared.source
  streams : ∀ pid p quoteId subject stream, s.tasks pid = some p →
    p.stream? = some (quoteId, subject, stream) →
      (EventStream.system source quoteId subject).Reachable ⟨s.shared.source, stream⟩

/-- A step of the process is a step of the source beside all streams, or a step of one stream with
the source as it is. -/
theorem StreamsReachable.step {s s' : (socketTasks source).State}
    {a : (socketTasks source).Action} (h : StreamsReachable s) (hstep : Tasks.Step s a s') :
    StreamsReachable s' := by
  -- For each stream, a step of the process is a step of the source outside of it or a step of its
  -- own.
  have hmoves := source_of_socketStep hstep
  have hsource : (System.ofFun source.start source.next).Reachable s'.shared.source := by
    rcases hmoves with hsame | ⟨b, hnext⟩
    · rw [hsame]
      exact h.running
    · exact .step h.running trivial hnext
  refine ⟨hsource, fun pid p' quoteId subject stream hp' hstream => ?_⟩
  cases hstep.origin hp' with
  | same hp _ _ =>
    have hbefore := h.streams pid p' quoteId subject stream hp hstream
    rcases hmoves with hsame | ⟨b, hnext⟩
    · rwa [hsame]
    · refine .step (a := .outside b) hbefore trivial ?_
      show (source.next s.shared.source b).map _ = _
      rw [hnext]
      rfl
  | arrived _ _ harrives =>
    cases p' with
    | outside => cases hstream
    | requested quoteId' subject' =>
      cases hstream
      exact connecting_reachable hsource _ _
    | connection quoteId' subject' stream' permit => cases harrives
    | dropped quoteId' subject' stream' => cases harrives
  | @polled p input child q? ha hp hpoll =>
    obtain ⟨hpolled, -⟩ := socketPolled_of_poll hpoll
    have hold := h.streams pid p
    -- The polled stream moves itself; the source is as before, except where it publishes.
    generalize s'.shared = shared at hpolled
    cases hpolled with
    | publishes _ => cases hstream
    | begins hstep' _ =>
      cases hstream
      exact .step (hold _ _ {} hp rfl) trivial hstep'
    | withdraws =>
      cases hstream
      exact hold _ _ _ hp rfl
    | full _ _ hstep' =>
      cases hstream
      exact .step (hold _ _ _ hp rfl) trivial hstep'
    | reserves _ _ =>
      cases hstream
      exact hold _ _ _ hp rfl
    | resumes hstep' _ =>
      cases hstream
      rw [source_release]
      exact .step (hold _ _ _ hp rfl) trivial hstep'
    | drops =>
      cases hstream
      rw [source_release]
      exact hold _ _ _ hp rfl
  | started _ _ _ hpoll =>
    obtain ⟨-, hnone⟩ := socketPolled_of_poll hpoll
    cases hnone

/-- Each connection of a process is a run of its own. -/
theorem connection_reachable {s : (socketTasks source).State}
    (h : (socketTasks source).system.Reachable s) : StreamsReachable s := by
  refine System.ReachableWith.induct (I := StreamsReachable) ?_ ?_ h
  · intro s hs
    obtain rfl := hs
    refine ⟨.init rfl, fun pid p quoteId subject stream hp => ?_⟩
    cases hp
  · intro s a s' _ hs _ hnext
    exact hs.step (Tasks.step_of_next hnext)

/-! ### The permits -/

/-- The permits for sockets. -/
def socketPermits (source : EventSource) : Semaphore (socketTasks source) where
  capacity := websocketMaxConnections
  available := SocketState.sockets
  owned
    | .connection _ _ _ permit => permit.toNat
    | _ => 0

/-- Permits are moved, never made or lost. -/
theorem socketPermits_sound : (socketPermits source).Sound where
  start := rfl
  arrives {shared shared' p} h := by
    cases p with
    | outside =>
      cases h
      rfl
    | requested quoteId subject =>
      cases h
      rfl
    | connection quoteId subject stream permit => cases h
    | dropped quoteId subject stream => cases h
  poll {shared shared' p p' q? input} h := by
    obtain ⟨hpolled, rfl⟩ := socketPolled_of_poll h
    cases hpolled with
    | publishes _ => rfl
    | begins _ _ => rfl
    | withdraws => rfl
    | full _ _ _ => rfl
    -- The reservation takes one permit, which is there.
    | reserves hne _ =>
      show shared.sockets - 1 + (1 + 0) = shared.sockets + 0
      omega
    -- A connection that ends gives its permit back, if it has one.
    | @resumes quoteId subject stream stream' permit a hstep hreserved =>
      show (shared.release _).sockets + (Bool.toNat _ + 0) = shared.sockets + permit.toNat
      rw [sockets_release]
      cases permit <;> cases stream'.stage.ended <;> rfl
    | @drops quoteId subject stream permit =>
      show (shared.release _).sockets + (0 + 0) = shared.sockets + permit.toNat
      rw [sockets_release]
      rfl
  drop h := by cases h

/-- A connection has its permit from the upgrade on, and none after its end. -/
def PermitsFollow (s : (socketTasks source).State) : Prop :=
  ∀ pid quoteId subject stream permit,
    s.tasks pid = some (.connection quoteId subject stream permit) →
      (stream.stage.reserved = true → permit = true) ∧
      (stream.stage.ended = true → permit = false)

/-- A step keeps this: the permit is taken by the step that upgrades the connection, and dropped by
the one that ends it. -/
theorem PermitsFollow.step {s s' : (socketTasks source).State} {a : (socketTasks source).Action}
    (h : PermitsFollow s) (hstep : Tasks.Step s a s') : PermitsFollow s' := by
  intro pid quoteId subject stream permit htask
  cases hstep.origin htask with
  | same hp _ _ => exact h pid quoteId subject stream permit hp
  | arrived _ _ harrives => cases harrives
  | @polled p input child q? ha hp hpoll =>
    obtain ⟨hpolled, -⟩ := socketPolled_of_poll hpoll
    generalize s'.shared = shared at hpolled
    cases hpolled with
    | begins _ hreserved =>
      refine ⟨fun hyes => ?_, fun _ => rfl⟩
      rw [hreserved] at hyes
      cases hyes
    | full _ hstage _ =>
      refine ⟨fun hyes => ?_, fun _ => rfl⟩
      rw [hstage] at hyes
      cases hyes
    | reserves _ hstage =>
      refine ⟨fun _ => rfl, fun hyes => ?_⟩
      rw [hstage] at hyes
      cases hyes
    | @resumes _ _ stream₀ _ permit₀ a hstep' hreserved =>
      obtain ⟨hheld, -⟩ := h pid quoteId subject stream₀ permit₀ hp
      constructor
      · intro hyes
        have hended : stream.stage.ended = false := by
          cases hstage : stream.stage <;> rw [hstage] at hyes <;> first | rfl | cases hyes
        cases permit₀ with
        | true => rw [hended]; rfl
        | false =>
          -- Without a permit the connection was not reserved before.
          have hbefore : stream₀.stage.reserved = false := by
            cases hcase : stream₀.stage.reserved with
            | false => rfl
            | true => cases hheld hcase
          rw [hreserved rfl hbefore] at hyes
          cases hyes
      · intro hended
        rw [hended, Bool.not_true, Bool.and_false]
  | started _ _ _ hpoll =>
    obtain ⟨-, hnone⟩ := socketPolled_of_poll hpoll
    cases hnone

/-- So it holds in every run. -/
theorem permitsFollow_of_reachable {s : (socketTasks source).State}
    (h : (socketTasks source).system.Reachable s) : PermitsFollow s := by
  refine System.ReachableWith.induct (I := PermitsFollow) ?_ ?_ h
  · intro s hs
    obtain rfl := hs
    intro pid quoteId subject stream permit htask
    cases htask
  · intro s a s' _ hs _ hnext
    exact hs.step (Tasks.step_of_next hnext)

end

/-- The connections of a process in both storage modes, in every run. Each connection is a run of
its own beside the handlers and workers, whatever the other connections do. The permits that are not
left are those of the connections between their reservation and their end. So at most 1024 streams
are open or about to open, the permit of a connection is back when it has ended or was dropped, and
a connection is refused for capacity exactly when 1024 others own a permit. -/
theorem socket_capacity [Postgres] (mode : StorageMode) {s : (socketTasks mode.source).State}
    (h : (socketTasks mode.source).system.Reachable s) :
    (∀ pid quoteId subject stream permit,
      s.tasks pid = some (.connection quoteId subject stream permit) →
        (EventStream.system mode.source quoteId subject).Reachable ⟨s.shared.source, stream⟩ ∧
        (stream.stage.reserved = true → permit = true) ∧
        (stream.stage.ended = true → permit = false)) ∧
    ∃ owners : Finset Nat,
      (∀ pid, pid ∈ owners ↔ ∃ quoteId subject stream,
        s.tasks pid = some (.connection quoteId subject stream true)) ∧
      s.shared.sockets + owners.card = websocketMaxConnections ∧
      ∀ pid quoteId subject stream child s',
        s.tasks pid = some (.connection quoteId subject stream false) →
        (socketTasks mode.source).next s (.poll pid .reserve child) = some s' →
          ((∃ stream', s'.tasks pid = some (.connection quoteId subject stream' false) ∧
            stream'.stage = .refused websocketCapacityReached) ↔
              owners.card = websocketMaxConnections) := by
  have hstreams := connection_reachable h
  have hfollow := permitsFollow_of_reachable h
  have hconserved := Semaphore.conserved_of_reachable socketPermits_sound h
  refine ⟨?_, ?_⟩
  · intro pid quoteId subject stream permit hp
    exact ⟨hstreams.streams pid _ quoteId subject stream hp rfl,
      hfollow pid quoteId subject stream permit hp⟩
  -- Each task owns at most one permit, so the owners can be counted.
  obtain ⟨owners, howners, hcard⟩ := hconserved.exists_owners (by
    intro task
    cases task with
    | connection quoteId subject stream permit => exact Bool.toNat_le permit
    | outside => exact Nat.zero_le 1
    | requested quoteId subject => exact Nat.zero_le 1
    | dropped quoteId subject stream => exact Nat.zero_le 1)
  have hcard : s.shared.sockets + owners.card = websocketMaxConnections := hcard
  refine ⟨owners, ?_, hcard, ?_⟩
  · intro pid
    rw [howners]
    constructor
    · rintro ⟨p, hp, hone⟩
      cases p with
      | connection quoteId subject stream permit =>
        have hpermit : permit.toNat = 1 := hone
        rw [Bool.toNat_eq_one.mp hpermit] at hp
        exact ⟨quoteId, subject, stream, hp⟩
      | outside => cases hone
      | requested quoteId subject => cases hone
      | dropped quoteId subject stream => cases hone
    · rintro ⟨quoteId, subject, stream, hp⟩
      exact ⟨_, hp, rfl⟩
  · intro pid quoteId subject stream child s' hp hnext
    obtain ⟨task', child?, hpoll, htask⟩ := Tasks.polled_of_next hnext hp
    obtain ⟨⟨after, task₁⟩, hreserve, heq⟩ := Option.map_eq_some_iff.mp hpoll
    simp only [Prod.mk.injEq] at heq
    rw [htask, ← heq.2.1]
    -- A connection is refused when no permit is free, which is when all of them have an owner.
    unfold reserveConnection at hreserve
    split at hreserve
    · split at hreserve
      · next hzero =>
        cases hreserve
        have hall : owners.card = websocketMaxConnections := by omega
        exact iff_of_true ⟨_, rfl, rfl⟩ hall
      · next hne =>
        cases hreserve
        refine iff_of_false ?_ (by omega)
        rintro ⟨stream', heq', -⟩
        cases heq'
    · cases hreserve

end

/-! ### One connection with a permit -/

section

attribute [local instance] fixtureLib openServer

/-- The source 0 creates a quote, and its owner asks for the events. -/
def testReserved : List (socketTasks StorageMode.memory.source).Action :=
  .arrive 0 .outside ::
    (([.arrive 0 (.handler (memoryCreate testQuote) .lookup), testPoll 0 9, testPoll 0 9,
      testPoll 0 1] : List memoryTasks.Action).map fun a => .poll 0 (.publish a) 9) ++
    [.arrive 1 (.requested testQuote "customer-1"), .poll 1 (.resume (.find ())) 9,
      .poll 1 .reserve 9]

/-- A run with one connection. It owns the one permit that is taken, and 1023 are free. -/
theorem socket_capacity_test : ∃ s : (socketTasks StorageMode.memory.source).State,
    (socketTasks StorageMode.memory.source).system.Reachable s ∧
    s.shared.sockets = 1023 ∧
    ∃ owners : Finset Nat, owners.card = 1 ∧
      ∀ pid, pid ∈ owners ↔ ∃ quoteId subject stream,
        s.tasks pid = some (.connection quoteId subject stream true) := by
  have hrun : (System.run (socketTasks StorageMode.memory.source).next
      (socketTasks StorageMode.memory.source).initial testReserved).map
      (fun s => s.shared.sockets == 1023) = some true := by decide
  obtain ⟨s, hs, hleft⟩ := System.exists_reachable_of_run testReserved _ hrun
  have hleft : s.shared.sockets = 1023 := by simpa using hleft
  obtain ⟨-, owners, howners, hcard, -⟩ := socket_capacity StorageMode.memory hs
  refine ⟨s, hs, hleft, owners, ?_, howners⟩
  rw [hleft, websocketMaxConnections] at hcard
  omega

end

end CanonicalApi
