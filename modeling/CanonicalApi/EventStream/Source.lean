import CanonicalApi.Memory.Handlers
import CanonicalApi.Quote.Service
import Mathlib.Data.List.Infix

/-!
# `CanonicalApi.EventStream.Source`: what a status stream reads

An `EventSource` is what a stream reads on its replica: the quotes, the latest event of a quote
and what was published on the broadcast channel. `memorySource` is a replica without a
database. `databaseSource` is one on the database; it publishes any event that is committed, at
any time, which covers every order in which its handlers and workers publish theirs.
-/

set_option autoImplicit false

namespace CanonicalApi

section

variable [CanonicalLib]

/-- A storage mode with the events that are published on one replica. The lookups of a stream go
through `find` and `latest`, and `grows` says that a published event is never taken back. -/
structure EventSource where
  State : Type
  Action : Type
  Read : Type
  start : State
  next : State → Action → Option State
  /-- `find_quote`. -/
  find : State → Read → Uuid → String → Except ApiError QuoteRecord
  /-- `initial` in `quote_events`. -/
  latest : State → Read → QuoteRecord → Uuid → String → Except ApiError QuoteEventRecord
  published : State → List QuoteEventRecord
  grows : ∀ {s a s'}, next s a = some s' → published s <+: published s'

/-- A lookup publishes nothing, though it may already make the event. -/
theorem events_lookup (request : MutationRequest) (state : AppState)
    (timestamp : Option String) :
    (request.lookup state timestamp).1.events = state.events := by
  unfold MutationRequest.lookup
  split
  · split <;> rfl
  · split
    · rfl
    · split <;> rfl

/-- The check of a retry publishes nothing, though it may already make the event. -/
theorem events_check (request : MutationRequest) (state : AppState) (quoteId : Uuid)
    (timestamp : Option String) :
    (request.check state quoteId timestamp).1.events = state.events := by
  unfold MutationRequest.check
  split
  · rfl
  · split
    · rfl
    · split <;> rfl

/-- The event that a task publishes when it is polled. -/
def MemoryTask.publishes? : MemoryTask → Option QuoteEventRecord
  | handler _ (.storing _ event) => event
  | worker (.marking _ event) _ | worker (.recording event) _ => some event
  | _ => none

/-- The store of a new request publishes its event, and that of a replay publishes nothing. -/
theorem events_store (request : MutationRequest) (state : AppState) (record : QuoteRecord)
    (event : Option QuoteEventRecord) :
    (request.store state record event).1.events = state.events ++ event.toList := by
  cases event with
  | none => exact (List.append_nil _).symm
  | some event => rfl

/-- The part of `update_quote_state` before its guard publishes nothing. -/
theorem events_update (job : AnalysisJob) (state : AppState) (record : QuoteRecord)
    (timestamp : Option String) (stage : QuoteEventRecord → MemoryWorkerStage) :
    (job.update state record timestamp stage).1.events = state.events := by
  cases timestamp <;> rfl

/-- A worker publishes the event that it has made at its poll before, when it passes the guard. -/
theorem events_worker {stage stage' : MemoryWorkerStage} {job job' : AnalysisJob}
    {state state' : AppState} {input : MemoryInput}
    (h : stage.poll state job input = some (state', stage', job')) :
    state'.events = state.events ++ (MemoryTask.worker stage job).publishes?.toList := by
  -- Preparing an update publishes nothing.
  have hupdate : ∀ (record : QuoteRecord) (timestamp : Option String)
      (next : QuoteEventRecord → MemoryWorkerStage) (before : AppState),
      some (job.update before record timestamp next) = some (state', stage', job') →
        state'.events = before.events := by
    intro record timestamp next before heq
    have hevents := events_update job before record timestamp next
    rwa [Option.some.inj heq] at hevents
  cases input with
  | resume timestamp =>
    cases stage with
    | created configured =>
      rw [hupdate _ _ _ _ h]
      exact (List.append_nil _).symm
    -- The event of an update is published when the update is stored.
    | marking configured event =>
      cases configured with
      | true =>
        cases h
        rfl
      | false =>
        rw [hupdate _ _ _ _ h]
        rfl
    | recording event =>
      cases h
      rfl
    | calling | done => cases h
  | called outcome timestamp =>
    cases stage with
    | calling =>
      rw [hupdate _ _ _ _ h]
      exact (List.append_nil _).symm
    | created | marking | recording | done => cases h

/-- An assessment publishes no event of a quote. -/
theorem events_assess (state : AppState) (request : AssessmentRequest)
    (timestamp : Option String) :
    (createReadinessAssessment state request timestamp).2.events = state.events := by
  unfold createReadinessAssessment AppState.insertAssessment
  dsimp only
  split
  · split
    · split <;> rfl
    · rfl
  · rfl
  · split
    · rfl
    · split
      · split <;> rfl
      · rfl

/-- A poll of a task publishes its event, if it has one to publish, and nothing else. -/
theorem events_of_poll {state state' : AppState} {task task' : MemoryTask} {input : MemoryInput}
    {child? : Option MemoryTask} (h : task.poll state input = some (state', task', child?)) :
    state'.events = state.events ++ task.publishes?.toList := by
  cases task with
  | handler request stage =>
    cases input with
    | called outcome timestamp => cases stage <;> cases h
    | resume timestamp =>
      cases stage with
      | lookup =>
        cases h
        show (request.lookup state timestamp).1.events = _
        rw [events_lookup]
        exact (List.append_nil _).symm
      | reading quoteId =>
        cases h
        exact (List.append_nil _).symm
      | checking =>
        simp only [MemoryTask.poll] at h
        split at h
        · cases h
        · cases h
          rw [events_check]
          exact (List.append_nil _).symm
      | claiming record event =>
        cases h
        exact (List.append_nil _).symm
      | storing record event =>
        cases h
        -- The poll that stores a record publishes the event beside it.
        exact events_store request state record event
      | answered result => cases h
  | worker stage job =>
    obtain ⟨⟨state₁, stage', job'⟩, hpoll, heq⟩ := Option.map_eq_some_iff.mp h
    cases heq
    exact events_worker hpoll
  | assessing request =>
    cases input with
    | called outcome timestamp => cases h
    | resume timestamp =>
      cases h
      show (createReadinessAssessment state request timestamp).2.events = _
      rw [events_assess]
      exact (List.append_nil _).symm
  | assessed result => cases input <;> cases h

/-- To issue an id publishes nothing. -/
theorem events_of_issue {state state' : AppState} {fresh? : Option Uuid}
    (h : state.issue fresh? = some state') : state'.events = state.events := by
  cases fresh? with
  | none =>
    cases h
    rfl
  | some fresh =>
    simp only [AppState.issue] at h
    split at h
    · cases h
    · cases h
      rfl

/-- An arrival publishes nothing. -/
theorem events_of_arrives {state state' : AppState} {p : MemoryTask}
    (h : memoryTasks.arrives state p = some state') : state'.events = state.events := by
  cases p with
  | handler request stage =>
    cases stage with
    | lookup =>
      have h : (if request.settings.databaseConfigured = true then none
        else state.issue request.mutation.fresh?) = some state' := h
      split at h
      · cases h
      · exact events_of_issue h
    | reading | checking | claiming | storing | answered => cases h
  | worker | assessed => cases h
  | assessing request =>
    have h : state.issue (some request.fresh) = some state' := h
    exact events_of_issue h

/-- A step of the tasks publishes at the end of what was published. -/
theorem events_of_next {s s' : memoryTasks.State} {a : memoryTasks.Action}
    (h : memoryTasks.next s a = some s') : s.shared.events <+: s'.shared.events := by
  cases Tasks.step_of_next h with
  | @arrive pid p shared harrives hnone =>
    rw [events_of_arrives harrives]
  | @poll pid child input p p' q? shared hp hchild hpoll =>
    show _ <+: shared.events
    rw [events_of_poll hpoll]
    exact List.prefix_append _ _
  | drop hp hdrop => exact List.prefix_refl _

/-- A replica without a database. Its `initial` is made of the record that was found, and has the
number 0. The events are those that the handlers and workers of the replica sent. -/
def memorySource : EventSource where
  State := memoryTasks.State
  Action := memoryTasks.Action
  Read := Unit
  start := memoryTasks.initial
  next := memoryTasks.next
  find s _ quoteId subject := s.shared.findQuote quoteId subject
  latest _ _ record quoteId subject :=
    .ok { ownerSubject := subject
          quoteId
          sequence := 0
          status := record.status
          occurredAt := record.updatedAt }
  published s := s.shared.events
  grows := events_of_next

variable [Postgres]

/-- What a read transaction answers. Without an input it fails. -/
def databaseRead {α : Type} (db : QuoteDb) (read : Option QuoteInput) (body : QuoteTx α) :
    Except ApiError α :=
  match read.bind fun i => quoteEngine.evaluate i db body with
  | some (.ok a, _) => .ok a
  | some (.error error, _) => .error (mapStoreError error)
  | none => .error (mapStoreError .database)

/-- A replica on the database. Any replica may commit an event, and this one publishes those that
its own handlers and workers have committed, so the published events are chosen among the committed
ones. -/
def databaseSource : EventSource where
  State := quoteService.State × List QuoteEventRecord
  Action := quoteService.Action ⊕ QuoteEventRecord
  Read := Option QuoteInput
  start := (quoteService.initial, [])
  next
    | (s, published), .inl a => (quoteService.next s a).map fun s' => (s', published)
    | (s, published), .inr event =>
        if (s.db (.events event.quoteId)).any (fun row => eventFromRow row == .ok event) = true then
          some (s, published ++ [event])
        else none
  find s read quoteId subject := databaseRead s.1.db read (getQuote subject quoteId)
  latest s read _ quoteId subject := databaseRead s.1.db read (latestEvent subject quoteId)
  published s := s.2
  grows := by
    rintro ⟨s, published⟩ (a | event) s' h
    · obtain ⟨s₁, -, rfl⟩ := Option.map_eq_some_iff.mp h
      exact List.prefix_refl _
    · simp only at h
      split at h
      · cases h
        exact List.prefix_append _ _
      · cases h

/-- The storage modes. -/
inductive StorageMode where
  | memory
  | database
deriving DecidableEq, Repr

/-- What a stream reads in each mode. -/
def StorageMode.source : StorageMode → EventSource
  | memory => memorySource
  | database => databaseSource

end

end CanonicalApi
