import CanonicalApi.Lib.Tasks
import CanonicalApi.Memory.Store

/-!
# `CanonicalApi.Memory.Handlers`: handlers and workers without a database

The handlers `create_quote`, `retry_quote` and `create_readiness_assessment` and the worker
`run_quote_analysis` of `lib.rs` on a replica without a database, as `Tasks` on its
`AppState`. The stage of a task is the await point where it waits for a guard: each guard is
released before the next await, so what happens under a guard is one step.

A handler looks its key up under one guard (`lookup`), and inserts it under a later one
(`claiming`). It then stores the record that it holds under a third one (`storing`), also
when that record is only a copy of the stored one. A handler can be dropped at each of them.
The worker is a task of its own, which nobody drops.

`Polled` is the inversion of one poll.
-/

set_option autoImplicit false

namespace CanonicalApi

section

variable [CanonicalLib]

/-- Where a handler waits. A record to store comes with its event when the request is new. A guard
is taken and dropped within one poll, so other tasks run between any two stages. -/
inductive HandlerStage where
  | lookup
  | reading (quoteId : Uuid)
  | checking
  | claiming (record : QuoteRecord) (event : QuoteEventRecord)
  | storing (record : QuoteRecord) (event : Option QuoteEventRecord)
  | answered (result : Except ApiError MutationResponse)

/-- The handler has only read so far. -/
def HandlerStage.reads : HandlerStage → Bool
  | lookup | reading _ | checking => true
  | _ => false

/-- Where a worker waits. The record of its job is the one that it holds. -/
inductive MemoryWorkerStage where
  | created (configured : Bool)
  | marking (configured : Bool) (event : QuoteEventRecord)
  | calling
  | recording (event : QuoteEventRecord)
  | done
deriving DecidableEq

/-- A task. -/
inductive MemoryTask where
  | handler (request : MutationRequest) (stage : HandlerStage)
  | worker (stage : MemoryWorkerStage) (job : AnalysisJob)
  | assessing (request : AssessmentRequest)
  | assessed (result : Except ApiError AssessmentRecord)

/-- What comes from outside in a poll: the clock, or the outcome of the call of the model and
the clock. -/
inductive MemoryInput where
  | resume (timestamp : Option String)
  | called (outcome : CallOutcome) (timestamp : Option String)

/-! ### The handlers -/

/-- The fresh id that a mutation carries. -/
def Mutation.fresh? : Mutation → Option Uuid
  | create _ _ fresh => some fresh
  | retry _ => none

namespace MutationRequest

/-- The entry of the idempotency map for a request that is accepted with `record`. -/
def operation (request : MutationRequest) (record : QuoteRecord) : MemoryOperation :=
  match request.mutation with
  | .create accepted _ _ => .create record.quoteId accepted.wire.toValue
  | .retry quoteId => .retry quoteId

/-- The quote of an entry that the request may replay. -/
def replays (request : MutationRequest) (operation : MemoryOperation) : Option Uuid :=
  match request.mutation, operation with
  | .create accepted _ _, .create quoteId existing =>
      if existing = accepted.wire.toValue then some quoteId else none
  | .retry quoteId, .retry existing => if existing = quoteId then some quoteId else none
  | _, _ => none

/-- The first guard: the key is looked up. A new create already makes its record and its event here,
before the key is claimed; this gap is the one in which two creates can meet. -/
def lookup (request : MutationRequest) (state : AppState) (timestamp : Option String) :
    AppState × HandlerStage :=
  match state.idempotency request.pair with
  | some operation =>
      match request.replays operation with
      | some quoteId => (state, .reading quoteId)
      | none => (state, .answered (.error idempotencyReused))
  | none =>
      match request.mutation with
      | .retry _ => (state, .checking)
      | .create accepted _ fresh =>
          match timestamp with
          | none => (state, .answered (.error timestampUnavailable))
          | some createdAt =>
              let record := newRecord request.settings request.subject accepted.wire createdAt fresh
              let (event, state) := state.memoryEvent record
              (state, .claiming record event)

/-- A replay reads its quote. The replay of a create takes it whoever owns it, and the replay of a
retry asks for the owner, as the source does. -/
def read (request : MutationRequest) (state : AppState) (quoteId : Uuid) : HandlerStage :=
  match request.mutation with
  | .create _ _ _ =>
      match state.quotes quoteId with
      | some record => .storing record none
      | none => .answered (.error storageUnavailable)
  | .retry _ =>
      match state.findQuote quoteId request.subject with
      | .ok record => .storing record none
      | .error error => .answered (.error error)

/-- A new retry checks that its quote has failed, and queues its copy of the record. The copy is
stored two polls later, over whatever the quote is by then. -/
def check (request : MutationRequest) (state : AppState) (quoteId : Uuid)
    (timestamp : Option String) : AppState × HandlerStage :=
  match state.findQuote quoteId request.subject with
  | .error error => (state, .answered (.error error))
  | .ok record =>
      if record.status ≠ "failed" then
        (state, .answered (.error (.conflict "conflict" "only a failed quote may be retried")))
      else
        match timestamp with
        | none => (state, .answered (.error timestampUnavailable))
        | some updatedAt =>
            let record :=
              { record with status := "queued", analysis := none, errorCode := none, updatedAt }
            let (event, state) := state.memoryEvent record
            (state, .claiming record event)

/-- The last guard: the record is stored, whatever is stored now. A new request publishes its
event and starts a worker. -/
def store (request : MutationRequest) (state : AppState) (record : QuoteRecord)
    (event : Option QuoteEventRecord) : AppState × Option MemoryTask :=
  let state := state.insertQuote record
  match event with
  | none => (state, none)
  | some event =>
      (state.publishEvent event,
        some (.worker (.created request.settings.geminiConfigured)
          (.of request.settings record CanonicalContext.requestOnly request.mutation)))

end MutationRequest

/-! ### The worker -/

namespace AppState

/-- `update_quote_state` up to its guard. -/
def prepareUpdate (state : AppState) (record : QuoteRecord) (timestamp : Option String) :
    Option (QuoteRecord × QuoteEventRecord × AppState) :=
  timestamp.map fun updatedAt =>
    let record := { record with updatedAt }
    let (event, state) := state.memoryEvent record
    (record, event, state)

/-- `update_quote_state` from its guard on. -/
def finishUpdate (state : AppState) (record : QuoteRecord) (event : QuoteEventRecord) :
    AppState :=
  (state.insertQuote record).publishEvent event

end AppState

/-- The worker goes on to the guard of `update_quote_state`, or it ends. -/
def AnalysisJob.update (job : AnalysisJob) (state : AppState) (record : QuoteRecord)
    (timestamp : Option String) (stage : QuoteEventRecord → MemoryWorkerStage) :
    AppState × MemoryWorkerStage × AnalysisJob :=
  match state.prepareUpdate record timestamp with
  | some (record, event, state) => (state, stage event, { job with record })
  | none => (state, .done, job)

/-- `run_quote_analysis` from one await point to the next. Each update is stored in a poll of its
own, after the one that drew its event, and the call of the model lies between two polls. -/
def MemoryWorkerStage.poll (stage : MemoryWorkerStage) (state : AppState) (job : AnalysisJob) :
    MemoryInput → Option (AppState × MemoryWorkerStage × AnalysisJob)
  | .resume timestamp =>
      match stage with
      | .created configured =>
          some (job.update state (startAnalysis job.record) timestamp (.marking configured))
      | .marking configured event =>
          let state := state.finishUpdate job.record event
          if configured then some (state, .calling, job)
          else some (job.update state (notConfigured job.record) timestamp .recording)
      | .recording event => some (state.finishUpdate job.record event, .done, job)
      | .calling | .done => none
  | .called outcome timestamp =>
      match stage with
      | .calling =>
          some (job.update state (concludeAnalysis job.record outcome) timestamp .recording)
      | _ => none

/-! ### The tasks -/

/-- A fresh id is issued, when a request carries one. -/
def AppState.issue (state : AppState) : Option Uuid → Option AppState
  | none => some state
  | some fresh =>
      if fresh ∈ state.issued then none else some { state with issued := fresh :: state.issued }

/-- A task from one await point to the next. A handler goes through its guards one by one, and the
poll that stores a new record starts the worker. An assessment needs one guard only. -/
def MemoryTask.poll (state : AppState) (task : MemoryTask) (input : MemoryInput) :
    Option (AppState × MemoryTask × Option MemoryTask) :=
  match task with
  | handler request stage =>
      match stage, input with
      | .lookup, .resume timestamp =>
          let (state, stage) := request.lookup state timestamp
          some (state, handler request stage, none)
      | .reading quoteId, .resume _ =>
          some (state, handler request (request.read state quoteId), none)
      | .checking, .resume timestamp =>
          match request.mutation with
          | .create _ _ _ => none
          | .retry quoteId =>
              let (state, stage) := request.check state quoteId timestamp
              some (state, handler request stage, none)
      | .claiming record event, .resume _ =>
          some (state.insertOperation request.pair (request.operation record),
            handler request (.storing record (some event)), none)
      | .storing record event, .resume _ =>
          let (state, worker?) := request.store state record event
          some (state, handler request (.answered (.ok (.of record request.mutation))), worker?)
      | _, _ => none
  | worker stage job =>
      (stage.poll state job input).map fun (state, stage, job) => (state, worker stage job, none)
  | assessing request =>
      match input with
      | .resume timestamp =>
          let (result, state) := createReadinessAssessment state request timestamp
          some (state, assessed result, none)
      | .called _ _ => none
  | assessed _ => none

/-- The tasks of a replica without a database. A request arrives with the id that it may use, which
is issued once. A handler can be dropped until it has answered, and a worker cannot. -/
@[reducible] def memoryTasks : Tasks where
  Shared := AppState
  Task := MemoryTask
  Input := MemoryInput
  start := AppState.empty
  arrives state
    | .handler request .lookup =>
        if request.settings.databaseConfigured then none else state.issue request.mutation.fresh?
    | .assessing request => state.issue (some request.fresh)
    | _ => none
  poll := MemoryTask.poll
  droppable
    | .handler _ (.answered _) => false
    | .handler _ _ | .assessing _ => true
    | _ => false

/-! ### Arrivals -/

/-- The ids in `fresh?` are new, and they are issued now. -/
structure AppState.Issues (state state' : AppState) (fresh? : Option Uuid) : Prop where
  quotes : state'.quotes = state.quotes
  idempotency : state'.idempotency = state.idempotency
  new : ∀ id, fresh? = some id → id ∉ state.issued
  issued : ∀ id, id ∈ state'.issued ↔ fresh? = some id ∨ id ∈ state.issued

/-- `issue` does what `Issues` says: it refuses an id that is already out. -/
theorem AppState.issue_issues {state state' : AppState} {fresh? : Option Uuid}
    (h : state.issue fresh? = some state') : state.Issues state' fresh? := by
  cases fresh? with
  | none =>
    cases h
    exact ⟨rfl, rfl, nofun, fun id => ⟨.inr, fun hor => hor.resolve_left nofun⟩⟩
  | some fresh =>
    simp only [AppState.issue] at h
    split at h
    · cases h
    · next hnew =>
      cases h
      refine ⟨rfl, rfl, ?_, fun id => ?_⟩
      · rintro id ⟨⟩
        exact hnew
      · rw [List.mem_cons, Option.some.injEq, eq_comm]

/-- What arrives is a handler at its lookup or an assessment. -/
theorem memory_arrives {state state' : AppState} {p : MemoryTask}
    (h : memoryTasks.arrives state p = some state') :
    (∃ request, p = .handler request .lookup ∧ request.settings.databaseConfigured = false ∧
      state.Issues state' request.mutation.fresh?) ∨
    ∃ request, p = .assessing request ∧ state.Issues state' (some request.fresh) := by
  cases p with
  -- A request enters at its lookup, and only if the memory mode serves it.
  | handler request stage =>
    cases stage with
    | lookup =>
      have h : (if request.settings.databaseConfigured = true then none
        else state.issue request.mutation.fresh?) = some state' := h
      split at h
      · cases h
      · next hmemory =>
        exact .inl ⟨request, rfl, Bool.not_eq_true _ ▸ hmemory, AppState.issue_issues h⟩
    | reading _ => cases h
    | checking => cases h
    | claiming _ _ => cases h
    | storing _ _ => cases h
    | answered _ => cases h
  | worker stage job => cases h
  | assessing request => exact .inr ⟨request, rfl, AppState.issue_issues h⟩
  | assessed result => cases h

/-! ### One poll -/

namespace AppState

/-- Neither the quotes nor the idempotency map change. -/
structure Silent (state state' : AppState) : Prop where
  quotes : state'.quotes = state.quotes
  idempotency : state'.idempotency = state.idempotency
  issued : state'.issued = state.issued

/-- The record is stored. -/
structure Stores (state state' : AppState) (record : QuoteRecord) : Prop where
  quotes : state'.quotes = Function.update state.quotes record.quoteId (some record)
  idempotency : state'.idempotency = state.idempotency
  issued : state'.issued = state.issued

/-- The part of `update_quote_state` from its guard on stores the record. -/
theorem finishUpdate_stores (state : AppState) (record : QuoteRecord)
    (event : QuoteEventRecord) : state.Stores (state.finishUpdate record event) record :=
  ⟨rfl, rfl, rfl⟩

/-- A silent change after a store is part of the store. -/
theorem Stores.silent {state state' state'' : AppState} {record : QuoteRecord}
    (h : state.Stores state' record) (h' : state'.Silent state'') :
    state.Stores state'' record :=
  ⟨h'.quotes.trans h.quotes, h'.idempotency.trans h.idempotency, h'.issued.trans h.issued⟩

end AppState

/-- A poll of a task: what it does to the state, its next await point, and the task that it
starts. -/
inductive Polled (state : AppState) :
    MemoryTask → AppState → MemoryTask → Option MemoryTask → Prop where
  | refuses {request : MutationRequest} {stage : HandlerStage} {error : ApiError} :
      stage.reads = true →
      (error = storageUnavailable → ∃ quoteId, stage = .reading quoteId ∧
        state.quotes quoteId = none) →
      Polled state (.handler request stage) state (.handler request (.answered (.error error)))
        none
  | replays {request : MutationRequest} {operation : MemoryOperation} {quoteId : Uuid} :
      state.idempotency request.pair = some operation →
      request.replays operation = some quoteId →
      Polled state (.handler request .lookup) state (.handler request (.reading quoteId)) none
  | creates {request : MutationRequest} {accepted : AcceptedQuoteRequest}
      {timestamp createdAt : String} {fresh : Uuid} {record : QuoteRecord}
      {event : QuoteEventRecord} {state' : AppState} :
      state.idempotency request.pair = none →
      request.mutation = .create accepted timestamp fresh →
      record = newRecord request.settings request.subject accepted.wire createdAt fresh →
      state.Silent state' →
      Polled state (.handler request .lookup) state' (.handler request (.claiming record event))
        none
  | checks {request : MutationRequest} :
      state.idempotency request.pair = none →
      Polled state (.handler request .lookup) state (.handler request .checking) none
  | rereads {request : MutationRequest} {quoteId : Uuid} {record : QuoteRecord} :
      state.quotes quoteId = some record →
      Polled state (.handler request (.reading quoteId)) state
        (.handler request (.storing record none)) none
  | requeues {request : MutationRequest} {quoteId : Uuid} {old record : QuoteRecord}
      {updatedAt : String} {event : QuoteEventRecord} {state' : AppState} :
      request.mutation = .retry quoteId → state.quotes quoteId = some old →
      old.ownerSubject = request.subject → old.status = "failed" →
      record = { old with status := "queued", analysis := none, errorCode := none, updatedAt } →
      state.Silent state' →
      Polled state (.handler request .checking) state' (.handler request (.claiming record event))
        none
  | claims {request : MutationRequest} {record : QuoteRecord} {event : QuoteEventRecord} :
      Polled state (.handler request (.claiming record event))
        (state.insertOperation request.pair (request.operation record))
        (.handler request (.storing record (some event))) none
  | answers {request : MutationRequest} {record : QuoteRecord} {state' : AppState} :
      state.Stores state' record →
      Polled state (.handler request (.storing record none)) state'
        (.handler request (.answered (.ok (.of record request.mutation)))) none
  | accepts {request : MutationRequest} {record : QuoteRecord} {event : QuoteEventRecord}
      {state' : AppState} :
      state.Stores state' record →
      Polled state (.handler request (.storing record (some event))) state'
        (.handler request (.answered (.ok (.of record request.mutation))))
        (some (.worker (.created request.settings.geminiConfigured)
          (.of request.settings record CanonicalContext.requestOnly request.mutation)))
  | halts {stage : MemoryWorkerStage} {job : AnalysisJob} :
      ((∃ configured, stage = .created configured) ∨ stage = .calling) →
      Polled state (.worker stage job) state (.worker .done job) none
  | starts {configured : Bool} {job : AnalysisJob} {updatedAt : String}
      {event : QuoteEventRecord} {state' : AppState} :
      state.Silent state' →
      Polled state (.worker (.created configured) job) state'
        (.worker (.marking configured event)
          { job with record := { startAnalysis job.record with updatedAt } }) none
  | marks {configured : Bool} {event : QuoteEventRecord} {job : AnalysisJob} {state' : AppState} :
      state.Stores state' job.record →
      Polled state (.worker (.marking configured event) job) state' (.worker .calling job) none
  | abandons {configured : Bool} {event : QuoteEventRecord} {job : AnalysisJob}
      {state' : AppState} :
      state.Stores state' job.record →
      Polled state (.worker (.marking configured event) job) state' (.worker .done job) none
  | fails {configured : Bool} {event event' : QuoteEventRecord} {job : AnalysisJob}
      {updatedAt : String} {state' : AppState} :
      state.Stores state' job.record →
      Polled state (.worker (.marking configured event) job) state'
        (.worker (.recording event')
          { job with record := { notConfigured job.record with updatedAt } }) none
  | concludes {job : AnalysisJob} {outcome : CallOutcome} {updatedAt : String}
      {event : QuoteEventRecord} {state' : AppState} :
      state.Silent state' →
      Polled state (.worker .calling job) state'
        (.worker (.recording event)
          { job with record := { concludeAnalysis job.record outcome with updatedAt } }) none
  | records {event : QuoteEventRecord} {job : AnalysisJob} {state' : AppState} :
      state.Stores state' job.record →
      Polled state (.worker (.recording event) job) state' (.worker .done job) none
  | assesses {request : AssessmentRequest} {result : Except ApiError AssessmentRecord}
      {state' : AppState} :
      KeepsQuotes state state' →
      Polled state (.assessing request) state' (.assessed result) none

/-- The lookup of a handler. -/
theorem polled_lookup (request : MutationRequest) (state : AppState)
    (timestamp : Option String) :
    Polled state (.handler request .lookup) (request.lookup state timestamp).1
      (.handler request (request.lookup state timestamp).2) none := by
  unfold MutationRequest.lookup
  -- The entry of the pair decides: a replay, a conflict, or a new operation.
  split
  · next operation hentry =>
    split
    · next quoteId hreplays => exact .replays hentry hreplays
    · exact .refuses rfl fun herror => by cases herror
  · next hentry =>
    split
    · exact .checks hentry
    · next accepted created fresh hmutation =>
      split
      · refine .refuses rfl fun herror => ?_
        exact absurd herror (by decide)
      · exact .creates hentry hmutation rfl ⟨rfl, rfl, rfl⟩

/-- A quote that is not found is no failure of the storage. -/
theorem findQuote_error {state : AppState} {quoteId : Uuid} {subject : String}
    {error : ApiError} (h : state.findQuote quoteId subject = .error error) :
    error ≠ storageUnavailable := by
  unfold AppState.findQuote at h
  split at h
  · split at h
    · cases h
    · cases h
      decide
  · cases h
    decide

/-- The read of a replay. -/
theorem polled_read (request : MutationRequest) (state : AppState) (quoteId : Uuid) :
    Polled state (.handler request (.reading quoteId)) state
      (.handler request (request.read state quoteId)) none := by
  unfold MutationRequest.read
  split
  · split
    · next record hrecord => exact .rereads hrecord
    · next hnone => exact .refuses rfl fun _ => ⟨quoteId, rfl, hnone⟩
  · split
    · next record hfound => exact .rereads (AppState.findQuote_ok hfound).1
    · next error hfound => exact .refuses rfl fun herror => absurd herror (findQuote_error hfound)

/-- The check of a retry. -/
theorem polled_check {request : MutationRequest} {quoteId : Uuid}
    (hmutation : request.mutation = .retry quoteId) (state : AppState)
    (timestamp : Option String) :
    Polled state (.handler request .checking) (request.check state quoteId timestamp).1
      (.handler request (request.check state quoteId timestamp).2) none := by
  unfold MutationRequest.check
  split
  · next error hfound => exact .refuses rfl fun herror => absurd herror (findQuote_error hfound)
  · next record hfound =>
    obtain ⟨hrecord, howner⟩ := AppState.findQuote_ok hfound
    split
    · exact .refuses rfl fun herror => by cases herror
    · next hstatus =>
      split
      · refine .refuses rfl fun herror => ?_
        exact absurd herror (by decide)
      · exact .requeues hmutation hrecord howner (not_not.mp hstatus) rfl
          ⟨rfl, rfl, rfl⟩

/-- A poll of a worker. -/
theorem polled_worker {stage stage' : MemoryWorkerStage} {job job' : AnalysisJob}
    {state state' : AppState} {input : MemoryInput}
    (h : stage.poll state job input = some (state', stage', job')) :
    Polled state (.worker stage job) state' (.worker stage' job') none := by
  cases input with
  | resume timestamp =>
    cases stage with
    -- Without a clock the worker halts; otherwise the event is drawn.
    | created configured =>
      cases timestamp with
      | none =>
        cases h
        exact .halts (.inl ⟨configured, rfl⟩)
      | some updatedAt =>
        cases h
        exact .starts ⟨rfl, rfl, rfl⟩
    | marking configured event =>
      -- The update is stored first, and then the worker goes on in the same poll.
      have hstores := state.finishUpdate_stores job.record event
      cases configured with
      | true =>
        cases h
        exact .marks hstores
      | false =>
        cases timestamp with
        | none =>
          cases h
          exact .abandons hstores
        | some updatedAt =>
          cases h
          exact .fails (hstores.silent ⟨rfl, rfl, rfl⟩)
    | recording event =>
      cases h
      exact .records (state.finishUpdate_stores job.record event)
    | calling => cases h
    | done => cases h
  | called outcome timestamp =>
    cases stage with
    | calling =>
      cases timestamp with
      | none =>
        cases h
        exact .halts (.inr rfl)
      | some updatedAt =>
        cases h
        exact .concludes ⟨rfl, rfl, rfl⟩
    | created configured => cases h
    | marking configured event => cases h
    | recording event => cases h
    | done => cases h

/-- Every poll is one of these. -/
theorem polled_of_poll {state state' : AppState} {task task' : MemoryTask} {input : MemoryInput}
    {child? : Option MemoryTask} (h : task.poll state input = some (state', task', child?)) :
    Polled state task state' task' child? := by
  cases task with
  | handler request stage =>
    cases input with
    | called outcome timestamp => cases stage <;> cases h
    | resume timestamp =>
      cases stage with
      | lookup =>
        cases h
        exact polled_lookup request state timestamp
      | reading quoteId =>
        cases h
        exact polled_read request state quoteId
      | checking =>
        simp only [MemoryTask.poll] at h
        split at h
        · cases h
        · next quoteId hmutation =>
          cases h
          exact polled_check hmutation state timestamp
      | claiming record event =>
        cases h
        exact .claims
      -- Without an event the handler answers a replay; with one it starts the worker.
      | storing record event =>
        cases event with
        | none =>
          cases h
          exact .answers ⟨rfl, rfl, rfl⟩
        | some event =>
          cases h
          exact .accepts ⟨rfl, rfl, rfl⟩
      | answered result => cases h
  | worker stage job =>
    obtain ⟨⟨state₁, stage', job'⟩, hpoll, heq⟩ := Option.map_eq_some_iff.mp h
    cases heq
    exact polled_worker hpoll
  | assessing request =>
    cases input with
    | called outcome timestamp => cases h
    | resume timestamp =>
      cases h
      exact .assesses (createReadinessAssessment_keepsQuotes state request timestamp)
  | assessed result => cases input <;> cases h

end

/-! ### Inputs for runs -/

section

attribute [local instance] fixtureLib

/-- A create with the fixture, on a replica without a database. -/
def memoryCreate (fresh : Uuid) : MutationRequest where
  subject := "customer-1"
  idempotencyKey := "quote-key-0001"
  mutation := .create { applicationMarkdown := "Canonical Plus", wire := fixtureRequest }
    "2026-09-09T05:00:00Z" fresh
  settings := { testSettings with databaseConfigured := false }

/-- A retry of `testQuote`. -/
def memoryRetry (key : String) : MutationRequest where
  subject := "customer-1"
  idempotencyKey := key
  mutation := .retry testQuote
  settings := { testSettings with databaseConfigured := false }

/-- An assessment under the key of `memoryCreate`. -/
def testAssessment : AssessmentRequest where
  subject := "customer-1"
  idempotencyKey := "quote-key-0001"
  submission := { frameworkIds := ["soc2"], notes := none, organization := "Example" }
  fresh := ⟨8⟩

/-- A poll, at a fixed time. -/
def testPoll (pid child : Nat) : memoryTasks.Action :=
  .poll pid (.resume (some "2026-09-09T05:00:00Z")) child

/-- The handler 0 creates `testQuote`, and its worker 1 ends with the outcome. -/
def testAnalysis (outcome : CallOutcome) : List memoryTasks.Action :=
  [.arrive 0 (.handler (memoryCreate testQuote) .lookup), testPoll 0 9, testPoll 0 9,
    testPoll 0 1, testPoll 1 9, testPoll 1 9,
    .poll 1 (.called outcome (some "2026-09-09T05:00:00Z")) 9, testPoll 1 9]

end

end CanonicalApi
