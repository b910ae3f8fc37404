import CanonicalApi.Admission
import CanonicalApi.Lib.Transition
import CanonicalApi.Memory.Handlers
import CanonicalApi.Quote.Service

/-!
# `CanonicalApi.Replica`: a replica that serves one request after the other

The handlers `create_quote`, `retry_quote` and `create_readiness_assessment` of `lib.rs` as
functions from the state of a replica to the state after the answer, in both storage modes, with
the limiter in front of them. The workers that the handlers start run between the requests.

With a database, quotes are in its tables and their keys are in its ledger. The assessments and
their keys are in memory in both modes. A transaction on the database runs alone, and it can
fail as a whole.

The clock of the limiter is monotonic. `accepted` collects the requests that created or
requeued something. No function reads it.
-/

set_option autoImplicit false

namespace CanonicalApi

open Transaction Transition

/-- The error of a handler without an analysis permit. -/
def analysisCapacityReached : ApiError :=
  .serviceUnavailable "analysis_capacity_reached"
    "quote analysis capacity is temporarily unavailable"

/-- The answer to a request. `accepted` is a request that created or requeued something, and
`replayed` one that is answered with what an earlier request created. -/
inductive Served where
  | accepted (id : Uuid)
  | replayed (id : Uuid)
  | refused (error : ApiError)
deriving DecidableEq

/-- The id in a successful answer. -/
def Served.id? : Served → Option Uuid
  | accepted id | replayed id => some id
  | refused _ => none

/-- What a request meets outside of the replica: the monotonic clock, a permit for an analysis,
the wall clock, the database with its inputs, and the id for the attempt of a worker. -/
structure Surroundings where
  now : Nat
  permit : Bool
  timestamp : Option String
  database : Option QuoteInput
  attemptId : Uuid

section

variable [CanonicalLib]

/-- A request of one of the three handlers, after authentication and the checks of its key and
payload. -/
inductive Submission where
  | quote (request : MutationRequest)
  | assessment (request : AssessmentRequest)

namespace Submission

/-- The subject of a submission. -/
def subject : Submission → String
  | quote request => request.subject
  | assessment request => request.subject

/-- The idempotency key of a submission. -/
def idempotencyKey : Submission → String
  | quote request => request.idempotencyKey
  | assessment request => request.idempotencyKey

/-- The subject and the key. -/
def pair (submission : Submission) : String × String :=
  (submission.subject, submission.idempotencyKey)

/-- The fresh id that the request carries. -/
def fresh? : Submission → Option Uuid
  | quote request => request.mutation.fresh?
  | assessment request => some request.fresh

/-- The operation that the request is. A create makes the record `id`, and a retry names the quote
that it repeats. -/
def operation (submission : Submission) (id : Uuid) : MemoryOperation :=
  match submission with
  | quote request =>
      match request.mutation with
      | .create accepted _ _ => .create id accepted.wire.toValue
      | .retry quoteId => .retry quoteId
  | assessment request => .assessment id request.submission.toValue

end Submission

/-! ### Without a database -/

namespace MutationRequest

/-- The record of a replay. -/
def original (request : MutationRequest) (state : AppState) (quoteId : Uuid) :
    Except ApiError QuoteRecord :=
  match request.mutation with
  | .create _ _ _ => Outcome.okOr storageUnavailable (state.quotes quoteId)
  | .retry _ => state.findQuote quoteId request.subject

/-- The record of a new request. A retry starts from the failed quote of its subject and clears the
outcome of the last analysis. -/
def draft (request : MutationRequest) (state : AppState) (timestamp : Option String) :
    Except ApiError QuoteRecord :=
  match request.mutation with
  | .create accepted _ fresh => do
      let createdAt ← Outcome.okOr timestampUnavailable timestamp
      return newRecord request.settings request.subject accepted.wire createdAt fresh
  | .retry quoteId => do
      let record ← state.findQuote quoteId request.subject
      if record.status ≠ "failed" then
        .error (.conflict "conflict" "only a failed quote may be retried")
      else do
        let updatedAt ← Outcome.okOr timestampUnavailable timestamp
        return { record with status := "queued", analysis := none, errorCode := none, updatedAt }

/-- `create_quote` and `retry_quote` without a database, from the lookup of the key on, when nothing
else runs in between. It is what the polls of the handler come to, by `handle_runsAlone`. -/
def handle (request : MutationRequest) (state : AppState) (timestamp : Option String) :
    Served × AppState × Option MemoryTask :=
  match state.idempotency request.pair with
  | some operation =>
      match request.replays operation with
      | none => (.refused idempotencyReused, state, none)
      | some quoteId =>
          match request.original state quoteId with
          | .error error => (.refused error, state, none)
          | .ok record =>
              let (state, worker?) := request.store state record none
              (.replayed record.quoteId, state, worker?)
  | none =>
      match request.draft state timestamp with
      | .error error => (.refused error, state, none)
      | .ok record =>
          let (event, state) := state.memoryEvent record
          let state := state.insertOperation request.pair (request.operation record)
          let (state, worker?) := request.store state record (some event)
          (.accepted record.quoteId, state, worker?)

end MutationRequest

/-- The answer of a handler has the kind and the id of `served`. -/
def Answers (served : Served) (mutation : Mutation) :
    Except ApiError MutationResponse → Prop
  | .error error => served = .refused error
  | .ok response => ∃ record : QuoteRecord, served.id? = some record.quoteId ∧
      response = .of record mutation

/-- A task runs alone, with the same wall clock at every await point. -/
def RunsAlone (timestamp : Option String) : AppState × MemoryTask → AppState × MemoryTask → Prop :=
  Relation.ReflTransGen fun p q =>
    ∃ child, MemoryTask.poll p.1 p.2 (.resume timestamp) = some (q.1, q.2, child)

namespace MutationRequest

variable {request : MutationRequest} {state : AppState} {timestamp : Option String}

/-- A replay goes on with the quote of its entry, or it is refused. -/
theorem read_eq (quoteId : Uuid) : request.read state quoteId =
    match request.original state quoteId with
    | .ok record => .storing record none
    | .error error => .answered (.error error) := by
  unfold read original
  cases request.mutation with
  | create _ _ _ => cases state.quotes quoteId <;> rfl
  | retry _ => cases state.findQuote quoteId request.subject <;> rfl

/-- The stage of a new request once its record is made. -/
theorem draft_runsAlone (timestamp : Option String)
    (hfree : state.idempotency request.pair = none) :
    RunsAlone timestamp (state, .handler request .lookup)
      (match request.draft state timestamp with
      | .ok record => ((state.memoryEvent record).2,
          .handler request (.claiming record (state.memoryEvent record).1))
      | .error error => (state, .handler request (.answered (.error error)))) := by
  unfold draft
  cases hmutation : request.mutation with
  | create accepted created fresh =>
    -- The lookup of a create already makes the record.
    refine .single ⟨none, ?_⟩
    simp only [MemoryTask.poll, lookup, hfree, hmutation]
    cases timestamp <;> rfl
  | retry quoteId =>
    have hlookup : RunsAlone timestamp (state, .handler request .lookup)
        (state, .handler request .checking) := by
      refine .single ⟨none, ?_⟩
      simp only [MemoryTask.poll, lookup, hfree, hmutation]
    refine .tail hlookup ⟨none, ?_⟩
    simp only [MemoryTask.poll, hmutation, check]
    cases state.findQuote quoteId request.subject with
    | error error => rfl
    | ok record =>
      by_cases hstatus : record.status ≠ "failed"
      · simp only [bind, Except.bind, if_pos hstatus]
      · simp only [bind, Except.bind, if_neg hstatus]
        cases timestamp <;> rfl

/-- A handler that runs alone does what `handle` says. -/
theorem handle_runsAlone (request : MutationRequest) (state : AppState)
    (timestamp : Option String) :
    ∃ result, Answers (request.handle state timestamp).1 request.mutation result ∧
      RunsAlone timestamp (state, .handler request .lookup)
        ((request.handle state timestamp).2.1, .handler request (.answered result)) := by
  -- The handler alone goes through its polls one after the other; the entry of the key decides
  -- which.
  cases hentry : state.idempotency request.pair with
  | some operation =>
    cases hreplays : request.replays operation with
    | none =>
      simp only [handle, hentry, hreplays]
      refine ⟨.error idempotencyReused, rfl, .single ⟨none, ?_⟩⟩
      simp only [MemoryTask.poll, lookup, hentry, hreplays]
    | some quoteId =>
      have hlookup : RunsAlone timestamp (state, .handler request .lookup)
          (state, .handler request (.reading quoteId)) := by
        refine .single ⟨none, ?_⟩
        simp only [MemoryTask.poll, lookup, hentry, hreplays]
      have hread : RunsAlone timestamp (state, .handler request .lookup)
          (state, .handler request (request.read state quoteId)) :=
        .tail hlookup ⟨none, rfl⟩
      rw [read_eq] at hread
      simp only [handle, hentry, hreplays]
      cases horiginal : request.original state quoteId with
      | error error =>
        rw [horiginal] at hread
        exact ⟨.error error, rfl, hread⟩
      | ok record =>
        rw [horiginal] at hread
        exact ⟨.ok (.of record request.mutation), ⟨record, rfl, rfl⟩, .tail hread ⟨_, rfl⟩⟩
  | none =>
    have hdraft := draft_runsAlone timestamp hentry
    simp only [handle, hentry]
    cases hrecord : request.draft state timestamp with
    | error error =>
      rw [hrecord] at hdraft
      exact ⟨.error error, rfl, hdraft⟩
    | ok record =>
      rw [hrecord] at hdraft
      -- A new request claims its key, and then it stores its draft.
      have hclaimed : RunsAlone timestamp (state, .handler request .lookup)
          ((state.memoryEvent record).2.insertOperation request.pair (request.operation record),
            .handler request (.storing record (some (state.memoryEvent record).1))) :=
        .tail hdraft ⟨none, rfl⟩
      exact ⟨.ok (.of record request.mutation), ⟨record, rfl, rfl⟩, .tail hclaimed ⟨_, rfl⟩⟩

end MutationRequest

/-- `create_readiness_assessment` from its write guard on, with the kind of its answer. A record
that was found under the key is a replay. -/
def AssessmentRequest.handle (request : AssessmentRequest) (state : AppState)
    (timestamp : Option String) : Served × AppState :=
  match createReadinessAssessment state request timestamp with
  | (.error error, state') => (.refused error, state')
  | (.ok record, state') =>
      match state.idempotency (request.subject, request.idempotencyKey) with
      | some _ => (.replayed record.id, state')
      | none => (.accepted record.id, state')

/-! ### With a database -/

/-- A worker with a database: its stage and the record that it writes next. -/
abbrev DatabaseWorker : Type := WorkerStage × AnalysisJob

variable [Postgres]

omit [CanonicalLib] in
/-- A transaction that runs alone. Without an input the database does not answer. -/
def transact {α : Type} (input : Option QuoteInput) (tables : QuoteDb) (prog : QuoteTx α) :
    Except StoreError α × QuoteDb :=
  match input.bind fun i => quoteEngine.evaluate i tables prog with
  | some (.ok a, tables') => (.ok a, tables')
  | some (.error error, _) => (.error error, tables)
  | none => (.error .database, tables)

/-- `create_quote` and `retry_quote` with a database, from the transaction on. The times of a
new record are those of its row. -/
def MutationRequest.handleDatabase (request : MutationRequest) (tables : QuoteDb)
    (surroundings : Surroundings) : Served × QuoteDb × Option DatabaseWorker :=
  let (result, tables) := transact surroundings.database tables request.body
  match request.resume result with
  | .accepted _ job _ =>
      (.accepted job.record.quoteId, tables,
        some (.marking surroundings.attemptId request.settings.geminiConfigured,
          { job with record := startAnalysis job.record }))
  | .replayed _ record => (.replayed record.quoteId, tables, none)
  | .answered _ (.error error) => (.refused error, tables, none)
  | _ => (.refused storageUnavailable, tables, none)

/-! ### The replica -/

/-- The state of a replica. -/
structure Replica where
  windows : SubmissionWindows
  memory : AppState
  tables : QuoteDb
  memoryWorkers : List MemoryTask
  databaseWorkers : List DatabaseWorker

/-- A replica as it starts, on an empty database. -/
def Replica.start : Replica where
  windows := .empty
  memory := .empty
  tables := emptyTables
  memoryWorkers := []
  databaseWorkers := []

/-- A handler after the limiter. With a database a create needs the clock before its transaction,
and an assessment is kept in memory all the same. -/
def Replica.serve (replica : Replica) (submission : Submission) (surroundings : Surroundings) :
    Served × Replica :=
  match submission with
  | .assessment request =>
      let (served, memory) := request.handle replica.memory surroundings.timestamp
      (served, { replica with memory })
  | .quote request =>
      if request.settings.databaseConfigured then
        if request.mutation.fresh?.isSome && surroundings.timestamp.isNone then
          (.refused timestampUnavailable, replica)
        else
          let (served, tables, worker?) := request.handleDatabase replica.tables surroundings
          (served, { replica with
            tables
            databaseWorkers := replica.databaseWorkers ++ worker?.toList })
      else
        let (served, memory, worker?) := request.handle replica.memory surroundings.timestamp
        (served, { replica with
          memory
          memoryWorkers := replica.memoryWorkers ++ worker?.toList })

/-- The quote handlers need a permit. -/
def Submission.needsPermit : Submission → Bool
  | quote _ => true
  | assessment _ => false

/-- A request, from `reserve_analysis` on. The permit is asked for before the limiter, and the
limiter before the ledger, so a request can be charged and still be a conflict. -/
def Replica.submit (replica : Replica) (submission : Submission) (surroundings : Surroundings) :
    Served × Replica :=
  if submission.needsPermit && !surroundings.permit then
    (.refused analysisCapacityReached, replica)
  else
    match checkSubmission replica.windows submission.subject surroundings.now with
    | (.error limited, windows) =>
        (.refused (.rateLimited limited.retryAfterSeconds), { replica with windows })
    | (.ok (), windows) => { replica with windows }.serve submission surroundings

/-- A worker goes on. -/
def Replica.workInMemory (replica : Replica) (i : Nat) (input : MemoryInput) :
    Option Replica := do
  let task ← replica.memoryWorkers[i]?
  let (memory, task, _) ← task.poll replica.memory input
  return { replica with memory, memoryWorkers := replica.memoryWorkers.set i task }

/-- A worker with a database goes on: it runs its transaction, or the call of the model
returns. -/
def Replica.workInDatabase (replica : Replica) (i : Nat) (input : Option QuoteInput)
    (outcome : CallOutcome) : Option Replica := do
  let (stage, job) ← replica.databaseWorkers[i]?
  match stage, stage.body job with
  | _, some prog =>
      let (result, tables) := transact input replica.tables prog
      return { replica with
        tables
        databaseWorkers := replica.databaseWorkers.set i (stage.resume job result) }
  | .calling attemptId, none =>
      let job := { job with record := concludeAnalysis job.record outcome }
      return { replica with
        databaseWorkers := replica.databaseWorkers.set i (.recording attemptId, job) }
  | _, none => none

/-! ### Runs -/

omit [CanonicalLib] [Postgres] in
/-- A request that created or requeued something. -/
structure Accepted where
  subject : String
  idempotencyKey : String
  operation : MemoryOperation
  time : Nat
deriving DecidableEq

/-- A replica with its past: the clock of the limiter, and the accepted requests. -/
structure History where
  replica : Replica
  clock : Nat
  accepted : List Accepted

/-- The steps: a request that is served, or a worker that goes on. -/
inductive ReplicaStep where
  | submit (submission : Submission) (surroundings : Surroundings)
  | workInMemory (i : Nat) (input : MemoryInput)
  | workInDatabase (i : Nat) (input : Option QuoteInput) (outcome : CallOutcome)

/-- The record of a request that is served at the time `now`. -/
def Served.note (served : Served) (submission : Submission) (now : Nat) : List Accepted :=
  match served with
  | accepted id =>
      [⟨submission.subject, submission.idempotencyKey, submission.operation id, now⟩]
  | _ => []

omit [Postgres] in
/-- A request of a quote knows whether the replica has a database. -/
def Submission.configured (databaseConfigured : Bool) : Submission → Bool
  | quote request => request.settings.databaseConfigured == databaseConfigured
  | assessment _ => true

/-- A request at a replica that is configured with a database or without one. It comes after
the clock, and its fresh id is new. -/
def History.submit (databaseConfigured : Bool) (s : History) (submission : Submission)
    (surroundings : Surroundings) : Option (Served × History) := do
  if submission.configured databaseConfigured && s.clock ≤ surroundings.now then
    let memory ← s.replica.memory.issue submission.fresh?
    let (served, replica) := { s.replica with memory }.submit submission surroundings
    return (served, {
      replica
      clock := surroundings.now
      accepted := s.accepted ++ served.note submission surroundings.now })
  else none

/-- One step: a request is served to its end, or a worker moves. Requests do not overlap here. -/
def History.next (databaseConfigured : Bool) (s : History) : ReplicaStep → Option History
  | .submit submission surroundings =>
      (s.submit databaseConfigured submission surroundings).map Prod.snd
  | .workInMemory i input => do
      let replica ← s.replica.workInMemory i input
      return { s with replica }
  | .workInDatabase i input outcome => do
      let replica ← s.replica.workInDatabase i input outcome
      return { s with replica }

/-- The runs of a replica. -/
def replicaRuns (databaseConfigured : Bool) : System History ReplicaStep :=
  .ofFun ⟨.start, 0, []⟩ (History.next databaseConfigured)

end

/-! ### Inputs for runs -/

/-- What a request meets at the time `now`. -/
def testSurroundings (now : Nat) : Surroundings where
  now
  permit := true
  timestamp := some "2026-09-09T05:00:00Z"
  database := some ⟨some CanonicalContext.requestOnly, 0, 1⟩
  attemptId := ⟨9⟩

end CanonicalApi
