import CanonicalApi.Lib.Interleaving
import CanonicalApi.Quote.Effects
import CanonicalApi.Quote.Handlers
import CanonicalApi.Quote.Locking

/-!
# `CanonicalApi.Quote.Service`: handlers and workers on one database

The handlers `create_quote` and `retry_quote` and the worker `run_quote_analysis` of `lib.rs`
with a database, as processes of a `Service`. Any number of them, on any number of replicas,
run against one database. A statement or a commit can fail at any time, a commit can take
effect and still be reported as failed, and every process can disappear before its end: the
future of a handler is dropped, or a replica crashes.

A handler first runs its transaction (`requested`). After a new acceptance it updates the
cache of its replica and publishes the event (`accepted`), and then spawns the worker and
answers in one step. The cache is left out: with a database every handler overwrites what it
reads from it.

`quote_step_cases` says what one step does to the tables and to the processes. `live` is the
quote that a process will still write, with the status that it relies on.
-/

set_option autoImplicit false

namespace CanonicalApi

open Transaction Transition

/-- The tables before `row` is written by a request that is accepted: its quote is new, or it
has failed and keeps its owner. -/
def Acceptable (db : QuoteDb) (row : QuoteRow) : Prop :=
  db (.quote row.id) = none ∨ ∃ old, db (.quote row.id) = some old ∧ old.status = "failed" ∧
    row.ownerSubject = old.ownerSubject

/-- A quote that is found for a subject has the id and the subject as its owner. -/
theorem quoteOf_eq_some {db : QuoteDb} {quoteId : Uuid} {subject : String} {row : QuoteRow}
    (h : QuoteTables.quoteOf db quoteId subject = some row) :
    db (.quote quoteId) = some row ∧ row.id = quoteId ∧ row.ownerSubject = subject := by
  obtain ⟨hrow, hmatch⟩ := Option.filter_eq_some_iff.mp h
  exact ⟨hrow, of_decide_eq_true hmatch⟩

/-- Where a worker is. `attemptId` is the id that it will give its attempt, and in the later stages
that of the attempt it has started, if any. -/
inductive WorkerStage where
  | marking (attemptId : Uuid) (configured : Bool)
  | starting (attemptId : Uuid)
  | calling (attemptId : Option Uuid)
  | recording (attemptId : Option Uuid)
  | finishing (attemptId : Uuid)
  | done
deriving DecidableEq

/-- The transaction of this stage writes the row of the quote. -/
def WorkerStage.writesQuote : WorkerStage → Bool
  | marking _ _ | recording _ => true
  | _ => false

section

variable [CanonicalLib]

/-- A handler or a worker. The record of a worker is the one that it writes next. -/
inductive QuoteProc where
  | requested (request : MutationRequest)
  | accepted (request : MutationRequest) (job : AnalysisJob) (event : QuoteEventRecord)
  | replayed (request : MutationRequest) (record : QuoteRecord)
  | answered (request : MutationRequest) (result : Except ApiError MutationResponse)
  | worker (stage : WorkerStage) (job : AnalysisJob)

/-- What comes from outside when a process moves by itself. -/
inductive QuoteSignal where
  | proceed (attemptId : Uuid)
  | called (outcome : CallOutcome)

/-- The results of the transactions. -/
inductive QuoteResult where
  | created (outcome : CreateQuoteOutcome)
  | retried (outcome : RetryQuoteOutcome)
  | updated (event : QuoteEventRecord) (record : QuoteRecord)
  | started (attemptId : Uuid)
  | finished

variable [Postgres]

/-- The transaction of a handler. The record of a create is made before it, from the clock and a
fresh id that the request brings. -/
def MutationRequest.body (request : MutationRequest) : QuoteTx QuoteResult :=
  match request.mutation with
  | .create accepted timestamp fresh => do
      let record := newRecord request.settings request.subject accepted.wire timestamp fresh
      let outcome ← createQuote request.subject request.idempotencyKey accepted record
      return .created outcome
  | .retry quoteId => do
      let outcome ← retryQuote request.subject quoteId request.idempotencyKey
      return .retried outcome

/-- The transaction of a worker. The first and the last update of the quote are the same statements
with different records. -/
def WorkerStage.body (stage : WorkerStage) (job : AnalysisJob) : Option (QuoteTx QuoteResult) :=
  match stage with
  | .marking _ _ | .recording _ => some do
      let (event, record) ← updateQuote job.record
      return .updated event record
  | .starting attemptId => some do
      let attemptId ← startModelAttempt job.record attemptId
      return .started attemptId
  | .finishing attemptId => some do
      finishModelAttempt job.record attemptId
      return .finished
  | .calling _ | .done => none

omit [Postgres] in
/-- A handler after its transaction. A new request goes on with its analysis, a replay only with its
answer, and an error is answered at once. -/
def MutationRequest.resume (request : MutationRequest) : Except StoreError QuoteResult → QuoteProc
  | .ok (.created (.created context event record))
  | .ok (.retried (.retried context event record)) =>
      .accepted request (.of request.settings record context request.mutation) event
  | .ok (.created (.existing record)) | .ok (.retried (.existing record)) =>
      .replayed request record
  | .ok _ => .requested request
  | .error error => .answered request (.error (mapStoreError error))

omit [Postgres] in
/-- A worker after a transaction. Only the first update must succeed: without an attempt the call is
made all the same, and the attempt is ended even if the outcome could not be stored. -/
def WorkerStage.resume (stage : WorkerStage) (job : AnalysisJob) :
    Except StoreError QuoteResult → WorkerStage × AnalysisJob
  | .ok (.updated _ record) =>
      match stage with
      | .marking attemptId true => (.starting attemptId, { job with record })
      | .marking _ false => (.recording none, { job with record := notConfigured record })
      | .recording (some attemptId) => (.finishing attemptId, { job with record })
      | _ => (.done, job)
  | .ok (.started attemptId) => (.calling (some attemptId), job)
  | .ok _ => (.done, job)
  | .error _ =>
      match stage with
      | .starting _ => (.calling none, job)
      | .recording (some attemptId) => (.finishing attemptId, job)
      | _ => (.done, job)

/-- The handlers and workers on one database. A handler that was accepted answers and starts its
worker in one step. A commit may take effect and still be reported as failed, so the service is
`lossy`. -/
@[reducible] def quoteService : Service quoteEngine StoreError QuoteResult where
  Proc := QuoteProc
  Event := QuoteSignal
  arrives
    | .requested request => request.settings.databaseConfigured
    | _ => false
  final
    | .answered _ _ | .worker .done _ => true
    | _ => false
  body
    | .requested request => some request.body
    | .worker stage job => stage.body job
    | _ => none
  resume
    | .requested request, result => request.resume result
    | .worker stage job, result =>
        let (stage, job) := stage.resume job result
        .worker stage job
    | p, _ => p
  advance
    | .accepted request job _, .proceed attemptId =>
        some (.answered request (.ok (.of job.record request.mutation)),
          some (.worker (.marking attemptId request.settings.geminiConfigured)
            { job with record := startAnalysis job.record }))
    | .replayed request record, .proceed _ =>
        some (.answered request (.ok (.of record request.mutation)), none)
    | .worker (.calling attemptId) job, .called outcome =>
        some (.worker (.recording attemptId)
          { job with record := concludeAnalysis job.record outcome }, none)
    | _, _ => none
  fault := .database
  lossy := true
  start := emptyTables

/-! ### The transactions of the processes -/

omit [Postgres] in
/-- The ledger row belongs to this request. -/
def MutationRequest.Matches (request : MutationRequest) (operation : StoredOperation) : Prop :=
  match request.mutation with
  | .create accepted _ _ => operation.IsCreate accepted
  | .retry quoteId => operation.IsRetry quoteId

/-- The request is accepted: it had no ledger row, and its quote is queued now. `tables` is the
whole effect on the database. -/
structure Acceptance (request : MutationRequest) (db db' : QuoteDb) (row : QuoteRow)
    (operation : StoredOperation) (job : AnalysisJob) : Prop where
  ledger : db (.operations request.subject request.idempotencyKey) = []
  matched : request.Matches operation
  operationId : operation.quoteId = row.id
  before : Acceptable db row
  owner : row.ownerSubject = request.subject
  status : row.status = "queued"
  analysis : row.analysisJson = none
  errorCode : row.errorCode = none
  readable : ReadableRow row
  tables : ∃ event, db' = QuoteTables.accept db request.subject request.idempotencyKey row
    operation event
  job : job.record.quoteId = row.id

/-- The transaction of a handler, when it commits, either finds the request on the ledger and
changes nothing, or finds no entry and accepts the request with a queued quote. -/
theorem MutationRequest.body_cases {request : MutationRequest} {db db' : QuoteDb}
    {x : QuoteResult} (h : quoteEngine.Runs db request.body (.ok x) db') :
    (∃ operation found,
      (db (.operations request.subject request.idempotencyKey)).head? = some operation ∧
      request.Matches operation ∧ found.quoteId = operation.quoteId ∧ db' = db ∧
      request.resume (.ok x) = .replayed request found) ∨
    ∃ row operation job event, Acceptance request db db' row operation job ∧
      request.resume (.ok x) = .accepted request job event := by
  obtain ⟨subject, key, mutation, settings⟩ := request
  cases mutation with
  | create accepted timestamp fresh =>
    rcases (quoteEngine.runs_bind_iff _ _ _ _ _).mp h with
      ⟨e, -, he⟩ | ⟨outcome, db₁, hcreate, hx, hdb⟩
    · cases he
    cases hx
    subst hdb
    -- A create that ends well either finds its entry in the ledger or is new.
    rcases createQuote_cases hcreate with ⟨e, he, -⟩ | ⟨operation, found, hhead, hmatch, hid, -,
        hres, hdb⟩ | ⟨context, event, found, row, eventRow, hnil, hres, hid, -, -, hnone, hrow, -,
        hdb⟩
    · cases he
    · cases hres
      exact .inl ⟨operation, found, hhead, hmatch, hid, hdb, rfl⟩
    · cases hres
      have hrowid : row.id = fresh := hrow.id
      refine .inr ⟨row, ⟨"create", fresh, some accepted.wire.toValue⟩, _, event, ?_, rfl⟩
      exact {
        ledger := hnil
        matched := ⟨rfl, rfl⟩
        operationId := hrowid.symm
        before := .inl (by rw [hrowid]; exact hnone)
        owner := hrow.ownerSubject
        status := hrow.status
        analysis := hrow.analysis
        errorCode := hrow.errorCode
        readable := by
          rw [readableRow_iff, hrow.request, hrow.status]
          exact ⟨⟨accepted.wire, accepted.wire.fromValue_toValue⟩, List.mem_cons_self⟩
        tables := ⟨eventRow, hdb⟩
        job := hid.trans hrowid.symm }
  | retry quoteId =>
    rcases (quoteEngine.runs_bind_iff _ _ _ _ _).mp h with
      ⟨e, -, he⟩ | ⟨outcome, db₁, hretry, hx, hdb⟩
    · cases he
    cases hx
    subst hdb
    -- So does a retry, whose new form needs a failed quote of the subject.
    rcases retryQuote_cases hretry with ⟨e, he, -⟩ | ⟨operation, found, hhead, hmatch, hid, -,
        hres, hdb⟩ | ⟨context, event, found, row, now, eventRow, hnil, hres, hid, -, -, hquote,
        hfailed, hreadable, -, hdb⟩
    · cases he
    · cases hres
      exact .inl ⟨operation, found, hhead, hmatch, hid, hdb, rfl⟩
    · cases hres
      obtain ⟨hrow, hrowid, howner⟩ := quoteOf_eq_some hquote
      refine .inr ⟨{ QuoteTables.requeued row with updatedAt := now },
        ⟨"retry", quoteId, none⟩, _, event, ?_, rfl⟩
      exact {
        ledger := hnil
        matched := ⟨rfl, rfl⟩
        operationId := hrowid.symm
        before := .inr ⟨row, (congrArg (fun id => db (.quote id)) hrowid).trans hrow, hfailed, rfl⟩
        owner := howner
        status := rfl
        analysis := rfl
        errorCode := rfl
        readable := by
          rw [readableRow_iff] at hreadable ⊢
          exact ⟨hreadable.1, List.mem_cons_self⟩
        tables := ⟨eventRow, hdb⟩
        job := hid.trans hrowid.symm }

/-- The transaction of a handler with the ledger row of something else fails with
`IdempotencyKeyReused`. -/
theorem MutationRequest.body_reused {request : MutationRequest} {db db' : QuoteDb}
    {res : Except StoreError QuoteResult} {operation : StoredOperation}
    (hhead : (db (.operations request.subject request.idempotencyKey)).head? = some operation)
    (hnot : ¬ request.Matches operation)
    (h : quoteEngine.Runs db request.body res db') : res = .error .idempotencyKeyReused := by
  obtain ⟨subject, key, mutation, settings⟩ := request
  cases mutation with
  | create accepted timestamp fresh =>
    rcases (quoteEngine.runs_bind_iff _ _ _ _ _).mp h with
      ⟨e, hcreate, rfl⟩ | ⟨outcome, db₁, hcreate, -⟩
    -- Every other outcome contradicts the entry: it would match it, or find none.
    all_goals rcases createQuote_cases hcreate with ⟨e', he, hreused⟩ | ⟨operation', found, hhead',
      hmatch, -, -, hres, -⟩ | ⟨_, _, _, _, _, hnil, hres, -⟩
    · cases he
      rw [hreused operation hhead hnot]
    · cases hres
    · cases hres
    · cases he
    · rw [hhead] at hhead'
      cases hhead'
      exact absurd hmatch hnot
    · have hhead' : (db (.operations subject key)).head? = some operation := hhead
      rw [hnil] at hhead'
      cases hhead'
  | retry quoteId =>
    rcases (quoteEngine.runs_bind_iff _ _ _ _ _).mp h with
      ⟨e, hretry, rfl⟩ | ⟨outcome, db₁, hretry, -⟩
    all_goals rcases retryQuote_cases hretry with ⟨e', he, hreused⟩ | ⟨operation', found, hhead',
      hmatch, -, -, hres, -⟩ | ⟨_, _, _, _, _, _, hnil, hres, -⟩
    · cases he
      rw [hreused operation hhead hnot]
    · cases hres
    · cases hres
    · cases he
    · rw [hhead] at hhead'
      cases hhead'
      exact absurd hmatch hnot
    · have hhead' : (db (.operations subject key)).head? = some operation := hhead
      rw [hnil] at hhead'
      cases hhead'

/-- An update by a worker: the row of its quote has the state of its record now, and keeps its owner
and its request. Nothing asks what the status was before. -/
structure WorkerUpdate (job : AnalysisJob) (db db' : QuoteDb) (found : QuoteRecord)
    (old row : QuoteRow) : Prop where
  foundId : found.quoteId = job.record.quoteId
  foundStatus : found.status = job.record.status
  foundAnalysis : found.analysis = job.record.analysis
  foundErrorCode : found.errorCode = job.record.errorCode
  before : db (.quote row.id) = some old
  id : row.id = job.record.quoteId
  owner : row.ownerSubject = old.ownerSubject
  request : row.requestJson = old.requestJson
  status : row.status = job.record.status
  analysis : row.analysisJson = job.record.analysis
  errorCode : row.errorCode = job.record.errorCode
  tables : ∃ event, db' = QuoteTables.progress db row event

/-- An update by a worker, when it commits, writes the state of its record into the row of the
quote. -/
theorem worker_update_cases {job : AnalysisJob} {db db' : QuoteDb} {x : QuoteResult}
    (h : quoteEngine.Runs db (do
      let (event, record) ← updateQuote job.record
      return QuoteResult.updated event record) (.ok x) db') :
    ∃ event found old row, x = .updated event found ∧
      WorkerUpdate job db db' found old row := by
  rcases (quoteEngine.runs_bind_iff _ _ _ _ _).mp h with
    ⟨e, -, he⟩ | ⟨⟨event, found⟩, db₁, hupdate, hx, hdb⟩
  · cases he
  cases hx
  subst hdb
  rcases updateQuote_cases hupdate with ⟨e, he⟩ | ⟨event', found', old, now, eventRow, hres, hid,
      -, hstatus, hanalysis, herror, hquote, -, hdb⟩
  · cases he
  cases hres
  obtain ⟨hold, holdid, -⟩ := quoteOf_eq_some hquote
  let row := QuoteTables.updated job.record.status job.record.analysis job.record.errorCode old
  refine ⟨event, found, old, { row with updatedAt := now }, rfl, ?_⟩
  exact {
    foundId := hid
    foundStatus := hstatus
    foundAnalysis := hanalysis
    foundErrorCode := herror
    before := (congrArg (fun id => db (.quote id)) holdid).trans hold
    id := holdid
    owner := rfl
    request := rfl
    status := rfl
    analysis := rfl
    errorCode := rfl
    tables := ⟨eventRow, hdb⟩ }

/-- The start of an attempt, when it commits, inserts the row of the attempt. -/
theorem worker_start_cases {job : AnalysisJob} {attemptId : Uuid} {db db' : QuoteDb}
    {x : QuoteResult}
    (h : quoteEngine.Runs db (do
      let attemptId ← startModelAttempt job.record attemptId
      return QuoteResult.started attemptId) (.ok x) db') :
    x = .started attemptId ∧ ∃ attempt, attempt.status = "started" ∧
      db' = Function.update db (.attempt attemptId) (some attempt) := by
  rcases (quoteEngine.runs_bind_iff _ _ _ _ _).mp h with
    ⟨e, -, he⟩ | ⟨started, db₁, hstart, hx, hdb⟩
  · cases he
  cases hx
  subst hdb
  rcases startModelAttempt_cases hstart with ⟨e, he⟩ | ⟨hres, -, hdb⟩
  · cases he
  · cases hres
    exact ⟨rfl, _, rfl, hdb⟩

/-- The end of an attempt, when it commits, marks the row of the attempt. -/
theorem worker_finish_cases {job : AnalysisJob} {attemptId : Uuid} {db db' : QuoteDb}
    {x : QuoteResult}
    (h : quoteEngine.Runs db (do
      finishModelAttempt job.record attemptId
      return QuoteResult.finished) (.ok x) db') :
    x = .finished ∧ ∃ attempt : AttemptRow,
      attempt.status = (if job.record.status = "completed" then "completed" else "failed") ∧
      db' = Function.update db (.attempt attemptId) (some attempt) := by
  rcases (quoteEngine.runs_bind_iff _ _ _ _ _).mp h with
    ⟨e, -, he⟩ | ⟨finished, db₁, hfinish, hx, hdb⟩
  · cases he
  cases hx
  subst hdb
  rcases finishModelAttempt_cases hfinish with ⟨e, he⟩ | ⟨row, now, -, -, hdb⟩
  · cases he
  · exact ⟨rfl, _, rfl, hdb⟩

/-- The transaction of a worker, when it commits, writes the state of its record into the row
of the quote, or it writes the row of an attempt. -/
theorem WorkerStage.body_cases {stage : WorkerStage} {job : AnalysisJob}
    {prog : QuoteTx QuoteResult} {db db' : QuoteDb} {x : QuoteResult}
    (hbody : stage.body job = some prog) (h : quoteEngine.Runs db prog (.ok x) db') :
    (stage.writesQuote = true ∧ ∃ event found old row, x = .updated event found ∧
      WorkerUpdate job db db' found old row) ∨
    ∃ attemptId attempt, db' = Function.update db (.attempt attemptId) (some attempt) ∧
      ((∃ attemptId, stage = .starting attemptId) ∧ x = .started attemptId ∨
        (∃ attemptId, stage = .finishing attemptId) ∧ x = .finished) := by
  cases stage with
  | marking attemptId configured =>
    cases hbody
    exact .inl ⟨rfl, worker_update_cases h⟩
  | recording attemptId =>
    cases hbody
    exact .inl ⟨rfl, worker_update_cases h⟩
  | starting attemptId =>
    cases hbody
    obtain ⟨rfl, attempt, -, hdb⟩ := worker_start_cases h
    exact .inr ⟨attemptId, attempt, hdb, .inl ⟨⟨attemptId, rfl⟩, rfl⟩⟩
  | finishing attemptId =>
    cases hbody
    obtain ⟨rfl, attempt, -, hdb⟩ := worker_finish_cases h
    exact .inr ⟨attemptId, attempt, hdb, .inr ⟨⟨attemptId, rfl⟩, rfl⟩⟩
  | calling attemptId => cases hbody
  | done => cases hbody

/-- Every transaction of a handler or worker follows the lock discipline. -/
theorem quoteService_disciplined : Service.Disciplined quoteService := by
  intro p prog hbody
  cases p with
  -- Each transaction takes the locks of what it writes before it writes.
  | requested request =>
    cases hbody
    obtain ⟨subject, key, mutation, settings⟩ := request
    cases mutation with
    | create accepted timestamp fresh =>
      exact quoteEngine.locked_bind (locked_createQuote _ _ _ _) fun _ => trivial
    | retry quoteId =>
      exact quoteEngine.locked_bind (locked_retryQuote _ _ _) fun _ => trivial
  | worker stage job =>
    cases stage with
    | marking attemptId configured =>
      cases hbody
      exact quoteEngine.locked_bind (locked_updateQuote _) fun _ => trivial
    | recording attemptId =>
      cases hbody
      exact quoteEngine.locked_bind (locked_updateQuote _) fun _ => trivial
    | starting attemptId =>
      cases hbody
      exact quoteEngine.locked_bind (locked_startModelAttempt _ _) fun _ => trivial
    | finishing attemptId =>
      cases hbody
      exact quoteEngine.locked_bind (locked_finishModelAttempt _ _) fun _ => trivial
    | calling attemptId => cases hbody
    | done => cases hbody
  | accepted _ _ _ => cases hbody
  | replayed _ _ => cases hbody
  | answered _ _ => cases hbody

/-- Only requests arrive. -/
theorem quote_arrives {p : QuoteProc} (h : quoteService.arrives p = true) :
    ∃ request, p = .requested request := by
  cases p with
  | requested request => exact ⟨request, rfl⟩
  | accepted _ _ _ => cases h
  | replayed _ _ => cases h
  | answered _ _ => cases h
  | worker _ _ => cases h

/-- The moves without a transaction: an accepted handler starts its worker and answers, a
replay answers, and a worker gets the outcome of its call. -/
theorem quote_advance_cases {p p' : QuoteProc} {e : QuoteSignal} {child? : Option QuoteProc}
    (h : quoteService.advance p e = some (p', child?)) :
    (∃ request job event attemptId, p = .accepted request job event ∧
      p' = .answered request (.ok (.of job.record request.mutation)) ∧
      child? = some (.worker (.marking attemptId request.settings.geminiConfigured)
        { job with record := startAnalysis job.record })) ∨
    (∃ request record, p = .replayed request record ∧
      p' = .answered request (.ok (.of record request.mutation)) ∧ child? = none) ∨
    ∃ attemptId job outcome, p = .worker (.calling attemptId) job ∧
      p' = .worker (.recording attemptId)
        { job with record := concludeAnalysis job.record outcome } ∧ child? = none := by
  cases p with
  -- The handler answers and starts the worker.
  | accepted request job event =>
    cases e with
    | called outcome => cases h
    | proceed attemptId =>
      cases h
      exact .inl ⟨request, job, event, attemptId, rfl, rfl, rfl⟩
  -- A replay is answered without a worker.
  | replayed request record =>
    cases e with
    | called outcome => cases h
    | proceed attemptId =>
      cases h
      exact .inr (.inl ⟨request, record, rfl, rfl, rfl⟩)
  | worker stage job =>
    cases stage with
    -- The model answers, and the worker goes on to record the outcome.
    | calling attemptId =>
      cases e with
      | proceed attemptId => cases h
      | called outcome =>
        cases h
        exact .inr (.inr ⟨attemptId, job, outcome, rfl, rfl, rfl⟩)
    | marking _ _ => cases e <;> cases h
    | starting _ => cases e <;> cases h
    | recording _ => cases e <;> cases h
    | finishing _ => cases e <;> cases h
    | done => cases e <;> cases h
  | requested request => cases e <;> cases h
  | answered request result => cases e <;> cases h

end

/-! ### One quote, from its request to a failed analysis -/

section

/-- A server that takes every text, at a fixed time. -/
@[reducible] def openServer : Postgres where
  acceptsText _ := true
  hashText _ := 0
  timestamptz _ := none
  toChar _ := "2026-09-09T05:00:00.000000Z"

attribute [local instance] fixtureLib openServer

/-- A create with the fixture. -/
def testCreate : MutationRequest where
  subject := "customer-1"
  idempotencyKey := "quote-key-0001"
  mutation := .create { applicationMarkdown := "Canonical Plus", wire := fixtureRequest }
    "2026-09-09T05:00:00Z" testQuote
  settings := testSettings

/-- A transaction of `n` statements, from its begin to its end. -/
def testTransaction (pid n : Nat) : List quoteService.Action :=
  .begin pid :: List.replicate n (.stmt pid ⟨some CanonicalContext.requestOnly, 0, 1⟩) ++
    [.finish pid]

/-- The create is accepted and its worker fails the quote. -/
def testFailed : List quoteService.Action :=
  .arrive 0 (.requested testCreate) :: testTransaction 0 7 ++
    .advance 0 (.proceed ⟨9⟩) 1 :: testTransaction 1 3 ++ testTransaction 1 2 ++
    .advance 1 (.called testOutcome) 2 :: testTransaction 1 3 ++ testTransaction 1 2

end

end CanonicalApi
