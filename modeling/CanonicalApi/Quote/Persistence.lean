import CanonicalApi.Lib.Outcome
import CanonicalApi.Lib.Transaction
import CanonicalApi.Record

/-!
# `CanonicalApi.Quote.Persistence`: the transactions on quotes

The functions of `persistence.rs` as transaction programs. Each statement of the source is
one constructor of `Stmt`, with the parameters that the source binds, and `Reply` is the row
that it returns. A function that starts with `begin_subject_transaction` starts here with the
statement `setSubject`.

What a statement does is the business of `Quote/Tables.lean`. The programs only see replies.
-/

set_option autoImplicit false

namespace CanonicalApi

open Transaction

/-- `StoreError`. The text of `invalidRecord` names the column or the statement, and nothing shows
it to a client. -/
inductive StoreError where
  | contextNotFound
  | database
  | idempotencyKeyReused
  | invalidRecord (what : String)
  | invalidTransition
  | quoteNotFound
deriving DecidableEq, Repr

/-- `StoreError::code`, for the log. -/
def StoreError.code : StoreError → String
  | contextNotFound => "context_not_found"
  | database => "database_error"
  | idempotencyKeyReused => "idempotency_key_reused"
  | invalidRecord _ => "invalid_stored_record"
  | invalidTransition => "invalid_transition"
  | quoteNotFound => "quote_not_found"

/-! ### Rows -/

/-- A row of `canonical_quote`. Times are in microseconds since the Unix epoch. The context is a
copy taken when the quote was created, which a retry uses again. -/
structure QuoteRow where
  id : Uuid
  ownerSubject : String
  contextRecordId : Uuid
  requestJson : JsonValue
  applicationContextMarkdown : String
  contextSnapshotMarkdown : String
  contextSnapshotJson : JsonValue
  geminiModel : String
  status : String
  analysisJson : Option JsonValue
  errorCode : Option String
  createdAt : Int
  updatedAt : Int
deriving DecidableEq

/-- `StoredOperation`: the columns of `canonical_quote_operation` that are read. -/
structure StoredOperation where
  operation : String
  quoteId : Uuid
  requestJson : Option JsonValue
deriving DecidableEq

/-- A row of `canonical_quote_event`. The number is drawn from a sequence that all quotes share. -/
structure EventRow where
  sequenceId : Int
  quoteId : Uuid
  ownerSubject : String
  status : String
  detailsJson : JsonValue
  createdAt : Int
deriving DecidableEq

/-- A row of `canonical_model_attempt`. It is inserted as started and is finished at most once. -/
structure AttemptRow where
  id : Uuid
  quoteId : Uuid
  ownerSubject : String
  model : String
  status : String
  errorCode : Option String
  finishedAt : Option Int
deriving DecidableEq

/-! ### Statements -/

/-- The parameters of `INSERT INTO canonical_quote`. The other columns have defaults of the
table. -/
structure QuoteInsert where
  quoteId : Uuid
  subject : String
  contextId : Uuid
  requestJson : JsonValue
  applicationMarkdown : String
  contextMarkdown : String
  contextJson : JsonValue
  geminiModel : String
  status : String
deriving DecidableEq

/-- The statements of `persistence.rs`. Each has the parameters that the code binds; what the server
adds to them comes from the input of the engine. -/
inductive QuoteStmt where
  | setSubject (subject : String)
  | advisoryLock (text : String)
  | selectOperation (subject idempotencyKey : String)
  | selectContext (subject : String)
  | insertQuote (row : QuoteInsert)
  | insertOperation (subject idempotencyKey : String) (row : StoredOperation)
  | insertEvent (quoteId : Uuid) (ownerSubject status : String) (details : JsonValue)
  | selectQuote (quoteId : Uuid) (subject : String) (lock : Bool)
  | requeueQuote (quoteId : Uuid) (subject : String)
  | updateQuote (quoteId : Uuid) (ownerSubject status : String) (analysis : Option JsonValue)
      (errorCode : Option String)
  | selectLatestEvent (quoteId : Uuid) (subject : String)
  | insertAttempt (attemptId quoteId : Uuid) (ownerSubject model : String)
  | finishAttempt (attemptId quoteId : Uuid) (ownerSubject status : String)
      (errorCode : Option String)
deriving DecidableEq

/-- What a statement returns. The insert and the updates of quotes return times, and `none` is a
query that returned no row. -/
@[reducible] def QuoteReply : QuoteStmt → Type
  | .setSubject _ => Unit
  | .advisoryLock _ => Unit
  | .selectOperation _ _ => Option StoredOperation
  | .selectContext _ => Option CanonicalContext
  | .insertQuote _ => Option (Int × Int)
  | .insertOperation _ _ _ => Unit
  | .insertEvent _ _ _ _ => Option EventRow
  | .selectQuote _ _ _ => Option QuoteRow
  | .requeueQuote _ _ => Option Int
  | .updateQuote _ _ _ _ _ => Option Int
  | .selectLatestEvent _ _ => Option EventRow
  | .insertAttempt _ _ _ _ => Unit
  | .finishAttempt _ _ _ _ _ => Nat

/-- A transaction on quotes. -/
abbrev QuoteTx (α : Type) : Type := Program QuoteReply StoreError α

/-- The row, or a rollback with `error` (`Option::ok_or` before `?`). -/
def QuoteTx.okOr {α : Type} (error : StoreError) (row : Option α) : QuoteTx α :=
  .ofExcept (Outcome.okOr error row)

/-! ### Rows into records -/

section

variable [CanonicalLib] [Postgres]

/-- `quote_from_row`. The stored request must decode again, and it is looked at before the
status. -/
def quoteFromRow (row : QuoteRow) : Except StoreError QuoteRecord := do
  let request ← Outcome.okOr (.invalidRecord "canonical_quote.request_json")
    (QuoteRequest.fromValue row.requestJson)
  if row.status ∉ ["queued", "analyzing", "completed", "failed"] then
    .error (.invalidRecord "canonical_quote.status")
  else
    .ok { analysis := row.analysisJson
          contextRecordId := row.contextRecordId
          errorCode := row.errorCode
          geminiModel := row.geminiModel
          ownerSubject := row.ownerSubject
          persistence := "postgres"
          quoteId := row.id
          request
          status := row.status
          createdAt := Postgres.toChar row.createdAt
          updatedAt := Postgres.toChar row.updatedAt }

/-- `context_snapshot_from_row`. -/
def contextSnapshotFromRow (row : QuoteRow) : CanonicalContext where
  contextJson := row.contextSnapshotJson
  contextMarkdown := row.contextSnapshotMarkdown
  id := row.contextRecordId
  name := "persisted quote context snapshot"

/-- `event_from_row`. The number goes from `i64` to `u64`, so a negative one is an error. -/
def eventFromRow (row : EventRow) : Except StoreError QuoteEventRecord :=
  if row.sequenceId < 0 then .error (.invalidRecord "canonical_quote_event.sequence_id")
  else
    .ok { ownerSubject := row.ownerSubject
          quoteId := row.quoteId
          sequence := row.sequenceId.toNat
          status := row.status
          occurredAt := Postgres.toChar row.createdAt }

/-- `CanonicalContext::validate`, with its message as an invalid record. -/
def checkContext (context : CanonicalContext) : Except StoreError Unit :=
  match context.validate with
  | .ok () => .ok ()
  | .error what => .error (.invalidRecord what)

/-! ### Parts of transactions -/

/-- The text that `lock_idempotency` locks on. -/
def idempotencyLockText (subject idempotencyKey : String) : String :=
  subject ++ "\x00" ++ idempotencyKey

/-- `begin_subject_transaction`. -/
def beginSubjectTransaction (subject : String) : QuoteTx Unit :=
  .stmt (QuoteStmt.setSubject subject)

/-- `lock_idempotency`. -/
def lockIdempotency (subject idempotencyKey : String) : QuoteTx Unit :=
  .stmt (QuoteStmt.advisoryLock (idempotencyLockText subject idempotencyKey))

/-- `find_operation`. -/
def findOperation (subject idempotencyKey : String) : QuoteTx (Option StoredOperation) :=
  .stmt (QuoteStmt.selectOperation subject idempotencyKey)

/-- `insert_operation`. -/
def insertOperation (subject idempotencyKey operation : String) (quoteId : Uuid)
    (requestJson : Option JsonValue) : QuoteTx Unit :=
  .stmt (QuoteStmt.insertOperation subject idempotencyKey { operation, quoteId, requestJson })

/-- The details that `insert_event` stores. -/
def eventDetails (record : QuoteRecord) : JsonValue :=
  .object [
    ("analysis_available", .bool record.analysis.isSome),
    ("error_code", (record.errorCode.map JsonValue.string).getD .null)]

/-- `insert_event`. -/
def insertEvent (record : QuoteRecord) : QuoteTx QuoteEventRecord := do
  let row ← Program.stmt
    (.insertEvent record.quoteId record.ownerSubject record.status (eventDetails record))
  let row ← QuoteTx.okOr (.invalidRecord "canonical_quote_event insert") row
  Program.ofExcept (eventFromRow row)

/-- `get_quote_in_transaction`. -/
def getQuoteInTransaction (subject : String) (quoteId : Uuid) : QuoteTx QuoteRecord := do
  let row ← Program.stmt (.selectQuote quoteId subject false)
  let row ← QuoteTx.okOr .quoteNotFound row
  Program.ofExcept (quoteFromRow row)

/-! ### The transactions -/

/-- `CreateQuoteOutcome`. -/
inductive CreateQuoteOutcome where
  | created (context : CanonicalContext) (event : QuoteEventRecord) (record : QuoteRecord)
  | existing (record : QuoteRecord)

/-- `RetryQuoteOutcome`. -/
inductive RetryQuoteOutcome where
  | retried (context : CanonicalContext) (event : QuoteEventRecord) (record : QuoteRecord)
  | existing (record : QuoteRecord)

/-- `create_quote`, after the ledger had no entry. The quote, its ledger entry and its first event
are written in one transaction, so there is none of them without the others. -/
def createQuoteFresh (subject idempotencyKey : String) (request : AcceptedQuoteRequest)
    (record : QuoteRecord) : QuoteTx CreateQuoteOutcome := do
  let context ← Program.stmt (.selectContext subject)
  let context ← QuoteTx.okOr .contextNotFound context
  Program.ofExcept (checkContext context)
  let inserted ← Program.stmt (.insertQuote
    { quoteId := record.quoteId
      subject
      contextId := context.id
      requestJson := request.wire.toValue
      applicationMarkdown := request.applicationMarkdown
      contextMarkdown := context.contextMarkdown
      contextJson := context.contextJson
      geminiModel := record.geminiModel
      status := record.status })
  let inserted ← QuoteTx.okOr (.invalidRecord "canonical_quote insert") inserted
  let record := { record with
    contextRecordId := context.id
    createdAt := Postgres.toChar inserted.1
    updatedAt := Postgres.toChar inserted.2 }
  insertOperation subject idempotencyKey "create" record.quoteId (some request.wire.toValue)
  let event ← insertEvent record
  return .created context event record

/-- `create_quote`. The advisory lock of the key is taken before the ledger is read. An entry of
another operation or payload is a conflict; the same one returns the quote of the entry. -/
def createQuote (subject idempotencyKey : String) (request : AcceptedQuoteRequest)
    (record : QuoteRecord) : QuoteTx CreateQuoteOutcome := do
  beginSubjectTransaction subject
  lockIdempotency subject idempotencyKey
  match ← findOperation subject idempotencyKey with
  | some existing =>
      if existing.operation ≠ "create" ∨ existing.requestJson ≠ some request.wire.toValue then
        .rollback .idempotencyKeyReused
      else do
        let record ← getQuoteInTransaction subject existing.quoteId
        return .existing record
  | none => createQuoteFresh subject idempotencyKey request record

/-- `retry_quote`, after the ledger had no entry. The row is read for update, so the status cannot
change between the check and the update. -/
def retryQuoteFresh (subject : String) (quoteId : Uuid) (idempotencyKey : String) :
    QuoteTx RetryQuoteOutcome := do
  let row ← Program.stmt (.selectQuote quoteId subject true)
  let row ← QuoteTx.okOr .quoteNotFound row
  let record ← Program.ofExcept (quoteFromRow row)
  if record.status ≠ "failed" then
    .rollback .invalidTransition
  else do
    let context := contextSnapshotFromRow row
    Program.ofExcept (checkContext context)
    let updated ← Program.stmt (.requeueQuote quoteId subject)
    let updated ← QuoteTx.okOr .quoteNotFound updated
    let record := { record with
      status := "queued"
      analysis := none
      errorCode := none
      updatedAt := Postgres.toChar updated }
    insertOperation subject idempotencyKey "retry" quoteId none
    let event ← insertEvent record
    return .retried context event record

/-- `retry_quote`. An entry of another operation or quote is a conflict; the same one returns the
quote as it is now. -/
def retryQuote (subject : String) (quoteId : Uuid) (idempotencyKey : String) :
    QuoteTx RetryQuoteOutcome := do
  beginSubjectTransaction subject
  lockIdempotency subject idempotencyKey
  match ← findOperation subject idempotencyKey with
  | some existing =>
      if existing.operation ≠ "retry" ∨ existing.quoteId ≠ quoteId then
        .rollback .idempotencyKeyReused
      else do
        let record ← getQuoteInTransaction subject quoteId
        return .existing record
  | none => retryQuoteFresh subject quoteId idempotencyKey

/-- `get_quote`. -/
def getQuote (subject : String) (quoteId : Uuid) : QuoteTx QuoteRecord := do
  beginSubjectTransaction subject
  getQuoteInTransaction subject quoteId

/-- `update_quote`. The result is the event with the record as it is afterwards. The update is by id
and owner only: it does not look at the status that it replaces. -/
def updateQuote (record : QuoteRecord) : QuoteTx (QuoteEventRecord × QuoteRecord) := do
  beginSubjectTransaction record.ownerSubject
  let updated ← Program.stmt (.updateQuote record.quoteId record.ownerSubject record.status
    record.analysis record.errorCode)
  let updated ← QuoteTx.okOr .quoteNotFound updated
  let record := { record with updatedAt := Postgres.toChar updated }
  let event ← insertEvent record
  return (event, record)

/-- `latest_event`. -/
def latestEvent (subject : String) (quoteId : Uuid) : QuoteTx QuoteEventRecord := do
  beginSubjectTransaction subject
  let row ← Program.stmt (.selectLatestEvent quoteId subject)
  let row ← QuoteTx.okOr .quoteNotFound row
  Program.ofExcept (eventFromRow row)

/-- `start_model_attempt`, with the fresh id `attemptId`. -/
def startModelAttempt (record : QuoteRecord) (attemptId : Uuid) : QuoteTx Uuid := do
  beginSubjectTransaction record.ownerSubject
  Program.stmt
    (QuoteStmt.insertAttempt attemptId record.quoteId record.ownerSubject record.geminiModel)
  return attemptId

/-- `finish_model_attempt`. The update finds the attempt only while it is started, and one that
finds none is an error. -/
def finishModelAttempt (record : QuoteRecord) (attemptId : Uuid) : QuoteTx Unit := do
  let attemptStatus := if record.status = "completed" then "completed" else "failed"
  beginSubjectTransaction record.ownerSubject
  let rowsAffected ← Program.stmt (.finishAttempt attemptId record.quoteId record.ownerSubject
    attemptStatus record.errorCode)
  if rowsAffected ≠ 1 then
    .rollback (.invalidRecord "canonical_model_attempt transition")
  else
    return ()

end

end CanonicalApi
