import CanonicalApi.Quote.Persistence
import Mathlib.Data.List.MinMax

/-!
# `CanonicalApi.Quote.Tables`: the quote tables and what the statements do on them

The store of the quote transactions, with one cell for each quote row, for the ledger rows of
each subject and idempotency key, for the events of each quote, and for each model attempt.
The ledger and event cells hold lists, so that nothing in the types says how many rows there
are.

Row locks protect quotes with their events, and attempts. The ledger rows are protected by
the advisory lock on the hashed text, which two keys share when their texts collide.

A primary key refuses a second quote or attempt with the same id. The other constraints and
the row level policies of `schema.sql` can only make a statement fail, and any statement may
fail. The context row is an input: no transaction of the repository writes that table.
-/

set_option autoImplicit false

namespace CanonicalApi

open Transaction

/-- The cells. -/
inductive QuoteCell where
  | quote (id : Uuid)
  | operations (subject idempotencyKey : String)
  | events (quoteId : Uuid)
  | attempt (id : Uuid)
deriving DecidableEq

/-- What a cell holds. -/
@[reducible] def QuoteCell.Val : QuoteCell → Type
  | quote _ => Option QuoteRow
  | operations _ _ => List StoredOperation
  | events _ => List EventRow
  | attempt _ => Option AttemptRow

/-- The locks. -/
inductive QuoteLock where
  | advisory (hash : Int)
  | quote (id : Uuid)
  | attempt (id : Uuid)
deriving DecidableEq

/-- What comes from outside the tables: the active context of the subject, the time, and the
next number of the event sequence. -/
structure QuoteInput where
  context : Option CanonicalContext
  now : Int
  sequence : Int

/-- The contents of the tables. -/
abbrev QuoteDb : Type := (c : QuoteCell) → c.Val

/-- The cells that a transaction writes. -/
abbrev QuoteWrites : Type := (c : QuoteCell) → Option c.Val

namespace QuoteTables

/-- The row of a quote, if it belongs to `subject`. -/
def quoteOf (db : QuoteDb) (quoteId : Uuid) (subject : String) : Option QuoteRow :=
  (db (.quote quoteId)).filter fun row => row.id = quoteId ∧ row.ownerSubject = subject

/-- The row with the largest sequence number. -/
def latest (rows : List EventRow) : Option EventRow :=
  -- The order is named, since Mathlib has another one on the integers that does not compute.
  @List.argmax _ _ Int.instLinearOrder.toPreorder Int.decLt EventRow.sequenceId rows

/-- The row that `insertQuote` inserts. The server adds the times. -/
def insertedRow (row : QuoteInsert) (now : Int) : QuoteRow where
  id := row.quoteId
  ownerSubject := row.subject
  contextRecordId := row.contextId
  requestJson := row.requestJson
  applicationContextMarkdown := row.applicationMarkdown
  contextSnapshotMarkdown := row.contextMarkdown
  contextSnapshotJson := row.contextJson
  geminiModel := row.geminiModel
  status := row.status
  analysisJson := none
  errorCode := none
  createdAt := now
  updatedAt := now

/-- The statements that update a quote: `change` is applied to the row that matches. -/
def updateRow (db : QuoteDb) (quoteId : Uuid) (subject : String) (now : Int)
    (change : QuoteRow → QuoteRow) : Option Int × QuoteWrites :=
  match quoteOf db quoteId subject with
  | some row =>
      (some now, writeCell (.quote quoteId) (some { change row with updatedAt := now }))
  | none => (none, writeNothing)

/-- The row as a retry leaves it. -/
def requeued (row : QuoteRow) : QuoteRow :=
  { row with status := "queued", analysisJson := none, errorCode := none }

/-- The row as a worker leaves it. -/
def updated (status : String) (analysis : Option JsonValue) (errorCode : Option String)
    (row : QuoteRow) : QuoteRow :=
  { row with status, analysisJson := analysis, errorCode }

variable [Postgres]

/-- The statements, with what they return and write on the tables they see. `none` is an error of
the server; a violated constraint is one, as far as a property depends on it. -/
def run : (s : QuoteStmt) → QuoteInput → QuoteDb → Option (QuoteReply s × QuoteWrites)
  | .setSubject _, _, _ => some ((), writeNothing)
  | .advisoryLock text, _, _ =>
      if Postgres.acceptsText text = true then some ((), writeNothing) else none
  | .selectOperation subject key, _, db => some ((db (.operations subject key)).head?, writeNothing)
  | .selectContext _, input, _ => some (input.context, writeNothing)
  | .insertQuote row, input, db =>
      match db (.quote row.quoteId) with
      | some _ => none
      | none =>
          some (some (input.now, input.now),
            writeCell (.quote row.quoteId) (some (insertedRow row input.now)))
  | .insertOperation subject key row, _, db =>
      some ((), writeCell (.operations subject key) (db (.operations subject key) ++ [row]))
  | .insertEvent quoteId ownerSubject status detailsJson, input, db =>
      let row : EventRow := {
        sequenceId := input.sequence
        quoteId, ownerSubject, status, detailsJson
        createdAt := input.now }
      some (some row, writeCell (.events quoteId) (db (.events quoteId) ++ [row]))
  | .selectQuote quoteId subject _, _, db => some (quoteOf db quoteId subject, writeNothing)
  | .requeueQuote quoteId subject, input, db =>
      some (updateRow db quoteId subject input.now requeued)
  | .updateQuote quoteId ownerSubject status analysis errorCode, input, db =>
      some (updateRow db quoteId ownerSubject input.now (updated status analysis errorCode))
  | .selectLatestEvent quoteId subject, _, db =>
      let rows := (db (.events quoteId)).filter fun row =>
        row.quoteId = quoteId ∧ row.ownerSubject = subject
      some (latest rows, writeNothing)
  | .insertAttempt attemptId quoteId ownerSubject model, _, db =>
      match db (.attempt attemptId) with
      | some _ => none
      | none =>
          some ((), writeCell (.attempt attemptId) (some {
            id := attemptId, quoteId, ownerSubject, model
            status := "started", errorCode := none, finishedAt := none }))
  | .finishAttempt attemptId quoteId ownerSubject status errorCode, input, db =>
      match db (.attempt attemptId) with
      | some row =>
          if row.id = attemptId ∧ row.quoteId = quoteId ∧ row.ownerSubject = ownerSubject ∧
              row.status = "started" then
            some (1, writeCell (.attempt attemptId) (some { row with
              status, errorCode, finishedAt := some input.now }))
          else some (0, writeNothing)
      | none => some (0, writeNothing)

/-- The lock that protects a cell. -/
def guard : QuoteCell → QuoteLock
  | .quote id => .quote id
  | .operations subject key => .advisory (Postgres.hashText (idempotencyLockText subject key))
  | .events quoteId => .quote quoteId
  | .attempt id => .attempt id

/-- The lock that a statement takes. An update and a `FOR UPDATE` lock the row that matched, and an
insert the key that it inserts, so that a second insert of it waits. -/
def lock : (s : QuoteStmt) → QuoteReply s → Option QuoteLock
  | .advisoryLock text, _ => some (.advisory (Postgres.hashText text))
  | .insertQuote row, _ => some (.quote row.quoteId)
  | .selectQuote quoteId _ true, some _ => some (.quote quoteId)
  | .requeueQuote quoteId _, some _ => some (.quote quoteId)
  | .updateQuote quoteId _ _ _ _, some _ => some (.quote quoteId)
  | .insertAttempt attemptId _ _ _, _ => some (.attempt attemptId)
  | .finishAttempt attemptId _ _ _ _, 1 => some (.attempt attemptId)
  | _, _ => none

/-- The replies that are read without a lock: plain selects, and statements that found no
row. -/
def loose : (s : QuoteStmt) → QuoteReply s → Bool
  | .selectQuote _ _ false, _ => true
  | .selectQuote _ _ true, none => true
  | .requeueQuote _ _, none => true
  | .updateQuote _ _ _ _ _, none => true
  | .selectLatestEvent _ _, _ => true
  | .finishAttempt _ _ _ _ _, n => n ≠ 1
  | _, _ => false

end QuoteTables

/-- The quote tables as a store. The ledger of a key is guarded by the advisory lock of the key, a
quote and its events by the lock of the row. -/
@[reducible] def quoteEngine [Postgres] : Engine QuoteStmt QuoteReply where
  Cell := QuoteCell
  Val := QuoteCell.Val
  Lock := QuoteLock
  decLock := inferInstance
  Input := QuoteInput
  guard := QuoteTables.guard
  lock := QuoteTables.lock
  loose := QuoteTables.loose
  run := QuoteTables.run

/-- Empty tables. -/
def emptyTables : QuoteDb
  | .quote _ => none
  | .operations _ _ => []
  | .events _ => []
  | .attempt _ => none

end CanonicalApi
