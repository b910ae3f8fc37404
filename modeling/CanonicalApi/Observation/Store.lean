import CanonicalApi.Lib.Transaction
import CanonicalApi.Observation.Digest
import CanonicalApi.Observation.Keys
import Mathlib.Data.List.MinMax

/-!
# `CanonicalApi.Observation.Store`: storing an observation in PostgreSQL

`storeDatabase` as a transaction program, and the table `canonical_readiness_observation` as a
store with one cell for each owner subject and source. A cell is a list of rows, in the order
of their insertion. The columns `owner_subject` and `source_id` are the name of the cell.

The advisory lock of a stream protects its cell. The keys and checks of the table are left
out: they can only make the insert fail, and any statement may fail. What is proved about the
rows therefore rests on the transaction alone.

`locked_storeDatabase` says that the transaction takes the lock before it reads the stream.
-/

set_option autoImplicit false

namespace CanonicalApi

open Transaction Transaction.Engine
open Outcome (okOr)

/-! ### The transaction -/

/-- A row of `canonical_readiness_observation`. Times are in microseconds, which is the precision of
the column type. -/
structure ObservationRow where
  eventId : String
  sourceSequence : Int64
  organization : String
  observedAt : Int
  payloadSha256 : String
  priorRecordSha256 : String
  recordSha256 : String
  receiptId : String
  keyId : String
  eventJson : JsonValue
  rawBodyOctets : Nat
  receivedAt : Int
deriving DecidableEq

/-- The parameters of the insert. The two times are texts that the server casts, and the cast can
fail. -/
structure ObservationInsert where
  ownerSubject : String
  sourceId : String
  eventId : String
  sourceSequence : Int64
  organization : String
  observedAt : String
  payloadSha256 : String
  priorRecordSha256 : String
  recordSha256 : String
  receiptId : String
  keyId : String
  eventJson : JsonValue
  rawBodyOctets : Nat
  receivedAt : String
deriving DecidableEq

/-- The statements of `store_database`. -/
inductive ObservationStmt where
  | setSubject (subject : String)
  | advisoryLock (text : String)
  | selectEvent (ownerSubject sourceId eventId : String)
  | selectCursor (ownerSubject sourceId : String)
  | insertObservation (row : ObservationInsert)
deriving DecidableEq

/-- What a statement returns. -/
@[reducible] def ObservationReply : ObservationStmt → Type
  | .setSubject _ => Unit
  | .advisoryLock _ => Unit
  | .selectEvent _ _ _ => Option ObservationRow
  | .selectCursor _ _ => Option ObservationRow
  | .insertObservation _ => Unit

/-- A transaction on observations. -/
abbrev ObservationTx (α : Type) : Type := Program ObservationReply IngestError α

/-- `ReceiptIdentity`. -/
structure ReceiptIdentity where
  receiptId : String
  receivedAt : String
deriving DecidableEq, Repr

/-- `StorageOutcome`. -/
structure StorageOutcome where
  duplicate : Bool
  receiptId : String
  receivedAt : String
deriving DecidableEq, Repr

/-- The text that `store_database` locks on. The source text has a backslash and a zero. -/
def readinessLockText (ownerSubject sourceId : String) : String :=
  "readiness\\0" ++ ownerSubject ++ "\\0" ++ sourceId

/-- `i64::checked_add` of one. -/
def checkedSucc (n : Int64) : Option Int64 :=
  if n.toInt + 1 < 2 ^ 63 then some (n + 1) else none

/-- The sequence number and the digest that the next row of a stream refers to. -/
def priorOf (cursor : Option ObservationRow) : Int64 × String :=
  match cursor with
  | some row => (row.sourceSequence, row.recordSha256)
  | none => (0, zeroRecordDigest)

section

variable [CryptoCrates] [Postgres]

/-- `store_database`, after the event id was not found. The cursor is the last row of the stream.
The advisory lock is held, so no other transaction appends to the stream in between. -/
def storeFresh (transport : VerifiedTransport) (event : ObservationEvent)
    (payloadSha256 : String) (bodyLen : Nat) (candidate : ReceiptIdentity) :
    ObservationTx StorageOutcome := do
  let cursor ← Program.stmt (ObservationStmt.selectCursor transport.ownerSubject event.sourceId)
  let prior := priorOf cursor
  let expected ← Program.ofExcept (okOr .sequenceConflict (checkedSucc prior.1))
  if event.sourceSequence ≠ expected then
    .rollback .sequenceConflict
  else if bodyLen ≥ 2 ^ 63 then
    .rollback .bodyTooLarge
  else do
    Program.stmt (ObservationStmt.insertObservation {
      ownerSubject := transport.ownerSubject
      sourceId := event.sourceId
      eventId := event.eventId
      sourceSequence := event.sourceSequence
      organization := event.organization
      observedAt := event.observedAt
      payloadSha256
      priorRecordSha256 := prior.2
      recordSha256 := recordDigest prior.2 payloadSha256 event.eventId event.sourceSequence
      receiptId := candidate.receiptId
      keyId := transport.keyId
      eventJson := event.toValue
      rawBodyOctets := bodyLen
      receivedAt := candidate.receivedAt })
    return { duplicate := false
             receiptId := candidate.receiptId
             receivedAt := candidate.receivedAt }

/-- `store_database`. The advisory lock of the stream comes before the first look at the table, so
the lookup and the insert are safe from other calls. -/
def storeDatabase (transport : VerifiedTransport) (event : ObservationEvent)
    (payloadSha256 : String) (bodyLen : Nat) (candidate : ReceiptIdentity) :
    ObservationTx StorageOutcome := do
  Program.stmt (ObservationStmt.setSubject transport.ownerSubject)
  Program.stmt (ObservationStmt.advisoryLock
    (readinessLockText transport.ownerSubject event.sourceId))
  let existing ← Program.stmt
    (ObservationStmt.selectEvent transport.ownerSubject event.sourceId event.eventId)
  match existing with
  | some row =>
      if row.payloadSha256 = payloadSha256 ∧ row.sourceSequence = event.sourceSequence then
        return { duplicate := true
                 receiptId := row.receiptId
                 receivedAt := Postgres.toChar row.receivedAt }
      else .rollback .eventConflict
  | none => storeFresh transport event payloadSha256 bodyLen candidate

end

/-! ### The table -/

/-- A stream: an owner subject and a source. -/
structure ObservationCell where
  ownerSubject : String
  sourceId : String
deriving DecidableEq

/-- The contents of the table. -/
abbrev ObservationDb : Type := ObservationCell → List ObservationRow

/-- The streams that a transaction writes. -/
abbrev ObservationWrites : Type := ObservationCell → Option (List ObservationRow)

namespace ObservationTable

/-- The row with the largest sequence number. -/
def cursor (rows : List ObservationRow) : Option ObservationRow :=
  -- The order is named, since Mathlib has another one on the integers that does not compute.
  @List.argmax _ _ Int.instLinearOrder.toPreorder Int.decLt
    (fun row => row.sourceSequence.toInt) rows

variable [Postgres]

/-- The row that an insert appends, when the server can cast both times; otherwise the statement
fails. -/
def insertedRow (row : ObservationInsert) : Option ObservationRow := do
  let observedAt ← Postgres.timestamptz row.observedAt
  let receivedAt ← Postgres.timestamptz row.receivedAt
  return {
    eventId := row.eventId
    sourceSequence := row.sourceSequence
    organization := row.organization
    observedAt
    payloadSha256 := row.payloadSha256
    priorRecordSha256 := row.priorRecordSha256
    recordSha256 := row.recordSha256
    receiptId := row.receiptId
    keyId := row.keyId
    eventJson := row.eventJson
    rawBodyOctets := row.rawBodyOctets
    receivedAt }

/-- The statements, with what they return and write. `none` is an error of the server: a lock text
that is no text for PostgreSQL, or a time that it cannot cast. -/
def run : (s : ObservationStmt) → Unit → ObservationDb →
    Option (ObservationReply s × ObservationWrites)
  | .setSubject _, _, _ => some ((), writeNothing)
  | .advisoryLock text, _, _ =>
      if Postgres.acceptsText text = true then some ((), writeNothing) else none
  | .selectEvent ownerSubject sourceId eventId, _, db =>
      some ((db ⟨ownerSubject, sourceId⟩).find? fun row => row.eventId = eventId, writeNothing)
  | .selectCursor ownerSubject sourceId, _, db =>
      some (cursor (db ⟨ownerSubject, sourceId⟩), writeNothing)
  | .insertObservation row, _, db =>
      match insertedRow row with
      | some stored =>
          let c : ObservationCell := ⟨row.ownerSubject, row.sourceId⟩
          some ((), writeCell c (db c ++ [stored]))
      | none => none

/-- The lock that protects a stream: the hash of its lock text. -/
def guard (c : ObservationCell) : Int :=
  Postgres.hashText (readinessLockText c.ownerSubject c.sourceId)

/-- The lock that a statement takes. -/
def lock : (s : ObservationStmt) → ObservationReply s → Option Int
  | .advisoryLock text, _ => some (Postgres.hashText text)
  | _, _ => none

end ObservationTable

/-- The table as a store. A stream is one cell, guarded by the advisory lock of the stream, and no
statement draws anything from outside. -/
@[reducible] def observationEngine [Postgres] : Engine ObservationStmt ObservationReply where
  Cell := ObservationCell
  Val _ := List ObservationRow
  Lock := Int
  decLock := inferInstance
  Input := Unit
  guard := ObservationTable.guard
  lock := ObservationTable.lock
  loose _ _ := false
  run := ObservationTable.run

/-! ### Execution and the lock discipline -/

section

variable [Postgres] {held : Int → Prop}

/-- One statement of the transaction sees the table as the transaction left it. -/
theorem observation_runs_stmt {α : Type} {s : ObservationStmt}
    {f : ObservationReply s → ObservationTx α} {db db' : ObservationDb}
    {res : Except IngestError α}
    (h : observationEngine.Runs db (.stmt s >>= f) res db') :
    ∃ r w, ObservationTable.run s () db = some (r, w) ∧
      observationEngine.Runs (observationEngine.overlay w db) (f r) res db' := by
  obtain ⟨i, v, r, w, hrun, hv, hrest⟩ := (observationEngine.runs_stmt_bind_iff _ _ _ _ _).mp h
  rcases hv with rfl | hv
  · exact ⟨r, w, hrun, hrest⟩
  · cases hv

/-- To set the subject needs no lock. -/
theorem covered_setSubjectObservation (subject : String) (r : Unit) :
    observationEngine.Covered held (.setSubject subject) r := by
  refine .inr (observationEngine.settled_of_constant (fun _ _ _ => rfl) ?_)
  intro i v w₁ hrun
  cases hrun
  rfl

/-- To take the advisory lock needs no lock before. -/
theorem covered_advisoryLockObservation (text : String) (r : Unit) :
    observationEngine.Covered held (.advisoryLock text) r := by
  refine .inr (observationEngine.settled_of_constant (fun _ _ _ => rfl) ?_)
  intro i v w₁ hrun
  simp only [ObservationTable.run] at hrun
  split at hrun
  · cases hrun
    rfl
  · cases hrun

/-- The lookup of an event is covered by the advisory lock of its stream. -/
theorem covered_selectEvent {ownerSubject sourceId : String} (eventId : String)
    (r : Option ObservationRow)
    (h : held (Postgres.hashText (readinessLockText ownerSubject sourceId))) :
    observationEngine.Covered held (.selectEvent ownerSubject sourceId eventId) r := by
  refine .inr (observationEngine.settled_of_cell ⟨ownerSubject, sourceId⟩ (.inl h) ?_ ?_)
  · intro i v v' hv
    simp only [ObservationTable.run, hv]
  · intro i v r w₁ hrun c hc
    cases hrun
    exact absurd rfl hc

/-- The lookup of the last record is covered by the advisory lock of its stream. -/
theorem covered_selectCursor {ownerSubject sourceId : String} (r : Option ObservationRow)
    (h : held (Postgres.hashText (readinessLockText ownerSubject sourceId))) :
    observationEngine.Covered held (.selectCursor ownerSubject sourceId) r := by
  refine .inr (observationEngine.settled_of_cell ⟨ownerSubject, sourceId⟩ (.inl h) ?_ ?_)
  · intro i v v' hv
    simp only [ObservationTable.run, hv]
  · intro i v r w₁ hrun c hc
    cases hrun
    exact absurd rfl hc

/-- The insert is covered by the advisory lock of its stream. -/
theorem covered_insertObservation {row : ObservationInsert} (r : Unit)
    (h : held (Postgres.hashText (readinessLockText row.ownerSubject row.sourceId))) :
    observationEngine.Covered held (.insertObservation row) r := by
  refine .inr (observationEngine.settled_of_cell ⟨row.ownerSubject, row.sourceId⟩ (.inl h)
    ?_ ?_)
  · intro i v v' hv
    simp only [ObservationTable.run, hv]
  · intro i v r w₁ hrun c hc
    simp only [ObservationTable.run] at hrun
    split at hrun
    · cases hrun
      exact eq_of_writeCell_ne_none hc
    · cases hrun

variable [CryptoCrates]

/-- The transaction takes the lock of its stream before it reads or writes the stream. -/
theorem locked_storeDatabase (transport : VerifiedTransport) (event : ObservationEvent)
    (payloadSha256 : String) (bodyLen : Nat) (candidate : ReceiptIdentity) :
    observationEngine.Locked held
      (storeDatabase transport event payloadSha256 bodyLen candidate) := by
  refine observationEngine.locked_stmt_bind
    (fun r => covered_setSubjectObservation _ r) fun _ _ => ?_
  refine observationEngine.locked_stmt_bind
    (fun r => covered_advisoryLockObservation _ r) fun _ _ => ?_
  refine observationEngine.locked_stmt_bind
    (fun r => covered_selectEvent _ r (.inr rfl)) fun existing _ => ?_
  cases existing with
  | some row =>
    dsimp only
    split
    · exact trivial
    · exact trivial
  | none =>
    refine observationEngine.locked_stmt_bind
      (fun r => covered_selectCursor r (.inl (.inr rfl))) fun cursor _ => ?_
    refine observationEngine.locked_bind (observationEngine.locked_ofExcept _) fun expected => ?_
    split
    · exact trivial
    · split
      · exact trivial
      · refine observationEngine.locked_stmt_bind
          (fun r => covered_insertObservation r (.inl (.inl (.inr rfl)))) fun _ _ => ?_
        exact trivial

end

end CanonicalApi
