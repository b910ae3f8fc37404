import CanonicalApi.Quote.Tables

/-!
# `CanonicalApi.Quote.Effects`: what the quote transactions do

For each statement of the quote tables a rule that goes past it, and for each transaction of
`persistence.rs` a `_cases` lemma with everything that the transaction can do. A transaction
that succeeds changes the tables in one of two ways: `progress` replaces a quote row and
appends its event, and `accept` also appends a ledger row.

The later invariants use only the `_cases` lemmas.
-/

set_option autoImplicit false

namespace CanonicalApi

open Transaction

namespace QuoteTables

/-- The tables after a quote row was written, with its event. -/
def progress (db : QuoteDb) (row : QuoteRow) (event : EventRow) : QuoteDb :=
  Function.update (Function.update db (.quote row.id) (some row)) (.events row.id)
    (db (.events row.id) ++ [event])

/-- The tables after a mutation was accepted: the quote row with its event, and a ledger
row. -/
def accept (db : QuoteDb) (subject idempotencyKey : String) (row : QuoteRow)
    (operation : StoredOperation) (event : EventRow) : QuoteDb :=
  Function.update (progress db row event) (.operations subject idempotencyKey)
    (db (.operations subject idempotencyKey) ++ [operation])

section

variable (db : QuoteDb) (subject idempotencyKey : String) (row : QuoteRow)
  (operation : StoredOperation) (event : EventRow)

/-- The two writes of an update, one after the other, are one progress of the quote. -/
theorem progress_of_writes {id : Uuid} (hid : row.id = id) :
    Function.update (Function.update db (.quote id) (some row)) (.events id)
      (db (.events id) ++ [event]) = progress db row event := by
  rw [progress, hid]

/-- The quote has the new row. -/
@[simp] theorem progress_quote_self : progress db row event (.quote row.id) = some row := by
  simp [progress]

/-- Other quotes keep their rows. -/
theorem progress_quote_of_ne {id : Uuid} (h : id ≠ row.id) :
    progress db row event (.quote id) = db (.quote id) := by
  simp [progress, h]

/-- The ledger stays as it is. -/
@[simp] theorem progress_operations (s k : String) :
    progress db row event (.operations s k) = db (.operations s k) := by
  simp [progress]

/-- The attempts stay as they are. -/
@[simp] theorem progress_attempt (id : Uuid) :
    progress db row event (.attempt id) = db (.attempt id) := by
  simp [progress]

/-- The transactions write the ledger row before the event. -/
theorem accept_of_writes {id : Uuid} (hid : row.id = id) :
    Function.update
      (Function.update (Function.update db (.quote id) (some row))
        (.operations subject idempotencyKey)
        (db (.operations subject idempotencyKey) ++ [operation]))
      (.events id) (db (.events id) ++ [event]) =
    accept db subject idempotencyKey row operation event := by
  rw [accept, ← progress_of_writes db row event hid, Function.update_comm (by simp)]

/-- The acceptance of a request changes the quotes as the progress of its quote does. -/
@[simp] theorem accept_quote (id : Uuid) :
    accept db subject idempotencyKey row operation event (.quote id) =
      progress db row event (.quote id) := by
  simp [accept]

/-- The acceptance of a request leaves the attempts as they are. -/
@[simp] theorem accept_attempt (id : Uuid) :
    accept db subject idempotencyKey row operation event (.attempt id) = db (.attempt id) := by
  simp [accept]

/-- The acceptance of a request adds its row to the ledger of its pair. -/
@[simp] theorem accept_operations_self :
    accept db subject idempotencyKey row operation event (.operations subject idempotencyKey) =
      db (.operations subject idempotencyKey) ++ [operation] := by
  simp [accept]

/-- The ledgers of other pairs stay as they are. -/
theorem accept_operations_of_ne {s k : String} (h : ¬ (s = subject ∧ k = idempotencyKey)) :
    accept db subject idempotencyKey row operation event (.operations s k) =
      db (.operations s k) := by
  rw [accept, Function.update_of_ne]
  · simp
  · intro heq
    cases heq
    exact h ⟨rfl, rfl⟩

end

end QuoteTables

open QuoteTables (quoteOf insertedRow requeued updated progress accept progress_of_writes
  accept_of_writes)

/-! ### The statements -/

section

variable [Postgres] {α : Type} {db db' : QuoteDb} {res : Except StoreError α}

/-- To set the subject changes no table. -/
theorem runs_setSubject {subject : String} {f : Unit → QuoteTx α}
    (h : quoteEngine.Runs db (.stmt (QuoteStmt.setSubject subject) >>= f) res db') :
    quoteEngine.Runs db (f ()) res db' := by
  obtain ⟨i, v, r, w, hrun, -, h⟩ := h
  cases hrun
  exact h

/-- To take the advisory lock changes no table. -/
theorem runs_advisoryLock {text : String} {f : Unit → QuoteTx α}
    (h : quoteEngine.Runs db (.stmt (QuoteStmt.advisoryLock text) >>= f) res db') :
    quoteEngine.Runs db (f ()) res db' := by
  obtain ⟨i, v, r, w, hrun, -, h⟩ := h
  simp only [QuoteTables.run] at hrun
  split at hrun
  · cases hrun
    exact h
  · cases hrun

/-- The lookup in the ledger gives the first row of the pair. -/
theorem runs_selectOperation {subject key : String} {f : Option StoredOperation → QuoteTx α}
    (h : quoteEngine.Runs db (.stmt (QuoteStmt.selectOperation subject key) >>= f) res db') :
    quoteEngine.Runs db (f (db (.operations subject key)).head?) res db' := by
  obtain ⟨i, v, r, w, hrun, hv, h⟩ := h
  rcases hv with rfl | hv
  · cases hrun
    exact h
  · cases hv

/-- The lookup of the context gives some context or none; the tables of contexts are not written
here. -/
theorem runs_selectContext {subject : String} {f : Option CanonicalContext → QuoteTx α}
    (h : quoteEngine.Runs db (.stmt (QuoteStmt.selectContext subject) >>= f) res db') :
    ∃ context, quoteEngine.Runs db (f context) res db' := by
  obtain ⟨i, v, r, w, hrun, -, h⟩ := h
  cases hrun
  exact ⟨_, h⟩

/-- A plain select can reply with a row as it was at another time. -/
theorem runs_selectQuote {quoteId : Uuid} {subject : String} {lock : Bool}
    {f : Option QuoteRow → QuoteTx α}
    (h : quoteEngine.Runs db (.stmt (QuoteStmt.selectQuote quoteId subject lock) >>= f) res
      db') :
    ∃ row, (∀ r, row = some r → r.id = quoteId ∧ r.ownerSubject = subject) ∧
      (lock = true → row = none ∨ row = quoteOf db quoteId subject) ∧
      quoteEngine.Runs db (f row) res db' := by
  obtain ⟨i, v, r, w, hrun, hv, h⟩ := h
  cases hrun
  refine ⟨_, ?_, ?_, h⟩
  · intro row hrow
    exact of_decide_eq_true (Option.filter_eq_some_iff.mp hrow).2
  · rintro rfl
    rcases hv with rfl | hv
    · exact .inr rfl
    · -- A loose reply of `FOR UPDATE` is one without a row.
      cases hrow : quoteOf v quoteId subject with
      | none => exact .inl rfl
      | some row =>
        rw [hrow] at hv
        cases hv

/-- The insert of a quote that runs found its id free. -/
theorem runs_insertQuote {row : QuoteInsert} {f : Option (Int × Int) → QuoteTx α}
    (h : quoteEngine.Runs db (.stmt (QuoteStmt.insertQuote row) >>= f) res db') :
    db (.quote row.quoteId) = none ∧ ∃ now inserted, inserted = insertedRow row now ∧
      quoteEngine.Runs (Function.update db (.quote row.quoteId) (some inserted))
        (f (some (now, now))) res db' := by
  obtain ⟨i, v, r, w, hrun, hv, h⟩ := h
  rcases hv with rfl | hv
  · simp only [QuoteTables.run] at hrun
    split at hrun
    · cases hrun
    · next hnone =>
      cases hrun
      rw [quoteEngine.overlay_writeCell] at h
      exact ⟨hnone, i.now, _, rfl, h⟩
  · cases hv

/-- The insert into the ledger adds a row at the end. -/
theorem runs_insertOperation {subject key : String} {row : StoredOperation}
    {f : Unit → QuoteTx α}
    (h : quoteEngine.Runs db (.stmt (QuoteStmt.insertOperation subject key row) >>= f) res
      db') :
    quoteEngine.Runs
      (Function.update db (.operations subject key) (db (.operations subject key) ++ [row]))
      (f ()) res db' := by
  obtain ⟨i, v, r, w, hrun, hv, h⟩ := h
  rcases hv with rfl | hv
  · cases hrun
    rw [quoteEngine.overlay_writeCell] at h
    exact h
  · cases hv

/-- The insert of an event adds a row with the data of the statement. The sequence number and the
time come from the database. -/
theorem runs_insertEvent {quoteId : Uuid} {ownerSubject status : String} {details : JsonValue}
    {f : Option EventRow → QuoteTx α}
    (h : quoteEngine.Runs db
      (.stmt (QuoteStmt.insertEvent quoteId ownerSubject status details) >>= f) res db') :
    ∃ row : EventRow, row.quoteId = quoteId ∧ row.ownerSubject = ownerSubject ∧
      row.status = status ∧ row.detailsJson = details ∧
      quoteEngine.Runs
        (Function.update db (.events quoteId) (db (.events quoteId) ++ [row]))
        (f (some row)) res db' := by
  obtain ⟨i, v, r, w, hrun, hv, h⟩ := h
  rcases hv with rfl | hv
  · cases hrun
    rw [quoteEngine.overlay_writeCell] at h
    exact ⟨_, rfl, rfl, rfl, rfl, h⟩
  · cases hv

/-- Either no row matched, possibly as the table was at another time, or the row is updated. -/
theorem runs_requeueQuote {quoteId : Uuid} {subject : String} {f : Option Int → QuoteTx α}
    (h : quoteEngine.Runs db (.stmt (QuoteStmt.requeueQuote quoteId subject) >>= f) res db') :
    quoteEngine.Runs db (f none) res db' ∨ ∃ row now, quoteOf db quoteId subject = some row ∧
      quoteEngine.Runs
        (Function.update db (.quote quoteId) (some { requeued row with updatedAt := now }))
        (f (some now)) res db' := by
  obtain ⟨i, v, r, w, hrun, hv, h⟩ := h
  simp only [QuoteTables.run, QuoteTables.updateRow] at hrun
  split at hrun
  · next row hrow =>
    cases hrun
    rcases hv with rfl | hv
    · rw [quoteEngine.overlay_writeCell] at h
      exact .inr ⟨row, i.now, hrow, h⟩
    · cases hv
  · cases hrun
    exact .inl h

/-- Either no row matched, possibly as the table was at another time, or the row is updated. -/
theorem runs_updateQuote {quoteId : Uuid} {ownerSubject status : String}
    {analysis : Option JsonValue} {errorCode : Option String} {f : Option Int → QuoteTx α}
    (h : quoteEngine.Runs db
      (.stmt (QuoteStmt.updateQuote quoteId ownerSubject status analysis errorCode) >>= f) res
      db') :
    quoteEngine.Runs db (f none) res db' ∨
      ∃ row now, quoteOf db quoteId ownerSubject = some row ∧
      quoteEngine.Runs
        (Function.update db (.quote quoteId)
          (some { updated status analysis errorCode row with updatedAt := now }))
        (f (some now)) res db' := by
  obtain ⟨i, v, r, w, hrun, hv, h⟩ := h
  simp only [QuoteTables.run, QuoteTables.updateRow] at hrun
  -- The statement updates one row, or it finds none and returns nothing.
  split at hrun
  · next row hrow =>
    cases hrun
    rcases hv with rfl | hv
    · rw [quoteEngine.overlay_writeCell] at h
      exact .inr ⟨row, i.now, hrow, h⟩
    · cases hv
  · cases hrun
    exact .inl h

/-- The insert of an attempt that runs found its id free. -/
theorem runs_insertAttempt {attemptId quoteId : Uuid} {ownerSubject model : String}
    {f : Unit → QuoteTx α}
    (h : quoteEngine.Runs db
      (.stmt (QuoteStmt.insertAttempt attemptId quoteId ownerSubject model) >>= f) res db') :
    db (.attempt attemptId) = none ∧
      quoteEngine.Runs
        (Function.update db (.attempt attemptId) (some {
          id := attemptId, quoteId, ownerSubject, model
          status := "started", errorCode := none, finishedAt := none }))
        (f ()) res db' := by
  obtain ⟨i, v, r, w, hrun, hv, h⟩ := h
  rcases hv with rfl | hv
  · simp only [QuoteTables.run] at hrun
    split at hrun
    · cases hrun
    · next hnone =>
      cases hrun
      rw [quoteEngine.overlay_writeCell] at h
      exact ⟨hnone, h⟩
  · cases hv

/-- Either the started attempt of the quote is updated, or nothing is. -/
theorem runs_finishAttempt {attemptId quoteId : Uuid} {ownerSubject status : String}
    {errorCode : Option String} {f : Nat → QuoteTx α}
    (h : quoteEngine.Runs db
      (.stmt (QuoteStmt.finishAttempt attemptId quoteId ownerSubject status errorCode) >>= f)
      res db') :
    quoteEngine.Runs db (f 0) res db' ∨ ∃ row now, db (.attempt attemptId) = some row ∧
      row.id = attemptId ∧ row.quoteId = quoteId ∧ row.ownerSubject = ownerSubject ∧
      row.status = "started" ∧
      quoteEngine.Runs
        (Function.update db (.attempt attemptId)
          (some { row with status, errorCode, finishedAt := some now }))
        (f 1) res db' := by
  obtain ⟨i, v, r, w, hrun, hv, h⟩ := h
  simp only [QuoteTables.run] at hrun
  split at hrun
  · next row hrow =>
    split at hrun
    · next hmatch =>
      cases hrun
      -- The row was there, and its lock keeps it as it was read.
      rcases hv with rfl | hv
      · rw [quoteEngine.overlay_writeCell] at h
        exact .inr ⟨row, i.now, hrow, hmatch.1, hmatch.2.1, hmatch.2.2.1, hmatch.2.2.2, h⟩
      · cases hv
    · cases hrun
      exact .inl h
  · cases hrun
    exact .inl h

/-- A row that has to be there. -/
theorem runs_okOr {β : Type} {error : StoreError} {row : Option β} {f : β → QuoteTx α}
    (h : quoteEngine.Runs db (QuoteTx.okOr error row >>= f) res db') :
    (row = none ∧ res = .error error) ∨
      ∃ b, row = some b ∧ quoteEngine.Runs db (f b) res db' := by
  cases row with
  | none => exact .inl ⟨rfl, h.1⟩
  | some b => exact .inr ⟨b, rfl, h⟩

end

/-! ### The transactions -/

section

variable [CanonicalLib] [Postgres] {α : Type} {db db' : QuoteDb}

/-- The event row of a record. -/
structure EventOf (record : QuoteRecord) (row : EventRow) : Prop where
  quoteId : row.quoteId = record.quoteId
  ownerSubject : row.ownerSubject = record.ownerSubject
  status : row.status = record.status
  details : row.detailsJson = eventDetails record

/-- `insert_event` appends the event of the record, and goes on with its public form. -/
theorem runs_insertEventOf {record : QuoteRecord} {f : QuoteEventRecord → QuoteTx α}
    {res : Except StoreError α}
    (h : quoteEngine.Runs db (insertEvent record >>= f) res db') :
    (∃ e, res = .error e) ∨ ∃ row event, EventOf record row ∧ eventFromRow row = .ok event ∧
      quoteEngine.Runs
        (Function.update db (.events record.quoteId) (db (.events record.quoteId) ++ [row]))
        (f event) res db' := by
  rcases (quoteEngine.runs_bind_iff _ _ _ _ _).mp h with ⟨e, -, hres⟩ | ⟨event, db₁, hevent, hf⟩
  · exact .inl ⟨e, hres⟩
  obtain ⟨row, h1, h2, h3, h4, hrest⟩ := runs_insertEvent hevent
  rcases runs_okOr hrest with ⟨hnone, -⟩ | ⟨row', hrow, hrest⟩
  · cases hnone
  cases hrow
  cases hparse : eventFromRow row with
  | error e =>
    rw [hparse] at hrest
    cases hrest.1
  | ok event' =>
    rw [hparse] at hrest
    obtain ⟨hev, rfl⟩ := hrest
    cases hev
    exact .inr ⟨row, event, ⟨h1, h2, h3, h4⟩, hparse, hf⟩

/-- The record of a row carries the columns of the row. -/
theorem quoteFromRow_cases {row : QuoteRow} {record : QuoteRecord}
    (h : quoteFromRow row = .ok record) :
    record.quoteId = row.id ∧ record.ownerSubject = row.ownerSubject ∧
      record.status = row.status ∧ record.analysis = row.analysisJson ∧
      record.errorCode = row.errorCode ∧ record.request.toValue = row.requestJson := by
  obtain ⟨request, hrequest, h⟩ := (Outcome.bind_eq_ok_iff _ _ _).mp h
  obtain ⟨-, h⟩ := (Outcome.ite_error_eq_ok_iff _ _ _ _).mp h
  cases h
  refine ⟨rfl, rfl, rfl, rfl, rfl, ?_⟩
  rw [Outcome.okOr_eq_ok_iff, QuoteRequest.fromValue] at hrequest
  split at hrequest
  · cases hrequest
    rfl
  · cases hrequest

/-- A row that can be read back as a record. -/
def ReadableRow (row : QuoteRow) : Prop := Outcome.Succeeds (quoteFromRow row)

/-- A row can be read back when its request decodes and its status is known. -/
theorem readableRow_iff (row : QuoteRow) :
    ReadableRow row ↔ (∃ request, QuoteRequest.fromValue row.requestJson = some request) ∧
      row.status ∈ ["queued", "analyzing", "completed", "failed"] := by
  rw [ReadableRow, quoteFromRow, Outcome.succeeds_bind_iff]
  simp only [Outcome.okOr_eq_ok_iff, Outcome.succeeds_ite_error_iff, Outcome.succeeds_ok,
    not_not, and_true, exists_and_right]

/-- `get_quote_in_transaction` changes nothing and finds only a record with this id. -/
theorem runs_getQuoteInTransaction {subject : String} {quoteId : Uuid}
    {f : QuoteRecord → QuoteTx α} {res : Except StoreError α}
    (h : quoteEngine.Runs db (getQuoteInTransaction subject quoteId >>= f) res db') :
    (∃ e, res = .error e) ∨ ∃ record : QuoteRecord, record.quoteId = quoteId ∧
      record.ownerSubject = subject ∧ quoteEngine.Runs db (f record) res db' := by
  rcases (quoteEngine.runs_bind_iff _ _ _ _ _).mp h with ⟨e, -, hres⟩ | ⟨record, db₁, hget, hf⟩
  · exact .inl ⟨e, hres⟩
  obtain ⟨row?, hmatch, -, hrest⟩ := runs_selectQuote hget
  rcases runs_okOr hrest with ⟨-, hres⟩ | ⟨row, hrow, hrest⟩
  · cases hres
  cases hparse : quoteFromRow row with
  | error e =>
    rw [hparse] at hrest
    cases hrest.1
  | ok record' =>
    rw [hparse] at hrest
    obtain ⟨hrec, rfl⟩ := hrest
    cases hrec
    obtain ⟨hid, howner, -⟩ := quoteFromRow_cases hparse
    obtain ⟨hid', howner'⟩ := hmatch row hrow
    exact .inr ⟨record, hid.trans hid', howner.trans howner', hf⟩

/-- The ledger row belongs to a create with this request. -/
def StoredOperation.IsCreate (operation : StoredOperation) (request : AcceptedQuoteRequest) :
    Prop :=
  operation.operation = "create" ∧ operation.requestJson = some request.wire.toValue

/-- The ledger row belongs to a retry of this quote. -/
def StoredOperation.IsRetry (operation : StoredOperation) (quoteId : Uuid) : Prop :=
  operation.operation = "retry" ∧ operation.quoteId = quoteId

/-- The row that a create inserts, as far as later proofs need it. The context of the row is left
out. -/
structure RowOf (request : AcceptedQuoteRequest) (record : QuoteRecord) (subject : String)
    (row : QuoteRow) : Prop where
  request : row.requestJson = request.wire.toValue
  id : row.id = record.quoteId
  ownerSubject : row.ownerSubject = subject
  status : row.status = record.status
  analysis : row.analysisJson = none
  errorCode : row.errorCode = none

/-- A create without a ledger row either fails, or inserts the quote with its ledger row and
its event. -/
theorem createQuoteFresh_cases {subject key : String} {request : AcceptedQuoteRequest}
    {record : QuoteRecord} {res : Except StoreError CreateQuoteOutcome}
    (h : quoteEngine.Runs db (createQuoteFresh subject key request record) res db') :
    (∃ e, res = .error e) ∨ ∃ context event found row eventRow,
      res = .ok (.created context event found) ∧
      found.quoteId = record.quoteId ∧ found.ownerSubject = record.ownerSubject ∧
      found.status = record.status ∧
      db (.quote record.quoteId) = none ∧
      RowOf request record subject row ∧ EventOf found eventRow ∧
      db' = accept db subject key row
        ⟨"create", record.quoteId, some request.wire.toValue⟩ eventRow := by
  obtain ⟨context?, h⟩ := runs_selectContext h
  -- Each statement may end the transaction with an error; the next goes on from its reply.
  rcases runs_okOr h with ⟨-, hres⟩ | ⟨context, -, h⟩
  · exact .inl ⟨_, hres⟩
  rcases (quoteEngine.runs_ofExcept_bind_iff _ _ _ _ _).mp h with ⟨e, -, hres, -⟩ | ⟨u, -, h⟩
  · exact .inl ⟨e, hres⟩
  obtain ⟨hnone, now, row, hinserted, h⟩ := runs_insertQuote h
  rcases runs_okOr h with ⟨-, hres⟩ | ⟨inserted, -, h⟩
  · exact .inl ⟨_, hres⟩
  have h := runs_insertOperation h
  rcases runs_insertEventOf h with ⟨e, hres⟩ | ⟨eventRow, event, hevent, -, h⟩
  · exact .inl ⟨e, hres⟩
  obtain ⟨rfl, rfl⟩ := h
  -- The inserted row carries the request and the record.
  have hrow : RowOf request record subject row := by
    subst hinserted
    exact ⟨rfl, rfl, rfl, rfl, rfl, rfl⟩
  refine .inr ⟨context, event, _, row, eventRow, rfl, rfl, rfl, rfl, hnone, hrow, hevent, ?_⟩
  rw [← accept_of_writes db subject key row _ eventRow hrow.id]
  simp

/-- What `create_quote` does: it fails, or finds its own earlier row, or inserts. A ledger row
of something else makes it fail with `IdempotencyKeyReused`. -/
theorem createQuote_cases {subject key : String} {request : AcceptedQuoteRequest}
    {record : QuoteRecord} {res : Except StoreError CreateQuoteOutcome}
    (h : quoteEngine.Runs db (createQuote subject key request record) res db') :
    (∃ e, res = .error e ∧ ∀ operation,
      (db (.operations subject key)).head? = some operation → ¬ operation.IsCreate request →
        e = .idempotencyKeyReused) ∨
    (∃ operation found, (db (.operations subject key)).head? = some operation ∧
      operation.IsCreate request ∧ found.quoteId = operation.quoteId ∧
      found.ownerSubject = subject ∧ res = .ok (.existing found) ∧ db' = db) ∨
    ∃ context event found row eventRow,
      db (.operations subject key) = [] ∧
      res = .ok (.created context event found) ∧
      found.quoteId = record.quoteId ∧ found.ownerSubject = record.ownerSubject ∧
      found.status = record.status ∧
      db (.quote record.quoteId) = none ∧
      RowOf request record subject row ∧ EventOf found eventRow ∧
      db' = accept db subject key row
        ⟨"create", record.quoteId, some request.wire.toValue⟩ eventRow := by
  have h := runs_selectOperation (runs_advisoryLock (runs_setSubject h))
  -- The ledger entry of the key, if there is one, decides between replay, conflict and a new quote.
  cases hhead : (db (.operations subject key)).head? with
  | none =>
    rw [hhead] at h
    rcases createQuoteFresh_cases h with ⟨e, hres⟩ | ⟨context, event, found, row, eventRow, h⟩
    · exact .inl ⟨e, hres, fun _ hsome => nomatch hsome⟩
    · exact .inr (.inr ⟨context, event, found, row, eventRow, List.head?_eq_none_iff.mp hhead, h⟩)
  | some operation =>
    rw [hhead] at h
    -- An entry of another operation or payload is a conflict.
    by_cases hcond : operation.operation ≠ "create" ∨
        operation.requestJson ≠ some request.wire.toValue
    · simp only [if_pos hcond] at h
      exact .inl ⟨_, h.1, fun _ _ _ => rfl⟩
    · simp only [if_neg hcond] at h
      rw [not_or, not_not, not_not] at hcond
      rcases runs_getQuoteInTransaction h with ⟨e, hres⟩ | ⟨found, hid, howner, hres, hdb⟩
      · refine .inl ⟨e, hres, fun operation' hsome hnot => ?_⟩
        cases hsome
        exact absurd hcond hnot
      · exact .inr (.inl ⟨operation, found, rfl, hcond, hid, howner, hres, hdb⟩)

/-- A retry without a ledger row either fails, or puts a failed quote back into the queue. -/
theorem retryQuoteFresh_cases {subject key : String} {quoteId : Uuid}
    {res : Except StoreError RetryQuoteOutcome}
    (h : quoteEngine.Runs db (retryQuoteFresh subject quoteId key) res db') :
    (∃ e, res = .error e) ∨ ∃ context event found row now eventRow,
      res = .ok (.retried context event found) ∧
      found.quoteId = quoteId ∧ found.ownerSubject = subject ∧ found.status = "queued" ∧
      quoteOf db quoteId subject = some row ∧ row.status = "failed" ∧ ReadableRow row ∧
      EventOf found eventRow ∧
      db' = accept db subject key { requeued row with updatedAt := now }
        ⟨"retry", quoteId, none⟩ eventRow := by
  -- The row is locked and read under its owner.
  obtain ⟨row?, hmatch, hlock, hselect⟩ := runs_selectQuote h
  rcases runs_okOr hselect with ⟨-, hres⟩ | ⟨row, hrow, h⟩
  · exact .inl ⟨_, hres⟩
  subst hrow
  have hquote : quoteOf db quoteId subject = some row := by
    rcases hlock rfl with hnone | hsome
    · cases hnone
    · exact hsome.symm
  obtain ⟨hrowid, hrowowner⟩ := hmatch row rfl
  rcases (quoteEngine.runs_ofExcept_bind_iff _ _ _ _ _).mp h with
    ⟨e, -, hres, -⟩ | ⟨record, hparse, h⟩
  · exact .inl ⟨e, hres⟩
  obtain ⟨hid, howner, hstatus, -⟩ := quoteFromRow_cases hparse
  -- Only a failed quote is queued again.
  by_cases hfailed : record.status ≠ "failed"
  · simp only [if_pos hfailed] at h
    exact .inl ⟨_, h.1⟩
  simp only [if_neg hfailed] at h
  rw [not_not] at hfailed
  rcases (quoteEngine.runs_ofExcept_bind_iff _ _ _ _ _).mp h with ⟨e, -, hres, -⟩ | ⟨u, -, h⟩
  · exact .inl ⟨e, hres⟩
  -- The update finds the row that was locked, so its `none` is the error exit.
  rcases runs_requeueQuote h with h | ⟨row', now, hrow', h⟩
  · rcases runs_okOr h with ⟨-, hres⟩ | ⟨_, hnone, -⟩
    · exact .inl ⟨_, hres⟩
    · cases hnone
  rw [hquote] at hrow'
  cases hrow'
  rcases runs_okOr h with ⟨-, hres⟩ | ⟨updated, -, h⟩
  · exact .inl ⟨_, hres⟩
  have h := runs_insertOperation h
  rcases runs_insertEventOf h with ⟨e, hres⟩ | ⟨eventRow, event, hevent, -, h⟩
  · exact .inl ⟨e, hres⟩
  obtain ⟨rfl, rfl⟩ := h
  have hrecordid : record.quoteId = quoteId := hid.trans hrowid
  refine .inr ⟨_, event, _, row, now, eventRow, rfl, hrecordid, howner.trans hrowowner, rfl,
    hquote, hstatus.symm.trans hfailed, ⟨record, hparse⟩, hevent, ?_⟩
  subst hrecordid
  -- The three writes together are one acceptance.
  have hwrites := accept_of_writes db subject key { requeued row with updatedAt := now }
    ⟨"retry", record.quoteId, none⟩ eventRow hrowid
  rw [← hwrites]
  simp

/-- What `retry_quote` does: it fails, or finds its own earlier row, or puts a failed quote
back into the queue. A ledger row of something else makes it fail with
`IdempotencyKeyReused`. -/
theorem retryQuote_cases {subject key : String} {quoteId : Uuid}
    {res : Except StoreError RetryQuoteOutcome}
    (h : quoteEngine.Runs db (retryQuote subject quoteId key) res db') :
    (∃ e, res = .error e ∧ ∀ operation,
      (db (.operations subject key)).head? = some operation → ¬ operation.IsRetry quoteId →
        e = .idempotencyKeyReused) ∨
    (∃ operation found, (db (.operations subject key)).head? = some operation ∧
      operation.IsRetry quoteId ∧ found.quoteId = operation.quoteId ∧
      found.ownerSubject = subject ∧ res = .ok (.existing found) ∧ db' = db) ∨
    ∃ context event found row now eventRow,
      db (.operations subject key) = [] ∧
      res = .ok (.retried context event found) ∧
      found.quoteId = quoteId ∧ found.ownerSubject = subject ∧ found.status = "queued" ∧
      quoteOf db quoteId subject = some row ∧ row.status = "failed" ∧ ReadableRow row ∧
      EventOf found eventRow ∧
      db' = accept db subject key { requeued row with updatedAt := now }
        ⟨"retry", quoteId, none⟩ eventRow := by
  have h := runs_selectOperation (runs_advisoryLock (runs_setSubject h))
  -- As for a create, the ledger entry of the key decides.
  cases hhead : (db (.operations subject key)).head? with
  | none =>
    rw [hhead] at h
    rcases retryQuoteFresh_cases h with ⟨e, hres⟩ | ⟨context, event, found, row, now, eventRow, h⟩
    · exact .inl ⟨e, hres, fun _ hsome => nomatch hsome⟩
    · exact .inr (.inr
        ⟨context, event, found, row, now, eventRow, List.head?_eq_none_iff.mp hhead, h⟩)
  | some operation =>
    rw [hhead] at h
    by_cases hcond : operation.operation ≠ "retry" ∨ operation.quoteId ≠ quoteId
    · simp only [if_pos hcond] at h
      exact .inl ⟨_, h.1, fun _ _ _ => rfl⟩
    · simp only [if_neg hcond] at h
      rw [not_or, not_not, not_not] at hcond
      rcases runs_getQuoteInTransaction h with ⟨e, hres⟩ | ⟨found, hid, howner, hres, hdb⟩
      · refine .inl ⟨e, hres, fun operation' hsome hnot => ?_⟩
        cases hsome
        exact absurd hcond hnot
      · exact .inr (.inl
          ⟨operation, found, rfl, hcond, hid.trans hcond.2.symm, howner, hres, hdb⟩)

/-- What `update_quote` does: it fails, or writes the state of the record into its row. -/
theorem updateQuote_cases {record : QuoteRecord}
    {res : Except StoreError (QuoteEventRecord × QuoteRecord)}
    (h : quoteEngine.Runs db (updateQuote record) res db') :
    (∃ e, res = .error e) ∨ ∃ event found row now eventRow,
      res = .ok (event, found) ∧
      found.quoteId = record.quoteId ∧ found.ownerSubject = record.ownerSubject ∧
      found.status = record.status ∧ found.analysis = record.analysis ∧
      found.errorCode = record.errorCode ∧
      quoteOf db record.quoteId record.ownerSubject = some row ∧
      EventOf record eventRow ∧
      db' = progress db
        { updated record.status record.analysis record.errorCode row with updatedAt := now }
        eventRow := by
  have h := runs_setSubject h
  rcases runs_updateQuote h with h | ⟨row, now, hrow, h⟩
  · rcases runs_okOr h with ⟨-, hres⟩ | ⟨_, hnone, -⟩
    · exact .inl ⟨_, hres⟩
    · cases hnone
  rcases runs_okOr h with ⟨-, hres⟩ | ⟨time, -, h⟩
  · exact .inl ⟨_, hres⟩
  rcases runs_insertEventOf h with ⟨e, hres⟩ | ⟨eventRow, event, hevent, -, h⟩
  · exact .inl ⟨e, hres⟩
  obtain ⟨rfl, rfl⟩ := h
  -- The row was selected by its id and its owner.
  have hid : row.id = record.quoteId :=
    (of_decide_eq_true (Option.filter_eq_some_iff.mp hrow).2).1
  refine .inr ⟨event, _, row, now, eventRow, rfl, rfl, rfl, rfl, rfl, rfl, hrow, ?_, ?_⟩
  · exact ⟨hevent.quoteId, hevent.ownerSubject, hevent.status, hevent.details⟩
  · have hwrites := progress_of_writes db
      { updated record.status record.analysis record.errorCode row with updatedAt := now }
      eventRow hid
    rw [← hwrites]
    simp

/-- What `start_model_attempt` does: it fails, or inserts the row of the attempt. -/
theorem startModelAttempt_cases {record : QuoteRecord} {attemptId : Uuid}
    {res : Except StoreError Uuid}
    (h : quoteEngine.Runs db (startModelAttempt record attemptId) res db') :
    (∃ e, res = .error e) ∨ res = .ok attemptId ∧ db (.attempt attemptId) = none ∧
      db' = Function.update db (.attempt attemptId) (some {
        id := attemptId, quoteId := record.quoteId, ownerSubject := record.ownerSubject
        model := record.geminiModel, status := "started", errorCode := none
        finishedAt := none }) := by
  obtain ⟨hnone, hres, hdb⟩ := runs_insertAttempt (runs_setSubject h)
  exact .inr ⟨hres, hnone, hdb⟩

/-- What `finish_model_attempt` does: it fails, or marks the row of the attempt. -/
theorem finishModelAttempt_cases {record : QuoteRecord} {attemptId : Uuid}
    {res : Except StoreError Unit}
    (h : quoteEngine.Runs db (finishModelAttempt record attemptId) res db') :
    (∃ e, res = .error e) ∨ ∃ row now, res = .ok () ∧ db (.attempt attemptId) = some row ∧
      db' = Function.update db (.attempt attemptId) (some { row with
        status := if record.status = "completed" then "completed" else "failed"
        errorCode := record.errorCode, finishedAt := some now }) := by
  rcases runs_finishAttempt (runs_setSubject h) with h | ⟨row, now, hrow, -, -, -, -, h⟩
  · exact .inl ⟨_, h.1⟩
  · obtain ⟨hres, hdb⟩ := h
    exact .inr ⟨row, now, hres, hrow, hdb⟩

end

end CanonicalApi
