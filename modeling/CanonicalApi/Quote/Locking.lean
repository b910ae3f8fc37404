import CanonicalApi.Quote.Tables

/-!
# `CanonicalApi.Quote.Locking`: the quote transactions follow the lock discipline

Each transaction of `persistence.rs` touches a cell only after it took the lock that protects
it, or reads it loosely. The advisory lock is taken before the ledger is read
(`locked_createQuote`, `locked_retryQuote`), and the row lock of a quote before its events are
written.
-/

set_option autoImplicit false

namespace CanonicalApi

open Transaction Transaction.Engine

namespace QuoteTables

/-- A select finds only rows with the id it asks for. -/
theorem selectQuote_id [Postgres] {quoteId : Uuid} {subject : String} {lock : Bool}
    {row : QuoteRow} (h : quoteEngine.Replies (.selectQuote quoteId subject lock) (some row)) :
    row.id = quoteId := by
  obtain ⟨i, db, w₁, hrun⟩ := h
  have hrow : quoteOf db quoteId subject = some row := (Prod.mk.inj (Option.some.inj hrun)).1
  have := (Option.filter_eq_some_iff.mp hrow).2
  exact (of_decide_eq_true this).1

/-- An update of a quote row reads only the cell of the quote. -/
theorem updateRow_congr {db db' : QuoteDb} {quoteId : Uuid} {subject : String} {now : Int}
    {change : QuoteRow → QuoteRow} (h : db (.quote quoteId) = db' (.quote quoteId)) :
    updateRow db quoteId subject now change = updateRow db' quoteId subject now change := by
  simp only [updateRow, quoteOf, h]

/-- An update that found no row writes nothing. -/
theorem updateRow_none {db : QuoteDb} {quoteId : Uuid} {subject : String} {now : Int}
    {change : QuoteRow → QuoteRow} {w : QuoteWrites}
    (h : updateRow db quoteId subject now change = (none, w)) : w = writeNothing := by
  unfold updateRow at h
  split at h
  · cases h
  · cases h
    rfl

/-- An update of a quote row writes at most the cell of the quote. -/
theorem updateRow_ne_none {db : QuoteDb} {quoteId : Uuid} {subject : String} {now : Int}
    {change : QuoteRow → QuoteRow} {c : QuoteCell}
    (h : (updateRow db quoteId subject now change).2 c ≠ none) : c = .quote quoteId := by
  unfold updateRow at h
  split at h
  · exact eq_of_writeCell_ne_none h
  · exact absurd rfl h

end QuoteTables

section

variable [Postgres] {held : QuoteLock → Prop}

/-! ### The statements -/

/-- A statement that only replies, the same on all tables, is covered by any locks. -/
theorem covered_of_constant (s : QuoteStmt) (r : QuoteReply s)
    (h : ∀ i v v', QuoteTables.run s i v = QuoteTables.run s i v')
    (hw : ∀ i v r w₁, QuoteTables.run s i v = some (r, w₁) → w₁ = writeNothing) :
    quoteEngine.Covered held s r :=
  .inr (quoteEngine.settled_of_constant h fun i v w₁ hrun => hw i v r w₁ hrun)

/-- To set the subject needs no lock. -/
theorem covered_setSubject (subject : String) (r : Unit) :
    quoteEngine.Covered held (.setSubject subject) r := by
  refine covered_of_constant (.setSubject subject) r (fun _ _ _ => rfl) ?_
  intro i v r w₁ hrun
  cases hrun
  rfl

/-- To take the advisory lock needs no lock before. -/
theorem covered_advisoryLock (text : String) (r : Unit) :
    quoteEngine.Covered held (.advisoryLock text) r := by
  refine covered_of_constant (.advisoryLock text) r (fun _ _ _ => rfl) ?_
  intro i v r w₁ hrun
  simp only [QuoteTables.run] at hrun
  split at hrun
  · cases hrun
    rfl
  · cases hrun

/-- The lookup of the context needs no lock, since no statement writes contexts. -/
theorem covered_selectContext (subject : String) (r : Option CanonicalContext) :
    quoteEngine.Covered held (.selectContext subject) r := by
  refine covered_of_constant (.selectContext subject) r (fun _ _ _ => rfl) ?_
  intro i v r w₁ hrun
  cases hrun
  rfl

/-- The lookup in the ledger is covered by the advisory lock of its pair. -/
theorem covered_selectOperation {subject key : String} (r : Option StoredOperation)
    (h : held (.advisory (Postgres.hashText (idempotencyLockText subject key)))) :
    quoteEngine.Covered held (.selectOperation subject key) r := by
  refine .inr (quoteEngine.settled_of_cell (.operations subject key) (.inl h) ?_ ?_)
  · intro i v v' hv
    simp only [QuoteTables.run, hv]
  · intro i v r w₁ hrun c hc
    cases hrun
    exact absurd rfl hc

/-- The insert into the ledger is covered by the advisory lock of its pair. -/
theorem covered_insertOperation {subject key : String} (row : StoredOperation) (r : Unit)
    (h : held (.advisory (Postgres.hashText (idempotencyLockText subject key)))) :
    quoteEngine.Covered held (.insertOperation subject key row) r := by
  refine .inr (quoteEngine.settled_of_cell (.operations subject key) (.inl h) ?_ ?_)
  · intro i v v' hv
    simp only [QuoteTables.run, hv]
  · intro i v r w₁ hrun c hc
    cases hrun
    exact eq_of_writeCell_ne_none hc

/-- The insert of a quote needs no lock before: it takes the lock of the new row. -/
theorem covered_insertQuote (row : QuoteInsert) (r : Option (Int × Int)) :
    quoteEngine.Covered held (.insertQuote row) r := by
  refine .inr (quoteEngine.settled_of_cell (.quote row.quoteId) (.inr rfl) ?_ ?_)
  · intro i v v' hv
    simp only [QuoteTables.run, hv]
  · intro i v r w₁ hrun c hc
    simp only [QuoteTables.run] at hrun
    split at hrun
    · cases hrun
    · cases hrun
      exact eq_of_writeCell_ne_none hc

/-- The insert of an event is covered by the lock of its quote. -/
theorem covered_insertEvent {quoteId : Uuid} (ownerSubject status : String)
    (details : JsonValue) (r : Option EventRow) (h : held (.quote quoteId)) :
    quoteEngine.Covered held (.insertEvent quoteId ownerSubject status details) r := by
  refine .inr (quoteEngine.settled_of_cell (.events quoteId) (.inl h) ?_ ?_)
  · intro i v v' hv
    simp only [QuoteTables.run, hv]
  · intro i v r w₁ hrun c hc
    cases hrun
    exact eq_of_writeCell_ne_none hc

/-- The lookup of a quote needs no lock before: with `FOR UPDATE` it takes the lock of the row that
it finds, and a plain one, or one that finds no row, writes nothing. -/
theorem covered_selectQuote (quoteId : Uuid) (subject : String) (lock : Bool)
    (r : Option QuoteRow) : quoteEngine.Covered held (.selectQuote quoteId subject lock) r := by
  have hwrites : ∀ i v r w₁, QuoteTables.run (.selectQuote quoteId subject lock) i v =
      some (r, w₁) → w₁ = writeNothing := by
    intro i v r w₁ hrun
    cases hrun
    rfl
  -- Only `FOR UPDATE` on a row that matched takes the lock of the row.
  cases lock with
  | false => exact .inl ⟨rfl, fun i v => hwrites i v r⟩
  | true =>
    cases r with
    | none => exact .inl ⟨rfl, fun i v => hwrites i v none⟩
    | some row =>
      refine .inr (quoteEngine.settled_of_cell (.quote quoteId) (.inr rfl) ?_ ?_)
      · intro i v v' hv
        simp only [QuoteTables.run, QuoteTables.quoteOf, hv]
      · intro i v r w₁ hrun c hc
        rw [hwrites i v r w₁ hrun] at hc
        exact absurd rfl hc

/-- The update takes the lock of the row that it finds, and writes nothing when it finds none. -/
theorem covered_requeueQuote (quoteId : Uuid) (subject : String) (r : Option Int) :
    quoteEngine.Covered held (.requeueQuote quoteId subject) r := by
  cases r with
  | none =>
    refine .inl ⟨rfl, ?_⟩
    intro i v w₁ hrun
    exact QuoteTables.updateRow_none (Option.some.inj hrun)
  | some now =>
    refine .inr (quoteEngine.settled_of_cell (.quote quoteId) (.inr rfl) ?_ ?_)
    · intro i v v' hv
      simp only [QuoteTables.run, QuoteTables.updateRow_congr hv]
    · intro i v r w₁ hrun c hc
      rw [← (Prod.mk.inj (Option.some.inj hrun)).2] at hc
      exact QuoteTables.updateRow_ne_none hc

/-- The update takes the lock of the row that it finds, and writes nothing when it finds none. -/
theorem covered_updateQuote (quoteId : Uuid) (ownerSubject status : String)
    (analysis : Option JsonValue) (errorCode : Option String) (r : Option Int) :
    quoteEngine.Covered held (.updateQuote quoteId ownerSubject status analysis errorCode) r := by
  cases r with
  | none =>
    refine .inl ⟨rfl, ?_⟩
    intro i v w₁ hrun
    exact QuoteTables.updateRow_none (Option.some.inj hrun)
  | some now =>
    refine .inr (quoteEngine.settled_of_cell (.quote quoteId) (.inr rfl) ?_ ?_)
    · intro i v v' hv
      simp only [QuoteTables.run, QuoteTables.updateRow_congr hv]
    · intro i v r w₁ hrun c hc
      rw [← (Prod.mk.inj (Option.some.inj hrun)).2] at hc
      exact QuoteTables.updateRow_ne_none hc

/-- The insert of an attempt takes the lock of its row. -/
theorem covered_insertAttempt (attemptId quoteId : Uuid) (ownerSubject model : String)
    (r : Unit) :
    quoteEngine.Covered held (.insertAttempt attemptId quoteId ownerSubject model) r := by
  refine .inr (quoteEngine.settled_of_cell (.attempt attemptId) (.inr rfl) ?_ ?_)
  · intro i v v' hv
    simp only [QuoteTables.run, hv]
  · intro i v r w₁ hrun c hc
    simp only [QuoteTables.run] at hrun
    split at hrun
    · cases hrun
    · cases hrun
      exact eq_of_writeCell_ne_none hc

/-- The end of an attempt takes the lock of its row, and writes nothing when it finds none. -/
theorem covered_finishAttempt (attemptId quoteId : Uuid) (ownerSubject status : String)
    (errorCode : Option String) (r : Nat) :
    quoteEngine.Covered held
      (.finishAttempt attemptId quoteId ownerSubject status errorCode) r := by
  -- A reply other than 1 wrote nothing and needs no lock; with 1 the lock of the attempt covers its
  -- cell.
  by_cases hr : r = 1
  · subst hr
    refine .inr (quoteEngine.settled_of_cell (.attempt attemptId) (.inr rfl) ?_ ?_)
    · intro i v v' hv
      simp only [QuoteTables.run, hv]
    · intro i v r w₁ hrun c hc
      simp only [QuoteTables.run] at hrun
      split at hrun
      · split at hrun
        · cases hrun
          exact eq_of_writeCell_ne_none hc
        · cases hrun
          exact absurd rfl hc
      · cases hrun
        exact absurd rfl hc
  · refine .inl ⟨decide_eq_true hr, ?_⟩
    intro i v w₁ hrun
    simp only [QuoteTables.run] at hrun
    split at hrun
    · split at hrun
      · cases hrun
        exact absurd rfl hr
      · cases hrun
        rfl
    · cases hrun
      rfl

/-! ### The transactions -/

/-- A lookup in a reply sends nothing. -/
theorem locked_okOr {α : Type} (error : StoreError) (row : Option α) :
    quoteEngine.Locked held (QuoteTx.okOr error row) :=
  quoteEngine.locked_ofExcept _

variable [CanonicalLib]

/-- An event is inserted under the row lock of its quote. -/
theorem locked_insertEvent (record : QuoteRecord) (h : held (.quote record.quoteId)) :
    quoteEngine.Locked held (insertEvent record) := by
  refine quoteEngine.locked_bind (quoteEngine.locked_stmt fun r => ?_) fun row => ?_
  · exact covered_insertEvent _ _ _ r h
  · refine quoteEngine.locked_bind (locked_okOr _ _) fun row => ?_
    exact quoteEngine.locked_ofExcept _

/-- Reading a quote follows the discipline under any locks. -/
theorem locked_getQuoteInTransaction (subject : String) (quoteId : Uuid) :
    quoteEngine.Locked held (getQuoteInTransaction subject quoteId) := by
  refine quoteEngine.locked_bind (quoteEngine.locked_stmt fun r => ?_) fun row => ?_
  · exact covered_selectQuote _ _ _ r
  · refine quoteEngine.locked_bind (locked_okOr _ _) fun row => ?_
    exact quoteEngine.locked_ofExcept _

/-- A creation writes the ledger under the advisory lock, and the events under the lock that
the insert of the quote took. -/
theorem locked_createQuoteFresh (subject idempotencyKey : String)
    (request : AcceptedQuoteRequest) (record : QuoteRecord)
    (h : held (.advisory (Postgres.hashText (idempotencyLockText subject idempotencyKey)))) :
    quoteEngine.Locked held (createQuoteFresh subject idempotencyKey request record) := by
  refine quoteEngine.locked_bind (quoteEngine.locked_stmt fun r => ?_) fun context => ?_
  · exact covered_selectContext _ r
  refine quoteEngine.locked_bind (locked_okOr _ _) fun context => ?_
  refine quoteEngine.locked_bind (quoteEngine.locked_ofExcept _) fun _ => ?_
  refine quoteEngine.locked_stmt_bind (fun r => covered_insertQuote _ r) fun inserted _ => ?_
  refine quoteEngine.locked_bind (locked_okOr _ _) fun inserted => ?_
  refine quoteEngine.locked_bind (quoteEngine.locked_stmt fun r => ?_) fun _ => ?_
  · exact covered_insertOperation _ r (.inl h)
  refine quoteEngine.locked_bind (locked_insertEvent _ (.inr rfl)) fun event => ?_
  exact trivial

/-- `create_quote` takes the advisory lock before it reads the ledger. -/
theorem locked_createQuote (subject idempotencyKey : String) (request : AcceptedQuoteRequest)
    (record : QuoteRecord) :
    quoteEngine.Locked held (createQuote subject idempotencyKey request record) := by
  refine quoteEngine.locked_stmt_bind (fun r => covered_setSubject _ r) fun _ _ => ?_
  refine quoteEngine.locked_stmt_bind (fun r => covered_advisoryLock _ r) fun _ _ => ?_
  refine quoteEngine.locked_bind (quoteEngine.locked_stmt fun r => ?_) fun existing => ?_
  · exact covered_selectOperation r (.inr rfl)
  cases existing with
  | none => exact locked_createQuoteFresh _ _ _ _ (.inr rfl)
  | some existing =>
    dsimp only
    split
    · exact trivial
    · refine quoteEngine.locked_bind (locked_getQuoteInTransaction _ _) fun record => ?_
      exact trivial

/-- The record of a row carries the id of the row. -/
theorem quoteFromRow_quoteId {row : QuoteRow} {record : QuoteRecord}
    (h : quoteFromRow row = .ok record) : record.quoteId = row.id := by
  obtain ⟨_, -, h⟩ := (Outcome.bind_eq_ok_iff _ _ _).mp h
  obtain ⟨-, h⟩ := (Outcome.ite_error_eq_ok_iff _ _ _ _).mp h
  cases h
  rfl

/-- A retry writes the ledger under the advisory lock, and the row and its events under the
lock that `FOR UPDATE` took. -/
theorem locked_retryQuoteFresh (subject : String) (quoteId : Uuid) (idempotencyKey : String)
    (h : held (.advisory (Postgres.hashText (idempotencyLockText subject idempotencyKey)))) :
    quoteEngine.Locked held (retryQuoteFresh subject quoteId idempotencyKey) := by
  refine quoteEngine.locked_stmt_bind (fun r => covered_selectQuote _ _ _ r) fun row hrow => ?_
  refine quoteEngine.locked_ofExcept_bind fun row' hrow' => ?_
  obtain rfl := (Outcome.okOr_eq_ok_iff _ _ _).mp hrow'
  -- The select locks the row of the quote, which the later writes need.
  have hid : row'.id = quoteId := QuoteTables.selectQuote_id hrow
  refine quoteEngine.locked_ofExcept_bind fun record hrecord => ?_
  split
  · exact trivial
  refine quoteEngine.locked_bind (quoteEngine.locked_ofExcept _) fun _ => ?_
  refine quoteEngine.locked_bind (quoteEngine.locked_stmt fun r => ?_) fun updated => ?_
  · exact covered_requeueQuote _ _ r
  refine quoteEngine.locked_bind (locked_okOr _ _) fun updated => ?_
  refine quoteEngine.locked_bind (quoteEngine.locked_stmt fun r => ?_) fun _ => ?_
  · exact covered_insertOperation _ r (.inl h)
  refine quoteEngine.locked_bind (locked_insertEvent _ (.inr ?_)) fun event => ?_
  · show some (QuoteLock.quote quoteId) = some (QuoteLock.quote record.quoteId)
    -- The event is appended to the quote whose row is locked.
    rw [quoteFromRow_quoteId hrecord, hid]
  exact trivial

/-- `retry_quote` takes the advisory lock before it reads the ledger. -/
theorem locked_retryQuote (subject : String) (quoteId : Uuid) (idempotencyKey : String) :
    quoteEngine.Locked held (retryQuote subject quoteId idempotencyKey) := by
  refine quoteEngine.locked_stmt_bind (fun r => covered_setSubject _ r) fun _ _ => ?_
  refine quoteEngine.locked_stmt_bind (fun r => covered_advisoryLock _ r) fun _ _ => ?_
  refine quoteEngine.locked_bind (quoteEngine.locked_stmt fun r => ?_) fun existing => ?_
  · exact covered_selectOperation r (.inr rfl)
  cases existing with
  | none => exact locked_retryQuoteFresh _ _ _ (.inr rfl)
  | some existing =>
    dsimp only
    split
    · exact trivial
    · refine quoteEngine.locked_bind (locked_getQuoteInTransaction _ _) fun record => ?_
      exact trivial

/-- `update_quote` writes the events under the lock that the update of the row took. -/
theorem locked_updateQuote (record : QuoteRecord) :
    quoteEngine.Locked held (updateQuote record) := by
  refine quoteEngine.locked_stmt_bind (fun r => covered_setSubject _ r) fun _ _ => ?_
  refine quoteEngine.locked_stmt_bind (fun r => covered_updateQuote _ _ _ _ _ r) fun now _ => ?_
  refine quoteEngine.locked_ofExcept_bind fun now' hnow => ?_
  obtain rfl := (Outcome.okOr_eq_ok_iff _ _ _).mp hnow
  refine quoteEngine.locked_bind (locked_insertEvent _ (.inr rfl)) fun event => ?_
  exact trivial

/-- The start of an attempt follows the discipline under any locks. -/
theorem locked_startModelAttempt (record : QuoteRecord) (attemptId : Uuid) :
    quoteEngine.Locked held (startModelAttempt record attemptId) := by
  refine quoteEngine.locked_stmt_bind (fun r => covered_setSubject _ r) fun _ _ => ?_
  refine quoteEngine.locked_stmt_bind (fun r => covered_insertAttempt _ _ _ _ r) fun _ _ => ?_
  exact trivial

/-- The end of an attempt follows the discipline under any locks. -/
theorem locked_finishModelAttempt (record : QuoteRecord) (attemptId : Uuid) :
    quoteEngine.Locked held (finishModelAttempt record attemptId) := by
  refine quoteEngine.locked_stmt_bind (fun r => covered_setSubject _ r) fun _ _ => ?_
  refine quoteEngine.locked_stmt_bind (fun r => covered_finishAttempt _ _ _ _ _ r) fun n _ => ?_
  by_cases hn : (n : Nat) ≠ 1
  · rw [if_pos hn]
    exact trivial
  · rw [if_neg hn]
    exact trivial

end

end CanonicalApi
