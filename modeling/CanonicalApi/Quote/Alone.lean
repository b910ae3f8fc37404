import CanonicalApi.Quote.Effects

/-!
# `CanonicalApi.Quote.Alone`: the transactions of a request, run alone

`Ends Q` says that a transaction comes to an end when no other one runs and every statement
gets the same input, and that its result meets `Q`. There is one rule for each statement.

`createQuote_commits_iff` and `retryQuote_commits_iff` are the conditions for a request without
a ledger row to commit, and `createQuote_reused_iff` and `retryQuote_reused_iff` the conditions
for a request to be refused because of its ledger row.
-/

set_option autoImplicit false

namespace CanonicalApi

open Transaction
open QuoteTables (quoteOf insertedRow requeued)

section

variable [Postgres] {α β : Type}

/-- The transaction ends with a result that meets `Q`. -/
def Ends (Q : Except StoreError α → Prop) (i : QuoteInput) (db : QuoteDb) (prog : QuoteTx α) :
    Prop :=
  ∃ result db', quoteEngine.evaluate i db prog = some (result, db') ∧ Q result

/-- The transaction commits. -/
abbrev Commits (i : QuoteInput) (db : QuoteDb) (prog : QuoteTx α) : Prop :=
  Ends (fun result => ∃ a, result = .ok a) i db prog

/-- The transaction fails with this error. -/
abbrev Fails (e : StoreError) (i : QuoteInput) (db : QuoteDb) (prog : QuoteTx α) : Prop :=
  Ends (· = .error e) i db prog

variable {Q : Except StoreError α → Prop} {i : QuoteInput} {db : QuoteDb}

/-- A pure program ends with its result. -/
theorem ends_pure (a : α) : Ends Q i db (pure a : QuoteTx α) ↔ Q (.ok a) := by
  constructor
  · rintro ⟨_, _, h, hQ⟩
    cases h
    exact hQ
  · intro hQ
    exact ⟨_, _, rfl, hQ⟩

/-- A rollback ends with its error. -/
theorem ends_rollback (e : StoreError) :
    Ends Q i db (.rollback e : QuoteTx α) ↔ Q (.error e) := by
  constructor
  · rintro ⟨_, _, h, hQ⟩
    cases h
    exact hQ
  · intro hQ
    exact ⟨_, _, rfl, hQ⟩

/-- A computation in the middle of a transaction ends it with its error, or the rest goes on with
its result. -/
theorem ends_ofExcept {r : Except StoreError β} {f : β → QuoteTx α} :
    Ends Q i db (Program.ofExcept r >>= f) ↔
      (∃ e, r = .error e ∧ Q (.error e)) ∨ ∃ b, r = .ok b ∧ Ends Q i db (f b) := by
  cases r with
  | ok b =>
    constructor
    · intro h
      exact .inr ⟨b, rfl, h⟩
    · rintro (⟨_, h, -⟩ | ⟨_, ⟨⟩, h⟩)
      · cases h
      · exact h
  | error e =>
    refine (ends_rollback e).trans ?_
    constructor
    · intro h
      exact .inl ⟨e, rfl, h⟩
    · rintro (⟨_, ⟨⟩, h⟩ | ⟨_, h, -⟩)
      · exact h
      · cases h

/-- A computation at the end of a transaction is its result. -/
theorem ends_last {r : Except StoreError α} : Ends Q i db (Program.ofExcept r) ↔ Q r := by
  cases r with
  | ok a => exact ends_pure a
  | error e => exact ends_rollback e

/-- A transaction that commits got a result from the computation in its middle. -/
theorem commits_ofExcept {r : Except StoreError β} {f : β → QuoteTx α} :
    Commits i db (Program.ofExcept r >>= f) ↔ ∃ b, r = .ok b ∧ Commits i db (f b) := by
  refine ends_ofExcept.trans (or_iff_right ?_)
  rintro ⟨_, -, _, h⟩
  cases h

/-- A transaction that commits found the row that it asks for. -/
theorem commits_okOr {e : StoreError} {row : Option β} {f : β → QuoteTx α} :
    Commits i db (QuoteTx.okOr e row >>= f) ↔ ∃ b, row = some b ∧ Commits i db (f b) := by
  rw [QuoteTx.okOr, commits_ofExcept]
  simp only [Outcome.okOr_eq_ok_iff]

/-- A check that never fails with `e` passes when the rest fails with `e`. -/
theorem fails_ofExcept {e : StoreError} {r : Except StoreError β} {f : β → QuoteTx α}
    (h : r ≠ .error e) (hfails : Fails e i db (Program.ofExcept r >>= f)) :
    ∃ b, r = .ok b ∧ Fails e i db (f b) := by
  refine (ends_ofExcept.mp hfails).resolve_left ?_
  rintro ⟨_, hr, ⟨⟩⟩
  exact h hr

/-- A transaction that fails with another error found the row that it asks for. -/
theorem fails_okOr {e e' : StoreError} {row : Option β} {f : β → QuoteTx α} (h : e' ≠ e)
    (hfails : Fails e i db (QuoteTx.okOr e' row >>= f)) :
    ∃ b, row = some b ∧ Fails e i db (f b) := by
  obtain ⟨b, hb, hf⟩ := fails_ofExcept (by cases row <;> simp [Outcome.okOr, h]) hfails
  exact ⟨b, (Outcome.okOr_eq_ok_iff _ _ _).mp hb, hf⟩

/-- To set the subject changes nothing that a later statement of the model reads. -/
theorem ends_setSubject {subject : String} {f : Unit → QuoteTx α} :
    Ends Q i db (.stmt (QuoteStmt.setSubject subject) >>= f) ↔ Ends Q i db (f ()) :=
  Iff.rfl

/-- The advisory lock is taken when PostgreSQL accepts its text. Alone, a transaction never waits
for it. -/
theorem ends_advisoryLock {text : String} {f : Unit → QuoteTx α} :
    Ends Q i db (.stmt (QuoteStmt.advisoryLock text) >>= f) ↔
      Postgres.acceptsText text = true ∧ Ends Q i db (f ()) := by
  rw [Program.stmt_bind]
  unfold Ends
  simp only [Engine.evaluate, QuoteTables.run]
  by_cases h : Postgres.acceptsText text = true
  · rw [if_pos h]
    exact (and_iff_right h).symm
  · rw [if_neg h]
    simp [h]

/-- The lookup in the ledger gives the first row of the pair. -/
theorem ends_selectOperation {subject key : String} {f : Option StoredOperation → QuoteTx α} :
    Ends Q i db (.stmt (QuoteStmt.selectOperation subject key) >>= f) ↔
      Ends Q i db (f (db (.operations subject key)).head?) :=
  Iff.rfl

/-- The lookup of the context gives what is stored for the subject. -/
theorem ends_selectContext {subject : String} {f : Option CanonicalContext → QuoteTx α} :
    Ends Q i db (.stmt (QuoteStmt.selectContext subject) >>= f) ↔ Ends Q i db (f i.context) :=
  Iff.rfl

/-- The lookup of a quote gives the row with this id and owner. -/
theorem ends_selectQuote {quoteId : Uuid} {subject : String} {lock : Bool}
    {f : Option QuoteRow → QuoteTx α} :
    Ends Q i db (.stmt (QuoteStmt.selectQuote quoteId subject lock) >>= f) ↔
      Ends Q i db (f (quoteOf db quoteId subject)) :=
  Iff.rfl

/-- The insert of a quote needs a free id. -/
theorem ends_insertQuote {row : QuoteInsert} {f : Option (Int × Int) → QuoteTx α} :
    Ends Q i db (.stmt (QuoteStmt.insertQuote row) >>= f) ↔
      db (.quote row.quoteId) = none ∧
        Ends Q i (Function.update db (.quote row.quoteId) (some (insertedRow row i.now)))
          (f (some (i.now, i.now))) := by
  rw [Program.stmt_bind]
  unfold Ends
  simp only [Engine.evaluate, QuoteTables.run]
  cases h : db (.quote row.quoteId) with
  | none => simp only [quoteEngine.overlay_writeCell, true_and]
  | some old => simp

/-- The insert into the ledger adds a row at the end. -/
theorem ends_insertOperation {subject key : String} {row : StoredOperation}
    {f : Unit → QuoteTx α} :
    Ends Q i db (.stmt (QuoteStmt.insertOperation subject key row) >>= f) ↔
      Ends Q i (Function.update db (.operations subject key)
        (db (.operations subject key) ++ [row])) (f ()) := by
  rw [Program.stmt_bind]
  unfold Ends
  simp only [Engine.evaluate, QuoteTables.run, quoteEngine.overlay_writeCell]

/-- The update of a quote that was found queues its row again. -/
theorem ends_requeueQuote {quoteId : Uuid} {subject : String} {row : QuoteRow}
    {f : Option Int → QuoteTx α} (h : quoteOf db quoteId subject = some row) :
    Ends Q i db (.stmt (QuoteStmt.requeueQuote quoteId subject) >>= f) ↔
      Ends Q i (Function.update db (.quote quoteId)
        (some { requeued row with updatedAt := i.now })) (f (some i.now)) := by
  rw [Program.stmt_bind]
  unfold Ends
  simp only [Engine.evaluate, QuoteTables.run, QuoteTables.updateRow, h,
    quoteEngine.overlay_writeCell]

/-- The last step only changes the result. -/
theorem ends_map {prog : QuoteTx β} {g : β → α} :
    Ends Q i db (do let b ← prog; return g b) ↔
      Ends (fun result => Q (result.map g)) i db prog := by
  induction prog generalizing db with
  | commit b => exact (ends_pure (g b)).trans (ends_pure (Q := fun r => Q (r.map g)) b).symm
  | rollback e =>
    exact (ends_rollback e).trans (ends_rollback (Q := fun r => Q (r.map g)) e).symm
  | exec s next ih =>
    rw [Program.exec_bind]
    unfold Ends at ih ⊢
    rw [Engine.evaluate, Engine.evaluate]
    cases quoteEngine.run s i db with
    | none => simp
    | some p => exact ih p.1

/-- What is returned does not matter for whether a transaction commits. -/
theorem commits_map {prog : QuoteTx β} {g : β → α} :
    Commits i db (do let b ← prog; return g b) ↔ Commits i db prog := by
  have hmap : ∀ result : Except StoreError β,
      (∃ a, result.map g = .ok a) ↔ ∃ b, result = .ok b := by
    rintro (e | b) <;> simp [Except.map]
  refine ends_map.trans ?_
  simp only [hmap]

/-- What is returned does not matter for whether a transaction fails. -/
theorem fails_map {e : StoreError} {prog : QuoteTx β} {g : β → α} :
    Fails e i db (do let b ← prog; return g b) ↔ Fails e i db prog := by
  have hmap : ∀ result : Except StoreError β, result.map g = .error e ↔ result = .error e := by
    rintro (e' | b) <;> simp [Except.map]
  refine ends_map.trans ?_
  simp only [hmap]

end

section

variable [CanonicalLib] [Postgres] {α : Type} {Q : Except StoreError α → Prop} {i : QuoteInput}
  {db : QuoteDb} {subject key : String}

/-- The row of the event of `record`. -/
def eventRowOf (i : QuoteInput) (record : QuoteRecord) : EventRow where
  sequenceId := i.sequence
  quoteId := record.quoteId
  ownerSubject := record.ownerSubject
  status := record.status
  detailsJson := eventDetails record
  createdAt := i.now

/-- The insert of an event adds its row and returns it as a record. -/
theorem ends_insertEvent {record : QuoteRecord} {f : QuoteEventRecord → QuoteTx α} :
    Ends Q i db (insertEvent record >>= f) ↔
      Ends Q i (Function.update db (.events record.quoteId)
        (db (.events record.quoteId) ++ [eventRowOf i record]))
        (Program.ofExcept (eventFromRow (eventRowOf i record)) >>= f) := by
  unfold Ends
  simp only [insertEvent, Program.stmt_bind, Program.exec_bind, Engine.evaluate,
    QuoteTables.run, quoteEngine.overlay_writeCell]
  rfl

/-- The event is stored, and its number is not negative. -/
theorem commits_insertEvent {record : QuoteRecord} {f : QuoteEventRecord → QuoteTx α}
    (hf : ∀ db event, Commits i db (f event)) :
    Commits i db (insertEvent record >>= f) ↔ 0 ≤ i.sequence := by
  refine ends_insertEvent.trans (commits_ofExcept.trans ?_)
  constructor
  · rintro ⟨event, hevent, -⟩
    obtain ⟨hsequence, -⟩ := (Outcome.ite_error_eq_ok_iff _ _ _ _).mp hevent
    exact not_lt.mp hsequence
  · intro hsequence
    exact ⟨_, if_neg (not_lt.mpr hsequence), hf _ _⟩

omit [CanonicalLib] [Postgres] in
/-- The check of the context passes just when the context is valid. -/
theorem checkContext_ok_iff {context : CanonicalContext} :
    (∃ u, checkContext context = .ok u) ↔ context.validate = .ok () := by
  unfold checkContext
  cases context.validate <;> simp

/-- A create without a ledger row commits when the server takes the text of its lock, the
account has a valid context, the quote is new, and the event gets a number. -/
theorem createQuote_commits_iff {request : AcceptedQuoteRequest} {record : QuoteRecord}
    (hfree : db (.operations subject key) = []) :
    Commits i db (createQuote subject key request record) ↔
      Postgres.acceptsText (idempotencyLockText subject key) = true ∧
        (∃ context, i.context = some context ∧ context.validate = .ok ()) ∧
        db (.quote record.quoteId) = none ∧ 0 ≤ i.sequence := by
  -- The statements in their order; each adds what it needs for the commit.
  refine ends_setSubject.trans (ends_advisoryLock.trans (and_congr_right fun _ => ?_))
  refine ends_selectOperation.trans ?_
  rw [hfree]
  refine ends_selectContext.trans (commits_okOr.trans ?_)
  constructor
  · rintro ⟨context, hcontext, hfresh⟩
    obtain ⟨u, hvalid, hfresh⟩ := commits_ofExcept.mp hfresh
    obtain ⟨hnew, hfresh⟩ := ends_insertQuote.mp hfresh
    obtain ⟨inserted, -, hfresh⟩ := commits_okOr.mp hfresh
    refine ⟨⟨context, hcontext, checkContext_ok_iff.mp ⟨u, hvalid⟩⟩, hnew, ?_⟩
    exact (commits_insertEvent fun _ _ => (ends_pure _).mpr ⟨_, rfl⟩).mp
        (ends_insertOperation.mp hfresh)
  · rintro ⟨⟨context, hcontext, hvalid⟩, hnew, hsequence⟩
    obtain ⟨u, hvalid⟩ := checkContext_ok_iff.mpr hvalid
    refine ⟨context, hcontext, commits_ofExcept.mpr ⟨u, hvalid, ?_⟩⟩
    refine ends_insertQuote.mpr ⟨hnew, commits_okOr.mpr ⟨_, rfl, ?_⟩⟩
    exact ends_insertOperation.mpr
      ((commits_insertEvent fun _ _ => (ends_pure _).mpr ⟨_, rfl⟩).mpr hsequence)

/-- A retry without a ledger row commits when the server takes the text of its lock, the quote
belongs to the account, has failed and can be read, its context is valid, and the event gets a
number. -/
theorem retryQuote_commits_iff {quoteId : Uuid} (hfree : db (.operations subject key) = []) :
    Commits i db (retryQuote subject quoteId key) ↔
      Postgres.acceptsText (idempotencyLockText subject key) = true ∧
        (∃ row record, quoteOf db quoteId subject = some row ∧ quoteFromRow row = .ok record ∧
          record.status = "failed" ∧ (contextSnapshotFromRow row).validate = .ok ()) ∧
        0 ≤ i.sequence := by
  -- Each statement contributes the condition under which it succeeds.
  refine ends_setSubject.trans (ends_advisoryLock.trans (and_congr_right fun _ => ?_))
  refine ends_selectOperation.trans ?_
  rw [hfree]
  refine ends_selectQuote.trans (commits_okOr.trans ?_)
  constructor
  · rintro ⟨row, hrow, hretry⟩
    obtain ⟨record, hrecord, hretry⟩ := commits_ofExcept.mp hretry
    by_cases hstatus : record.status ≠ "failed"
    · rw [if_pos hstatus] at hretry
      exact absurd ((ends_rollback _).mp hretry) (by simp)
    · rw [if_neg hstatus] at hretry
      obtain ⟨u, hvalid, hretry⟩ := commits_ofExcept.mp hretry
      obtain ⟨updated, -, hretry⟩ := commits_okOr.mp ((ends_requeueQuote hrow).mp hretry)
      refine ⟨⟨row, record, hrow, hrecord, not_not.mp hstatus,
        checkContext_ok_iff.mp ⟨u, hvalid⟩⟩, ?_⟩
      exact (commits_insertEvent fun _ _ => (ends_pure _).mpr ⟨_, rfl⟩).mp
          (ends_insertOperation.mp hretry)
  · rintro ⟨⟨row, record, hrow, hrecord, hstatus, hvalid⟩, hsequence⟩
    obtain ⟨u, hvalid⟩ := checkContext_ok_iff.mpr hvalid
    refine ⟨row, hrow, commits_ofExcept.mpr ⟨record, hrecord, ?_⟩⟩
    rw [if_neg (not_not.mpr hstatus)]
    refine commits_ofExcept.mpr ⟨u, hvalid, (ends_requeueQuote hrow).mpr ?_⟩
    exact commits_okOr.mpr ⟨_, rfl, ends_insertOperation.mpr
      ((commits_insertEvent fun _ _ => (ends_pure _).mpr ⟨_, rfl⟩).mpr hsequence)⟩

/-! ### The refusal of a key -/

omit [CanonicalLib] [Postgres] in
/-- The check of the context never says that a key was reused. -/
theorem checkContext_ne {context : CanonicalContext} :
    checkContext context ≠ .error .idempotencyKeyReused := by
  unfold checkContext
  cases context.validate <;> simp

/-- Reading a row never says that a key was reused. -/
theorem quoteFromRow_ne {row : QuoteRow} :
    quoteFromRow row ≠ .error .idempotencyKeyReused := by
  unfold quoteFromRow
  cases QuoteRequest.fromValue row.requestJson with
  | none => exact nofun
  | some request =>
    show (if _ then _ else _) ≠ _
    split <;> exact nofun

/-- Nothing after the ledger row fails like this. -/
theorem not_fails_insertEvent {record : QuoteRecord} {f : QuoteEventRecord → QuoteTx α}
    (hf : ∀ db event, ¬ Fails .idempotencyKeyReused i db (f event)) :
    ¬ Fails .idempotencyKeyReused i db (insertEvent record >>= f) := by
  intro hfails
  have hnumber : eventFromRow (eventRowOf i record) ≠ .error .idempotencyKeyReused := by
    unfold eventFromRow
    split <;> exact nofun
  obtain ⟨event, -, hfails⟩ := fails_ofExcept hnumber (ends_insertEvent.mp hfails)
  exact hf _ event hfails

omit [CanonicalLib] in
/-- A pure program does not fail. -/
theorem not_fails_pure (a : α) : ¬ Fails .idempotencyKeyReused i db (pure a) := by
  rw [Fails, ends_pure]
  exact nofun

/-- Reading a quote never says that a key was reused. -/
theorem not_fails_getQuote {quoteId : Uuid} {f : QuoteRecord → α} :
    ¬ Fails .idempotencyKeyReused i db
      (do let record ← getQuoteInTransaction subject quoteId; return f record) := by
  intro hfails
  have hget := ends_selectQuote.mp (fails_map.mp hfails)
  obtain ⟨row, -, hrow⟩ := fails_okOr (by simp) hget
  have hread : quoteFromRow row = .error .idempotencyKeyReused := by
    simpa only [ends_last] using hrow
  exact quoteFromRow_ne hread

/-- A create fails with `IdempotencyKeyReused` when the server takes the text of its lock and
the ledger row belongs to something else. -/
theorem createQuote_reused_iff {request : AcceptedQuoteRequest} {record : QuoteRecord} :
    Fails .idempotencyKeyReused i db (createQuote subject key request record) ↔
      Postgres.acceptsText (idempotencyLockText subject key) = true ∧
        ∃ operation, (db (.operations subject key)).head? = some operation ∧
          ¬ operation.IsCreate request := by
  refine ends_setSubject.trans (ends_advisoryLock.trans (and_congr_right fun _ => ?_))
  refine ends_selectOperation.trans ?_
  cases (db (.operations subject key)).head? with
  -- The stored operation is compared with the request.
  | some existing =>
    have hother : existing.operation ≠ "create" ∨
        existing.requestJson ≠ some request.wire.toValue ↔ ¬ existing.IsCreate request := by
      rw [StoredOperation.IsCreate, not_and_or]
    simp only [Option.some.injEq, exists_eq_left']
    by_cases hmatch : existing.IsCreate request
    · rw [if_neg (mt hother.mp (not_not.mpr hmatch))]
      exact iff_of_false not_fails_getQuote (not_not.mpr hmatch)
    · rw [if_pos (hother.mpr hmatch)]
      exact iff_of_true ((ends_rollback _).mpr rfl) hmatch
  -- Nothing else fails with this error.
  | none =>
    refine iff_of_false (fun hfails => ?_) (by simp)
    obtain ⟨context, -, hfails⟩ := fails_okOr (by simp) (ends_selectContext.mp hfails)
    obtain ⟨_, -, hfails⟩ := fails_ofExcept checkContext_ne hfails
    obtain ⟨-, hfails⟩ := ends_insertQuote.mp hfails
    obtain ⟨inserted, -, hfails⟩ := fails_okOr (by simp) hfails
    exact not_fails_insertEvent (fun _ _ => not_fails_pure _) (ends_insertOperation.mp hfails)

/-- A retry fails with `IdempotencyKeyReused` when the server takes the text of its lock and
the ledger row belongs to something else. -/
theorem retryQuote_reused_iff {quoteId : Uuid} :
    Fails .idempotencyKeyReused i db (retryQuote subject quoteId key) ↔
      Postgres.acceptsText (idempotencyLockText subject key) = true ∧
        ∃ operation, (db (.operations subject key)).head? = some operation ∧
          ¬ operation.IsRetry quoteId := by
  refine ends_setSubject.trans (ends_advisoryLock.trans (and_congr_right fun _ => ?_))
  refine ends_selectOperation.trans ?_
  cases (db (.operations subject key)).head? with
  -- The stored operation is compared with the quote of the retry.
  | some existing =>
    have hother : existing.operation ≠ "retry" ∨ existing.quoteId ≠ quoteId ↔
        ¬ existing.IsRetry quoteId := by
      rw [StoredOperation.IsRetry, not_and_or]
    simp only [Option.some.injEq, exists_eq_left']
    by_cases hmatch : existing.IsRetry quoteId
    · rw [if_neg (mt hother.mp (not_not.mpr hmatch))]
      exact iff_of_false not_fails_getQuote (not_not.mpr hmatch)
    · rw [if_pos (hother.mpr hmatch)]
      exact iff_of_true ((ends_rollback _).mpr rfl) hmatch
  | none =>
    refine iff_of_false (fun hfails => ?_) (by simp)
    have hfails : Fails .idempotencyKeyReused i db (retryQuoteFresh subject quoteId key) := hfails
    obtain ⟨row, hrow, hfails⟩ := fails_okOr (by simp) (ends_selectQuote.mp hfails)
    obtain ⟨record, -, hfails⟩ := fails_ofExcept quoteFromRow_ne hfails
    split at hfails
    · -- A quote that has not failed is refused with another error.
      exact absurd ((ends_rollback _).mp hfails) nofun
    · obtain ⟨_, -, hfails⟩ := fails_ofExcept checkContext_ne hfails
      obtain ⟨updated, -, hfails⟩ := fails_okOr (by simp) ((ends_requeueQuote hrow).mp hfails)
      exact not_fails_insertEvent (fun _ _ => not_fails_pure _) (ends_insertOperation.mp hfails)

end

end CanonicalApi
