import CanonicalApi.Config
import CanonicalApi.Lib.Statements
import CanonicalApi.Quote.Service
import CanonicalApi.Schema

/-!
# `CanonicalApi.Quote.Schema`: admitted requests and the checks of the quote tables

`QuoteStmt.Fits` is the list of `CHECK` constraints on owners, keys, operations, models,
statuses and error codes, for each statement that writes. `QuoteStmt.Answers` says what a
statement is answered: a row that was read satisfies the constraints of its table.

`keeps_of_fits` follows a request through its transaction and through the worker that it
starts, and finds two places where the API admits what the schema refuses. An idempotency key
may contain a slash, and a model name may be longer than its trimmed copy.
`quote_writes_fit_iff` says that these are the only ones.
-/

set_option autoImplicit false

namespace CanonicalApi

open Transaction

/-! ### The constraints -/

/-- The statuses of `canonical_quote` and `canonical_quote_event`. -/
def quoteStatuses : List String := ["queued", "analyzing", "completed", "failed"]

/-- The constraint on both columns `error_code`. -/
def ErrorCodeFits (errorCode : Option String) : Prop :=
  ∀ code ∈ errorCode, LengthBetween 1 120 code

/-- The constraint `canonical_quote_operation_key_check`. -/
def KeyFitsSchema (idempotencyKey : String) : Prop :=
  LengthBetween 8 128 idempotencyKey ∧ Matches keyClass idempotencyKey

/-- The constraints on the texts that a statement writes, from the migrations. A statement that only
reads, or that waits for a lock, has none. -/
def QuoteStmt.Fits : QuoteStmt → Prop
  | .insertQuote row =>
      LengthBetween 1 255 row.subject ∧ LengthBetween 1 128 row.geminiModel ∧
        row.status ∈ quoteStatuses
  | .insertOperation subject idempotencyKey row =>
      LengthBetween 1 255 subject ∧ KeyFitsSchema idempotencyKey ∧
        (row.operation = "create" ∧ row.requestJson ≠ none ∨
          row.operation = "retry" ∧ row.requestJson = none)
  | .insertEvent _ ownerSubject status _ =>
      LengthBetween 1 255 ownerSubject ∧ status ∈ quoteStatuses
  | .requeueQuote _ _ => "queued" ∈ quoteStatuses
  | .updateQuote _ _ status _ errorCode => status ∈ quoteStatuses ∧ ErrorCodeFits errorCode
  | .insertAttempt _ _ ownerSubject model =>
      LengthBetween 1 255 ownerSubject ∧ LengthBetween 1 128 model ∧
        "started" ∈ ["started", "completed", "failed"]
  | .finishAttempt _ _ _ status errorCode =>
      status ∈ ["started", "completed", "failed"] ∧ ErrorCodeFits errorCode
  | _ => True

/-- The constraints on the texts of a row of `canonical_quote`. -/
structure QuoteRow.Fits (row : QuoteRow) : Prop where
  ownerSubject : LengthBetween 1 255 row.ownerSubject
  geminiModel : LengthBetween 1 128 row.geminiModel
  status : row.status ∈ quoteStatuses
  errorCode : ErrorCodeFits row.errorCode

/-- What a statement can be answered: a row of `canonical_quote` that was read is one that
matches and satisfies the constraints. -/
def QuoteStmt.Answers : (s : QuoteStmt) → QuoteReply s → Prop
  | .selectQuote quoteId subject _, reply =>
      ∀ row, reply = some row → row.id = quoteId ∧ row.ownerSubject = subject ∧ row.Fits
  | _, _ => True

/-- A program writes only what the schema accepts, and every value that it commits with
satisfies `Q`. -/
abbrev Writes {α : Type} (prog : QuoteTx α) (Q : α → Prop) : Prop :=
  prog.Ensures QuoteStmt.Answers QuoteStmt.Fits Q

/-- A lookup in a reply sends nothing and goes on with what is found. -/
@[simp] theorem writes_okOr {β : Type} (error : StoreError) (row : Option β) (Q : β → Prop) :
    Writes (QuoteTx.okOr error row) Q ↔ ∀ b, row = some b → Q b := by
  cases row <;> simp [QuoteTx.okOr, Outcome.okOr, Writes]

/-- No error code fits the column, which may be null. -/
theorem ErrorCodeFits.none : ErrorCodeFits none := fun _ h => nomatch h

/-- An error code fits the column when its length does. -/
theorem errorCodeFits_some {code : String} :
    ErrorCodeFits (some code) ↔ LengthBetween 1 120 code := by
  simp [ErrorCodeFits]

section

variable [CanonicalLib]

/-- The same constraints on a record. -/
structure QuoteRecord.Fits (record : QuoteRecord) : Prop where
  ownerSubject : LengthBetween 1 255 record.ownerSubject
  geminiModel : LengthBetween 1 128 record.geminiModel
  status : record.status ∈ quoteStatuses
  errorCode : ErrorCodeFits record.errorCode

/-! ### Records -/

/-- A record that fits still fits when its analysis starts. -/
theorem startAnalysis_fits {record : QuoteRecord} (h : record.Fits) :
    (startAnalysis record).Fits where
  ownerSubject := h.ownerSubject
  geminiModel := h.geminiModel
  status := (by decide : "analyzing" ∈ quoteStatuses)
  errorCode := .none

/-- A record that fits still fits when the service has no key for the model. -/
theorem notConfigured_fits {record : QuoteRecord} (h : record.Fits) :
    (notConfigured record).Fits where
  ownerSubject := h.ownerSubject
  geminiModel := h.geminiModel
  status := (by decide : "failed" ∈ quoteStatuses)
  errorCode := errorCodeFits_some.mpr (by decide)

omit [CanonicalLib] in
/-- Every error code of the model client has between 1 and 120 characters. -/
theorem geminiError_code_fits (error : GeminiError) : LengthBetween 1 120 error.code := by
  cases error with
  | rejected status =>
    show LengthBetween 1 120 "gemini_request_rejected"
    decide
  | _ => decide

/-- A record that fits still fits when its analysis ends: all error codes are short enough. -/
theorem concludeAnalysis_fits {record : QuoteRecord} (h : record.Fits) (outcome : CallOutcome) :
    (concludeAnalysis record outcome).Fits := by
  unfold concludeAnalysis
  split
  · exact {
      ownerSubject := h.ownerSubject
      geminiModel := h.geminiModel
      status := (by decide : "completed" ∈ quoteStatuses)
      errorCode := .none }
  · next error _ =>
    exact {
      ownerSubject := h.ownerSubject
      geminiModel := h.geminiModel
      status := (by decide : "failed" ∈ quoteStatuses)
      errorCode := errorCodeFits_some.mpr (geminiError_code_fits error) }

/-- A change of the time of a record keeps the constraints. -/
theorem QuoteRecord.Fits.touched {record : QuoteRecord} (h : record.Fits) (updatedAt : String) :
    ({ record with updatedAt := updatedAt } : QuoteRecord).Fits :=
  ⟨h.ownerSubject, h.geminiModel, h.status, h.errorCode⟩

variable [Postgres]

/-- The record of a row that satisfies the constraints. -/
theorem quoteFromRow_fits {row : QuoteRow} {record : QuoteRecord} (h : row.Fits)
    (hrecord : quoteFromRow row = .ok record) : record.Fits := by
  obtain ⟨request, -, hrecord⟩ := (Outcome.bind_eq_ok_iff _ _ _).mp hrecord
  obtain ⟨-, hrecord⟩ := (Outcome.ite_error_eq_ok_iff _ _ _ _).mp hrecord
  cases hrecord
  exact ⟨h.ownerSubject, h.geminiModel, h.status, h.errorCode⟩

/-! ### The transactions -/

/-- The event of a record that fits can be inserted. -/
theorem writes_insertEvent {record : QuoteRecord} (h : record.Fits) :
    Writes (insertEvent record) fun _ => True := by
  simp only [insertEvent, Program.ensures_bind, Program.ensures_stmt, writes_okOr,
    Program.ensures_ofExcept, implies_true, and_true]
  exact ⟨h.ownerSubject, h.status⟩

/-- Reading a quote writes nothing. -/
theorem writes_getQuoteInTransaction (subject : String) (quoteId : Uuid) :
    Writes (getQuoteInTransaction subject quoteId) fun _ => True := by
  simp [getQuoteInTransaction, Writes, QuoteStmt.Fits]

section

variable {subject idempotencyKey : String}

/-- The first acceptance of a create writes only rows that fit, and the record that it returns
fits. -/
theorem writes_createQuoteFresh {request : AcceptedQuoteRequest} {record : QuoteRecord}
    (hrecord : record.Fits) (howner : record.ownerSubject = subject)
    (hkey : KeyFitsSchema idempotencyKey) :
    Writes (createQuoteFresh subject idempotencyKey request record) fun outcome =>
      ∀ context event found, outcome = .created context event found → found.Fits := by
  have hsubject : LengthBetween 1 255 subject := howner ▸ hrecord.ownerSubject
  simp only [createQuoteFresh, insertOperation, Program.ensures_bind, Program.ensures_stmt,
    writes_okOr, Program.ensures_ofExcept]
  refine ⟨trivial, fun context _ found _ _ _ => ⟨⟨hsubject, hrecord.geminiModel,
    hrecord.status⟩, fun times _ inserted _ => ⟨⟨hsubject, hkey, .inl ⟨rfl, by simp⟩⟩,
      fun _ _ => ?_⟩⟩⟩
  -- What was stored is the record with the times and the context of its row.
  have hfound : ({ record with
      contextRecordId := found.id
      createdAt := Postgres.toChar inserted.1
      updatedAt := Postgres.toChar inserted.2 } : QuoteRecord).Fits :=
    ⟨hrecord.ownerSubject, hrecord.geminiModel, hrecord.status, hrecord.errorCode⟩
  refine (writes_insertEvent hfound).mono fun event _ => ?_
  rintro _ _ _ ⟨⟩
  exact hfound

/-- `create_quote` of a record and a key that fit. -/
theorem writes_createQuote {request : AcceptedQuoteRequest} {record : QuoteRecord}
    (hrecord : record.Fits) (howner : record.ownerSubject = subject)
    (hkey : KeyFitsSchema idempotencyKey) :
    Writes (createQuote subject idempotencyKey request record) fun outcome =>
      ∀ context event found, outcome = .created context event found → found.Fits := by
  simp only [createQuote, beginSubjectTransaction, lockIdempotency, findOperation,
    Program.ensures_bind, Program.ensures_stmt]
  refine ⟨trivial, fun _ _ => ⟨trivial, fun _ _ => ⟨trivial, fun existing _ => ?_⟩⟩⟩
  cases existing with
  | none => exact writes_createQuoteFresh hrecord howner hkey
  | some existing =>
    dsimp only
    split
    · trivial
    · rw [Program.ensures_bind]
      exact (writes_getQuoteInTransaction _ _).mono fun _ _ _ _ _ h => by cases h

/-- The first acceptance of a retry writes only rows that fit. The record that it returns comes
from a stored row, and so it fits too. -/
theorem writes_retryQuoteFresh {quoteId : Uuid} (hsubject : LengthBetween 1 255 subject)
    (hkey : KeyFitsSchema idempotencyKey) :
    Writes (retryQuoteFresh subject quoteId idempotencyKey) fun outcome =>
      ∀ context event found, outcome = .retried context event found → found.Fits := by
  simp only [retryQuoteFresh, Program.ensures_bind, Program.ensures_stmt, writes_okOr,
    Program.ensures_ofExcept]
  refine ⟨trivial, fun reply hreply row hrow record hrecord => ?_⟩
  -- The row came from the table, and so it fits.
  have hfits : record.Fits := quoteFromRow_fits (hreply row hrow).2.2 hrecord
  split
  · trivial
  · simp only [insertOperation, Program.ensures_bind, Program.ensures_stmt, writes_okOr,
      Program.ensures_ofExcept]
    refine fun _ _ => ⟨(by decide : "queued" ∈ quoteStatuses), fun _ _ updated _ =>
      ⟨⟨hsubject, hkey, .inr ⟨rfl, rfl⟩⟩, fun _ _ => ?_⟩⟩
    -- The retried record is queued again, without analysis and error.
    have hfound : ({ record with
        status := "queued"
        analysis := none
        errorCode := none
        updatedAt := Postgres.toChar updated } : QuoteRecord).Fits :=
      ⟨hfits.ownerSubject, hfits.geminiModel, (by decide : "queued" ∈ quoteStatuses), .none⟩
    refine (writes_insertEvent hfound).mono fun event _ => ?_
    rintro _ _ _ ⟨⟩
    exact hfound

/-- `retry_quote` with a key that fits. The record comes from a row. -/
theorem writes_retryQuote {quoteId : Uuid} (hsubject : LengthBetween 1 255 subject)
    (hkey : KeyFitsSchema idempotencyKey) :
    Writes (retryQuote subject quoteId idempotencyKey) fun outcome =>
      ∀ context event found, outcome = .retried context event found → found.Fits := by
  simp only [retryQuote, beginSubjectTransaction, lockIdempotency, findOperation,
    Program.ensures_bind, Program.ensures_stmt]
  refine ⟨trivial, fun _ _ => ⟨trivial, fun _ _ => ⟨trivial, fun existing _ => ?_⟩⟩⟩
  cases existing with
  | none => exact writes_retryQuoteFresh hsubject hkey
  | some existing =>
    dsimp only
    split
    · trivial
    · rw [Program.ensures_bind]
      exact (writes_getQuoteInTransaction _ _).mono fun _ _ _ _ _ h => by cases h

end

/-- `update_quote` of a record that fits. -/
theorem writes_updateQuote {record : QuoteRecord} (h : record.Fits) :
    Writes (updateQuote record) fun updated => updated.2.Fits := by
  simp only [updateQuote, beginSubjectTransaction, Program.ensures_bind, Program.ensures_stmt,
    writes_okOr]
  refine ⟨trivial, fun _ _ => ⟨⟨h.status, h.errorCode⟩, fun _ _ updated _ => ?_⟩⟩
  have htouched := h.touched (Postgres.toChar updated)
  exact (writes_insertEvent htouched).mono fun _ _ => htouched

omit [Postgres] in
/-- The start of an attempt writes a row that fits. -/
theorem writes_startModelAttempt {record : QuoteRecord} (h : record.Fits) (attemptId : Uuid) :
    Writes (startModelAttempt record attemptId) fun _ => True := by
  simp only [startModelAttempt, beginSubjectTransaction, Program.ensures_bind,
    Program.ensures_stmt]
  exact ⟨trivial, fun _ _ => ⟨⟨h.ownerSubject, h.geminiModel, List.mem_cons_self⟩,
    fun _ _ => trivial⟩⟩

omit [Postgres] in
/-- The end of an attempt writes a row that fits. -/
theorem writes_finishModelAttempt {record : QuoteRecord} (h : record.Fits) (attemptId : Uuid) :
    Writes (finishModelAttempt record attemptId) fun _ => True := by
  have hstatus : (if record.status = "completed" then "completed" else "failed") ∈
      ["started", "completed", "failed"] := by
    split <;> decide
  simp only [finishModelAttempt, beginSubjectTransaction, Program.ensures_bind,
    Program.ensures_stmt]
  refine ⟨trivial, fun _ _ => ⟨⟨hstatus, h.errorCode⟩, fun rowsAffected _ => ?_⟩⟩
  split <;> trivial

/-! ### The life of a request -/

/-- The request creates a quote. -/
def MutationRequest.IsCreate (request : MutationRequest) : Prop :=
  ∃ accepted timestamp fresh, request.mutation = .create accepted timestamp fresh

/-- The texts of a request fit the schema. A retry uses the model of its quote. -/
structure MutationRequest.Fits (request : MutationRequest) : Prop where
  subject : LengthBetween 1 255 request.subject
  idempotencyKey : KeyFitsSchema request.idempotencyKey
  geminiModel : request.IsCreate → LengthBetween 1 128 request.settings.geminiModel

/-- The records of a process that descends from a request fit the schema. -/
def QuoteProc.Fits (request : MutationRequest) : QuoteProc → Prop
  | .requested request' => request' = request
  | .accepted _ job _ | .worker _ job => job.record.Fits
  | .replayed _ _ | .answered _ _ => True

omit [Postgres] in
/-- A new record fits, for a subject and a model that fit. -/
theorem newRecord_fits {settings : Settings} {subject : String} {request : QuoteRequest}
    {timestamp : String} {fresh : Uuid} (hsubject : LengthBetween 1 255 subject)
    (hmodel : LengthBetween 1 128 settings.geminiModel) :
    (newRecord settings subject request timestamp fresh).Fits where
  ownerSubject := hsubject
  geminiModel := hmodel
  status := (by decide : "queued" ∈ quoteStatuses)
  errorCode := .none

/-- The transaction of a request that fits. -/
theorem MutationRequest.Fits.body {request : MutationRequest} (h : request.Fits) :
    Writes request.body fun result => QuoteProc.Fits request (request.resume (.ok result)) := by
  obtain ⟨subject, idempotencyKey, mutation, settings⟩ := request
  cases mutation with
  | create accepted timestamp fresh =>
    have hrecord : (newRecord settings subject accepted.wire timestamp fresh).Fits :=
      newRecord_fits h.subject (h.geminiModel ⟨_, _, _, rfl⟩)
    refine (Program.ensures_bind _ _ _).mpr ?_
    refine (writes_createQuote hrecord rfl h.idempotencyKey).mono fun outcome houtcome => ?_
    cases outcome with
    | created context event found => exact houtcome context event found rfl
    | existing found => trivial
  | retry quoteId =>
    refine (Program.ensures_bind _ _ _).mpr ?_
    refine (writes_retryQuote h.subject h.idempotencyKey).mono fun outcome houtcome => ?_
    cases outcome with
    | retried context event found => exact houtcome context event found rfl
    | existing found => trivial

/-- The transactions of a worker whose record fits. -/
theorem writes_workerBody {stage : WorkerStage} {job : AnalysisJob} (h : job.record.Fits)
    {prog : QuoteTx QuoteResult} (hbody : stage.body job = some prog) :
    Writes prog fun result => (stage.resume job (.ok result)).2.record.Fits := by
  cases stage with
  | marking attemptId configured =>
    cases hbody
    refine (Program.ensures_bind _ _ _).mpr ?_
    refine (writes_updateQuote h).mono fun updated hupdated => ?_
    cases configured with
    | true =>
      show updated.2.Fits
      exact hupdated
    -- Without a client the record that follows has failed with a code of the list.
    | false =>
      show (notConfigured updated.2).Fits
      exact notConfigured_fits hupdated
  | recording attemptId =>
    cases hbody
    refine (Program.ensures_bind _ _ _).mpr ?_
    refine (writes_updateQuote h).mono fun updated hupdated => ?_
    cases attemptId with
    | none =>
      show job.record.Fits
      exact h
    | some attemptId =>
      show updated.2.Fits
      exact hupdated
  | starting attemptId =>
    cases hbody
    refine (Program.ensures_bind _ _ _).mpr ?_
    refine (writes_startModelAttempt h attemptId).mono fun started _ => ?_
    show job.record.Fits
    exact h
  | finishing attemptId =>
    cases hbody
    refine (Program.ensures_bind _ _ _).mpr ?_
    refine (writes_finishModelAttempt h attemptId).mono fun _ _ => ?_
    show job.record.Fits
    exact h
  | calling attemptId => cases hbody
  | done => cases hbody

/-- A request that fits writes only what the schema accepts, and so does everything that it
becomes. -/
theorem keeps_of_fits {request : MutationRequest} (h : request.Fits) :
    quoteService.Keeps QuoteStmt.Answers QuoteStmt.Fits (QuoteProc.Fits request) where
  body := by
    intro p prog hp hbody
    cases p with
    | requested request' =>
      obtain rfl : request' = request := hp
      cases hbody
      exact h.body
    | worker stage job =>
      have hrecord : job.record.Fits := hp
      have hstage : stage.body job = some prog := hbody
      -- What the stage writes fits, and so does the record that it hands on.
      refine (writes_workerBody hrecord hstage).mono fun result hresult => ?_
      show (stage.resume job (.ok result)).2.record.Fits
      exact hresult
    | accepted _ _ _ | replayed _ _ | answered _ _ => cases hbody
  fault := by
    intro p e hp
    cases p with
    | requested request' => trivial
    | worker stage job =>
      show (stage.resume job (.error e)).2.record.Fits
      -- An error leaves the record of the worker.
      have hrecord : (stage.resume job (.error e)).2 = job := by
        cases stage with
        | recording attemptId => cases attemptId <;> rfl
        | _ => rfl
      rw [hrecord]
      exact hp
    | accepted _ _ _ | replayed _ _ | answered _ _ => exact hp
  advance := by
    intro p signal p' child hp hadvance
    cases p with
    | requested request' => cases hadvance
    | accepted request' job event =>
      cases signal with
      | proceed attemptId =>
        have hrecord : job.record.Fits := hp
        cases hadvance
        refine ⟨trivial, ?_⟩
        rintro _ ⟨⟩
        show (startAnalysis job.record).Fits
        -- The worker starts from the accepted record, which fits.
        exact startAnalysis_fits hrecord
      | called outcome => cases hadvance
    | replayed request' record =>
      cases signal with
      | proceed attemptId =>
        cases hadvance
        exact ⟨trivial, fun c hc => absurd hc (Option.not_mem_none c)⟩
      | called outcome => cases hadvance
    | answered _ _ => cases hadvance
    | worker stage job =>
      cases stage with
      | calling attemptId =>
        cases signal with
        | proceed attemptId => cases hadvance
        | called outcome =>
          have hrecord : job.record.Fits := hp
          simp only [Option.some.injEq, Prod.mk.injEq] at hadvance
          obtain ⟨rfl, rfl⟩ := hadvance
          refine ⟨?_, fun c hc => absurd hc (Option.not_mem_none c)⟩
          show (concludeAnalysis job.record outcome).Fits
          -- Whatever the call answers, the outcome stored for it fits.
          exact concludeAnalysis_fits hrecord outcome
      | _ => cases hadvance

/-! ### What the API admits -/

omit [CanonicalLib] [Postgres] in
/-- A subject that the API admits fits the columns for owners. -/
theorem validSubject_fits {raw subject : String} (h : validSubject raw = some subject) :
    LengthBetween 1 255 subject := by
  unfold validSubject at h
  dsimp only at h
  split at h
  · next hvalid =>
    cases h
    have hne : (trim raw).toList ≠ [] := fun hnil => hvalid.1 (String.toList_eq_nil_iff.mp hnil)
    exact ⟨List.length_pos_of_ne_nil hne, Nat.le_trans (length_le_len _) hvalid.2.1⟩
  · cases h

omit [CanonicalLib] [Postgres] in
/-- A key that a handler gets from the headers is a valid one. -/
theorem validIdempotencyKey_of_required {headers : HeaderMap} {idempotencyKey : String}
    (h : requiredIdempotencyKey headers = .ok idempotencyKey) :
    validIdempotencyKey idempotencyKey = true := by
  unfold requiredIdempotencyKey at h
  dsimp only at h
  split at h
  · next value hvalue =>
    cases h
    exact (Option.filter_eq_some_iff.mp hvalue).2
  · cases h

omit [CanonicalLib] [Postgres] in
/-- An idempotency key that the API admits fits the schema exactly when it has no slash. -/
theorem keyFitsSchema_iff {idempotencyKey : String}
    (h : validIdempotencyKey idempotencyKey = true) :
    KeyFitsSchema idempotencyKey ↔ '/' ∉ idempotencyKey.toList := by
  obtain ⟨hchars, hlen⟩ := identifier_chars (identifierBytes_of_validIdempotencyKey h)
  simp only [validIdempotencyKey, Bool.and_eq_true, decide_eq_true_eq] at h
  obtain ⟨⟨hmin, hmax⟩, -⟩ := h
  constructor
  · intro hfits hslash
    exact absurd (hfits.2.2 '/' hslash) (by decide)
  · intro hslash
    refine ⟨⟨by omega, by omega⟩, ?_, fun c hc => ?_⟩
    · intro hnil
      rw [hnil, List.length_nil] at hlen
      omega
    · have hclass := hchars c hc
      have hne : c ≠ '/' := fun heq => hslash (heq ▸ hc)
      rw [identifierClass, Bool.or_eq_true, beq_iff_eq] at hclass
      exact hclass.resolve_right hne

/-- If the creation of a quote writes only what the schema accepts, then its model and its key
fit: the ledger may have no entry, and the account may have an empty context. -/
theorem fits_of_writes_createQuote {subject idempotencyKey : String}
    {request : AcceptedQuoteRequest} {record : QuoteRecord} {Q : CreateQuoteOutcome → Prop}
    (h : Writes (createQuote subject idempotencyKey request record) Q) :
    LengthBetween 1 128 record.geminiModel ∧ KeyFitsSchema idempotencyKey := by
  have hcontext : checkContext .requestOnly = .ok () := by
    decide
  simp only [createQuote, beginSubjectTransaction, lockIdempotency, findOperation,
    Program.ensures_bind, Program.ensures_stmt] at h
  have hfresh : Writes (createQuoteFresh subject idempotencyKey request record) Q :=
    ((h.2 () trivial).2 () trivial).2 none trivial
  simp only [createQuoteFresh, insertOperation, Program.ensures_bind, Program.ensures_stmt,
    writes_okOr, Program.ensures_ofExcept] at hfresh
  obtain ⟨hinsert, hrest⟩ := hfresh.2 (some .requestOnly) trivial _ rfl () hcontext
  obtain ⟨hoperation, -⟩ := hrest (some (0, 0)) trivial _ rfl
  exact ⟨hinsert.2.1, hoperation.2.1⟩

/-- A failed quote with an empty context, as small as a row can be that a retry finds. -/
def failedRow (quoteId : Uuid) (subject : String) (wire : QuoteRequest) : QuoteRow where
  id := quoteId
  ownerSubject := subject
  contextRecordId := Uuid.nil
  requestJson := wire.toValue
  applicationContextMarkdown := ""
  contextSnapshotMarkdown := ""
  contextSnapshotJson := .object []
  geminiModel := defaultGeminiModel
  status := "failed"
  analysisJson := none
  errorCode := some "gemini_transport_error"
  createdAt := 0
  updatedAt := 0

/-- If a retry writes only what the schema accepts, then its key fits: its quote may have
failed. -/
theorem fits_of_writes_retryQuote {subject idempotencyKey : String} {quoteId : Uuid}
    {Q : RetryQuoteOutcome → Prop} (hsubject : LengthBetween 1 255 subject) (wire : QuoteRequest)
    (h : Writes (retryQuote subject quoteId idempotencyKey) Q) :
    KeyFitsSchema idempotencyKey := by
  let row : QuoteRow := failedRow quoteId subject wire
  have hrow : row.Fits := {
    ownerSubject := hsubject
    geminiModel := (by decide : LengthBetween 1 128 defaultGeminiModel)
    status := (by decide : "failed" ∈ quoteStatuses)
    errorCode := errorCodeFits_some.mpr (by decide) }
  obtain ⟨record, hrecord, hfailed⟩ :
      ∃ record, quoteFromRow row = .ok record ∧ record.status = "failed" := by
    simp [quoteFromRow, row, failedRow, Outcome.okOr]
  have hcontext : checkContext (contextSnapshotFromRow row) = .ok () := by
    show checkContext ⟨.object [], "", Uuid.nil, "persisted quote context snapshot"⟩ = .ok ()
    decide
  simp only [retryQuote, beginSubjectTransaction, lockIdempotency, findOperation,
    Program.ensures_bind, Program.ensures_stmt] at h
  have hfresh : Writes (retryQuoteFresh subject quoteId idempotencyKey) Q :=
    ((h.2 () trivial).2 () trivial).2 none trivial
  simp only [retryQuoteFresh, Program.ensures_bind, Program.ensures_stmt, writes_okOr,
    Program.ensures_ofExcept] at hfresh
  -- A row that fits is a possible answer of the select.
  have hanswer : (QuoteStmt.selectQuote quoteId subject true).Answers (some row) := by
    rintro _ ⟨⟩
    exact ⟨rfl, rfl, hrow⟩
  have hrest := hfresh.2 (some row) hanswer row rfl record hrecord
  rw [if_neg (not_not.mpr hfailed)] at hrest
  simp only [insertOperation, Program.ensures_bind, Program.ensures_stmt, writes_okOr,
    Program.ensures_ofExcept] at hrest
  obtain ⟨-, hrest⟩ := hrest () hcontext
  obtain ⟨hoperation, -⟩ := hrest (some 0) trivial _ rfl
  exact hoperation.2.1

section

variable {var : String → Option String} {config : Config} {raw : String} {headers : HeaderMap}
  {request : MutationRequest}

/-- When a request writes only what the schema accepts. Let the configuration come from
`Config::from_env`, and let the subject and the idempotency key pass their checks. Then every
text that the request, its worker and their transactions write satisfies the constraints
exactly when the key has no slash and, for a new quote, the configured model has at most 128
characters before it is trimmed. The library reads some quote request (`hdecodes`): a library that
reads none would leave no quote to retry. -/
theorem quote_writes_fit_iff (hconfig : Config.fromEnv var = .ok config)
    (hmodel : request.settings.geminiModel = config.geminiModel)
    (hsubject : validSubject raw = some request.subject)
    (hkey : requiredIdempotencyKey headers = .ok request.idempotencyKey)
    (hdecodes : ∃ json, CanonicalLib.decodesQuoteRequest json = true) :
    (∀ s, quoteService.Writes QuoteStmt.Answers (.requested request) s → s.Fits) ↔
      '/' ∉ request.idempotencyKey.toList ∧
        (request.IsCreate → config.geminiModel.toList.length ≤ 128) := by
  have howner := validSubject_fits hsubject
  have hkeyFits := keyFitsSchema_iff (validIdempotencyKey_of_required hkey)
  -- The configuration has a model name, so only its upper bound is in question.
  have hnonempty := List.length_pos_of_ne_nil
    (ne_empty_of_isValidModelName (Config.geminiModel_of_fromEnv hconfig).2)
  constructor
  · intro h
    -- The statements of the request itself already force the condition.
    have hbody : Writes request.body fun _ => True :=
      (Program.ensures_iff _).mpr ⟨fun s hs => h s (Service.writes_of_sends rfl hs),
        fun _ _ => trivial⟩
    obtain ⟨subject, idempotencyKey, mutation, settings⟩ := request
    cases mutation with
    | create accepted timestamp fresh =>
      have hfits := fits_of_writes_createQuote ((Program.ensures_bind _ _ _).mp hbody)
      refine ⟨hkeyFits.mp hfits.2, fun _ => ?_⟩
      rw [← hmodel]
      exact hfits.1.2
    | retry quoteId =>
      obtain ⟨json, hdecoded⟩ := hdecodes
      have hfits := fits_of_writes_retryQuote howner ⟨json, hdecoded⟩
        ((Program.ensures_bind _ _ _).mp hbody)
      refine ⟨hkeyFits.mp hfits, ?_⟩
      rintro ⟨_, _, _, hcreate⟩
      cases hcreate
  · rintro ⟨hslash, hshort⟩ s hs
    have hfits : request.Fits := {
      subject := howner
      idempotencyKey := hkeyFits.mpr hslash
      geminiModel := fun hcreate => by
        rw [hmodel]
        exact ⟨hnonempty, hshort hcreate⟩ }
    have hstart : QuoteProc.Fits request (.requested request) := rfl
    -- Under the condition every later statement, also of the worker, fits as well.
    exact (keeps_of_fits hfits).writes hstart hs

end

end

/-! ### A key with a slash -/

section

attribute [local instance] fixtureLib openServer

/-- Only the token of the proxy is configured. -/
def testEnvironment (name : String) : Option String :=
  if name = "CANONICAL_INTERNAL_AUTH_TOKEN" then some "0123456789abcdef0123456789abcdef" else none

/-- The request of the fixture, with the default model. -/
def keyedCreate (idempotencyKey : String) : MutationRequest where
  subject := "org:example"
  idempotencyKey
  mutation := .create ⟨"Canonical Plus", fixtureRequest⟩ "2026-09-09T05:00:00Z" testQuote
  settings := { testSettings with geminiModel := defaultGeminiModel }

/-- The environment of the example is accepted, with the default model. -/
theorem testEnvironment_accepted : ∃ config, Config.fromEnv testEnvironment = .ok config ∧
    config.geminiModel = defaultGeminiModel := by
  refine ⟨⟨"0.0.0.0:8080", none, none, defaultGeminiModel, "0123456789abcdef0123456789abcdef",
    "canonical-plus-api", none, none, none, none⟩, ?_, rfl⟩
  decide

/-- The environment of the fixture is accepted. A create with a key without a slash writes only rows
that the schema takes. -/
theorem quote_writes_fit_iff_test :
    (∃ config, Config.fromEnv testEnvironment = .ok config ∧
      config.geminiModel = defaultGeminiModel) ∧
    ∀ s, quoteService.Writes QuoteStmt.Answers (.requested (keyedCreate "order:00017")) s →
      s.Fits := by
  obtain ⟨config, hconfig, hmodel⟩ := testEnvironment_accepted
  have hsubject : validSubject " org:example" = some "org:example" := by
    decide
  have hkey : requiredIdempotencyKey [("idempotency-key", bytes "order:00017")] =
      .ok "order:00017" := by
    decide
  refine ⟨⟨config, hconfig, hmodel⟩,
    (quote_writes_fit_iff hconfig hmodel.symm hsubject hkey
      ⟨_, fixtureRequest.decoded⟩).mpr ⟨?_, ?_⟩⟩
  · decide
  · intro _
    rw [hmodel]
    decide

/-- The API admits the key `order/00017`, with a slash, and the check of the ledger does not. So the
create of an admitted request writes a row that the schema refuses. -/
theorem slash_key_refused :
    ¬ ∀ (var : String → Option String) (config : Config) (raw : String) (headers : HeaderMap)
      (request : MutationRequest), Config.fromEnv var = .ok config →
      request.settings.geminiModel = config.geminiModel →
      validSubject raw = some request.subject →
      requiredIdempotencyKey headers = .ok request.idempotencyKey →
      ∀ s, quoteService.Writes QuoteStmt.Answers (.requested request) s → s.Fits := by
  intro h
  obtain ⟨config, hconfig, hmodel⟩ := testEnvironment_accepted
  have hsubject : validSubject "org:example" = some "org:example" := by
    decide
  have hkey : requiredIdempotencyKey [("idempotency-key", bytes "order/00017")] =
      .ok "order/00017" := by
    decide
  have hlife := h _ config _ _ (keyedCreate "order/00017") hconfig hmodel.symm hsubject hkey
  -- The claim would make every statement of this request fit.
  have hbody : Writes (keyedCreate "order/00017").body fun _ => True :=
    (Program.ensures_iff _).mpr ⟨fun s hs => hlife s (Service.writes_of_sends rfl hs),
      fun _ _ => trivial⟩
  obtain ⟨-, hfits⟩ := fits_of_writes_createQuote ((Program.ensures_bind _ _ _).mp hbody)
  have hrefused : ¬ KeyFitsSchema "order/00017" :=
    fun hkey => absurd (hkey.2.2 '/' (by decide)) (by decide)
  exact hrefused hfits

end

end CanonicalApi
