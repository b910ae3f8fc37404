import CanonicalApi.Lib.SingleWriter
import CanonicalApi.Quote.Persistence
import CanonicalApi.Readable

/-!
# `CanonicalApi.Quote.Handlers`: what the quote handlers and the worker do with records

The parts of `create_quote`, `retry_quote` and `run_quote_analysis` of `lib.rs` that do not
touch the store: the request after the checks of its handler, the new record, the changes
that the worker makes to its record, and the answers. Both storage modes use them.

`StatusEdge` is the lifecycle of a quote, as the claims about both modes state it.
-/

set_option autoImplicit false

namespace CanonicalApi

open SingleWriter (Protocol Move)

/-! ### The lifecycle -/

/-- The steps that the status of a quote may take. -/
inductive StatusEdge : String → String → Prop where
  | start : StatusEdge "queued" "analyzing"
  | complete : StatusEdge "analyzing" "completed"
  | fail : StatusEdge "analyzing" "failed"
  | retry : StatusEdge "failed" "queued"

/-- The status of a quote, if there is one, before and after a step: a quote is created as
queued, is never removed, and keeps its status or follows an edge. -/
inductive StatusStep : Option String → Option String → Prop where
  | same {status : Option String} : StatusStep status status
  | create : StatusStep none (some "queued")
  | edge {status status' : String} : StatusEdge status status' →
      StatusStep (some status) (some status')

/-- The four changes of a status that the code makes. -/
theorem statusEdge_iff {status status' : String} :
    StatusEdge status status' ↔
      status = "queued" ∧ status' = "analyzing" ∨ status = "analyzing" ∧ status' = "completed" ∨
        status = "analyzing" ∧ status' = "failed" ∨ status = "failed" ∧ status' = "queued" := by
  constructor
  · rintro (_ | _ | _ | _) <;> decide
  · rintro (⟨rfl, rfl⟩ | ⟨rfl, rfl⟩ | ⟨rfl, rfl⟩ | ⟨rfl, rfl⟩)
    · exact .start
    · exact .complete
    · exact .fail
    · exact .retry

instance (status status' : String) : Decidable (StatusEdge status status') :=
  decidable_of_iff' _ statusEdge_iff

/-- What a step can do to the status of a quote: nothing, create the quote as queued, or one of the
changes. -/
theorem statusStep_iff {x y : Option String} :
    StatusStep x y ↔ x = y ∨ x = none ∧ y = some "queued" ∨
      ∃ status ∈ x, ∃ status' ∈ y, StatusEdge status status' := by
  constructor
  · rintro (_ | _ | hedge)
    · exact .inl rfl
    · exact .inr (.inl ⟨rfl, rfl⟩)
    · exact .inr (.inr ⟨_, rfl, _, rfl, hedge⟩)
  · rintro (rfl | ⟨rfl, rfl⟩ | ⟨status, rfl, status', rfl, hedge⟩)
    · exact .same
    · exact .create
    · exact .edge hedge

instance (x y : Option String) : Decidable (StatusStep x y) :=
  decidable_of_iff _ statusStep_iff.symm

/-- The statuses of a quote: a process takes a new or failed quote over as queued, and from
there on it follows the edges. -/
def quoteProtocol : Protocol String where
  edge := StatusEdge
  idle status := status = "failed"
  entry := "queued"

/-- The moves of the protocol are the steps of the lifecycle. -/
theorem statusStep_of_move {x y : Option String} (h : Move quoteProtocol x y) :
    StatusStep x y := by
  cases h with
  | same => exact .same
  | create => exact .create
  | restart hidle =>
    cases hidle
    exact .edge .retry
  | edge hedge => exact .edge hedge

/-- The state of a quote that the lifecycle allows in a row or a record: one of the four
statuses, an analysis exactly when it is completed, an error exactly when it failed. -/
structure ValidState (status : String) (analysis : Option JsonValue)
    (errorCode : Option String) : Prop where
  known : status ∈ ["queued", "analyzing", "completed", "failed"]
  analysis : status = "completed" ↔ analysis ≠ none
  errorCode : status = "failed" ↔ errorCode ≠ none

/-- A queued quote has neither an analysis nor an error. -/
theorem ValidState.queued : ValidState "queued" none none := by
  constructor <;> decide

/-- A quote in analysis has neither an analysis nor an error. -/
theorem ValidState.analyzing : ValidState "analyzing" none none := by
  constructor <;> decide

/-- A completed quote has an analysis. -/
theorem ValidState.completed (analysis : JsonValue) :
    ValidState "completed" (some analysis) none := by
  constructor <;> simp

/-- A failed quote has an error. -/
theorem ValidState.failed (errorCode : String) : ValidState "failed" none (some errorCode) := by
  constructor <;> simp

/-! ### Requests -/

/-- `MAX_MARKDOWN_CONTEXT_BYTES`. -/
def maxMarkdownContextBytes : Nat := 262144

/-- The trimmed text of `context/quote-analysis.md`, which is compiled in. The checks of
`parse_quote_request` and `retry_quote` on it always pass. -/
structure ApplicationContext where
  text : String
  nonempty : text ≠ ""
  short : len text ≤ maxMarkdownContextBytes

/-- The configuration of a replica, as far as quotes depend on it. -/
structure Settings where
  geminiModel : String
  geminiConfigured : Bool
  databaseConfigured : Bool
  application : ApplicationContext

section

variable [CanonicalLib]

/-- What a request asks for. A create carries the fresh id of its quote. -/
inductive Mutation where
  | create (request : AcceptedQuoteRequest) (timestamp : String) (fresh : Uuid)
  | retry (quoteId : Uuid)

/-- A request of `create_quote` or `retry_quote` after authentication and admission. -/
structure MutationRequest where
  subject : String
  idempotencyKey : String
  mutation : Mutation
  settings : Settings

/-- The subject and the key of a request, which the ledger is keyed by. -/
def MutationRequest.pair (request : MutationRequest) : String × String :=
  (request.subject, request.idempotencyKey)

/-- `new_record`. With a database the times and the context are replaced by what the insert
returns. -/
def newRecord (settings : Settings) (subject : String) (request : QuoteRequest)
    (timestamp : String) (fresh : Uuid) : QuoteRecord where
  analysis := none
  contextRecordId := Uuid.nil
  errorCode := none
  geminiModel := settings.geminiModel
  ownerSubject := subject
  persistence := if settings.databaseConfigured then "postgres" else "memory-only"
  quoteId := fresh
  request
  status := "queued"
  createdAt := timestamp
  updatedAt := timestamp

/-- `map_store_error`. A row that cannot be read is reported like a database that cannot be
reached. -/
def mapStoreError : StoreError → ApiError
  | .contextNotFound => .serviceUnavailable "context_unavailable"
      "an active canonical context record was not found for this account"
  | .idempotencyKeyReused => idempotencyReused
  | .invalidTransition => .conflict "conflict" "the requested quote transition is not allowed"
  | .quoteNotFound => .notFound "not_found" "quote was not found"
  | .database | .invalidRecord _ => storageUnavailable

/-- The body of a successful answer. -/
inductive MutationResponse where
  | submission (response : QuoteSubmissionResponse)
  | retry (response : QuoteRetryResponse)

namespace MutationResponse

/-- The member `quoteId`. -/
def quoteId : MutationResponse → String
  | submission response => response.quoteId
  | retry response => response.quoteId

/-- The answer of the handler of `mutation`. -/
def of (record : QuoteRecord) : Mutation → MutationResponse
  | .create _ _ _ => submission (quoteSubmissionResponse record)
  | .retry _ => retry (quoteRetryResponse record)

/-- The answer names the quote of the record. -/
@[simp] theorem quoteId_of (record : QuoteRecord) (mutation : Mutation) :
    (of record mutation).quoteId = record.quoteId.toText := by
  cases mutation <;> rfl

end MutationResponse

/-! ### The worker -/

/-- The arguments of `run_quote_analysis`. -/
structure AnalysisJob where
  record : QuoteRecord
  request : AcceptedQuoteRequest
  context : CanonicalContext

/-- The analysis that a handler starts for its record. A retry builds the request again. -/
def AnalysisJob.of (settings : Settings) (record : QuoteRecord) (context : CanonicalContext) :
    Mutation → AnalysisJob
  | .create request _ _ => { record, request, context }
  | .retry _ =>
      { record
        request := { applicationMarkdown := settings.application.text, wire := record.request }
        context }

/-- The record of a new job is the one that was stored. -/
@[simp] theorem AnalysisJob.of_record (settings : Settings) (record : QuoteRecord)
    (context : CanonicalContext) (mutation : Mutation) :
    (AnalysisJob.of settings record context mutation).record = record := by
  cases mutation <;> rfl

/-- The record at the start of the worker. -/
def startAnalysis (record : QuoteRecord) : QuoteRecord :=
  { record with status := "analyzing", errorCode := none, analysis := none }

/-- What the call of the model gave. An analysis has passed the check. -/
structure CallOutcome where
  result : Except GeminiError JsonValue
  valid : ∀ analysis, result = .ok analysis → validateAnalysis analysis = .ok ()

/-- The outcome of the attempts with the given replies. -/
def CallOutcome.ofReplies [ModelDecoder] (replies : Nat → HttpReply) : CallOutcome where
  result := executeWithRetries replies
  valid _ h := executeWithRetries_ok h

/-- The record when no model is configured. The analysis stays. -/
def notConfigured (record : QuoteRecord) : QuoteRecord :=
  { record with status := "failed", errorCode := some "gemini_not_configured" }

/-- The record after the call of the model. -/
def concludeAnalysis (record : QuoteRecord) (outcome : CallOutcome) : QuoteRecord :=
  match outcome.result with
  | .ok analysis =>
      { record with status := "completed", analysis := some analysis, errorCode := none }
  | .error error =>
      { record with status := "failed", analysis := none, errorCode := some error.code }

/-- The lifecycle allows the state of the record. -/
def QuoteRecord.Valid (record : QuoteRecord) : Prop :=
  ValidState record.status record.analysis record.errorCode

/-- A new record is valid. -/
theorem newRecord_valid (settings : Settings) (subject : String) (request : QuoteRequest)
    (timestamp : String) (fresh : Uuid) :
    (newRecord settings subject request timestamp fresh).Valid :=
  .queued

/-- The record is valid when its analysis starts, whatever it was before. -/
theorem startAnalysis_valid (record : QuoteRecord) : (startAnalysis record).Valid :=
  .analyzing

/-- The record of a failed quote keeps its analysis, so it must not have one. -/
theorem notConfigured_valid {record : QuoteRecord} (h : record.analysis = none) :
    (notConfigured record).Valid := by
  rw [QuoteRecord.Valid, notConfigured, h]
  exact .failed _

/-- The record is valid when its analysis ends, with any outcome. -/
theorem concludeAnalysis_valid (record : QuoteRecord) (outcome : CallOutcome) :
    (concludeAnalysis record outcome).Valid := by
  unfold QuoteRecord.Valid concludeAnalysis
  split
  · exact .completed _
  · exact .failed _

/-- The end of an analysis keeps the id. -/
@[simp] theorem concludeAnalysis_quoteId (record : QuoteRecord) (outcome : CallOutcome) :
    (concludeAnalysis record outcome).quoteId = record.quoteId := by
  unfold concludeAnalysis
  split <;> rfl

/-- The end of an analysis keeps the owner. -/
@[simp] theorem concludeAnalysis_ownerSubject (record : QuoteRecord) (outcome : CallOutcome) :
    (concludeAnalysis record outcome).ownerSubject = record.ownerSubject := by
  unfold concludeAnalysis
  split <;> rfl

/-- The worker leaves the status `analyzing` along an edge. -/
theorem concludeAnalysis_edge (record : QuoteRecord) (outcome : CallOutcome) :
    StatusEdge "analyzing" (concludeAnalysis record outcome).status := by
  unfold concludeAnalysis
  split
  · exact .complete
  · exact .fail

end

/-! ### Inputs for runs -/

/-- The settings of a replica with a model. -/
def testSettings : Settings where
  geminiModel := "gemini-3.1-pro-preview"
  geminiConfigured := true
  databaseConfigured := true
  application := { text := "Canonical Plus", nonempty := by decide, short := by decide }

/-- The quote of `testCreate`. -/
def testQuote : Uuid := ⟨7⟩

/-- A call of the model without an answer. -/
def testOutcome : CallOutcome where
  result := .error .transport
  valid := by simp

/-- An analysis that passes the check. -/
def testAnswer : CallOutcome where
  result := .ok emptyRiskAnalysis
  valid := by
    intro analysis h
    cases h
    decide

end CanonicalApi
