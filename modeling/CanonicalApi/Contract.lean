import CanonicalApi.Lib.Outcome
import CanonicalApi.Record

/-!
# `CanonicalApi.Contract`: the public projection of a quote

The projections of `contract.rs`: the details, the summary, the list page and the status
event of a `QuoteRecord`. All of them render the estimate through `quoteEstimate`, which
reads the stored analysis again and fails on a value that it does not accept.

`succeeds_quoteListResponse_iff` says that a page renders exactly when each of its records does:
one unreadable record blocks every page that contains it.
-/

set_option autoImplicit false

namespace CanonicalApi

open JsonValue (member nonEmpty textMember u64Member arrayMember)
open Outcome

/-- The error of `invalid_stored_status`. -/
def invalidStoredStatus : ApiError :=
  .serviceUnavailable "storage_unavailable" "quote storage contains an invalid status"

/-- The error of `invalid_analysis`. -/
def invalidAnalysis : ApiError :=
  .serviceUnavailable "storage_unavailable" "a ready quote contains an invalid estimate"

/-- `u64::checked_mul`. -/
def checkedMul (a b : UInt64) : Option UInt64 :=
  if a.toNat * b.toNat < 2 ^ 64 then some (a * b) else none

/-- `i64::try_from` of a `u64`. -/
def i64TryFrom (value : UInt64) : Option Int :=
  if value.toNat < 2 ^ 63 then some value.toNat else none

/-- `cents`. -/
def cents (value : UInt64) : Except ApiError Int :=
  okOr invalidAnalysis ((checkedMul value 100).bind i64TryFrom)

/-- `cents` succeeds exactly when a hundred times the value fits an `i64`. -/
theorem cents_eq_ok_iff (value : UInt64) (n : Int) :
    cents value = .ok n ↔ 100 * value.toNat < 2 ^ 63 ∧ n = 100 * value.toNat := by
  have hmul : (value * 100).toNat = value.toNat * 100 % 2 ^ 64 := UInt64.toNat_mul value 100
  have h100 : (100 : UInt64).toNat = 100 := rfl
  unfold cents checkedMul i64TryFrom
  rw [okOr_eq_ok_iff, h100]
  -- The product must fit twice: first 64 bits, then the positive half of them.
  by_cases h64 : value.toNat * 100 < 2 ^ 64
  · rw [if_pos h64, Option.bind_some, hmul, Nat.mod_eq_of_lt h64]
    by_cases h63 : value.toNat * 100 < 2 ^ 63
    · rw [if_pos h63, Option.some.injEq]
      push_cast
      omega
    · rw [if_neg h63]
      constructor
      · intro h
        cases h
      · rintro ⟨h, -⟩
        omega
  · rw [if_neg h64]
    constructor
    · intro h
      cases h
    · rintro ⟨h, -⟩
      omega

/-- `required_u64`. -/
def requiredU64 (object : List (String × JsonValue)) (field : String) :
    Except ApiError UInt64 :=
  okOr invalidAnalysis (u64Member object field)

/-- `integer`. -/
def integer (object : List (String × JsonValue)) (field : String) : Except ApiError Int := do
  let value ← requiredU64 object field
  okOr invalidAnalysis (i64TryFrom value)

/-- `required_string`. -/
def requiredString (object : List (String × JsonValue)) (field : String) :
    Except ApiError String :=
  okOr invalidAnalysis (textMember object field)

/-- One item of `strings`. -/
def stringItem (item : JsonValue) : Except ApiError String :=
  okOr invalidAnalysis (item.asStr.bind nonEmpty)

/-- `strings` on the member `field`. -/
def strings (object : List (String × JsonValue)) (field : String) :
    Except ApiError (List String) := do
  let items ← okOr invalidAnalysis (arrayMember object field)
  items.mapM stringItem

/-- `aggregate_confidence`. -/
def aggregateConfidence (services : List JsonValue) : String :=
  let confidence := services.filterMap fun service =>
    (service.get "confidence").bind JsonValue.asStr
  if "low" ∈ confidence then "low"
  else if confidence ≠ [] ∧ ∀ value ∈ confidence, value = "high" then "high"
  else "medium"

/-- The next step that a recommended service contributes, if any. -/
def nextStep (service : JsonValue) : Option String := do
  let service ← service.asObject
  let phase := trim (← (← member service "phase").asStr)
  let scope := trim (← (← member service "scope").asStr)
  if phase ≠ "" ∧ scope ≠ "" then some (phase ++ ": " ++ scope) else none

/-- `canonical_lib::interfaces::QuoteEstimate`, the public form of an analysis. Amounts are in cents
and durations in weeks, both in `i64`. -/
structure QuoteEstimate where
  quoteId : String
  status : String
  currency : String
  lowerBoundCents : Int
  upperBoundCents : Int
  durationWeeksLow : Int
  durationWeeksHigh : Int
  confidence : String
  summary : String
  assumptions : List String
  gaps : List String
  nextSteps : List String
  frameworks : List String
  model : String
  contextVersion : String
  createdAt : String
deriving DecidableEq, Repr

/-- The next steps of an estimate: the first 25 contributions, or one fallback. -/
def nextSteps (services : List JsonValue) : List String :=
  let steps := (services.filterMap nextStep).take 25
  if steps = [] then ["Review the preliminary estimate with Canonical."] else steps

section

variable [CanonicalLib]

/-- `quote_estimate` on a finished quote with the analysis `object`. Every member that is missing or
of another type is an error, although the stored analysis was validated: the projection asks for
more than `validateAnalysis` does. -/
def estimateOf (record : QuoteRecord) (object : List (String × JsonValue)) :
    Except ApiError QuoteEstimate := do
  let feeLow ← requiredU64 object "estimated_total_fee_low"
  let feeHigh ← requiredU64 object "estimated_total_fee_high"
  let lowerBoundCents ← cents feeLow
  let upperBoundCents ← cents feeHigh
  let durationWeeksLow ← integer object "estimated_total_weeks_low"
  let durationWeeksHigh ← integer object "estimated_total_weeks_high"
  if lowerBoundCents > upperBoundCents ∨ durationWeeksLow < 1 ∨
      durationWeeksLow > durationWeeksHigh then
    .error invalidAnalysis
  else do
    let services ← okOr invalidAnalysis (arrayMember object "recommended_services")
    let risks ← strings object "risks"
    let missing ← strings object "missing_information"
    let currency ← requiredString object "currency"
    let summary ← requiredString object "summary"
    let assumptions ← strings object "assumptions"
    return {
      quoteId := record.quoteId.toText
      status := "ready"
      currency
      lowerBoundCents
      upperBoundCents
      durationWeeksLow
      durationWeeksHigh
      confidence := aggregateConfidence services
      summary
      assumptions
      gaps := (risks ++ missing).take 50
      nextSteps := nextSteps services
      frameworks := record.request.frameworks
      model := record.geminiModel
      contextVersion := "context-record:" ++ record.contextRecordId.toText ++ "@" ++
        record.createdAt
      createdAt := record.updatedAt }

/-- `quote_estimate`. -/
def quoteEstimate (record : QuoteRecord) : Except ApiError (Option QuoteEstimate) :=
  if record.status ≠ "completed" ∧ record.status ≠ "ready" then .ok none
  else do
    let object ← okOr invalidAnalysis (record.analysis.bind JsonValue.asObject)
    let estimate ← estimateOf record object
    return some estimate

end

/-- The public status of a quote, of `QuoteDetailStatus`, `QuoteSummaryStatus` and
`QuoteSubmissionResponseStatus`. -/
inductive PublicStatus where
  | queued
  | analyzing
  | ready
  | failed
deriving DecidableEq, Repr

/-- `canonical_lib::interfaces::QuoteStatusEventStage`. The service stores no status for two of
them, `loadingContext` and `validating`. -/
inductive EventStage where
  | queued
  | loadingContext
  | analyzing
  | validating
  | ready
  | failed
deriving DecidableEq, Repr

/-- `submission_status`. -/
def submissionStatus (status : String) : PublicStatus :=
  if status = "analyzing" then .analyzing
  else if status = "completed" ∨ status = "ready" then .ready
  else if status = "failed" then .failed
  else .queued

/-- `detail_status`, and the same match in `quote_summary`. -/
def detailStatus (status : String) : Except ApiError PublicStatus :=
  if status = "queued" then .ok .queued
  else if status = "analyzing" then .ok .analyzing
  else if status = "completed" ∨ status = "ready" then .ok .ready
  else if status = "failed" then .ok .failed
  else .error invalidStoredStatus

/-- `event_stage`. Two stored statuses stand for a finished analysis, and an unknown status is an
error of the server. -/
def eventStage (status : String) : Except ApiError EventStage :=
  if status = "queued" then .ok .queued
  else if status = "loading_context" then .ok .loadingContext
  else if status = "analyzing" then .ok .analyzing
  else if status = "validating" then .ok .validating
  else if status = "completed" ∨ status = "ready" then .ok .ready
  else if status = "failed" then .ok .failed
  else .error invalidStoredStatus

/-- `QuoteProblem` without its fresh request id. -/
structure QuoteProblem where
  code : String
  message : String
deriving DecidableEq, Repr

/-- `quote_failure_problem`. -/
def quoteFailureProblem [CanonicalLib] (record : QuoteRecord) : Option QuoteProblem :=
  if record.status = "failed" then
    some { code := "analysis_failed"
           message := "Quote analysis failed; the request may be retried." }
  else none

/-- `events_url`. -/
def eventsUrl (quoteId : Uuid) : String :=
  "/api/v1/quotes/" ++ quoteId.toText ++ "/events"

/-- The message of a stage, as `quote_status_event` writes it for the reader. -/
def stageMessage : EventStage → String
  | .queued => "Quote accepted and queued for analysis."
  | .loadingContext => "Loading the selected Canonical context."
  | .analyzing => "Analyzing the bounded quote request."
  | .validating => "Validating the bounded estimate response."
  | .ready => "The preliminary quote is ready for review."
  | .failed => "Quote analysis did not complete successfully."

section

variable [CanonicalLib]

/-- `canonical_lib::interfaces::QuoteSubmissionResponse`. -/
structure QuoteSubmissionResponse where
  quoteId : String
  status : PublicStatus
  streamUrl : String
  createdAt : String
deriving DecidableEq

/-- `quote_submission_response`. -/
def quoteSubmissionResponse (record : QuoteRecord) : QuoteSubmissionResponse where
  quoteId := record.quoteId.toText
  status := submissionStatus record.status
  streamUrl := eventsUrl record.quoteId
  createdAt := record.createdAt

/-- `canonical_lib::interfaces::QuoteRetryResponse`. -/
structure QuoteRetryResponse where
  quoteId : String
  status : PublicStatus
  streamUrl : String
  updatedAt : String
deriving DecidableEq

/-- `quote_retry_response`. -/
def quoteRetryResponse (record : QuoteRecord) : QuoteRetryResponse where
  quoteId := record.quoteId.toText
  status := .queued
  streamUrl := eventsUrl record.quoteId
  updatedAt := record.updatedAt

/-- `canonical_lib::interfaces::QuoteDetail`, the answer to a request for one quote. -/
structure QuoteDetail where
  quoteId : String
  status : PublicStatus
  request : QuoteRequest
  eventsUrl : String
  createdAt : String
  updatedAt : String
  estimate : Option QuoteEstimate
  problem : Option QuoteProblem

/-- `quote_detail`. It fails if the status is unknown or the estimate cannot be projected, so a
readable quote is one for which both succeed. -/
def quoteDetail (record : QuoteRecord) : Except ApiError QuoteDetail := do
  let status ← detailStatus record.status
  let estimate ← quoteEstimate record
  return {
    quoteId := record.quoteId.toText
    status
    request := record.request
    eventsUrl := eventsUrl record.quoteId
    createdAt := record.createdAt
    updatedAt := record.updatedAt
    estimate
    problem := quoteFailureProblem record }

/-- `canonical_lib::interfaces::QuoteSummary`, a quote on a page of the list. -/
structure QuoteSummary where
  quoteId : String
  status : PublicStatus
  organizationName : String
  frameworks : List String
  createdAt : String
  updatedAt : String
  estimate : Option QuoteEstimate

/-- `quote_summary`. It can fail where `quoteDetail` can: at the status and at the estimate. -/
def quoteSummary (record : QuoteRecord) : Except ApiError QuoteSummary := do
  let status ← detailStatus record.status
  let estimate ← quoteEstimate record
  return {
    quoteId := record.quoteId.toText
    status
    organizationName := record.request.organizationName
    frameworks := record.request.frameworks
    createdAt := record.createdAt
    updatedAt := record.updatedAt
    estimate }

/-- `canonical_lib::interfaces::QuoteListResponse`. -/
structure QuoteListResponse where
  quotes : List QuoteSummary
  nextCursor : Option String

/-- `quote_list_response`. -/
def quoteListResponse (records : List QuoteRecord) (limit : Nat) :
    Except ApiError QuoteListResponse := do
  let page := if records.length > limit then records.take limit else records
  let nextCursor :=
    if records.length > limit then page.getLast?.map fun record => record.quoteId.toText
    else none
  let quotes ← page.mapM quoteSummary
  return { quotes, nextCursor }

/-- `canonical_lib::interfaces::QuoteStatusEvent`. -/
structure QuoteStatusEvent where
  quoteId : String
  sequence : String
  stage : EventStage
  message : String
  terminal : Bool
  estimate : Option QuoteEstimate
  occurredAt : String
  problem : Option QuoteProblem

/-- `quote_status_event`. -/
def quoteStatusEvent (event : QuoteEventRecord) (record : QuoteRecord) :
    Except ApiError QuoteStatusEvent := do
  let stage ← eventStage event.status
  let estimate ← quoteEstimate record
  return {
    quoteId := record.quoteId.toText
    sequence := toString event.sequence
    stage
    message := stageMessage stage
    terminal := stage = .ready ∨ stage = .failed
    estimate
    occurredAt := event.occurredAt
    problem := quoteFailureProblem record }

end

end CanonicalApi
