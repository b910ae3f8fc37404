import CanonicalApi.Identity
import CanonicalApi.Lib.Outcome

/-!
# `CanonicalApi.Observation.Event`: observation events and their validation

The event of `readiness_observation_ingest.rs`, the errors of an ingest call, and
`validateEvent` with its three loops: over the evidence, over the assertions, and over the
references of an assertion. A set of texts that the Rust code collects in a `HashSet` is a
list here; only membership is read.

`toValue` is the JSON value that is stored with an accepted event.
-/

set_option autoImplicit false

namespace CanonicalApi

open Outcome

/-- `EVENT_SPEC`. -/
def eventSpec : String := "canonical.readiness.observation.v1"

/-- `MAX_CLOCK_SKEW_SECONDS`. -/
def maxClockSkewSeconds : Int := 300

/-- `MAX_ASSERTIONS`. -/
def maxAssertions : Nat := 256

/-- `MAX_EVIDENCE`. -/
def maxEvidence : Nat := 256

/-- `MAX_STATEMENT_BYTES`. -/
def maxStatementBytes : Nat := 2048

/-- `MAX_LOCATOR_BYTES`. -/
def maxLocatorBytes : Nat := 2048

/-- `MAX_CONTENT_TYPE_BYTES`. -/
def maxContentTypeBytes : Nat := 128

/-- `IngestError`, and next to it the status, code and message of its `IngestProblem`. Two of them
give the same problem, because a client learns nothing about the database. -/
inductive IngestError where
  | invalidRequest
  | bodyTooLarge
  | invalidSignature
  | staleSignature
  | eventConflict
  | sequenceConflict
  | storageUnavailable
  | internal
  | database
deriving DecidableEq, Repr

/-- `From<IngestError> for IngestProblem`. An error says which check failed, but not on which
member. -/
def IngestError.problem : IngestError → ApiError
  | invalidRequest => .badRequest "invalid-request" "readiness observation request is invalid"
  | bodyTooLarge =>
      { status := 413
        code := "invalid-request"
        message := "readiness observation body exceeds the configured limit" }
  | invalidSignature => .unauthorized "invalid-signature" "webhook authentication failed"
  | staleSignature =>
      .unauthorized "stale-signature" "webhook timestamp is outside the replay window"
  | eventConflict => .conflict "event-conflict" "event id was reused with different content"
  | sequenceConflict =>
      .conflict "sequence-conflict" "source sequence must be the next contiguous value"
  | storageUnavailable | database =>
      .serviceUnavailable "storage-unavailable" "readiness observation storage is unavailable"
  | internal =>
      { status := 500
        code := "internal"
        message := "readiness observation could not be processed" }

/-- `ReportedStatus`. -/
inductive ReportedStatus where
  | observed
  | notObserved
  | exception
  | notApplicableRequested
  | unknown
deriving DecidableEq, Repr

/-- The text of a status in JSON. -/
def ReportedStatus.text : ReportedStatus → String
  | observed => "observed"
  | notObserved => "not-observed"
  | exception => "exception"
  | notApplicableRequested => "not-applicable-requested"
  | unknown => "unknown"

/-- `EvidenceItem`, as the decoder of the body returns it. Nothing is checked at that point. -/
structure EvidenceItem where
  evidenceId : String
  kind : String
  sha256 : String
  collectedAt : String
  locator : Option String
  contentType : Option String
  sizeBytes : Option UInt64
deriving DecidableEq, Repr

/-- `ObservationAssertion`. -/
structure ObservationAssertion where
  frameworkId : String
  controlId : String
  reportedStatus : ReportedStatus
  statement : Option String
  evidenceIds : List String
deriving DecidableEq, Repr

/-- `ObservationEvent`, as the decoder of the body returns it. The sequence number is an `i64` and
may be negative until `validate_event` has seen it. -/
structure ObservationEvent where
  specVersion : String
  eventId : String
  sourceId : String
  sourceSequence : Int64
  organization : String
  observedAt : String
  assertions : List ObservationAssertion
  evidence : List EvidenceItem
deriving DecidableEq

/-! ### The stored JSON value -/

/-- A member that is written only when it has a value. -/
def optionalMember (field : String) (value : Option JsonValue) : List (String × JsonValue) :=
  match value with
  | some value => [(field, value)]
  | none => []

/-- An `i64` as a JSON number. -/
def JsonNumber.ofInt64 (n : Int64) : JsonNumber :=
  if n.toInt < 0 then .negInt n.toInt else .posInt (UInt64.ofNat n.toInt.toNat)

/-- `serde_json::to_value` of an evidence item. A member that is not given is left out. -/
def EvidenceItem.toValue (evidence : EvidenceItem) : JsonValue :=
  .object (
    [("collectedAt", .string evidence.collectedAt)] ++
    optionalMember "contentType" (evidence.contentType.map .string) ++
    [("evidenceId", .string evidence.evidenceId), ("kind", .string evidence.kind)] ++
    optionalMember "locator" (evidence.locator.map .string) ++
    [("sha256", .string evidence.sha256)] ++
    optionalMember "sizeBytes" (evidence.sizeBytes.map fun size => .number (.posInt size)))

/-- `serde_json::to_value` of an assertion, with the members in the order of their names. -/
def ObservationAssertion.toValue (assertion : ObservationAssertion) : JsonValue :=
  .object (
    [("controlId", .string assertion.controlId),
      ("evidenceIds", .array (assertion.evidenceIds.map .string)),
      ("frameworkId", .string assertion.frameworkId),
      ("reportedStatus", .string assertion.reportedStatus.text)] ++
    optionalMember "statement" (assertion.statement.map .string))

/-- `serde_json::to_value` of an event, with the members in the order of their names. This is the
document that the database stores. -/
def ObservationEvent.toValue (event : ObservationEvent) : JsonValue :=
  .object [
    ("assertions", .array (event.assertions.map ObservationAssertion.toValue)),
    ("eventId", .string event.eventId),
    ("evidence", .array (event.evidence.map EvidenceItem.toValue)),
    ("observedAt", .string event.observedAt),
    ("organization", .string event.organization),
    ("sourceId", .string event.sourceId),
    ("sourceSequence", .number (.ofInt64 event.sourceSequence)),
    ("specVersion", .string event.specVersion)]

/-! ### Validation -/

/-- `is_lower_hex`. -/
def isLowerHex (byte : UInt8) : Bool :=
  isAsciiDigit byte || (97 ≤ byte && byte ≤ 102)

/-- `valid_sha256`. -/
def validSha256 (value : String) : Bool :=
  (stripPrefix value "sha256:").any fun hex => len hex == 64 && (bytes hex).all isLowerHex

section

variable [TimeCrate] [UrlCrate]

/-- `validate_locator`. A locator is a URN, or an HTTPS address with a host. It has no query, no
fragment and no credentials, so that it carries no secret. -/
def validateLocator (locator : String) : Except IngestError Unit :=
  if locator = "" ∨ len locator > maxLocatorBytes then .error .invalidRequest
  else do
    let parsed ← okOr .invalidRequest (UrlCrate.parse locator)
    if parsed.query.isSome ∨ parsed.fragment.isSome ∨ parsed.username ≠ "" ∨
        parsed.password.isSome then
      .error .invalidRequest
    else if parsed.scheme = "urn" then .ok ()
    else if parsed.scheme = "https" ∧ parsed.host.isSome then .ok ()
    else .error .invalidRequest

/-- The checks on an evidence item that need no clock, apart from the repetition of its id. -/
def evidenceFieldsInvalid (evidence : EvidenceItem) : Bool :=
  !portableIdentifier evidence.evidenceId || evidence.kind == "" || len evidence.kind > 64 ||
    !validSha256 evidence.sha256 ||
    (evidence.contentType.any fun value =>
      value == "" || len value > maxContentTypeBytes || (bytes value).any isAsciiControl) ||
    evidence.sizeBytes.any fun size => size > 1125899906842624

/-- The loop of `validate_event` over the evidence. `seen` holds the ids so far, and the
result holds all of them. -/
def validateEvidence (now observedAt : Instant) (seen : List String) :
    List EvidenceItem → Except IngestError (List String)
  | [] => .ok seen
  | evidence :: rest =>
      if evidenceFieldsInvalid evidence ∨ evidence.evidenceId ∈ seen then
        .error .invalidRequest
      else do
        let collectedAt ← okOr .invalidRequest (TimeCrate.parse evidence.collectedAt)
        if collectedAt.unixTimestamp - now.unixTimestamp > maxClockSkewSeconds ∨
            collectedAt.unixTimestamp - observedAt.unixTimestamp > maxClockSkewSeconds then
          .error .invalidRequest
        else do
          match evidence.locator with
          | some locator => validateLocator locator
          | none => .ok ()
          validateEvidence now observedAt (evidence.evidenceId :: seen) rest

/-- The loop of `validate_event` over the references of an assertion. -/
def validateReferences (evidenceIds seen : List String) :
    List String → Except IngestError Unit
  | [] => .ok ()
  | evidenceId :: rest =>
      if evidenceId ∈ seen ∨ evidenceId ∉ evidenceIds then .error .invalidRequest
      else validateReferences evidenceIds (evidenceId :: seen) rest

/-- The checks on the fields of an assertion. -/
def assertionFieldsInvalid (assertion : ObservationAssertion) : Bool :=
  !portableIdentifier assertion.frameworkId || !portableIdentifier assertion.controlId ||
    (assertion.statement.any fun value => value == "" || len value > maxStatementBytes) ||
    assertion.evidenceIds.length > 128

/-- The loop of `validate_event` over the assertions. No two assertions are about one control, and
each refers to evidence of the event only. -/
def validateAssertions (evidenceIds : List String) (seen : List (String × String)) :
    List ObservationAssertion → Except IngestError Unit
  | [] => .ok ()
  | assertion :: rest =>
      if assertionFieldsInvalid assertion ∨
          (assertion.frameworkId, assertion.controlId) ∈ seen then
        .error .invalidRequest
      else do
        validateReferences evidenceIds [] assertion.evidenceIds
        validateAssertions evidenceIds ((assertion.frameworkId, assertion.controlId) :: seen)
          rest

/-- The first condition of `validate_event`. -/
def eventFieldsInvalid (event : ObservationEvent) : Bool :=
  event.specVersion != eventSpec || !portableIdentifier event.eventId ||
    !portableIdentifier event.sourceId || !portableIdentifier event.organization ||
    event.sourceSequence ≤ 0 || event.assertions.isEmpty ||
    event.assertions.length > maxAssertions || event.evidence.length > maxEvidence

/-- `validate_event`. The clock is compared in whole Unix seconds, and only with times that lie
ahead; an event may be as old as it likes. -/
def validateEvent (event : ObservationEvent) (now : Instant) : Except IngestError Unit :=
  if eventFieldsInvalid event then .error .invalidRequest
  else do
    let observedAt ← okOr .invalidRequest (TimeCrate.parse event.observedAt)
    if observedAt.unixTimestamp - now.unixTimestamp > maxClockSkewSeconds then
      .error .invalidRequest
    else do
      let evidenceIds ← validateEvidence now observedAt [] event.evidence
      validateAssertions evidenceIds [] event.assertions

/-- An event that passes has portable identifiers and a positive sequence number. -/
theorem validateEvent_fields {event : ObservationEvent} {now : Instant}
    (h : validateEvent event now = .ok ()) :
    portableIdentifier event.eventId = true ∧ portableIdentifier event.sourceId = true ∧
      ¬ event.sourceSequence ≤ 0 := by
  obtain ⟨hfields, -⟩ := (ite_error_eq_ok_iff _ _ _ _).mp h
  simp only [eventFieldsInvalid, Bool.or_eq_true, not_or, Bool.not_eq_true', decide_eq_true_eq,
    Bool.not_eq_false] at hfields
  obtain ⟨⟨⟨⟨⟨⟨⟨-, heventId⟩, hsourceId⟩, -⟩, hsequence⟩, -⟩, -⟩, -⟩ := hfields
  exact ⟨heventId, hsourceId, hsequence⟩

end

end CanonicalApi
