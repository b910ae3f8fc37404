import CanonicalApi.External
import Mathlib.Algebra.Group.Nat.Defs

/-!
# `CanonicalApi.Record`: the records the service keeps and the errors it answers

`QuoteRecord`, `QuoteEventRecord` and `CanonicalContext` follow `lib.rs` field by field.
The status of a record is a text there, and stays one here.

A `QuoteRequest` of `canonical-lib` is represented by the JSON value that `serde_json`
writes for it, together with the fact that the crate reads this value back. Decoding what
was encoded then gives the request again (`QuoteRequest.fromValue_toValue`).

An `ApiError` carries the HTTP status and the code and message of its body. The fresh
request id of the body is left out: no function reads it.
-/

set_option autoImplicit false

namespace CanonicalApi

/-- `uuid::Uuid`, 128 bits. -/
structure Uuid where
  bits : BitVec 128
deriving DecidableEq, Repr

namespace Uuid

/-- `Uuid::nil`. -/
def nil : Uuid := ⟨0⟩

/-- The 32 hexadecimal digits, most significant first. -/
def digits (id : Uuid) : List Char :=
  (List.range 32).map fun i => JsonValue.hexDigit (id.bits.toNat / 16 ^ (31 - i) % 16)

/-- `Uuid::to_string`: the hyphenated form. -/
def toText (id : Uuid) : String :=
  let d := id.digits
  String.ofList (d.take 8 ++ '-' :: (d.drop 8).take 4 ++ '-' :: (d.drop 12).take 4 ++
    '-' :: (d.drop 16).take 4 ++ '-' :: d.drop 20)

end Uuid

/-- `Uuid::parse_str` of the crate `uuid`. -/
class UuidCrate where
  parseStr : String → Option Uuid

/-- `canonical_lib::interfaces::QuoteRequest`, as the JSON value that is written for it. -/
structure QuoteRequest [CanonicalLib] where
  json : JsonValue
  decoded : CanonicalLib.decodesQuoteRequest json = true
deriving DecidableEq

namespace QuoteRequest

variable [CanonicalLib]

/-- `serde_json::to_value`. -/
def toValue (request : QuoteRequest) : JsonValue := request.json

/-- `serde_json::from_value`. -/
def fromValue (value : JsonValue) : Option QuoteRequest :=
  if h : CanonicalLib.decodesQuoteRequest value = true then some ⟨value, h⟩ else none

/-- The field `organization_name`. -/
def organizationName (request : QuoteRequest) : String :=
  ((request.json.get "organizationName").bind JsonValue.asStr).getD ""

/-- The field `frameworks`. -/
def frameworks (request : QuoteRequest) : List String :=
  (((request.json.get "frameworks").bind JsonValue.asArray).getD []).filterMap JsonValue.asStr

/-- Decoding what was encoded gives the request again. -/
@[simp] theorem fromValue_toValue (request : QuoteRequest) :
    fromValue request.toValue = some request := by
  simp [fromValue, toValue, request.decoded]

end QuoteRequest

/-- The request of `fixtures/quote/v1/request.json`. -/
def fixtureJson : JsonValue :=
  .object [
    ("annualRevenueBand", .string "10m_50m"),
    ("answersVersion", .number (.posInt 1)),
    ("contactEmail", .string "security@example.com"),
    ("contactName", .string "Taylor Example"),
    ("contextKey", .string "quote-analysis"),
    ("currentStage", .string "readiness"),
    ("dataSensitivity", .array [.string "confidential", .string "pii", .string "phi"]),
    ("employeeCount", .number (.posInt 120)),
    ("frameworks", .array [.string "soc2_type_2", .string "nist_csf_2", .string "nist_800_53",
      .string "hipaa"]),
    ("hasIncidentResponsePlan", .bool true),
    ("hasPolicies", .bool true),
    ("hasRiskAssessment", .bool false),
    ("hasSecurityProgram", .bool true),
    ("hasVendorManagement", .bool false),
    ("infrastructure", .array [.string "aws", .string "saas_only"]),
    ("notes", .string "Planning fixture only; contains no secrets or regulated records."),
    ("organizationName", .string "Example Company"),
    ("targetDate", .string "2026-12-31"),
    ("website", .string "https://example.com")]

/-- A `canonical-lib` that reads the fixture and nothing else. -/
@[reducible] def fixtureLib : CanonicalLib where
  decodesQuoteRequest value := decide (value = fixtureJson)

/-- The fixture, read by `fixtureLib`. -/
def fixtureRequest : @QuoteRequest fixtureLib :=
  letI := fixtureLib
  { json := fixtureJson, decoded := decide_eq_true rfl }

/-- `AcceptedQuoteRequest` of `contract.rs`. -/
structure AcceptedQuoteRequest [CanonicalLib] where
  applicationMarkdown : String
  wire : QuoteRequest
deriving DecidableEq

/-- `QuoteRecord` of `lib.rs`, the quote as the handlers hold it. `persistence` tells the client
where it is kept. -/
structure QuoteRecord [CanonicalLib] where
  analysis : Option JsonValue
  contextRecordId : Uuid
  errorCode : Option String
  geminiModel : String
  ownerSubject : String
  persistence : String
  quoteId : Uuid
  request : QuoteRequest
  status : String
  createdAt : String
  updatedAt : String
deriving DecidableEq

/-- `QuoteEventRecord` of `lib.rs`. -/
structure QuoteEventRecord where
  ownerSubject : String
  quoteId : Uuid
  sequence : Nat
  status : String
  occurredAt : String
deriving DecidableEq, Repr

/-- `ApiError` of `lib.rs`, without the fresh request id of its body. -/
structure ApiError where
  status : Nat
  code : String
  message : String
  retryAfterSeconds : Option Nat := none
deriving DecidableEq, Repr

namespace ApiError

/-- A 400. -/
def badRequest (code message : String) : ApiError := { status := 400, code, message }

/-- A 401. -/
def unauthorized (code message : String) : ApiError := { status := 401, code, message }

/-- A 404. -/
def notFound (code message : String) : ApiError := { status := 404, code, message }

/-- A 409. -/
def conflict (code message : String) : ApiError := { status := 409, code, message }

/-- A 503. -/
def serviceUnavailable (code message : String) : ApiError := { status := 503, code, message }

/-- A 429, with the seconds to wait. -/
def rateLimited (retryAfterSeconds : Nat) : ApiError :=
  { status := 429
    code := "rate_limited"
    message := "quote submissions are temporarily rate limited"
    retryAfterSeconds := some retryAfterSeconds }

end ApiError

/-- `idempotency_reused` of `lib.rs`. -/
def idempotencyReused : ApiError :=
  .conflict "idempotency_key_reused"
    "Idempotency-Key was already used for another operation or payload"

/-- `storage_unavailable` of `lib.rs`. -/
def storageUnavailable : ApiError :=
  .serviceUnavailable "storage_unavailable" "quote storage is temporarily unavailable"

/-- `MAX_CONTEXT_RECORD_BYTES`. -/
def maxContextRecordBytes : Nat := 262144

/-- `CanonicalContext` of `lib.rs`. -/
structure CanonicalContext where
  contextJson : JsonValue
  contextMarkdown : String
  id : Uuid
  name : String
deriving DecidableEq

namespace CanonicalContext

/-- `CanonicalContext::request_only`. -/
def requestOnly : CanonicalContext where
  contextJson := .object []
  contextMarkdown := ""
  id := Uuid.nil
  name := "request-only context"

/-- `CanonicalContext::validate`. The error is a text, which `buildPrompt` drops. -/
def validate (context : CanonicalContext) : Except String Unit :=
  if len context.name = 0 ∨ len context.name > 200 then
    .error "canonical_context.name is invalid"
  else if len context.contextMarkdown > maxContextRecordBytes then
    .error "canonical_context.context_markdown is too large"
  else if len context.contextJson.compact > maxContextRecordBytes then
    .error "canonical_context.context_json is too large"
  else .ok ()

end CanonicalContext

end CanonicalApi
