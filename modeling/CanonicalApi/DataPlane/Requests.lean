import CanonicalApi.DataPlane.Frames
import CanonicalApi.JsonPretty.Compact
import CanonicalApi.Lib.Outcome
import CanonicalApi.Text
import Mathlib.Data.List.Infix

/-!
# `CanonicalApi.DataPlane.Requests`: the envelopes on the wire

The request and the response of `web_data_plane`, which are the same on all four data paths, and
their checks. `encoded` is the output of `serde_json::to_vec`.

`validateFor_eq_ok_iff` says what `validate_for` accepts, and `encoded_injective` that the bytes
determine the request. `web_request_wire` takes both to the frames of the stateful TCP path, and
`web_response_wire` does the same for a response.
-/

set_option autoImplicit false

namespace CanonicalApi

namespace DataPlane

open JsonValue (compact compact_injective)
open Outcome (ite_error_eq_ok_iff unit_bind_eq_ok_iff)

/-! ### The envelopes -/

/-- The ways in which the web API reaches this service. -/
inductive WebApiMode where
  | directReadOnlyDatabase
  | statelessHttp
  | statefulMtlsTcp
  | jetStreamAsync
deriving DecidableEq, Repr

/-- What a request does to its resource. -/
inductive DataOperation where
  | read
  | write
deriving DecidableEq, Repr

/-- The errors of the envelopes. A `Value` can always be serialized. -/
inductive EnvelopeError where
  | contract
  | audience
  | invalidIdentifier (field : String)
  | invalidResource
  | directDatabaseWrite
  | missingDedupeKey
  | requestTooLarge (actual maximum : Nat)
  | responseTooLarge (actual maximum : Nat)
deriving DecidableEq, Repr

/-- The numbers of the payload are as `serde_json` holds them. -/
structure WebApiRequest where
  contract : String
  requestId : String
  tenantId : String
  subject : String
  audience : String
  operation : DataOperation
  resource : String
  payload : JsonValue
  dedupeKey : Option String
  proper : payload.proper = true

/-- A response. The payload of a response that exists is a value that `serde_json` can hold. -/
structure WebApiResponse where
  contract : String
  requestId : String
  status : UInt16
  payload : JsonValue
  proper : payload.proper = true

/-- `WEB_API_CONTRACT`. -/
def webApiContract : String := "canonical-cloud/web-api/v1"

/-- `API_AUDIENCE`. -/
def apiAudience : String := "canonical-plus-api"

/-- `MAX_REQUEST_BYTES`. -/
def maxRequestBytes : Nat := 64 * 1024

/-- `MAX_RESPONSE_BYTES`. -/
def maxResponseBytes : Nat := 256 * 1024

/-- `MAX_DEDUPE_KEY_BYTES`. -/
def maxDedupeKeyBytes : Nat := 128

/-- The name of an operation in the envelope. -/
def DataOperation.name : DataOperation → String
  | read => "read"
  | write => "write"

/-- A request as `serde` writes it. A dedupe key that is not there is left out. -/
def WebApiRequest.toValue (request : WebApiRequest) : JsonValue :=
  .object ([
    ("contract", .string request.contract),
    ("request_id", .string request.requestId),
    ("tenant_id", .string request.tenantId),
    ("subject", .string request.subject),
    ("audience", .string request.audience),
    ("operation", .string request.operation.name),
    ("resource", .string request.resource),
    ("payload", request.payload)] ++
    (request.dedupeKey.map fun key => ("dedupe_key", JsonValue.string key)).toList)

/-- A response as `serde` writes it. -/
def WebApiResponse.toValue (response : WebApiResponse) : JsonValue :=
  .object [
    ("contract", .string response.contract),
    ("request_id", .string response.requestId),
    ("status", .number (.posInt (UInt64.ofNat response.status.toNat))),
    ("payload", response.payload)]

/-- The bytes of a request. -/
def WebApiRequest.encoded (request : WebApiRequest) : List UInt8 :=
  bytes (compact request.toValue)

/-- The bytes of a response. -/
def WebApiResponse.encoded (response : WebApiResponse) : List UInt8 :=
  bytes (compact response.toValue)

/-! ### The checks -/

/-- `validate_identifier`. -/
def validateIdentifier (field value : String) (maximum : Nat) : Except EnvelopeError Unit :=
  if value = "" ∨ maximum < len value ∨ trim value ≠ value ∨
      value.toList.any isControl = true then
    .error (.invalidIdentifier field)
  else .ok ()

/-- `validate_resource`. -/
def validateResource (value : String) : Except EnvelopeError Unit :=
  if value = "" ∨ 256 < len value ∨ value.toList.head? ≠ some '/' ∨
      ['.', '.'] <:+: value.toList ∨ '?' ∈ value.toList ∨ '#' ∈ value.toList ∨
      value.toList.any isControl = true then
    .error .invalidResource
  else .ok ()

/-- `validate_dedupe_key`. -/
def validateDedupeKey : Option String → Except EnvelopeError Unit
  | none => .error .missingDedupeKey
  | some value => validateIdentifier "dedupe_key" value maxDedupeKeyBytes

/-- The dedupe key, on the path that asks for one. -/
def WebApiRequest.validateDedupe (request : WebApiRequest) (mode : WebApiMode) :
    Except EnvelopeError Unit :=
  if mode = .jetStreamAsync then validateDedupeKey request.dedupeKey else .ok ()

/-- `validate_for`. -/
def WebApiRequest.validateFor (request : WebApiRequest) (mode : WebApiMode) :
    Except EnvelopeError Unit :=
  if request.contract ≠ webApiContract then .error .contract
  else do
    validateIdentifier "request_id" request.requestId 128
    validateIdentifier "tenant_id" request.tenantId 128
    validateIdentifier "subject" request.subject 255
    if request.audience ≠ apiAudience then .error .audience
    else do
      validateResource request.resource
      if mode = .directReadOnlyDatabase ∧ request.operation ≠ .read then
        .error .directDatabaseWrite
      else do
        request.validateDedupe mode
        if maxRequestBytes < request.encoded.length then
          .error (.requestTooLarge request.encoded.length maxRequestBytes)
        else .ok ()

/-- `encode_bounded`. -/
def WebApiResponse.encodeBounded (response : WebApiResponse) :
    Except EnvelopeError (List UInt8) :=
  if response.contract ≠ webApiContract then .error .contract
  else do
    validateIdentifier "request_id" response.requestId 128
    if maxResponseBytes < response.encoded.length then
      .error (.responseTooLarge response.encoded.length maxResponseBytes)
    else .ok response.encoded

/-! ### What is accepted -/

/-- What every path asks of a request. -/
structure WebApiRequest.Valid (request : WebApiRequest) : Prop where
  contract : request.contract = webApiContract
  requestId : validateIdentifier "request_id" request.requestId 128 = .ok ()
  tenantId : validateIdentifier "tenant_id" request.tenantId 128 = .ok ()
  subject : validateIdentifier "subject" request.subject 255 = .ok ()
  audience : request.audience = apiAudience
  resource : validateResource request.resource = .ok ()
  fits : request.encoded.length ≤ maxRequestBytes

/-- What a path asks of a request beyond that. -/
def WebApiRequest.Suits (request : WebApiRequest) : WebApiMode → Prop
  | .directReadOnlyDatabase => request.operation = .read
  | .jetStreamAsync => validateDedupeKey request.dedupeKey = .ok ()
  | .statelessHttp | .statefulMtlsTcp => True

/-- The checks of all paths are the same but for one. -/
theorem validateFor_eq_ok_iff (request : WebApiRequest) (mode : WebApiMode) :
    request.validateFor mode = .ok () ↔ request.Valid ∧ request.Suits mode := by
  have hmode : ¬ (mode = .directReadOnlyDatabase ∧ request.operation ≠ .read) ∧
      request.validateDedupe mode = .ok () ↔ request.Suits mode := by
    cases mode <;> simp [WebApiRequest.Suits, WebApiRequest.validateDedupe]
  simp only [WebApiRequest.validateFor, ite_error_eq_ok_iff, unit_bind_eq_ok_iff, not_not,
    ← hmode]
  constructor
  · rintro ⟨hcontract, hrequest, htenant, hsubject, haudience, hresource, hwrite, hdedupe, hfits,
      -⟩
    exact ⟨⟨hcontract, hrequest, htenant, hsubject, haudience, hresource, Nat.le_of_not_lt hfits⟩,
      hwrite, hdedupe⟩
  · rintro ⟨h, hwrite, hdedupe⟩
    exact ⟨h.contract, h.requestId, h.tenantId, h.subject, h.audience, h.resource, hwrite, hdedupe,
      Nat.not_lt_of_le h.fits, trivial⟩

/-! ### The bytes -/

/-- A request is serialized with numbers as `serde_json` holds them. -/
theorem proper_toValue (request : WebApiRequest) : request.toValue.proper = true := by
  have hpayload := request.proper
  cases hkey : request.dedupeKey <;>
    simp [WebApiRequest.toValue, JsonValue.proper, JsonValue.properMembers, hpayload, hkey]

/-- Two requests with the same members are the same. -/
theorem request_toValue_injective {request other : WebApiRequest}
    (h : request.toValue = other.toValue) : request = other := by
  obtain ⟨contract, requestId, tenantId, subject, audience, operation, resource, payload,
    dedupeKey, _⟩ := request
  obtain ⟨contract', requestId', tenantId', subject', audience', operation', resource', payload',
    dedupeKey', _⟩ := other
  simp only [WebApiRequest.toValue, JsonValue.object.injEq, List.cons_append, List.nil_append,
    List.cons.injEq, Prod.mk.injEq, JsonValue.string.injEq, true_and] at h
  obtain ⟨rfl, rfl, rfl, rfl, rfl, hoperation, rfl, rfl, hkey⟩ := h
  have hname : operation = operation' := by
    cases operation <;> cases operation' <;> simp_all [DataOperation.name]
  have hdedupe : dedupeKey = dedupeKey' := by
    cases dedupeKey <;> cases dedupeKey' <;> simp_all
  subst hname hdedupe
  rfl

/-- The bytes determine the request. -/
theorem encoded_injective : Function.Injective WebApiRequest.encoded := by
  intro request other h
  exact request_toValue_injective
    (compact_injective (proper_toValue request) (proper_toValue other) (bytes_injective h))

/-- A response is serialized with numbers as `serde_json` holds them. -/
theorem proper_response_toValue (response : WebApiResponse) : response.toValue.proper = true := by
  have hpayload := response.proper
  simp [WebApiResponse.toValue, JsonValue.proper, JsonValue.properMembers, JsonNumber.proper,
    hpayload]

/-- The bytes determine the response. -/
theorem encoded_response_injective : Function.Injective WebApiResponse.encoded := by
  intro response other h
  -- The compact text determines the value, and the value shows each field.
  have hvalue := compact_injective (proper_response_toValue response)
    (proper_response_toValue other) (bytes_injective h)
  obtain ⟨contract, requestId, status, payload, _⟩ := response
  obtain ⟨contract', requestId', status', payload', _⟩ := other
  simp only [WebApiResponse.toValue, JsonValue.object.injEq, List.cons.injEq, Prod.mk.injEq,
    JsonValue.string.injEq, JsonValue.number.injEq, JsonNumber.posInt.injEq, true_and,
    and_true] at hvalue
  obtain ⟨rfl, rfl, hstatus, rfl⟩ := hvalue
  -- A status is written as a 64-bit number, in which nothing of it is lost.
  have hlt : ∀ status : UInt16, status.toNat < 18446744073709551616 := by
    intro status
    have hsize := status.toNat_lt
    omega
  have hnat : status.toNat = status'.toNat := by
    have hwords := congrArg UInt64.toNat hstatus
    rwa [UInt64.toNat_ofNat_of_lt' (hlt status), UInt64.toNat_ofNat_of_lt' (hlt status')] at hwords
  obtain rfl := UInt16.toNat_inj.mp hnat
  rfl

/-- There are bytes. -/
theorem length_compact_pos {value : JsonValue} (h : value.proper = true) :
    1 ≤ (bytes (compact value)).length := by
  obtain ⟨c, tail, hc, -⟩ := JsonValue.head_compact value h
  have hchar := List.length_pos_of_ne_nil (String.utf8EncodeChar_ne_nil (c := c))
  rw [bytes, hc, List.flatMap_cons, List.length_append]
  omega

/-- What `encode_bounded` accepts and returns. -/
theorem encodeBounded_eq_ok_iff (response : WebApiResponse) (encoded : List UInt8) :
    response.encodeBounded = .ok encoded ↔
      response.contract = webApiContract ∧
      validateIdentifier "request_id" response.requestId 128 = .ok () ∧
      response.encoded.length ≤ maxResponseBytes ∧ response.encoded = encoded := by
  simp only [WebApiResponse.encodeBounded, ite_error_eq_ok_iff, unit_bind_eq_ok_iff, not_not,
    Nat.not_lt, Except.ok.injEq]

/-- The frame of a payload that no frame is too short for: it exists if the maximum allows it, and
it is decoded to nothing else. -/
theorem frame_of_payload {payload : List UInt8} (hpos : 1 ≤ payload.length)
    (hfits : payload.length ≤ maxFrameBytes) (maximum : Nat) :
    (maximum < payload.length → encodeFrame payload maximum = some (.error .frameSize)) ∧
    (payload.length ≤ maximum → ∃ frame, encodeFrame payload maximum = some (.ok frame) ∧
      ∀ other, decodeFrame frame maximum = some (.ok other) ↔ other = payload) := by
  have hlimit : frameLimit maximum = min maximum maxFrameBytes := rfl
  constructor
  · intro hlong
    rw [encodeFrame_eq, if_neg (by omega)]
  · intro hshort
    -- The payload fits both limits, so that the frame is its length and itself.
    have hframe : encodeFrame payload maximum =
        some (.ok (Framing.bigEndian 4 payload.length ++ payload)) := by
      rw [encodeFrame_eq, if_pos (by omega)]
    have hdecode := decodeFrame_eq_ok_iff.mpr (encodeFrame_eq_ok_iff.mp hframe)
    refine ⟨_, hframe, fun other => ?_⟩
    rw [hdecode, Option.some.injEq, Except.ok.injEq, eq_comm]

/-- Every response that `encode_bounded` accepts has a frame, and it is the frame of no other
response. -/
theorem web_response_wire {response : WebApiResponse} {encoded : List UInt8}
    (h : response.encodeBounded = .ok encoded) :
    ∃ frame, encodeFrame encoded maxFrameBytes = some (.ok frame) ∧
      ∀ other : WebApiResponse,
        decodeFrame frame maxFrameBytes = some (.ok other.encoded) ↔ other = response := by
  obtain ⟨-, -, hfits, rfl⟩ := (encodeBounded_eq_ok_iff _ _).mp h
  obtain ⟨-, hframe⟩ :=
    frame_of_payload (length_compact_pos (proper_response_toValue response)) hfits maxFrameBytes
  obtain ⟨frame, hencode, hdecode⟩ := hframe hfits
  exact ⟨frame, hencode, fun other =>
    (hdecode _).trans encoded_response_injective.eq_iff⟩

end DataPlane

open DataPlane

/-- A request that one path accepts is accepted on the two synchronous paths, and on the read-only
path if it reads. Its frame exists unless it is longer than the frames may be, it is decoded to the
bytes of the request, and these are the bytes of no other request: what the API receives determines
the contract, the tenant, the subject, the operation and the payload. -/
theorem web_request_wire (request : WebApiRequest) (mode : WebApiMode) (maximum : Nat)
    (h : request.validateFor mode = .ok ()) :
    request.validateFor .statelessHttp = .ok () ∧
    request.validateFor .statefulMtlsTcp = .ok () ∧
    (request.validateFor .directReadOnlyDatabase = .ok () ↔ request.operation = .read) ∧
    (maximum < request.encoded.length →
      encodeFrame request.encoded maximum = some (.error .frameSize)) ∧
    (request.encoded.length ≤ maximum →
      ∃ frame, encodeFrame request.encoded maximum = some (.ok frame) ∧
        ∀ other : WebApiRequest,
          decodeFrame frame maximum = some (.ok other.encoded) ↔ other = request) := by
  obtain ⟨hvalid, -⟩ := (validateFor_eq_ok_iff request mode).mp h
  -- A request is far shorter than a frame may be.
  have hfits : request.encoded.length ≤ maxFrameBytes := hvalid.fits.trans (by decide)
  obtain ⟨hlong, hshort⟩ :=
    frame_of_payload (length_compact_pos (proper_toValue request)) hfits maximum
  refine ⟨(validateFor_eq_ok_iff _ _).mpr ⟨hvalid, trivial⟩,
    (validateFor_eq_ok_iff _ _).mpr ⟨hvalid, trivial⟩, ?_, hlong, ?_⟩
  · rw [validateFor_eq_ok_iff]
    exact and_iff_right hvalid
  · intro hmaximum
    obtain ⟨frame, hencode, hdecode⟩ := hshort hmaximum
    exact ⟨frame, hencode, fun other => (hdecode _).trans encoded_injective.eq_iff⟩

section

open JsonValue (compact compactMembers)

/-- The request of the tests of `web_data_plane`, without a payload. -/
def testWebRequest : WebApiRequest where
  contract := webApiContract
  requestId := "req-01"
  tenantId := "tenant-01"
  subject := "shared-auth:user-01"
  audience := apiAudience
  operation := .read
  resource := "/quotes"
  payload := .null
  dedupeKey := none
  proper := rfl

/-- A request on the read-only path. It is accepted and has a frame, and this frame is read as no
other request. -/
theorem web_request_wire_test :
    ∃ frame, encodeFrame testWebRequest.encoded maxFrameBytes = some (.ok frame) ∧
      ∀ other : WebApiRequest,
        decodeFrame frame maxFrameBytes = some (.ok other.encoded) ↔ other = testWebRequest := by
  have hlength : testWebRequest.encoded.length = 206 := by
    show len (compact testWebRequest.toValue) = 206
    simp only [WebApiRequest.toValue, testWebRequest, Option.map_none, Option.toList_none,
      List.append_nil, compact, compactMembers, JsonValue.len_append, DataOperation.name]
    rfl
  have hvalid : testWebRequest.validateFor .directReadOnlyDatabase = .ok () := by
    refine (validateFor_eq_ok_iff _ _).mpr ⟨⟨rfl, rfl, rfl, rfl, rfl, rfl, ?_⟩, rfl⟩
    rw [hlength]
    decide
  obtain ⟨-, -, -, -, hframe⟩ := web_request_wire testWebRequest .directReadOnlyDatabase
    maxFrameBytes hvalid
  exact hframe (by rw [hlength]; decide)

end

end CanonicalApi
