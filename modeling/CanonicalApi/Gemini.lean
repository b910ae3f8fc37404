import CanonicalApi.Lib.Outcome
import CanonicalApi.Record

/-!
# `CanonicalApi.Gemini`: the model call and the check on its output

`gemini.rs` as far as a quote worker sees it: the errors with their codes, the attempts of
`execute_with_retries`, and `validateAnalysis`, the admission check on the JSON value that
the model returned. The HTTP client is represented by the reply that each attempt gets.

`executeWithRetries_ok` says that a value comes out of the call only after it passed
`validateAnalysis`, and `validateAnalysis_ok_iff` says what the check asks of a value.
-/

set_option autoImplicit false

namespace CanonicalApi

open JsonValue (textMember u64Member arrayMember)
open Outcome

/-- `GeminiError`. The circuit counts some of them as failures of the service, and none of them
carries a text from outside. -/
inductive GeminiError where
  | circuitOpen
  | invalidAnalysis
  | invalidResponse
  | promptTooLarge
  | rejected (status : Nat)
  | responseTooLarge
  | transport
deriving DecidableEq, Repr

namespace GeminiError

/-- `GeminiError::code`, the code that a failed quote is stored with. -/
def code : GeminiError → String
  | circuitOpen => "gemini_circuit_open"
  | invalidAnalysis => "gemini_analysis_invalid"
  | invalidResponse => "gemini_response_invalid"
  | promptTooLarge => "gemini_prompt_too_large"
  | rejected _ => "gemini_request_rejected"
  | responseTooLarge => "gemini_response_too_large"
  | transport => "gemini_transport_error"

/-- `GeminiError::is_operational_failure`. -/
def isOperationalFailure : GeminiError → Bool
  | circuitOpen | transport => true
  | rejected status => status == 429 || (500 ≤ status && status ≤ 599)
  | _ => false

end GeminiError

/-- A loop of `validate_analysis`: each of the fields can be read. -/
def requireFields {α : Type} (read : String → Option α) : List String → Except GeminiError Unit
  | [] => .ok ()
  | field :: fields =>
      if read field = none then .error .invalidAnalysis else requireFields read fields

/-- `validate_analysis`. It asks for the members that are listed and compares two pairs of bounds.
The items of the arrays, the currency and other members are not looked at. -/
def validateAnalysis (analysis : JsonValue) : Except GeminiError Unit := do
  let object ← okOr .invalidAnalysis analysis.asObject
  requireFields (textMember object) ["summary", "currency", "disclaimer"]
  requireFields (u64Member object) ["estimated_total_fee_low", "estimated_total_fee_high",
    "estimated_total_weeks_low", "estimated_total_weeks_high"]
  requireFields (arrayMember object) ["recommended_services", "assumptions", "risks",
    "missing_information"]
  let feeLow ← okOr .invalidAnalysis (u64Member object "estimated_total_fee_low")
  let feeHigh ← okOr .invalidAnalysis (u64Member object "estimated_total_fee_high")
  let weeksLow ← okOr .invalidAnalysis (u64Member object "estimated_total_weeks_low")
  let weeksHigh ← okOr .invalidAnalysis (u64Member object "estimated_total_weeks_high")
  if feeLow > feeHigh ∨ weeksLow = 0 ∨ weeksLow > weeksHigh then
    .error .invalidAnalysis
  else
    .ok ()

/-- A loop succeeds exactly when each of its fields can be read. -/
theorem requireFields_ok_iff {α : Type} (read : String → Option α) (fields : List String)
    (u : Unit) :
    requireFields read fields = .ok u ↔ ∀ field ∈ fields, ∃ a, read field = some a := by
  induction fields with
  | nil => simp [requireFields]
  | cons field fields ih =>
    rw [requireFields, List.forall_mem_cons, ← ih, ← Option.ne_none_iff_exists']
    by_cases h : read field = none
    · rw [if_pos h]
      simp [h]
    · rw [if_neg h]
      simp [h]

/-- The members of an analysis that the check and the projection read, as typed values. Fees are
whole dollars, in `u64` like the weeks. -/
structure AnalysisFields where
  summary : String
  currency : String
  disclaimer : String
  feeLow : UInt64
  feeHigh : UInt64
  weeksLow : UInt64
  weeksHigh : UInt64
  services : List JsonValue
  assumptions : List JsonValue
  risks : List JsonValue
  missing : List JsonValue

/-- `object` has the members `fields`, in the ranges that `validateAnalysis` asks for. It is the
meaning of a successful check, by `validateAnalysis_ok_iff`. -/
structure ValidFields (object : List (String × JsonValue)) (fields : AnalysisFields) :
    Prop where
  summary : textMember object "summary" = some fields.summary
  currency : textMember object "currency" = some fields.currency
  disclaimer : textMember object "disclaimer" = some fields.disclaimer
  feeLow : u64Member object "estimated_total_fee_low" = some fields.feeLow
  feeHigh : u64Member object "estimated_total_fee_high" = some fields.feeHigh
  weeksLow : u64Member object "estimated_total_weeks_low" = some fields.weeksLow
  weeksHigh : u64Member object "estimated_total_weeks_high" = some fields.weeksHigh
  services : arrayMember object "recommended_services" = some fields.services
  assumptions : arrayMember object "assumptions" = some fields.assumptions
  risks : arrayMember object "risks" = some fields.risks
  missing : arrayMember object "missing_information" = some fields.missing
  fee_le : fields.feeLow ≤ fields.feeHigh
  weeks_pos : fields.weeksLow ≠ 0
  weeks_le : fields.weeksLow ≤ fields.weeksHigh

/-- The check passes exactly on the objects with valid fields. -/
theorem validateAnalysis_ok_iff (analysis : JsonValue) :
    validateAnalysis analysis = .ok () ↔
      ∃ object fields, analysis.asObject = some object ∧ ValidFields object fields := by
  rw [← succeeds_unit_iff, validateAnalysis, succeeds_bind_iff]
  simp only [okOr_eq_ok_iff, requireFields_ok_iff, List.forall_mem_cons, succeeds_bind_iff,
    succeeds_ite_error_iff, succeeds_ok, and_true, exists_const]
  constructor
  · rintro ⟨object, hobject, ⟨⟨summary, hsummary⟩, ⟨currency, hcurrency⟩,
      ⟨disclaimer, hdisclaimer⟩, -⟩, -, ⟨⟨services, hservices⟩, ⟨assumptions, hassumptions⟩,
      ⟨risks, hrisks⟩, ⟨missing, hmissing⟩, -⟩, feeLow, hfeeLow, feeHigh, hfeeHigh, weeksLow,
      hweeksLow, weeksHigh, hweeksHigh, hrange⟩
    rw [not_or, not_or] at hrange
    -- The last check of the source rules out three orders of the bounds.
    obtain ⟨hfee, hpos, hweeks⟩ := hrange
    refine ⟨object, ⟨summary, currency, disclaimer, feeLow, feeHigh, weeksLow, weeksHigh,
      services, assumptions, risks, missing⟩, hobject, ?_⟩
    exact { summary := hsummary, currency := hcurrency, disclaimer := hdisclaimer,
            feeLow := hfeeLow, feeHigh := hfeeHigh, weeksLow := hweeksLow,
            weeksHigh := hweeksHigh, services := hservices, assumptions := hassumptions,
            risks := hrisks, missing := hmissing, fee_le := UInt64.not_lt.mp hfee,
            weeks_pos := hpos, weeks_le := UInt64.not_lt.mp hweeks }
  · rintro ⟨object, fields, hobject, h⟩
    have hrange : ¬ (fields.feeLow > fields.feeHigh ∨ fields.weeksLow = 0 ∨
        fields.weeksLow > fields.weeksHigh) := by
      rw [not_or, not_or]
      exact ⟨UInt64.not_lt.mpr h.fee_le, h.weeks_pos, UInt64.not_lt.mpr h.weeks_le⟩
    refine ⟨object, hobject, ⟨⟨_, h.summary⟩, ⟨_, h.currency⟩, ⟨_, h.disclaimer⟩, ?_⟩,
      ⟨⟨_, h.feeLow⟩, ⟨_, h.feeHigh⟩, ⟨_, h.weeksLow⟩, ⟨_, h.weeksHigh⟩, ?_⟩,
      ⟨⟨_, h.services⟩, ⟨_, h.assumptions⟩, ⟨_, h.risks⟩, ⟨_, h.missing⟩, ?_⟩,
      _, h.feeLow, _, h.feeHigh, _, h.weeksLow, _, h.weeksHigh, hrange⟩
    all_goals intro _ hmem; cases hmem

/-! ### The call -/

/-- `MAX_ATTEMPTS`. -/
def maxAttempts : Nat := 3

/-- `MAX_RESPONSE_BYTES`. -/
def maxResponseBytes : Nat := 2000000

/-- `Part`, with the defaults of its fields filled in. -/
structure Part where
  text : Option String
  thought : Bool
deriving DecidableEq, Repr

/-- `Candidate`: the parts of its content, if it has one. -/
structure Candidate where
  content : Option (List Part)
deriving DecidableEq, Repr

/-- The parts of `serde_json` that decode bytes and text: `from_slice` at
`GenerateContentResponse`, which gives its candidates, and `from_str` at `Value`. -/
class ModelDecoder where
  envelope : List UInt8 → Option (List Candidate)
  value : String → Option JsonValue

/-- What one attempt gets from the HTTP client: a response with the announced length and the
body, which is missing when it cannot be read, or no response. -/
inductive HttpReply where
  | response (status : Nat) (contentLength : Option Nat) (body : Option (List UInt8))
  | failure (connectOrTimeout : Bool)
deriving DecidableEq, Repr

/-- `extract_text`. -/
def extractText (candidates : List Candidate) : Option String :=
  let parts := (candidates.filterMap Candidate.content).flatten
  let part? := parts.find? fun part =>
    !part.thought && part.text.any fun text => text ≠ ""
  part?.bind Part.text

/-- `str::strip_suffix`. -/
def stripSuffix (value after : String) : Option String :=
  if after.toList.isSuffixOf value.toList then
    some (String.ofList (value.toList.take (value.toList.length - after.toList.length)))
  else none

/-- `strip_json_fence`. -/
def stripJsonFence (value : String) : String :=
  let opened := ((stripPrefix value "```json").or (stripPrefix value "```")).getD value
  let value := trim opened
  trim ((stripSuffix value "```").getD value)

/-- `should_retry_status`. -/
def shouldRetryStatus (status : Nat) : Bool :=
  status == 429 || (500 ≤ status && status ≤ 599)

section

variable [ModelDecoder]

/-- The branch of `execute_with_retries` for a response with a success status. The announced length
is checked before the body is read and the true one after it. A body that cannot be read ends the
call. -/
def acceptResponse (contentLength : Option Nat) (body : Option (List UInt8)) :
    Except GeminiError JsonValue :=
  if contentLength.any (· > maxResponseBytes) then .error .responseTooLarge
  else do
    let bytes ← okOr .transport body
    if bytes.length > maxResponseBytes then .error .responseTooLarge
    else do
      let payload ← okOr .invalidResponse (ModelDecoder.envelope bytes)
      let text ← okOr .invalidResponse (extractText payload)
      let analysis ← okOr .invalidAnalysis (ModelDecoder.value (stripJsonFence (trim text)))
      validateAnalysis analysis
      return analysis

/-- The loop of `execute_with_retries`, from attempt number `attempt` on. `remaining` is what the
bound of the loop leaves, and makes the recursion structural. -/
def attemptFrom (replies : Nat → HttpReply) (attempt : Nat) :
    (remaining : Nat) → Except GeminiError JsonValue
  | 0 => .error .transport
  | remaining + 1 =>
      match replies attempt with
      | .response status contentLength body =>
          if 200 ≤ status ∧ status ≤ 299 then acceptResponse contentLength body
          else if shouldRetryStatus status ∧ attempt + 1 < maxAttempts then
            attemptFrom replies (attempt + 1) remaining
          else .error (.rejected status)
      | .failure connectOrTimeout =>
          if connectOrTimeout ∧ attempt + 1 < maxAttempts then
            attemptFrom replies (attempt + 1) remaining
          else .error .transport

/-- `execute_with_retries`. -/
def executeWithRetries (replies : Nat → HttpReply) : Except GeminiError JsonValue :=
  attemptFrom replies 0 maxAttempts

/-- A response is accepted only with a valid analysis. -/
theorem acceptResponse_ok {contentLength : Option Nat} {body : Option (List UInt8)}
    {analysis : JsonValue} (h : acceptResponse contentLength body = .ok analysis) :
    validateAnalysis analysis = .ok () := by
  obtain ⟨-, h⟩ := (ite_error_eq_ok_iff _ _ _ _).mp h
  obtain ⟨bytes, -, h⟩ := (bind_eq_ok_iff _ _ _).mp h
  obtain ⟨-, h⟩ := (ite_error_eq_ok_iff _ _ _ _).mp h
  obtain ⟨payload, -, h⟩ := (bind_eq_ok_iff _ _ _).mp h
  obtain ⟨text, -, h⟩ := (bind_eq_ok_iff _ _ _).mp h
  obtain ⟨value, -, h⟩ := (bind_eq_ok_iff _ _ _).mp h
  obtain ⟨⟨⟩, hvalid, h⟩ := (bind_eq_ok_iff _ _ _).mp h
  cases h
  exact hvalid

/-- The attempts return only valid analyses. -/
theorem attemptFrom_ok {replies : Nat → HttpReply} {attempt remaining : Nat}
    {analysis : JsonValue} (h : attemptFrom replies attempt remaining = .ok analysis) :
    validateAnalysis analysis = .ok () := by
  induction remaining generalizing attempt with
  | zero => cases h
  | succ remaining ih =>
    rw [attemptFrom] at h
    split at h
    · split at h
      · exact acceptResponse_ok h
      · split at h
        · exact ih h
        · cases h
    · split at h
      · exact ih h
      · cases h

/-- The call returns only valid analyses. -/
theorem executeWithRetries_ok {replies : Nat → HttpReply} {analysis : JsonValue}
    (h : executeWithRetries replies = .ok analysis) : validateAnalysis analysis = .ok () :=
  attemptFrom_ok h

end

end CanonicalApi
