import CanonicalApi.Record

/-!
# `CanonicalApi.Identity`: subjects, idempotency keys and identifiers

The validators of `lib.rs` for the subject of a request and its idempotency key, and those
of `readiness_observation_ingest.rs` for the identifiers of observations. All of them admit
an ASCII alphabet and bound the length in bytes.

The lemmas at the end say which characters an admitted text does not contain. The texts that
the transactions lock on are built with such characters as separators.
-/

set_option autoImplicit false

namespace CanonicalApi

/-- `http::HeaderMap`: the names, in lower case, with their values. -/
abbrev HeaderMap : Type := List (String × List UInt8)

/-- `HeaderValue::to_str`: the value, if every byte is visible ASCII, a space or a tab. -/
def headerToStr (value : List UInt8) : Option String :=
  if value.all fun byte => byte == 9 || (32 ≤ byte && byte ≤ 126) then
    some (String.ofList (value.map fun byte => Char.ofNat byte.toNat))
  else none

/-- `HeaderMap::get`: the first value. -/
def HeaderMap.get (headers : HeaderMap) (name : String) : Option (List UInt8) :=
  headers.lookup name

/-- The bytes of a subject, in both validators of that name. -/
def subjectByte (byte : UInt8) : Bool :=
  isAsciiAlphanumeric byte || byte == 45 || byte == 95 || byte == 58

/-- The bytes of an idempotency key and of a portable identifier. -/
def identifierByte (byte : UInt8) : Bool :=
  isAsciiAlphanumeric byte || byte == 45 || byte == 95 || byte == 46 || byte == 58 ||
    byte == 47

/-- `valid_subject` of `lib.rs`: the subject without surrounding white space. -/
def validSubject (value : String) : Option String :=
  let value := trim value
  if value ≠ "" ∧ len value ≤ 255 ∧ (bytes value).all subjectByte then some value else none

/-- `valid_idempotency_key`. -/
def validIdempotencyKey (value : String) : Bool :=
  (8 ≤ len value && len value ≤ 128) && (bytes value).all identifierByte

/-- `required_idempotency_key`. -/
def requiredIdempotencyKey (headers : HeaderMap) : Except ApiError String :=
  let key := ((headers.get "idempotency-key").bind headerToStr).map trim
  match key.filter validIdempotencyKey with
  | some value => .ok value
  | none => .error (.badRequest "invalid_request"
      "Idempotency-Key must contain 8 to 128 allowed ASCII characters")

/-- `MAX_IDENTIFIER_BYTES`. -/
def maxIdentifierBytes : Nat := 128

/-- `portable_identifier`. -/
def portableIdentifier (value : String) : Bool :=
  value ≠ "" && len value ≤ maxIdentifierBytes && (bytes value).all identifierByte

/-- `valid_subject` of `readiness_observation_ingest.rs`. -/
def validOwnerSubject (value : String) : Bool :=
  value ≠ "" && len value ≤ 255 && (bytes value).all subjectByte

/-! ### The alphabets -/

section

variable {value : String}

/-- A valid subject consists of the bytes that subjects may have. The value is the trimmed one. -/
theorem subjectBytes_of_validSubject {raw : String} (h : validSubject raw = some value) :
    (bytes value).all subjectByte = true := by
  unfold validSubject at h
  dsimp only at h
  split at h
  · next hvalue =>
    cases h
    exact hvalue.2.2
  · cases h

/-- A valid idempotency key consists of the bytes that identifiers may have. -/
theorem identifierBytes_of_validIdempotencyKey (h : validIdempotencyKey value = true) :
    (bytes value).all identifierByte = true := by
  rw [validIdempotencyKey, Bool.and_eq_true] at h
  exact h.2

/-- A portable identifier consists of the bytes that identifiers may have. -/
theorem identifierBytes_of_portableIdentifier (h : portableIdentifier value = true) :
    (bytes value).all identifierByte = true := by
  rw [portableIdentifier, Bool.and_eq_true] at h
  exact h.2

/-- The owner of an observation consists of the bytes that subjects may have. -/
theorem subjectBytes_of_validOwnerSubject (h : validOwnerSubject value = true) :
    (bytes value).all subjectByte = true := by
  rw [validOwnerSubject, Bool.and_eq_true] at h
  exact h.2

/-- A text of subject bytes contains neither U+0000 nor a backslash. -/
theorem not_mem_of_subjectBytes (h : (bytes value).all subjectByte = true) :
    '\x00' ∉ value.toList ∧ '\\' ∉ value.toList := by
  refine ⟨?_, ?_⟩
  · exact not_mem_of_all_bytes (b := 0) h (by decide) (by decide)
  · exact not_mem_of_all_bytes (b := 92) h (by decide) (by decide)

/-- A text of identifier bytes contains neither U+0000 nor a backslash. -/
theorem not_mem_of_identifierBytes (h : (bytes value).all identifierByte = true) :
    '\x00' ∉ value.toList ∧ '\\' ∉ value.toList := by
  refine ⟨?_, ?_⟩
  · exact not_mem_of_all_bytes (b := 0) h (by decide) (by decide)
  · exact not_mem_of_all_bytes (b := 92) h (by decide) (by decide)

end

end CanonicalApi
