import CanonicalApi.Observation.Event
import Mathlib.Algebra.Group.Int.Defs

/-!
# `CanonicalApi.Observation.Keys`: the key ring and signature verification

`KeyRing.parse` reads the configured key document, and `KeyRing.verify` authenticates a
delivery. The keys of a source stand in document order, and the first key that fits decides
the owner of the observation.

`parse_owner` says what is known of every owner subject that a delivery can be stored under.
-/

set_option autoImplicit false

namespace CanonicalApi

open Outcome

/-- `BuildError`. -/
inductive BuildError where
  | invalidKeyDocument
  | invalidSecret
  | nonUnicodeKeyDocument
  | tooManyKeys
deriving DecidableEq, Repr

/-- `KeyInput`, an entry of the key document. -/
structure KeyInput where
  keyId : String
  sourceId : String
  organization : String
  ownerSubject : String
  secret : String
  validFrom : Option String
  validUntil : Option String
deriving DecidableEq, Repr

/-- `IngestKey`, an entry that passed its checks. The secret is a byte string, and the times are
read. -/
structure IngestKey where
  keyId : String
  organization : String
  ownerSubject : String
  secret : List UInt8
  validFrom : Option Instant
  validUntil : Option Instant
deriving DecidableEq

/-- The parts of `serde_json` that decode a key document (the list in its only member
`keys`) and the body of a delivery. -/
class IngestDecoder where
  keyDocument : String → Option (List KeyInput)
  event : List UInt8 → Option ObservationEvent

/-- `KeyRing`: the keys of each source, in document order. -/
structure KeyRing where
  bySource : List (String × IngestKey)
deriving DecidableEq

namespace KeyRing

/-- `by_source.get`, where a source without keys has no entry. -/
def candidates (ring : KeyRing) (sourceId : String) : List IngestKey :=
  (ring.bySource.filter fun entry => entry.1 = sourceId).map Prod.snd

section Parse

variable [TimeCrate]

/-- An optional timestamp of a key. -/
def keyTimestamp : Option String → Except BuildError (Option Instant)
  | none => .ok none
  | some value => do
      let instant ← okOr .invalidKeyDocument (TimeCrate.parse value)
      return some instant

/-- The identifiers of a key, apart from the repetition of its id. -/
def keyFieldsInvalid (input : KeyInput) : Bool :=
  !portableIdentifier input.keyId || !portableIdentifier input.sourceId ||
    !portableIdentifier input.organization || !validOwnerSubject input.ownerSubject

/-- One key of the document. A secret is at least 32 visible ASCII characters, and a key that has
both times ends after it begins. -/
def parseKey (input : KeyInput) : Except BuildError IngestKey :=
  let secret := bytes input.secret
  if secret.length < 32 ∨ secret.any (fun byte => !isAsciiGraphic byte) then
    .error .invalidSecret
  else do
    let validFrom ← keyTimestamp input.validFrom
    let validUntil ← keyTimestamp input.validUntil
    if (validFrom.bind fun start => validUntil.map fun finish => decide (finish ≤ start)) =
        some true then
      .error .invalidKeyDocument
    else
      .ok { keyId := input.keyId
            organization := input.organization
            ownerSubject := input.ownerSubject
            secret
            validFrom
            validUntil }

/-- The loop of `KeyRing::parse`. `keyIds` holds the key ids so far, since no id may occur twice,
not even for different sources. -/
def parseKeys (keyIds : List String) :
    List KeyInput → Except BuildError (List (String × IngestKey))
  | [] => .ok []
  | input :: rest =>
      if keyFieldsInvalid input ∨ input.keyId ∈ keyIds then .error .invalidKeyDocument
      else do
        let key ← parseKey input
        let keys ← parseKeys (input.keyId :: keyIds) rest
        return (input.sourceId, key) :: keys

/-- A parsed key belongs to the subject that its document names. -/
theorem parseKey_owner {input : KeyInput} {key : IngestKey} (h : parseKey input = .ok key) :
    key.ownerSubject = input.ownerSubject := by
  obtain ⟨-, h⟩ := (ite_error_eq_ok_iff _ _ _ _).mp h
  obtain ⟨_, -, h⟩ := (bind_eq_ok_iff _ _ _).mp h
  obtain ⟨_, -, h⟩ := (bind_eq_ok_iff _ _ _).mp h
  obtain ⟨-, h⟩ := (ite_error_eq_ok_iff _ _ _ _).mp h
  cases h
  rfl

/-- Every key that the loop collects has a portable source id and a valid owner. -/
theorem parseKeys_mem (inputs : List KeyInput) :
    ∀ {keyIds : List String} {keys : List (String × IngestKey)},
      parseKeys keyIds inputs = .ok keys → ∀ entry ∈ keys,
        portableIdentifier entry.1 = true ∧ validOwnerSubject entry.2.ownerSubject = true := by
  induction inputs with
  | nil =>
    intro keyIds keys h entry hentry
    cases h
    cases hentry
  | cons input rest ih =>
    intro keyIds keys h entry hentry
    obtain ⟨hfields, h⟩ := (ite_error_eq_ok_iff _ _ _ _).mp h
    obtain ⟨key, hkey, h⟩ := (bind_eq_ok_iff _ _ _).mp h
    obtain ⟨keys', hkeys, h⟩ := (bind_eq_ok_iff _ _ _).mp h
    cases h
    rcases List.mem_cons.mp hentry with rfl | hentry
    · simp only [keyFieldsInvalid, Bool.or_eq_true, not_or, Bool.not_eq_true',
        Bool.not_eq_false] at hfields
      obtain ⟨⟨⟨⟨-, hsource⟩, -⟩, howner⟩, -⟩ := hfields
      refine ⟨hsource, ?_⟩
      rw [parseKey_owner hkey]
      exact howner
    · exact ih hkeys entry hentry

variable [IngestDecoder]

/-- `KeyRing::parse`. -/
def parse (document : String) : Except BuildError KeyRing := do
  let keys ← okOr .invalidKeyDocument (IngestDecoder.keyDocument document)
  if keys.length > 128 then .error .tooManyKeys
  else do
    let bySource ← parseKeys [] keys
    return { bySource }

/-- A parsed key ring names only valid owners and portable sources. -/
theorem parse_owner {document : String} {ring : KeyRing} (h : parse document = .ok ring)
    {sourceId : String} {key : IngestKey} (hkey : key ∈ ring.candidates sourceId) :
    validOwnerSubject key.ownerSubject = true := by
  obtain ⟨inputs, -, h⟩ := (bind_eq_ok_iff _ _ _).mp h
  obtain ⟨-, h⟩ := (ite_error_eq_ok_iff _ _ _ _).mp h
  obtain ⟨keys, hkeys, h⟩ := (bind_eq_ok_iff _ _ _).mp h
  cases h
  obtain ⟨entry, hentry, rfl⟩ := List.mem_map.mp hkey
  exact (parseKeys_mem inputs hkeys entry (List.mem_filter.mp hentry).1).2

end Parse

end KeyRing

/-! ### Signatures -/

/-- The digits of a decimal text. -/
def decimalDigits (digits : List Char) : Option Nat :=
  if digits ≠ [] ∧ digits.all fun c => '0' ≤ c && c ≤ '9' then
    some (digits.foldl (fun n c => 10 * n + (c.toNat - 48)) 0)
  else none

/-- `str::parse::<i64>`: an optional sign and decimal digits, in range. -/
def parseI64 (value : String) : Option Int :=
  let n? := match value.toList with
    | '+' :: digits => (decimalDigits digits).map Int.ofNat
    | '-' :: digits => (decimalDigits digits).map fun n => -(n : Int)
    | digits => (decimalDigits digits).map Int.ofNat
  n?.filter fun n => -(2 ^ 63) ≤ n ∧ n < 2 ^ 63

/-- `header`. -/
def ingestHeader (headers : HeaderMap) (name : String) : Except IngestError String :=
  let value := ((headers.get name).bind headerToStr).map trim
  okOr .invalidSignature (value.filter fun value => value ≠ "" ∧ len value ≤ 4096)

/-- `decode_nibble`. -/
def decodeNibble (value : UInt8) : Option UInt8 :=
  if 48 ≤ value ∧ value ≤ 57 then some (value - 48)
  else if 97 ≤ value ∧ value ≤ 102 then some (value - 97 + 10)
  else none

/-- The loop of `parse_signature`: two digits for each byte. The caller has checked that there are
64 of them, so the last branch is the end of the text. -/
def decodeHex : List UInt8 → Option (List UInt8)
  | high :: low :: rest => do
      let high ← decodeNibble high
      let low ← decodeNibble low
      let rest ← decodeHex rest
      return ((high <<< 4) ||| low) :: rest
  | _ => some []

/-- `parse_signature`. -/
def parseSignature (value : String) : Except IngestError (List UInt8) :=
  match (stripPrefix value "v1=").filter fun hex => len hex = 64 with
  | some hex => okOr .invalidSignature (decodeHex (bytes hex))
  | none => .error .invalidSignature

/-- `VerifiedTransport`. -/
structure VerifiedTransport where
  keyId : String
  ownerSubject : String
deriving DecidableEq, Repr

namespace KeyRing

variable [CryptoCrates]

/-- The loop of `KeyRing::verify` over the keys of the source. A key of another organization, or one
that is not valid now, is passed over; the first one that fits names the owner. -/
def verifyCandidates (timestampText : String) (body supplied : List UInt8)
    (organization : String) (now : Instant) :
    List IngestKey → Except IngestError VerifiedTransport
  | [] => .error .invalidSignature
  | key :: rest =>
      if key.organization ≠ organization ∨ key.validFrom.any (fun start => now < start) ∨
          key.validUntil.any (fun finish => finish ≤ now) then
        verifyCandidates timestampText body supplied organization now rest
      else if CryptoCrates.hmac key.secret (bytes timestampText ++ bytes "." ++ body) =
          supplied then
        .ok { keyId := key.keyId, ownerSubject := key.ownerSubject }
      else verifyCandidates timestampText body supplied organization now rest

/-- `KeyRing::verify`. The id in the header is that of the event, which binds the header to the
body; the signature itself covers the time and the body. -/
def verify (ring : KeyRing) (headers : HeaderMap) (body : List UInt8)
    (event : ObservationEvent) (now : Instant) : Except IngestError VerifiedTransport := do
  let webhookId ← ingestHeader headers "x-canonical-webhook-id"
  if webhookId ≠ event.eventId then .error .invalidSignature
  else do
    let timestampText ← ingestHeader headers "x-canonical-webhook-timestamp"
    let timestamp ← okOr .invalidSignature (parseI64 timestampText)
    if (now.unixTimestamp - timestamp).natAbs > maxClockSkewSeconds then .error .staleSignature
    else do
      let signature ← ingestHeader headers "x-canonical-webhook-signature"
      let supplied ← parseSignature signature
      if ring.candidates event.sourceId = [] then .error .invalidSignature
      else
        verifyCandidates timestampText body supplied event.organization now
          (ring.candidates event.sourceId)

end KeyRing

/-! ### A key document and an event -/

/-- The time of the event, as the crate `time` reads and writes it. -/
@[reducible] def testTime : TimeCrate where
  parse value := if value = "2026-09-09T05:00:00Z" then some 1788930000000000000 else none
  format instant :=
    if instant = 1788930000000000000 then some "2026-09-09T05:00:00Z" else none

/-- No text of the event is a URL. -/
@[reducible] def testUrl : UrlCrate where
  parse _ := none

/-- The key of the document. -/
def testKeyInput : KeyInput where
  keyId := "key.customer-ci"
  sourceId := "source.customer-ci"
  organization := "org:example"
  ownerSubject := "org:example"
  secret := "0123456789abcdef0123456789abcdef"
  validFrom := none
  validUntil := none

/-- The key as the key ring holds it. -/
def testKey : IngestKey where
  keyId := "key.customer-ci"
  organization := "org:example"
  ownerSubject := "org:example"
  secret := bytes "0123456789abcdef0123456789abcdef"
  validFrom := none
  validUntil := none

/-- The event with the given sequence number and id, otherwise as small as an event can be. -/
def testEvent (sequence : Int64) (eventId : String) : ObservationEvent where
  specVersion := eventSpec
  eventId := eventId
  sourceId := "source.customer-ci"
  sourceSequence := sequence
  organization := "org:example"
  observedAt := "2026-09-09T05:00:00Z"
  assertions := [{
    frameworkId := "soc2-tsc"
    controlId := "CC6.1"
    reportedStatus := .observed
    statement := none
    evidenceIds := [] }]
  evidence := []

/-- A decoder for the one document and the one body of the tests: the key and the first event. -/
@[reducible] def testDecoder : IngestDecoder where
  keyDocument _ := some [testKeyInput]
  event _ := some (testEvent 1 "event.test.00000001")

section

attribute [local instance] testTime testDecoder

/-- The key ring of the test document. -/
theorem testRing_parse :
    KeyRing.parse "document" = .ok ⟨[("source.customer-ci", testKey)]⟩ := by
  decide

end

end CanonicalApi
