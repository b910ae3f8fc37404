import CanonicalApi.Observation.Service

/-!
# `CanonicalApi.Observation.Signature`: when a delivery is authenticated

`signature_admission` says exactly when `KeyRing::verify` accepts a delivery, in terms of the
headers and of the key document: the first key in document order that fits decides.

A signature binds the timestamp text and the body (`signedText_injective`): a text that
`parse::<i64>` accepts has no point, so the point in the signed text can be found again.
-/

set_option autoImplicit false

namespace CanonicalApi

open Outcome (bind_eq_ok_iff ite_error_eq_ok_iff okOr_eq_ok_iff)

/-! ### Headers -/

/-- The header `name` is read as `value`: its first value is visible ASCII and, without white
space at both ends, `value`, which has 1 to 4096 bytes. -/
def HeaderReads (headers : HeaderMap) (name value : String) : Prop :=
  ∃ raw text, headers.get name = some raw ∧ headerToStr raw = some text ∧ trim text = value ∧
    value ≠ "" ∧ len value ≤ 4096

/-- `header` succeeds on a header that is there and that can be read. -/
theorem ingestHeader_eq_ok_iff (headers : HeaderMap) (name value : String) :
    ingestHeader headers name = .ok value ↔ HeaderReads headers name value := by
  rw [ingestHeader, okOr_eq_ok_iff, Option.filter_eq_some_iff, Option.map_eq_some_iff,
    decide_eq_true_eq]
  constructor
  · rintro ⟨⟨text, htext, rfl⟩, hne, hle⟩
    obtain ⟨raw, hraw, htext⟩ := Option.bind_eq_some_iff.mp htext
    exact ⟨raw, text, hraw, htext, rfl, hne, hle⟩
  · rintro ⟨raw, text, hraw, htext, rfl, hne, hle⟩
    exact ⟨⟨text, Option.bind_eq_some_iff.mpr ⟨raw, hraw, htext⟩, rfl⟩, hne, hle⟩

/-! ### Signature texts -/

/-- The byte of a hexadecimal digit. -/
def digitByte (n : Nat) : UInt8 := UInt8.ofNat (JsonValue.hexDigit n).toNat

/-- The bytes of the hexadecimal text of a byte string. -/
def hexBytes (out : List UInt8) : List UInt8 :=
  out.flatMap fun b => [digitByte (b.toNat / 16), digitByte (b.toNat % 16)]

/-- The bytes of the written digest are its digits. -/
theorem bytes_hexLower (out : List UInt8) : bytes (hexLower out) = hexBytes out := by
  have hascii : ∀ n : Fin 16, (JsonValue.hexDigit n).toNat < 128 := by decide
  rw [bytes, hexLower, String.toList_ofList, List.flatMap_assoc, hexBytes]
  refine List.flatMap_congr fun b _ => ?_
  have hb := b.toNat_lt
  rw [List.flatMap_cons, List.flatMap_singleton,
    utf8EncodeChar_of_ascii (hascii ⟨b.toNat / 16, by omega⟩),
    utf8EncodeChar_of_ascii (hascii ⟨b.toNat % 16, by omega⟩)]
  rfl

/-- A nibble is decoded only from its digit. -/
theorem decodeNibble_eq_some {b n : UInt8} (h : decodeNibble b = some n) :
    n.toNat < 16 ∧ b = digitByte n.toNat := by
  have hall : ∀ k : Fin 256, ∀ n ∈ decodeNibble (UInt8.ofNat k),
      n.toNat < 16 ∧ UInt8.ofNat k = digitByte n.toNat := by
    decide +kernel
  have hb := hall ⟨b.toNat, b.toNat_lt⟩
  rw [UInt8.ofNat_toNat] at hb
  exact hb n h

/-- Reading a written digit gives the half byte back. -/
theorem decodeNibble_digitByte :
    ∀ k : Fin 16, decodeNibble (digitByte k) = some (UInt8.ofNat k) := by
  decide

/-- Two nibbles make up a byte. -/
theorem toNat_nibbles : ∀ high low : Fin 16,
    ((UInt8.ofNat high <<< 4) ||| UInt8.ofNat low).toNat = 16 * high + low := by
  decide

/-- The text of a byte string is decoded to it. -/
theorem decodeHex_hexBytes (out : List UInt8) : decodeHex (hexBytes out) = some out := by
  induction out with
  | nil => rfl
  | cons b out ih =>
    have hb := b.toNat_lt
    have hhigh := decodeNibble_digitByte ⟨b.toNat / 16, by omega⟩
    have hlow := decodeNibble_digitByte ⟨b.toNat % 16, by omega⟩
    have hbyte : (UInt8.ofNat (b.toNat / 16) <<< 4) ||| UInt8.ofNat (b.toNat % 16) = b := by
      rw [← UInt8.toNat_inj, toNat_nibbles ⟨b.toNat / 16, by omega⟩ ⟨b.toNat % 16, by omega⟩]
      show 16 * (b.toNat / 16) + b.toNat % 16 = b.toNat
      omega
    show decodeHex (digitByte _ :: digitByte _ :: hexBytes out) = some (b :: out)
    rw [decodeHex, hhigh, Option.bind_eq_bind, Option.bind_some, hlow, ih]
    show some (_ :: out) = _
    rw [hbyte]

/-- A text of an even number of bytes is decoded only to the byte string that it is the text
of. -/
theorem decodeHex_eq_some {digits : List UInt8} : ∀ {out : List UInt8},
    digits.length % 2 = 0 → decodeHex digits = some out → digits = hexBytes out := by
  induction digits using decodeHex.induct with
  | case1 high low rest ih =>
    intro out hlen h
    rw [decodeHex] at h
    obtain ⟨n, hn, h⟩ := Option.bind_eq_some_iff.mp h
    obtain ⟨m, hm, h⟩ := Option.bind_eq_some_iff.mp h
    obtain ⟨out', hout, h⟩ := Option.bind_eq_some_iff.mp h
    cases h
    obtain ⟨hnlt, rfl⟩ := decodeNibble_eq_some hn
    obtain ⟨hmlt, rfl⟩ := decodeNibble_eq_some hm
    have hbyte := toNat_nibbles ⟨n.toNat, hnlt⟩ ⟨m.toNat, hmlt⟩
    simp only [UInt8.ofNat_toNat] at hbyte
    have hrest := ih (by simp only [List.length_cons] at hlen; omega) hout
    rw [hexBytes, List.flatMap_cons, hbyte, show (16 * n.toNat + m.toNat) / 16 = n.toNat by omega,
      show (16 * n.toNat + m.toNat) % 16 = m.toNat by omega, hrest]
    rfl
  | case2 digits hshort =>
    intro out hlen h
    cases digits with
    | nil =>
      cases h
      rfl
    | cons a digits =>
      cases digits with
      | nil => simp at hlen
      | cons b digits => exact absurd rfl (hshort a b digits)

/-- `signature` is `v1=` and 64 lower-case hexadecimal digits that spell `supplied`. -/
def SignatureText (signature : String) (supplied : List UInt8) : Prop :=
  ∃ hex, signature = "v1=" ++ hex ∧ hex.toList.length = 64 ∧
    (∀ c ∈ hex.toList, isLowerHexChar c = true) ∧ hexLower supplied = hex

/-- `parse_signature` accepts just the texts of signatures, and it returns their bytes. -/
theorem parseSignature_eq_ok_iff (signature : String) (supplied : List UInt8) :
    parseSignature signature = .ok supplied ↔ SignatureText signature supplied := by
  unfold parseSignature
  split
  · next hex hstrip =>
    rw [Option.filter_eq_some_iff, stripPrefix_eq_some_iff, decide_eq_true_eq] at hstrip
    obtain ⟨htext, hlen⟩ := hstrip
    rw [okOr_eq_ok_iff]
    constructor
    · intro h
      -- Decoding inverts the writing of lower-case digits.
      have hbytes := decodeHex_eq_some (by rw [← len, hlen]) h
      rw [← bytes_hexLower] at hbytes
      have hhex := bytes_injective hbytes
      have hsupplied : supplied.length = 32 := by
        have : (hexBytes supplied).length = 64 := by rw [← bytes_hexLower, ← hhex]; exact hlen
        rw [hexBytes, List.length_flatMap] at this
        simp at this
        omega
      refine ⟨hex, ?_, ?_, ?_, hhex.symm⟩
      · rw [← String.toList_inj, htext, String.toList_append]
      · rw [hhex, length_hexLower, hsupplied]
      · rw [hhex]
        exact fun c hc => isLowerHexChar_of_mem_hexLower hc
    · rintro ⟨hex', hsignature, -, -, rfl⟩
      rw [hsignature, String.toList_append] at htext
      have hhex := String.toList_inj.mp (List.append_cancel_left htext)
      rw [← hhex, bytes_hexLower, decodeHex_hexBytes]
  · next hnone =>
    refine ⟨fun h => (by cases h), ?_⟩
    rintro ⟨hex, hsignature, hlen, hdigits, hhex⟩
    have hstrip : stripPrefix signature "v1=" = some hex := by
      rw [stripPrefix_eq_some_iff, hsignature, String.toList_append]
    have hbyteLen : len hex = 64 := by
      rw [← hhex] at hlen ⊢
      rw [len, bytes_hexLower, hexBytes, List.length_flatMap]
      rw [length_hexLower] at hlen
      simp
      omega
    rw [hstrip, Option.filter_some, if_pos (decide_eq_true hbyteLen)] at hnone
    cases hnone

/-! ### Timestamps -/

/-- Only decimal digits are read as a number. -/
theorem decimalDigits_isSome {digits : List Char} {n : Nat} (h : decimalDigits digits = some n) :
    ∀ c ∈ digits, '0' ≤ c ∧ c ≤ '9' := by
  unfold decimalDigits at h
  split at h
  · next hdigits =>
    intro c hc
    have := List.all_eq_true.mp hdigits.2 c hc
    simpa using this
  · cases h

/-- A timestamp that `parse::<i64>` accepts has no point. -/
theorem point_notMem_of_parseI64 {text : String} {n : Int} (h : parseI64 text = some n) :
    '.' ∉ text.toList := by
  have hdigits : ∀ {digits : List Char} {m : Nat}, decimalDigits digits = some m →
      '.' ∉ digits := by
    intro digits m hm hpoint
    exact absurd (decimalDigits_isSome hm '.' hpoint) (by decide)
  unfold parseI64 at h
  obtain ⟨h, -⟩ := Option.filter_eq_some_iff.mp h
  split at h
  · next digits htext =>
    obtain ⟨m, hm, -⟩ := Option.map_eq_some_iff.mp h
    rw [htext, List.mem_cons, not_or]
    exact ⟨by decide, hdigits hm⟩
  · next digits htext =>
    obtain ⟨m, hm, -⟩ := Option.map_eq_some_iff.mp h
    obtain ⟨k, hk, -⟩ := Option.bind_eq_some_iff.mp hm
    rw [htext, List.mem_cons, not_or]
    exact ⟨by decide, hdigits hk⟩
  · obtain ⟨m, hm, -⟩ := Option.map_eq_some_iff.mp h
    exact hdigits hm

/-- An accepted timestamp is in the range of `i64`. -/
theorem parseI64_range {text : String} {n : Int} (h : parseI64 text = some n) :
    -(2 ^ 63) ≤ n ∧ n < 2 ^ 63 := by
  obtain ⟨-, hrange⟩ := Option.filter_eq_some_iff.mp h
  exact of_decide_eq_true hrange

/-- The text that a signature covers. -/
def signedText (timestampText : String) (body : List UInt8) : List UInt8 :=
  bytes timestampText ++ bytes "." ++ body

/-- The signed text determines the timestamp text and the body. -/
theorem signedText_injective {timestampText timestampText' : String} {body body' : List UInt8}
    {n n' : Int} (hn : parseI64 timestampText = some n) (hn' : parseI64 timestampText' = some n')
    (h : signedText timestampText body = signedText timestampText' body') :
    timestampText = timestampText' ∧ body = body' := by
  have hpoint : bytes "." = [UInt8.ofNat '.'.toNat] := by decide
  unfold signedText at h
  rw [hpoint, List.append_assoc, List.append_assoc] at h
  obtain ⟨hbytes, hbody⟩ := append_separator_injective
    ((mem_bytes_iff (by decide)).not.mpr (point_notMem_of_parseI64 hn))
    ((mem_bytes_iff (by decide)).not.mpr (point_notMem_of_parseI64 hn')) h
  exact ⟨bytes_injective hbytes, hbody⟩

/-! ### Keys -/

section

variable [CryptoCrates] [TimeCrate]

/-- A key of the document fits a delivery at the time `now`: it is listed for the source of the
event, has its organization, is valid, and signs the timestamp text and the body with
`supplied`. -/
structure KeyFits (event : ObservationEvent) (timestampText : String)
    (body supplied : List UInt8) (now : Instant) (input : KeyInput) : Prop where
  source : input.sourceId = event.sourceId
  organization : input.organization = event.organization
  validFrom : ∀ text ∈ input.validFrom, ∃ start ∈ TimeCrate.parse text, start ≤ now
  validUntil : ∀ text ∈ input.validUntil, ∃ finish ∈ TimeCrate.parse text, now < finish
  signature : CryptoCrates.hmac (bytes input.secret) (signedText timestampText body) = supplied

/-- The first key of the document that fits. -/
def FirstFit (event : ObservationEvent) (timestampText : String) (body supplied : List UInt8)
    (now : Instant) (inputs : List KeyInput) (transport : VerifiedTransport) : Prop :=
  ∃ i, ∃ hi : i < inputs.length,
    KeyFits event timestampText body supplied now inputs[i] ∧
    (∀ j (hj : j < i), ¬ KeyFits event timestampText body supplied now inputs[j]) ∧
    transport = ⟨inputs[i].keyId, inputs[i].ownerSubject⟩

section

variable {event : ObservationEvent} {timestampText : String} {body supplied : List UInt8}
  {now : Instant} {transport : VerifiedTransport}

/-- A first fit is the first key, or the key does not fit and it is one of the rest. -/
theorem firstFit_cons_iff (input : KeyInput) (inputs : List KeyInput) :
    FirstFit event timestampText body supplied now (input :: inputs) transport ↔
      KeyFits event timestampText body supplied now input ∧
        transport = ⟨input.keyId, input.ownerSubject⟩ ∨
      ¬ KeyFits event timestampText body supplied now input ∧
        FirstFit event timestampText body supplied now inputs transport := by
  constructor
  · rintro ⟨i, hi, hfits, hbefore, htransport⟩
    cases i with
    | zero => exact .inl ⟨hfits, htransport⟩
    | succ i =>
      refine .inr ⟨hbefore 0 (Nat.succ_pos i), i, Nat.lt_of_succ_lt_succ hi, hfits, ?_,
        htransport⟩
      exact fun j hj => hbefore (j + 1) (Nat.succ_lt_succ hj)
  · rintro (⟨hfits, htransport⟩ | ⟨hnot, i, hi, hfits, hbefore, htransport⟩)
    · exact ⟨0, Nat.succ_pos _, hfits, fun j hj => absurd hj (Nat.not_lt_zero j), htransport⟩
    · refine ⟨i + 1, Nat.succ_lt_succ hi, hfits, ?_, htransport⟩
      intro j hj
      cases j with
      | zero => exact hnot
      | succ j => exact hbefore j (Nat.lt_of_succ_lt_succ hj)

/-- An empty key ring fits nothing. -/
theorem not_firstFit_nil : ¬ FirstFit event timestampText body supplied now [] transport :=
  fun ⟨_, hi, _⟩ => absurd hi (Nat.not_lt_zero _)

end

/-- How a parsed key stands for its entry in the document: the same texts, with the secret as bytes
and the times read. -/
structure KeyOf (input : KeyInput) (key : IngestKey) : Prop where
  keyId : key.keyId = input.keyId
  organization : key.organization = input.organization
  ownerSubject : key.ownerSubject = input.ownerSubject
  secret : key.secret = bytes input.secret
  validFrom : KeyRing.keyTimestamp input.validFrom = .ok key.validFrom
  validUntil : KeyRing.keyTimestamp input.validUntil = .ok key.validUntil

omit [CryptoCrates] in
/-- What is parsed from a key document is a key of this document. -/
theorem keyOf_of_parseKey {input : KeyInput} {key : IngestKey}
    (h : KeyRing.parseKey input = .ok key) : KeyOf input key := by
  obtain ⟨-, h⟩ := (ite_error_eq_ok_iff _ _ _ _).mp h
  obtain ⟨_, hfrom, h⟩ := (bind_eq_ok_iff _ _ _).mp h
  obtain ⟨_, huntil, h⟩ := (bind_eq_ok_iff _ _ _).mp h
  obtain ⟨-, h⟩ := (ite_error_eq_ok_iff _ _ _ _).mp h
  cases h
  exact ⟨rfl, rfl, rfl, rfl, hfrom, huntil⟩

omit [CryptoCrates] in
/-- The bounds of a parsed key are those that its texts stand for. -/
theorem keyTimestamp_any_iff {text? : Option String} {instant? : Option Instant}
    (h : KeyRing.keyTimestamp text? = .ok instant?) (p : Instant → Bool) :
    instant?.any p = false ↔ ∀ text ∈ text?, ∃ t ∈ TimeCrate.parse text, p t = false := by
  cases text? with
  | none =>
    cases h
    exact ⟨fun _ _ htext => (nomatch htext), fun _ => rfl⟩
  | some text =>
    obtain ⟨t, ht, h⟩ := (bind_eq_ok_iff _ _ _).mp h
    cases h
    rw [okOr_eq_ok_iff] at ht
    simp [ht]

/-- A parsed key passes the tests of `verify` exactly when its entry fits. -/
theorem keyFits_iff {event : ObservationEvent} {timestampText : String}
    {body supplied : List UInt8} {now : Instant} {input : KeyInput} {key : IngestKey}
    (h : KeyOf input key) (hsource : input.sourceId = event.sourceId) :
    KeyFits event timestampText body supplied now input ↔
      ¬ (key.organization ≠ event.organization ∨
          key.validFrom.any (fun start => now < start) = true ∨
          key.validUntil.any (fun finish => finish ≤ now) = true) ∧
        CryptoCrates.hmac key.secret (bytes timestampText ++ bytes "." ++ body) = supplied := by
  have hfrom := keyTimestamp_any_iff h.validFrom fun start => now < start
  have huntil := keyTimestamp_any_iff h.validUntil fun finish => finish ≤ now
  simp only [decide_eq_false_iff_not, Int.not_lt] at hfrom
  simp only [decide_eq_false_iff_not, Int.not_le] at huntil
  rw [not_or, not_or, not_not, Bool.not_eq_true, Bool.not_eq_true, hfrom, huntil, h.organization,
    h.secret]
  constructor
  · intro hfits
    exact ⟨⟨hfits.organization, hfits.validFrom, hfits.validUntil⟩, hfits.signature⟩
  · rintro ⟨⟨horganization, hvalidFrom, hvalidUntil⟩, hsignature⟩
    exact ⟨hsource, horganization, hvalidFrom, hvalidUntil, hsignature⟩

/-- The loop of `verify` over the keys of a source finds the first entry that fits. -/
theorem verifyCandidates_ok_iff {event : ObservationEvent} {timestampText : String}
    {body supplied : List UInt8} {now : Instant} {transport : VerifiedTransport}
    {inputs : List KeyInput} : ∀ {keyIds : List String} {keys : List (String × IngestKey)},
    KeyRing.parseKeys keyIds inputs = .ok keys →
      (KeyRing.verifyCandidates timestampText body supplied event.organization now
          (KeyRing.candidates ⟨keys⟩ event.sourceId) = .ok transport ↔
        FirstFit event timestampText body supplied now inputs transport) := by
  induction inputs with
  | nil =>
    intro keyIds keys h
    cases h
    exact ⟨fun h => (nomatch h), fun h => absurd h not_firstFit_nil⟩
  | cons input inputs ih =>
    intro keyIds keys h
    obtain ⟨-, h⟩ := (ite_error_eq_ok_iff _ _ _ _).mp h
    obtain ⟨key, hkey, h⟩ := (bind_eq_ok_iff _ _ _).mp h
    obtain ⟨keys', hkeys, h⟩ := (bind_eq_ok_iff _ _ _).mp h
    cases h
    have hof := keyOf_of_parseKey hkey
    have hrest := ih hkeys
    rw [firstFit_cons_iff, ← hrest]
    by_cases hsource : input.sourceId = event.sourceId
    · have hcandidates : KeyRing.candidates ⟨(input.sourceId, key) :: keys'⟩ event.sourceId =
          key :: KeyRing.candidates ⟨keys'⟩ event.sourceId := by
        simp [KeyRing.candidates, hsource]
      rw [hcandidates, KeyRing.verifyCandidates, keyFits_iff hof hsource]
      -- The two tests of the loop: validity first, then the signature.
      split
      · next hskip => simp [hskip]
      · next hskip =>
        split
        · next hsignature =>
          rw [hof.keyId, hof.ownerSubject]
          simp only [hskip, hsignature, not_false_eq_true, and_self, true_and, not_true_eq_false,
            false_and, or_false, Except.ok.injEq]
          exact eq_comm
        · next hsignature =>
          simp only [hskip, hsignature, not_false_eq_true, and_false, false_and, false_or,
            true_and]
    · have hcandidates : KeyRing.candidates ⟨(input.sourceId, key) :: keys'⟩ event.sourceId =
          KeyRing.candidates ⟨keys'⟩ event.sourceId := by
        simp [KeyRing.candidates, hsource]
      have hnot : ¬ KeyFits event timestampText body supplied now input :=
        fun hfits => hsource hfits.source
      rw [hcandidates]
      simp [hnot]

variable [IngestDecoder]

/-- `verify` accepts exactly the deliveries of a source with headers that can be read and a key
that fits. -/
theorem verify_ok_iff {document : String} {inputs : List KeyInput} {ring : KeyRing}
    (hdocument : IngestDecoder.keyDocument document = some inputs)
    (hring : KeyRing.parse document = .ok ring) (headers : HeaderMap) (body : List UInt8)
    (event : ObservationEvent) (now : Instant) (transport : VerifiedTransport) :
    ring.verify headers body event now = .ok transport ↔
      HeaderReads headers "x-canonical-webhook-id" event.eventId ∧
      ∃ timestampText timestamp signature supplied,
        HeaderReads headers "x-canonical-webhook-timestamp" timestampText ∧
        parseI64 timestampText = some timestamp ∧
        (Instant.unixTimestamp now - timestamp).natAbs ≤ 300 ∧
        HeaderReads headers "x-canonical-webhook-signature" signature ∧
        SignatureText signature supplied ∧
        FirstFit event timestampText body supplied now inputs transport := by
  obtain ⟨inputs', hinputs, hparse⟩ := (bind_eq_ok_iff _ _ _).mp hring
  rw [okOr_eq_ok_iff, hdocument] at hinputs
  cases hinputs
  -- The parsed ring holds one key for each input of the document.
  obtain ⟨-, hparse⟩ := (ite_error_eq_ok_iff _ _ _ _).mp hparse
  obtain ⟨keys, hkeys, hparse⟩ := (bind_eq_ok_iff _ _ _).mp hparse
  cases hparse
  have hskew : maxClockSkewSeconds = 300 := rfl
  -- Each check of the source becomes a conjunct, in its order.
  unfold KeyRing.verify
  simp only [bind_eq_ok_iff, ite_error_eq_ok_iff, ingestHeader_eq_ok_iff, okOr_eq_ok_iff,
    parseSignature_eq_ok_iff]
  constructor
  · rintro ⟨webhookId, hwebhook, hid, timestampText, htext, timestamp, htimestamp, hfresh,
      signature, hsignature, supplied, hsupplied, -, hverify⟩
    rw [not_not] at hid
    subst hid
    exact ⟨hwebhook, timestampText, timestamp, signature, supplied, htext, htimestamp,
      by omega, hsignature, hsupplied, (verifyCandidates_ok_iff hkeys).mp hverify⟩
  · rintro ⟨hwebhook, timestampText, timestamp, signature, supplied, htext, htimestamp,
      hfresh, hsignature, hsupplied, hfirst⟩
    have hverify := (verifyCandidates_ok_iff hkeys).mpr hfirst
    refine ⟨_, hwebhook, not_not.mpr rfl, timestampText, htext, timestamp, htimestamp,
      by omega, signature, hsignature, supplied, hsupplied, fun hnil => ?_, hverify⟩
    -- Without a candidate no key can fit.
    rw [hnil] at hverify
    cases hverify

/-- The key that verified a delivery is the first one of the document that fits. -/
theorem verify_firstFit {document : String} {inputs : List KeyInput} {ring : KeyRing}
    (hdocument : IngestDecoder.keyDocument document = some inputs)
    (hring : KeyRing.parse document = .ok ring) {headers : HeaderMap} {body : List UInt8}
    {event : ObservationEvent} {now : Instant} {transport : VerifiedTransport}
    (h : ring.verify headers body event now = .ok transport) :
    ∃ i, ∃ hi : i < inputs.length, ∃ timestampText supplied,
      KeyFits event timestampText body supplied now inputs[i] ∧
        transport = ⟨inputs[i].keyId, inputs[i].ownerSubject⟩ := by
  obtain ⟨-, timestampText, _, _, supplied, -, -, -, -, -, i, hi, hfits, -, htransport⟩ :=
    (verify_ok_iff hdocument hring _ _ _ _ _).mp h
  exact ⟨i, hi, timestampText, supplied, hfits, htransport⟩

/-- Signature admission. Let a key ring be parsed from a document with the keys `inputs`.

- `verify` accepts a delivery exactly when the three headers can be read, the webhook id is the
  event id, the timestamp is an `i64` at most 300 seconds from the clock, the signature is `v1=`
  and 64 lower-case hexadecimal digits, and some key of the document fits. The result names the
  first such key in document order. The distance of two `i64` values is in the range of `u64`.
- A signature value that verifies for one timestamp text and body verifies under the same key
  for no other ones, where HMAC has no collision between the two signed texts. -/
theorem signature_admission {document : String} {inputs : List KeyInput} {ring : KeyRing}
    (hdocument : IngestDecoder.keyDocument document = some inputs)
    (hring : KeyRing.parse document = .ok ring) :
    (∀ headers body event now transport,
      ring.verify headers body event now = .ok transport ↔
        HeaderReads headers "x-canonical-webhook-id" event.eventId ∧
        ∃ timestampText timestamp signature supplied,
          HeaderReads headers "x-canonical-webhook-timestamp" timestampText ∧
          parseI64 timestampText = some timestamp ∧
          (Instant.unixTimestamp now - timestamp).natAbs ≤ 300 ∧
          HeaderReads headers "x-canonical-webhook-signature" signature ∧
          SignatureText signature supplied ∧
          FirstFit event timestampText body supplied now inputs transport) ∧
    (∀ (seconds : Int64) timestampText timestamp, parseI64 timestampText = some timestamp →
      (seconds.toInt - timestamp).natAbs < 2 ^ 64) ∧
    ∀ input supplied event event' now now' timestampText timestampText' timestamp timestamp'
      body body',
      parseI64 timestampText = some timestamp → parseI64 timestampText' = some timestamp' →
      (CryptoCrates.hmac (bytes input.secret) (signedText timestampText body) =
          CryptoCrates.hmac (bytes input.secret) (signedText timestampText' body') →
        signedText timestampText body = signedText timestampText' body') →
      KeyFits event timestampText body supplied now input →
      KeyFits event' timestampText' body' supplied now' input →
      timestampText' = timestampText ∧ body' = body := by
  refine ⟨?_, ?_, ?_⟩
  · exact verify_ok_iff hdocument hring
  · intro seconds timestampText timestamp h
    have hrange := parseI64_range h
    have hlow := seconds.le_toInt
    have hhigh := seconds.toInt_lt
    omega
  · intro input supplied event event' now now' timestampText timestampText' timestamp timestamp'
      body body' h h' hcollision hfits hfits'
    have hsigned := hcollision (hfits.signature.trans hfits'.signature.symm)
    obtain ⟨htext, hbody⟩ := signedText_injective h h' hsigned
    exact ⟨htext.symm, hbody.symm⟩

end

section

/-- Digests of zeros, and signatures that are the first 32 bytes of the text. They tell short texts
apart. -/
@[reducible] def testMac : CryptoCrates where
  sha256 := testCrypto.sha256
  hmac _ text := (text ++ List.replicate 32 0).take 32
  sha256_length := testCrypto.sha256_length
  hmac_length _ text := by
    rw [List.length_take, List.length_append, List.length_replicate]
    exact Nat.min_eq_left (Nat.le_add_left 32 text.length)

attribute [local instance] testTime testUrl testDecoder testMac

/-- The headers of a delivery with the body `a`. -/
def testSigned : HeaderMap := [
  ("x-canonical-webhook-id", bytes "event.test.00000001"),
  ("x-canonical-webhook-timestamp", bytes "1788930000"),
  ("x-canonical-webhook-signature",
    bytes "v1=313738383933303030302e610000000000000000000000000000000000000000")]

/-- The key of the test document signs the body `a`. The same signature does not fit the body `b`
at this timestamp, at any time and for any event. -/
theorem signature_admission_test : ∃ signature supplied,
    HeaderReads testSigned "x-canonical-webhook-signature" signature ∧
      SignatureText signature supplied ∧
      FirstFit (testEvent 1 "event.test.00000001") "1788930000" (bytes "a") supplied
        testDelivery.now [testKeyInput] ⟨"key.customer-ci", "org:example"⟩ ∧
      ∀ event now, ¬ KeyFits event "1788930000" (bytes "b") supplied now testKeyInput := by
  have hdocument : IngestDecoder.keyDocument "document" = some [testKeyInput] := rfl
  have hadmission := signature_admission hdocument testRing_parse
  have hverify : KeyRing.verify ⟨[("source.customer-ci", testKey)]⟩ testSigned (bytes "a")
      (testEvent 1 "event.test.00000001") testDelivery.now =
        .ok ⟨"key.customer-ci", "org:example"⟩ := by
    decide +kernel
  obtain ⟨-, timestampText, timestamp, signature, supplied, htext, -, -, hheader, hsignature,
    hfirst⟩ := (hadmission.1 _ _ _ _ _).mp hverify
  have hread : ingestHeader testSigned "x-canonical-webhook-timestamp" = .ok "1788930000" := by
    decide +kernel
  have hsame := hread.symm.trans ((ingestHeader_eq_ok_iff _ _ _).mpr htext)
  cases hsame
  refine ⟨signature, supplied, hheader, hsignature, hfirst, fun event now hother => ?_⟩
  obtain ⟨i, hi, hfits, -, -⟩ := hfirst
  obtain rfl : i = 0 := Nat.lt_one_iff.mp hi
  have htimestamp : parseI64 "1788930000" = some 1788930000 := by decide +kernel
  -- The two texts have different signatures.
  have hcollision : CryptoCrates.hmac (bytes testKeyInput.secret)
        (signedText "1788930000" (bytes "a")) =
      CryptoCrates.hmac (bytes testKeyInput.secret) (signedText "1788930000" (bytes "b")) →
      signedText "1788930000" (bytes "a") = signedText "1788930000" (bytes "b") := by
    decide +kernel
  obtain ⟨-, hbody⟩ := hadmission.2.2 testKeyInput supplied _ event _ now "1788930000"
    "1788930000" 1788930000 1788930000 (bytes "a") (bytes "b") htimestamp htimestamp hcollision
    hfits hother
  exact absurd hbody (by decide)

end

end CanonicalApi
