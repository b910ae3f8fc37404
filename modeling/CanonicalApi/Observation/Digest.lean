import CanonicalApi.External

/-!
# `CanonicalApi.Observation.Digest`: payload and record digests

`sha256Label` labels the digest of a delivered body. `recordDigest` chains a stored row to
the row before it: it covers the digest of that row, the payload digest, the event id and
the sequence number, each on a line of its own under a domain line.

`hexLower_injective` says that a digest is known by its text, and
`isLowerHexChar_of_mem_hexLower` which characters occur in it.
-/

set_option autoImplicit false

namespace CanonicalApi

/-- `RECORD_DOMAIN`. -/
def recordDomain : String := "canonical.readiness.observation.record.v1\n"

/-- `ZERO_RECORD_DIGEST`. -/
def zeroRecordDigest : String :=
  "sha256:0000000000000000000000000000000000000000000000000000000000000000"

/-- `hex_lower`. -/
def hexLower (bytes : List UInt8) : String :=
  String.ofList (bytes.flatMap fun byte =>
    [JsonValue.hexDigit (byte.toNat / 16), JsonValue.hexDigit (byte.toNat % 16)])

/-- A lower-case hexadecimal digit. -/
def isLowerHexChar (c : Char) : Bool :=
  ('0' ≤ c && c ≤ '9') || ('a' ≤ c && c ≤ 'f')

/-- Different half bytes have different digits. -/
theorem hexDigit_injective :
    ∀ m n : Fin 16, JsonValue.hexDigit m = JsonValue.hexDigit n → m = n := by
  decide

/-- The digits that are written are lower-case ones. -/
theorem isLowerHexChar_hexDigit : ∀ n : Fin 16, isLowerHexChar (JsonValue.hexDigit n) = true := by
  decide

/-- The two digits of a byte determine it. -/
theorem hexDigits_injective {a b : UInt8}
    (hhigh : JsonValue.hexDigit (a.toNat / 16) = JsonValue.hexDigit (b.toNat / 16))
    (hlow : JsonValue.hexDigit (a.toNat % 16) = JsonValue.hexDigit (b.toNat % 16)) : a = b := by
  have ha := a.toNat_lt
  have hb := b.toNat_lt
  have h₁ := hexDigit_injective ⟨a.toNat / 16, by omega⟩ ⟨b.toNat / 16, by omega⟩ hhigh
  have h₂ := hexDigit_injective ⟨a.toNat % 16, by omega⟩ ⟨b.toNat % 16, by omega⟩ hlow
  have h₁' : a.toNat / 16 = b.toNat / 16 := Fin.mk.inj h₁
  have h₂' : a.toNat % 16 = b.toNat % 16 := Fin.mk.inj h₂
  exact UInt8.toNat_inj.mp (by omega)

/-- Different byte strings have different hexadecimal texts. -/
theorem hexLower_injective : Function.Injective hexLower := by
  intro as bs h
  replace h := String.ofList_injective h
  induction as generalizing bs with
  | nil =>
    cases bs with
    | nil => rfl
    | cons b bs => cases h
  | cons a as ih =>
    cases bs with
    | nil => cases h
    | cons b bs =>
      simp only [List.flatMap_cons, List.cons_append, List.nil_append, List.cons.injEq] at h
      obtain ⟨hhigh, hlow, hrest⟩ := h
      rw [hexDigits_injective hhigh hlow, ih hrest]

/-- Every character of a hexadecimal text is a digit. -/
theorem isLowerHexChar_of_mem_hexLower {bs : List UInt8} {c : Char}
    (hc : c ∈ (hexLower bs).toList) : isLowerHexChar c = true := by
  rw [hexLower, String.toList_ofList] at hc
  obtain ⟨b, -, hc⟩ := List.mem_flatMap.mp hc
  have hb := b.toNat_lt
  simp only [List.mem_cons, List.not_mem_nil, or_false] at hc
  rcases hc with rfl | rfl
  · exact isLowerHexChar_hexDigit ⟨b.toNat / 16, by omega⟩
  · exact isLowerHexChar_hexDigit ⟨b.toNat % 16, by omega⟩

/-- Two digits for each byte. -/
theorem length_hexLower (bs : List UInt8) : (hexLower bs).toList.length = 2 * bs.length := by
  rw [hexLower, String.toList_ofList]
  induction bs with
  | nil => rfl
  | cons b bs ih =>
    rw [List.flatMap_cons, List.length_append, ih, List.length_cons]
    show 2 + 2 * bs.length = 2 * (bs.length + 1)
    omega

/-! ### Digests -/

variable [CryptoCrates]

/-- `sha256_label`. -/
def sha256Label (body : List UInt8) : String :=
  "sha256:" ++ hexLower (CryptoCrates.sha256 body)

/-- The bytes that `record_digest` hashes. -/
def recordPreimage (priorRecordSha256 payloadSha256 eventId : String)
    (sourceSequence : Int64) : List UInt8 :=
  bytes recordDomain ++
    [priorRecordSha256, payloadSha256, eventId, toString sourceSequence.toInt].flatMap
      fun value => bytes value ++ bytes "\n"

/-- `record_digest`. -/
def recordDigest (priorRecordSha256 payloadSha256 eventId : String)
    (sourceSequence : Int64) : String :=
  "sha256:" ++ hexLower (CryptoCrates.sha256
    (recordPreimage priorRecordSha256 payloadSha256 eventId sourceSequence))

end CanonicalApi
