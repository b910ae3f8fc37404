import CanonicalApi.Observation.Signature

/-!
# `CanonicalApi.Webhook`: the signature of an outbound delivery

`webhook::signature` writes the signature of a delivery with the `{byte:02x}` of `format!`, and
`parse_signature` of the observation path reads such a text with a table of nibbles and an index
for each digit. The two were written apart from each other. `signature_codec` says that they are
inverse to each other.

`signatureText_eq` brings the text of the signer to the one of `hex_lower`, and
`decodeHex_eq_loop` the reader to its loop over indices.
-/

set_option autoImplicit false

namespace CanonicalApi

namespace Webhook

/-- `{byte:02x}`: the hexadecimal digits of a byte, filled up with zeros to two. -/
def format02x (byte : UInt8) : List Char :=
  let digits := Nat.toDigits 16 byte.toNat
  List.replicate (2 - digits.length) '0' ++ digits

/-- What `signature` writes for the bytes of the code. -/
def signatureText (code : List UInt8) : String :=
  code.foldl (fun encoded byte => encoded ++ String.ofList (format02x byte)) "v1="

/-- `signature`. -/
def signature [CryptoCrates] (secret : List UInt8) (timestamp : String) (body : List UInt8) :
    String :=
  signatureText (CryptoCrates.hmac secret (bytes timestamp ++ bytes "." ++ body))

/-! ### The text of the signer -/

/-- The two routines write the same digits for a byte. -/
theorem format02x_eq (byte : UInt8) :
    format02x byte =
      [JsonValue.hexDigit (byte.toNat / 16), JsonValue.hexDigit (byte.toNat % 16)] := by
  have hall : ∀ k : Fin 256, format02x (UInt8.ofNat k) =
      [JsonValue.hexDigit ((UInt8.ofNat k).toNat / 16),
        JsonValue.hexDigit ((UInt8.ofNat k).toNat % 16)] := by
    decide +kernel
  have hbyte := hall ⟨byte.toNat, byte.toNat_lt⟩
  rwa [UInt8.ofNat_toNat] at hbyte

/-- The loop appends the digits of the bytes one after the other. -/
theorem toList_foldl_format (code : List UInt8) (encoded : String) :
    (code.foldl (fun encoded byte => encoded ++ String.ofList (format02x byte)) encoded).toList =
      encoded.toList ++ code.flatMap format02x := by
  induction code generalizing encoded with
  | nil => simp
  | cons byte code ih =>
    rw [List.foldl_cons, ih, String.toList_append, String.toList_ofList, List.flatMap_cons,
      List.append_assoc]

/-- The text of a signature is `v1=` and the digits of the code. The loop of the source writes them
byte by byte. -/
theorem signatureText_eq (code : List UInt8) : signatureText code = "v1=" ++ hexLower code := by
  have hdigits : code.flatMap format02x = (hexLower code).toList := by
    rw [hexLower, String.toList_ofList]
    exact List.flatMap_congr fun byte _ => format02x_eq byte
  rw [← String.toList_inj, signatureText, toList_foldl_format, String.toList_append, hdigits]

/-! ### The reader -/

/-- One turn of the loop of `parse_signature`: the digits at `2 * index` and behind it. -/
def loopByte (digits : List UInt8) {n : Nat} (h : digits.length = 2 * n) (index : Fin n) :
    Option UInt8 := do
  let high ← decodeNibble (digits.get ⟨index * 2, by omega⟩)
  let low ← decodeNibble (digits.get ⟨index * 2 + 1, by omega⟩)
  return (high <<< 4) ||| low

/-- Behind the first two digits the loop goes on as on the rest. -/
theorem loopByte_succ {high low : UInt8} {rest : List UInt8} {n : Nat}
    (h : (high :: low :: rest).length = 2 * (n + 1)) (hrest : rest.length = 2 * n)
    (index : Fin n) : loopByte (high :: low :: rest) h index.succ = loopByte rest hrest index := by
  have hindex : index.succ.val * 2 = index.val * 2 + 1 + 1 := by
    rw [Fin.val_succ]
    omega
  simp only [loopByte, List.get_eq_getElem, hindex, List.getElem_cons_succ]

/-- The loop of `parse_signature` reads the digits in pairs. -/
theorem decodeHex_eq_loop {digits : List UInt8} {n : Nat} (h : digits.length = 2 * n) :
    decodeHex digits = (List.finRange n).mapM (loopByte digits h) := by
  induction n generalizing digits with
  | zero =>
    obtain rfl := List.eq_nil_of_length_eq_zero h
    rfl
  | succ n ih =>
    match digits, h with
    | high :: low :: rest, h =>
      have hrest : rest.length = 2 * n := by
        simp only [List.length_cons] at h
        omega
      have htail : ((List.finRange n).map Fin.succ).mapM (loopByte (high :: low :: rest) h) =
          (List.finRange n).mapM (loopByte rest hrest) := by
        rw [List.mapM_map]
        exact congrArg (fun f => (List.finRange n).mapM f)
          (funext fun index => loopByte_succ h hrest index)
      rw [decodeHex, ih hrest, List.finRange_succ, List.mapM_cons, htail]
      show _ = (decodeNibble high >>= fun high => decodeNibble low >>= fun low => _) >>= _
      simp only [bind_assoc]
      rfl

/-! ### The two digests of a text -/

/-- The bytes of a hexadecimal text are digits. -/
theorem all_isLowerHex_hexLower (code : List UInt8) :
    (bytes (hexLower code)).all isLowerHex = true := by
  have hdigit : ∀ k : Fin 16, isLowerHex (digitByte k) = true := by decide
  rw [bytes_hexLower, hexBytes, List.all_flatMap, List.all_eq_true]
  intro byte _
  have hbyte := byte.toNat_lt
  have hhigh := hdigit ⟨byte.toNat / 16, by omega⟩
  have hlow := hdigit ⟨byte.toNat % 16, by omega⟩
  simp [hhigh, hlow]

/-- Every byte has two digits. -/
theorem len_hexLower (code : List UInt8) : len (hexLower code) = 2 * code.length := by
  rw [len, bytes_hexLower, hexBytes, List.length_flatMap]
  simp
  omega

/-- `valid_sha256` accepts the label of every digest. -/
theorem validSha256_hexLower {code : List UInt8} (h : code.length = 32) :
    validSha256 ("sha256:" ++ hexLower code) = true := by
  have hstrip : stripPrefix ("sha256:" ++ hexLower code) "sha256:" = some (hexLower code) :=
    (stripPrefix_eq_some_iff _ _ _).mpr (String.toList_append ..)
  unfold validSha256
  rw [hstrip, Option.any_some, len_hexLower, h, all_isLowerHex_hexLower]
  rfl

/-- A text of the signer is one that the reader knows. -/
theorem signatureText_iff (text : String) (code : List UInt8) :
    SignatureText text code ↔ code.length = 32 ∧ text = signatureText code := by
  rw [signatureText_eq]
  constructor
  · rintro ⟨hex, htext, hlength, -, rfl⟩
    rw [length_hexLower] at hlength
    exact ⟨by omega, htext⟩
  · intro ⟨hlength, htext⟩
    refine ⟨hexLower code, htext, ?_, fun c hc => isLowerHexChar_of_mem_hexLower hc, rfl⟩
    rw [length_hexLower, hlength]

end Webhook

open Webhook

/-- The codec of signature texts. `parse_signature` reads the text that the signer writes for 32
bytes as these bytes, and it reads no other text as them. So it reads the signature of a delivery
as the code that the signer computed. A digest of 32 bytes labelled with `sha256:` passes
`valid_sha256`, and different byte strings have different texts. -/
theorem signature_codec [CryptoCrates] :
    (∀ code : List UInt8, code.length = 32 → parseSignature (signatureText code) = .ok code) ∧
    (∀ text code, parseSignature text = .ok code →
      code.length = 32 ∧ text = signatureText code) ∧
    (∀ secret timestamp body, parseSignature (signature secret timestamp body) =
      .ok (CryptoCrates.hmac secret (bytes timestamp ++ bytes "." ++ body))) ∧
    (∀ code : List UInt8, code.length = 32 → validSha256 ("sha256:" ++ hexLower code) = true) ∧
    ∀ code code' : List UInt8, code ≠ code' → hexLower code ≠ hexLower code' := by
  -- Reading inverts the writing; the other parts follow from that or from the decoder.
  have hread : ∀ code : List UInt8, code.length = 32 →
      parseSignature (signatureText code) = .ok code := by
    intro code hlength
    rw [parseSignature_eq_ok_iff, signatureText_iff]
    exact ⟨hlength, rfl⟩
  refine ⟨hread, ?_, ?_, ?_, ?_⟩
  · intro text code h
    rwa [parseSignature_eq_ok_iff, signatureText_iff] at h
  · intro secret timestamp body
    exact hread _ (CryptoCrates.hmac_length _ _)
  · intro code hlength
    exact validSha256_hexLower hlength
  · intro code code' hne h
    exact hne (hexLower_injective h)

end CanonicalApi
