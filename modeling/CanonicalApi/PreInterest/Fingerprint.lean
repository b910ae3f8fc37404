import CanonicalApi.Lib.Fields
import CanonicalApi.PreInterest.Normalization
import Mathlib.Tactic.IntervalCases

/-!
# `CanonicalApi.PreInterest.Fingerprint`: what a request fingerprint covers

`derive_email_alias` and `derive_request_fingerprint` of `pre_interest.rs`. The message of the
fingerprint is a flat sequence of fields. Each field but the optional ones ends in NUL, an
optional one starts with a byte that tells whether it is there, and the interests come without
a count, directly before two more fields.

The message determines the registration because of what the normalizers exclude. No field
contains NUL. The interests and the consent revision contain no colon, and the time after them
does, so the time shows where the interests end.
-/

set_option autoImplicit false

namespace CanonicalApi.PreInterest

open Outcome (bind_eq_ok_iff ite_error_eq_ok_iff)
open Fields

/-! ### The message authentication code -/

/-- `MIN_DERIVATION_KEY_BYTES`. -/
def minDerivationKeyBytes : Nat := 32

/-- `EMAIL_ALIAS_CONTEXT`. -/
def emailAliasContext : List UInt8 :=
  bytes "canonical.pre-interest.email-alias.v1\x00"

/-- `REQUEST_FINGERPRINT_CONTEXT`. -/
def requestFingerprintContext : List UInt8 :=
  bytes "canonical.pre-interest.request-fingerprint.v1\x00"

/-- `DerivationKeyError`. -/
structure DerivationKeyError where
deriving DecidableEq, Repr

/-- `OpaqueDigest`: 32 bytes. -/
structure OpaqueDigest where
  asBytes : List UInt8
  length_eq : asBytes.length = 32
deriving DecidableEq

/-- `HmacSha256`: the key and the message so far. -/
structure HmacSha256 where
  key : List UInt8
  message : List UInt8
deriving DecidableEq

namespace HmacSha256

/-- `Mac::update`. -/
def update (mac : HmacSha256) (value : List UInt8) : HmacSha256 :=
  { mac with message := mac.message ++ value }

/-- `update_field`. -/
def updateField (mac : HmacSha256) (value : List UInt8) : HmacSha256 :=
  (mac.update value).update [0]

/-- `update_optional`. -/
def updateOptional (mac : HmacSha256) : Option String → HmacSha256
  | some value => (mac.update [1]).updateField (bytes value)
  | none => mac.update [0, 0]

/-- A field is fed with a zero byte after it. -/
theorem updateField_message (mac : HmacSha256) (value : List UInt8) :
    (mac.updateField value).message = mac.message ++ terminated 0 value :=
  List.append_assoc ..

/-- An optional field is fed with a mark that says whether it is there. -/
theorem updateOptional_message (mac : HmacSha256) (value : Option String) :
    (mac.updateOptional value).message = mac.message ++ optional 1 0 (value.map bytes) := by
  cases value with
  | none => rfl
  | some value =>
    rw [updateOptional, updateField_message, update, List.append_assoc]
    rfl

/-- To feed a field does not change the key. -/
@[simp] theorem updateField_key (mac : HmacSha256) (value : List UInt8) :
    (mac.updateField value).key = mac.key := rfl

/-- To feed an optional field does not change the key. -/
@[simp] theorem updateOptional_key (mac : HmacSha256) (value : Option String) :
    (mac.updateOptional value).key = mac.key := by
  cases value <;> rfl

/-- To feed a list of fields does not change the key. -/
@[simp] theorem foldl_updateField_key {α : Type} (text : α → List UInt8) (items : List α) :
    ∀ mac : HmacSha256,
      (items.foldl (fun mac item => mac.updateField (text item)) mac).key = mac.key := by
  induction items with
  | nil => exact fun _ => rfl
  | cons item items ih =>
    intro mac
    rw [List.foldl_cons, ih, updateField_key]

/-- A loop of `update_field`. -/
theorem foldl_updateField_message {α : Type} (text : α → List UInt8) (items : List α) :
    ∀ mac : HmacSha256,
      (items.foldl (fun mac item => mac.updateField (text item)) mac).message
        = mac.message ++ terminatedList 0 (items.map text) := by
  induction items with
  | nil => exact fun mac => (List.append_nil _).symm
  | cons item items ih =>
    intro mac
    rw [List.foldl_cons, ih, updateField_message, List.map_cons, terminatedList_cons,
      List.append_assoc]

end HmacSha256

/-- `new_mac`. `HmacSha256::new_from_slice` takes a key of any length. -/
def newMac (key context : List UInt8) : Except DerivationKeyError HmacSha256 :=
  if key.length < minDerivationKeyBytes then .error {}
  else .ok { key, message := context }

/-- `finish_mac`. -/
def finishMac [CryptoCrates] (mac : HmacSha256) : OpaqueDigest where
  asBytes := CryptoCrates.hmac mac.key mac.message
  length_eq := CryptoCrates.hmac_length ..

/-- `party_type_name`. -/
def partyTypeName : PartyType → String
  | .individual => "individual"
  | .organization => "organization"

/-- `boolean_name`. -/
def booleanName (value : Bool) : String :=
  if value then "true" else "false"

/-- The code of `derive_email_alias` before `finish_mac`. -/
def emailAliasMac (key : List UInt8) (email : SensitiveText) :
    Except DerivationKeyError HmacSha256 := do
  let mac ← newMac key emailAliasContext
  .ok (mac.updateField (bytes email.expose))

/-- `derive_email_alias`. -/
def deriveEmailAlias [CryptoCrates] (key : List UInt8) (email : SensitiveText) :
    Except DerivationKeyError OpaqueDigest := do
  let mac ← emailAliasMac key email
  .ok (finishMac mac)

/-- The fields of a registration, in the order in which the fingerprint covers them. The request id
is not among them, so a repeated request keeps its fingerprint. -/
def updateRegistration (registration : ValidatedPreInterestRegistration) (mac : HmacSha256) :
    HmacSha256 :=
  let mac := mac.updateField (bytes registration.email.expose)
  let mac := mac.updateField (bytes (partyTypeName registration.partyType))
  let mac := mac.updateOptional (registration.organizationName.map SensitiveText.expose)
  let mac := registration.interestAreas.foldl
    (fun mac interest => mac.updateField (bytes interest.asStr)) mac
  let mac := mac.updateField (bytes registration.consentRevision)
  let mac := mac.updateField (bytes registration.consentedAt)
  let mac := mac.updateField (bytes registration.sourceHost.asStr)
  let mac := mac.updateOptional registration.locale
  let mac := mac.updateOptional (registration.referralCode.map SensitiveText.expose)
  let mac := mac.updateOptional (registration.displayName.map SensitiveText.expose)
  let mac := mac.updateOptional (registration.websiteUrl.map SensitiveText.expose)
  let mac := mac.updateField (bytes (booleanName registration.registrationConsent))
  let mac := mac.updateField (bytes (booleanName registration.marketingConsent))
  mac.updateOptional registration.marketingConsentRevision

/-- The code of `derive_request_fingerprint` before `finish_mac`. -/
def requestFingerprintMac (key : List UInt8) (registration : ValidatedPreInterestRegistration) :
    Except DerivationKeyError HmacSha256 := do
  let mac ← newMac key requestFingerprintContext
  .ok (updateRegistration registration mac)

/-- `derive_request_fingerprint`. -/
def deriveRequestFingerprint [CryptoCrates] (key : List UInt8)
    (registration : ValidatedPreInterestRegistration) :
    Except DerivationKeyError OpaqueDigest := do
  let mac ← requestFingerprintMac key registration
  .ok (finishMac mac)

/-! ### The fields of the message -/

/-- What the fingerprint covers after its context, as one byte string. Every field ends with a zero
byte or begins with a tag, which makes the string readable in one way only. -/
def fingerprintFields (registration : ValidatedPreInterestRegistration) : List UInt8 :=
  terminated 0 (bytes registration.email.expose) ++
  (terminated 0 (bytes (partyTypeName registration.partyType)) ++
  (optional 1 0 ((registration.organizationName.map SensitiveText.expose).map bytes) ++
  (terminatedList 0 (registration.interestAreas.map fun interest => bytes interest.asStr) ++
  (terminated 0 (bytes registration.consentRevision) ++
  (terminated 0 (bytes registration.consentedAt) ++
  (terminated 0 (bytes registration.sourceHost.asStr) ++
  (optional 1 0 (registration.locale.map bytes) ++
  (optional 1 0 ((registration.referralCode.map SensitiveText.expose).map bytes) ++
  (optional 1 0 ((registration.displayName.map SensitiveText.expose).map bytes) ++
  (optional 1 0 ((registration.websiteUrl.map SensitiveText.expose).map bytes) ++
  (terminated 0 (bytes (booleanName registration.registrationConsent)) ++
  (terminated 0 (bytes (booleanName registration.marketingConsent)) ++
  (optional 1 0 (registration.marketingConsentRevision.map bytes) ++ [])))))))))))))

/-- The updates append these fields. -/
theorem updateRegistration_message (registration : ValidatedPreInterestRegistration)
    (mac : HmacSha256) :
    (updateRegistration registration mac).message
      = mac.message ++ fingerprintFields registration := by
  unfold updateRegistration fingerprintFields
  simp only [HmacSha256.updateOptional_message, HmacSha256.updateField_message,
    HmacSha256.foldl_updateField_message, List.append_assoc, List.append_nil]

/-- To feed a registration does not change the key. -/
theorem updateRegistration_key (registration : ValidatedPreInterestRegistration)
    (mac : HmacSha256) : (updateRegistration registration mac).key = mac.key := by
  simp [updateRegistration]

/-- The key and the message of a fingerprint. -/
theorem requestFingerprintMac_eq_ok_iff (key : List UInt8)
    (registration : ValidatedPreInterestRegistration) (mac : HmacSha256) :
    requestFingerprintMac key registration = .ok mac ↔
      minDerivationKeyBytes ≤ key.length ∧
        mac = { key, message := requestFingerprintContext ++ fingerprintFields registration } := by
  have hmac : updateRegistration registration { key, message := requestFingerprintContext }
      = { key, message := requestFingerprintContext ++ fingerprintFields registration } := by
    have hkey := updateRegistration_key registration { key, message := requestFingerprintContext }
    have hmessage :=
      updateRegistration_message registration { key, message := requestFingerprintContext }
    generalize updateRegistration registration _ = mac at hkey hmessage ⊢
    cases mac
    rw [HmacSha256.mk.injEq]
    exact ⟨hkey, hmessage⟩
  unfold requestFingerprintMac newMac
  rw [bind_eq_ok_iff]
  constructor
  · rintro ⟨start, hstart, h⟩
    obtain ⟨hkey, hstart⟩ := (ite_error_eq_ok_iff _ _ _ _).mp hstart
    cases hstart
    cases h
    exact ⟨Nat.not_lt.mp hkey, hmac⟩
  · rintro ⟨hkey, rfl⟩
    exact ⟨_, if_neg (Nat.not_lt.mpr hkey), congrArg Except.ok hmac⟩

/-! ### What the normalizers exclude -/

/-- A text without U+0000 has no byte 0. -/
theorem nul_not_mem_bytes {value : String} (h : '\x00' ∉ value.toList) : 0 ∉ bytes value :=
  fun hmem => h ((mem_bytes_iff (c := '\x00') (by decide)).mp hmem)

/-- A text without control characters has no byte 0. -/
theorem nul_not_mem_of_not_control {value : String}
    (h : ∀ c ∈ value.toList, isControl c = false) : 0 ∉ bytes value :=
  nul_not_mem_bytes fun hmem => absurd (h _ hmem) (by decide)

/-- A portable identifier has neither the byte 0 nor a colon. -/
theorem not_mem_of_isPortableIdentifier {value : String} {maxBytes : Nat}
    (h : isPortableIdentifier value maxBytes = true) : 0 ∉ bytes value ∧ 58 ∉ bytes value := by
  have hall := List.all_eq_true.mp (len_le_of_isPortableIdentifier h).2
  exact ⟨fun hmem => absurd (hall 0 hmem) (by decide),
    fun hmem => absurd (hall 58 hmem) (by decide)⟩

/-- The name of an interest has neither a zero byte nor a colon, the separators of the message. -/
theorem not_mem_interest (area : InterestArea) :
    0 ∉ bytes area.asStr ∧ 58 ∉ bytes area.asStr := by
  cases area <;> decide

/-- The segments of a locale are letters and digits, and hyphens stand between them. -/
theorem nul_not_mem_of_isLocale {value : String} (h : isLocale value = true) :
    0 ∉ bytes value := by
  apply nul_not_mem_bytes
  intro hmem
  -- Every segment is made of letters and digits.
  have hsegment : ∀ segment ∈ value.toList.splitOn '-',
      (bytes (String.ofList segment)).all isAsciiAlphanumeric = true := by
    unfold isLocale at h
    split at h
    · cases h
    · next language segments hsplit =>
      simp only [Bool.and_eq_true, List.all_eq_true] at h
      intro segment hmem
      have htext : String.ofList segment ∈ language :: segments := by
        rw [← hsplit]
        exact List.mem_map_of_mem hmem
      rcases List.mem_cons.mp htext with htext | htext
      · rw [htext, List.all_eq_true]
        intro byte hbyte
        have halphabetic := h.1.2 byte hbyte
        rw [isAsciiAlphabetic] at halphabetic
        rw [isAsciiAlphanumeric, Bool.or_assoc, halphabetic, Bool.or_true]
      · exact List.all_eq_true.mpr (h.2 _ htext).2
  have hjoin : ['-'].intercalate (value.toList.splitOn '-') = value.toList :=
    List.intercalate_splitOn '-'
  rw [← hjoin] at hmem
  -- So a character of the locale is a hyphen, a letter or a digit.
  rcases mem_intercalate hmem with hdash | ⟨segment, hsegmentMem, hmem⟩
  · exact absurd hdash (by decide)
  · have hfree := not_mem_of_all_bytes (b := 0) (c := '\x00') (hsegment segment hsegmentMem)
      (by decide) (by decide)
    rw [String.toList_ofList] at hfree
    exact hfree hmem

/-! ### Timestamps -/

/-- A digit is no zero byte. -/
theorem ne_zero_of_isAsciiDigit {byte : UInt8} (h : isAsciiDigit byte = true) : byte ≠ 0 := by
  rintro rfl
  exact absurd h (by decide)

/-- `parse_two` reads two digits. -/
theorem parseTwo_isSome {bytes : List UInt8} {start : Nat}
    (h : (parseTwo bytes start).isSome = true) :
    bytes[start]? ≠ some 0 ∧ bytes[start + 1]? ≠ some 0 := by
  unfold parseTwo at h
  cases hfirst : bytes[start]? with
  | none =>
    rw [hfirst] at h
    cases h
  | some first =>
    cases hsecond : bytes[start + 1]? with
    | none =>
      rw [hfirst, hsecond] at h
      cases h
    | some second =>
      rw [hfirst, hsecond] at h
      have hdigits : isAsciiDigit first = true ∧ isAsciiDigit second = true := by
        by_contra hnot
        have hreject : (!isAsciiDigit first || !isAsciiDigit second) = true := by
          cases hf : isAsciiDigit first <;> cases hs : isAsciiDigit second <;> simp_all
        have hnone : (if (!isAsciiDigit first || !isAsciiDigit second) = true then none
            else some ((first.toNat - 48) * 10 + (second.toNat - 48))).isSome = true := h
        rw [if_pos hreject] at hnone
        cases hnone
      rw [ne_eq, ne_eq, Option.some.injEq, Option.some.injEq]
      exact ⟨ne_zero_of_isAsciiDigit hdigits.1, ne_zero_of_isAsciiDigit hdigits.2⟩

/-- The digits of a fraction. -/
theorem ne_zero_of_lt_skipDigits {bytes : List UInt8} {start index : Nat} (hle : start ≤ index)
    (hlt : index < skipDigits bytes start) : bytes[index]? ≠ some 0 := by
  unfold skipDigits at hlt
  intro hzero
  have hat : (bytes.drop start)[index - start]? = some 0 := by
    rw [List.getElem?_drop, Nat.add_sub_cancel' hle]
    exact hzero
  obtain ⟨rest, hrest⟩ := List.takeWhile_prefix isAsciiDigit (l := bytes.drop start)
  rw [← hrest, List.getElem?_append_left (by omega)] at hat
  have hdigit := List.mem_takeWhile_imp (List.mem_of_getElem? hat)
  exact absurd hdigit (by decide)

/-- The bytes of a time zone up to the end. -/
theorem ne_zero_of_isTimezone {bytes : List UInt8} {start index : Nat}
    (h : isTimezone bytes start = true) (hle : start ≤ index) : bytes[index]? ≠ some 0 := by
  unfold isTimezone at h
  intro hzero
  have hlt := (List.getElem?_eq_some_iff.mp hzero).1
  split at h
  · next hsome =>
    rw [beq_iff_eq] at h
    have hindex : index = start := by omega
    rw [hindex, hsome] at hzero
    exact absurd hzero (by decide)
  · next sign hsign hsome =>
    simp only [Bool.and_eq_true, beq_iff_eq, Bool.or_eq_true] at h
    obtain ⟨hsign, ⟨⟨hlength, hcolon⟩, hhour⟩, hminute⟩ := h
    have hhour := parseTwo_isSome (Option.isSome_of_any hhour)
    have hminute := parseTwo_isSome (Option.isSome_of_any hminute)
    -- The six positions of the offset: a sign, two digits, a colon, two digits.
    have hcases : index = start ∨ index = start + 1 ∨ index = start + 2 ∨ index = start + 3 ∨
        index = start + 4 ∨ index = start + 5 := by omega
    rcases hcases with rfl | rfl | rfl | rfl | rfl | rfl
    · rw [hsome, Option.some.injEq] at hzero
      rw [hzero] at hsign
      exact absurd hsign (by decide)
    · exact hhour.1 hzero
    · exact hhour.2 hzero
    · rw [hcolon] at hzero
      exact absurd hzero (by decide)
    · exact hminute.1 hzero
    · exact hminute.2 hzero
  · cases h

/-- The byte before the time zone is reached through the seconds or the fraction. -/
theorem ne_zero_of_timezoneIndex {bytes : List UInt8} {start index : Nat}
    (h : timezoneIndex bytes = some start) (hle : 19 ≤ index) (hlt : index < start) :
    bytes[index]? ≠ some 0 := by
  unfold timezoneIndex at h
  split at h
  · next hdot =>
    split at h
    · cases h
    · cases h
      by_cases hindex : index = 19
      · rw [hindex, hdot]
        decide
      · exact ne_zero_of_lt_skipDigits (by omega) hlt
  · cases h
    omega

/-- A time has no byte 0, and the byte at position 13 is a colon. -/
theorem not_mem_of_isRfc3339 {value : String} (h : isRfc3339 value = true) :
    0 ∉ bytes value ∧ 58 ∈ bytes value := by
  unfold isRfc3339 at h
  dsimp only at h
  split at h
  · cases h
  · next hshape =>
    split at h
    · next month day hour minute second hmonth hday hhour hminute hsecond =>
      split at h
      · cases h
      · split at h
        · cases h
        · next start hstart =>
          simp only [Bool.or_eq_true, not_or, decide_eq_true_iff, ne_eq, not_not,
            Bool.not_eq_true', Bool.not_eq_false, List.all_eq_true] at hshape
          obtain ⟨⟨⟨⟨⟨⟨-, h4⟩, h7⟩, h10⟩, h13⟩, h16⟩, hyear⟩ := hshape
          have hmonth := parseTwo_isSome (Option.isSome_of_eq_some hmonth)
          have hday := parseTwo_isSome (Option.isSome_of_eq_some hday)
          have hhour := parseTwo_isSome (Option.isSome_of_eq_some hhour)
          have hminute := parseTwo_isSome (Option.isSome_of_eq_some hminute)
          have hsecond := parseTwo_isSome (Option.isSome_of_eq_some hsecond)
          refine ⟨fun hmem => ?_, List.mem_of_getElem? h13⟩
          obtain ⟨index, hzero⟩ := List.mem_iff_getElem?.mp hmem
          -- The date and the time of day have fixed positions, then come fraction and zone.
          by_cases hyearIndex : index < 4
          · have hdigit := hyear 0 (List.mem_of_getElem? (by
              rw [List.getElem?_take_of_lt hyearIndex]
              exact hzero))
            exact absurd hdigit (by decide)
          · by_cases hfixed : index < 19
            · interval_cases index <;> simp_all
            · by_cases hfraction : index < start
              · exact ne_zero_of_timezoneIndex hstart (by omega) hfraction hzero
              · exact ne_zero_of_isTimezone h (by omega) hzero
    · cases h

/-! ### Reading the message -/

/-- No field of a registration contains the byte 0, and the first field with a colon after the
organization name is the time of the consent. -/
structure ValidatedPreInterestRegistration.Separable
    (registration : ValidatedPreInterestRegistration) : Prop where
  email : 0 ∉ bytes registration.email.expose
  organizationName : ∀ name ∈ registration.organizationName, 0 ∉ bytes name.expose
  consentRevision : 0 ∉ bytes registration.consentRevision ∧
    58 ∉ bytes registration.consentRevision
  consentedAt : 0 ∉ bytes registration.consentedAt ∧ 58 ∈ bytes registration.consentedAt
  locale : ∀ locale ∈ registration.locale, 0 ∉ bytes locale
  referralCode : ∀ code ∈ registration.referralCode, 0 ∉ bytes code.expose
  displayName : ∀ name ∈ registration.displayName, 0 ∉ bytes name.expose
  websiteUrl : ∀ url ∈ registration.websiteUrl, 0 ∉ bytes url.expose
  marketingConsentRevision : ∀ revision ∈ registration.marketingConsentRevision,
    0 ∉ bytes revision

/-- A validated registration is separable, when the crate `url` writes no U+0000. -/
theorem separable_of_normalizes [UrlText]
    (hurl : ∀ value, '\x00' ∉ (UrlText.serialize value).toList)
    {request : PreInterestRegistrationRequest} {verifiedHost : String}
    {registration : ValidatedPreInterestRegistration}
    (h : Normalizes request verifiedHost registration) : registration.Separable where
  email := by
    obtain ⟨_, _, haddress, htext⟩ := (normalizeEmail_eq_ok_iff _ _).mp h.email
    rw [htext]
    -- An address has no control characters.
    exact nul_not_mem_of_not_control fun c hc => (haddress.lowercase.plain c hc).1
  organizationName := by
    intro name hname
    have hok := (normalizeOrganizationName_spec h.organizationName).1 name hname
    exact nul_not_mem_of_not_control (not_control_of_normalizeHumanText hok)
  consentRevision := not_mem_of_isPortableIdentifier
    ((normalizeIdentifier_eq_ok_iff _ _ _ _).mp h.consentRevision).2
  consentedAt := not_mem_of_isRfc3339 ((normalizeConsentedAt_eq_ok_iff _ _).mp h.consentedAt).2
  locale := optionalField_spec (fun hok =>
    nul_not_mem_of_isLocale ((normalizeLocale_eq_ok_iff _ _).mp hok).2.2.2) h.locale
  referralCode := by
    intro code hcode
    exact optionalField_spec (P := fun text => 0 ∉ bytes text)
      (fun hok => (not_mem_of_isPortableIdentifier
        ((normalizeIdentifier_eq_ok_iff _ _ _ _).mp hok).2).1) h.referralCode
      code.expose (Option.mem_map_of_mem _ hcode)
  displayName := by
    intro name hname
    exact optionalField_spec (P := fun text => 0 ∉ bytes text)
      (fun hok => nul_not_mem_of_not_control (not_control_of_normalizeHumanText hok))
      h.displayName name.expose (Option.mem_map_of_mem _ hname)
  websiteUrl := by
    intro url hmem
    exact optionalField_spec (P := fun text => 0 ∉ bytes text)
      (fun hok => by
        -- The URL is the one that the parser writes.
        rw [((normalizeWebsiteUrl_eq_ok_iff _ _).mp hok).2.2.2.2]
        exact nul_not_mem_bytes (hurl _)) h.websiteUrl
      url.expose (Option.mem_map_of_mem _ hmem)
  marketingConsentRevision := fun text htext => (not_mem_of_isPortableIdentifier
    ((normalizeMarketingRevision_spec h.marketingConsentRevision).1 text htext)).1

/-- A sensitive text is told apart by what it exposes. -/
theorem expose_injective : Function.Injective SensitiveText.expose := by
  intro a b hab
  cases a
  cases b
  exact congrArg SensitiveText.mk hab

/-- A text is read up to its NUL. -/
theorem decodable_text :
    Decodable (fun text : String => 0 ∉ bytes text) fun text => terminated 0 (bytes text) :=
  Decodable.comp (decodable_terminated 0) bytes_injective fun _ h => h

/-- A name from a fixed set is read up to its NUL. -/
theorem decodable_name {α : Type} {name : α → String} (hname : Function.Injective name)
    (hfree : ∀ a, 0 ∉ bytes (name a)) :
    Decodable (fun _ : α => True) fun a => terminated 0 (bytes (name a)) :=
  Decodable.comp decodable_text hname fun a _ => hfree a

/-- An optional text is read by its first byte. -/
theorem decodable_optionalText :
    Decodable (fun text : Option String => ∀ value ∈ text, 0 ∉ bytes value)
      fun text => optional 1 0 (text.map bytes) := by
  have hread : Decodable _ (optional (1 : UInt8) 0) := decodable_optional (by decide)
  apply hread.comp (Option.map_injective bytes_injective)
  intro text h value hmem
  obtain ⟨original, horiginal, rfl⟩ := Option.map_eq_some_iff.mp hmem
  exact h original horiginal

/-- An optional contact field is read by its first byte. -/
theorem decodable_sensitive :
    Decodable (fun text : Option SensitiveText => ∀ value ∈ text, 0 ∉ bytes value.expose)
      fun text => optional 1 0 ((text.map SensitiveText.expose).map bytes) := by
  apply Decodable.comp decodable_optionalText (Option.map_injective expose_injective)
  intro text h value hmem
  obtain ⟨original, horiginal, rfl⟩ := Option.map_eq_some_iff.mp hmem
  exact h original horiginal

/-- The fields determine a registration up to its request id. -/
theorem fingerprintFields_injective {a b : ValidatedPreInterestRegistration}
    (ha : a.Separable) (hb : b.Separable) (h : fingerprintFields a = fingerprintFields b) :
    { a with requestId := b.requestId } = b := by
  have hparty : Function.Injective partyTypeName := by
    intro x y hxy
    cases x <;> cases y <;> first | rfl | exact absurd hxy (by decide)
  have hhost : Function.Injective RegistrationHost.asStr := by
    intro x y hxy
    cases x <;> cases y <;> first | rfl | exact absurd hxy (by decide)
  have hboolean : Function.Injective booleanName := by
    intro x y hxy
    cases x <;> cases y <;> first | rfl | exact absurd hxy (by decide)
  have hpartyFree : ∀ x, 0 ∉ bytes (partyTypeName x) := by
    intro x
    cases x <;> decide
  have hhostFree : ∀ x : RegistrationHost, 0 ∉ bytes x.asStr := by
    intro x
    cases x <;> decide
  have hbooleanFree : ∀ x, 0 ∉ bytes (booleanName x) := by
    intro x
    cases x <;> decide
  have hinterest : Function.Injective (List.map fun area : InterestArea => bytes area.asStr) :=
    List.map_injective_iff.mpr (bytes_injective.comp InterestArea.asStr_injective)
  unfold fingerprintFields at h
  obtain ⟨hemail, h⟩ := decodable_text ha.email hb.email h
  obtain ⟨hpartyType, h⟩ := decodable_name hparty hpartyFree trivial trivial h
  obtain ⟨horganization, h⟩ := decodable_sensitive ha.organizationName hb.organizationName h
  -- The interests and the consent revision form one list, which the time ends.
  rw [terminatedList_concat 0 _ (bytes a.consentRevision),
    terminatedList_concat 0 _ (bytes b.consentRevision)] at h
  have hitems : ∀ registration : ValidatedPreInterestRegistration, registration.Separable →
      ∀ item ∈ (registration.interestAreas.map fun area => bytes area.asStr)
        ++ [bytes registration.consentRevision], 0 ∉ item ∧ 58 ∉ item := by
    intro registration hregistration item hitem
    rcases List.mem_append.mp hitem with hitem | hitem
    · obtain ⟨area, -, rfl⟩ := List.mem_map.mp hitem
      exact not_mem_interest area
    · rw [List.mem_singleton.mp hitem]
      exact hregistration.consentRevision
  obtain ⟨hlist, hconsentedAt, h⟩ := terminatedList_marked (58 ∈ ·)
    (fun x hx => (hitems a ha x hx).1) (fun x hx => (hitems b hb x hx).1)
    (fun x hx => (hitems a ha x hx).2) (fun x hx => (hitems b hb x hx).2)
    ha.consentedAt.1 hb.consentedAt.1 ha.consentedAt.2 hb.consentedAt.2 h
  obtain ⟨hareas, hrevision⟩ := List.append_inj' hlist rfl
  obtain ⟨hsourceHost, h⟩ := decodable_name hhost hhostFree trivial trivial h
  obtain ⟨hlocale, h⟩ := decodable_optionalText ha.locale hb.locale h
  obtain ⟨hreferral, h⟩ := decodable_sensitive ha.referralCode hb.referralCode h
  obtain ⟨hdisplay, h⟩ := decodable_sensitive ha.displayName hb.displayName h
  obtain ⟨hwebsite, h⟩ := decodable_sensitive ha.websiteUrl hb.websiteUrl h
  obtain ⟨hregistration, h⟩ := decodable_name hboolean hbooleanFree trivial trivial h
  obtain ⟨hmarketing, h⟩ := decodable_name hboolean hbooleanFree trivial trivial h
  obtain ⟨hmarketingRevision, -⟩ :=
    decodable_optionalText ha.marketingConsentRevision hb.marketingConsentRevision h
  rw [expose_injective hemail, hpartyType, horganization, hinterest hareas,
    bytes_injective (List.cons.inj hrevision).1, bytes_injective hconsentedAt, hsourceHost,
    hlocale, hreferral, hdisplay, hwebsite, hregistration, hmarketing, hmarketingRevision]

/-- Without the request id, the fingerprint covers every field. -/
theorem fingerprintFields_congr {a b : ValidatedPreInterestRegistration}
    (h : { a with requestId := b.requestId } = b) : fingerprintFields a = fingerprintFields b := by
  rw [← h]
  rfl

/-- The order in which interests are given does not matter. -/
theorem normalizeInterests_perm {given given' : List InterestArea} (h : given.Perm given') :
    normalizeInterests given = normalizeInterests given' := by
  have hset : areaSet given = areaSet given' := areaSet_congr fun _ => h.mem_iff
  have hnil : given = [] ↔ given' = [] := by
    constructor
    · rintro rfl
      exact h.symm.eq_nil
    · rintro rfl
      exact h.eq_nil
  unfold normalizeInterests
  rw [hset, h.length_eq]
  simp only [hnil]

/-- The message of an email alias is not the message of a request fingerprint: the contexts
differ. -/
theorem alias_message_ne {key : List UInt8} {email : SensitiveText}
    {registration : ValidatedPreInterestRegistration} {aliasMac fingerprintMac : HmacSha256}
    (halias : emailAliasMac key email = .ok aliasMac)
    (hfingerprint : requestFingerprintMac key registration = .ok fingerprintMac) :
    aliasMac.message ≠ fingerprintMac.message := by
  obtain ⟨-, rfl⟩ := (requestFingerprintMac_eq_ok_iff _ _ _).mp hfingerprint
  obtain ⟨start, hstart, h⟩ := (bind_eq_ok_iff _ _ _).mp halias
  obtain ⟨-, hstart⟩ := (ite_error_eq_ok_iff _ _ _ _).mp hstart
  cases hstart
  cases h
  rw [HmacSha256.updateField_message]
  intro heq
  have hlength : 30 ≤ emailAliasContext.length := by decide
  have hlength' : 30 ≤ requestFingerprintContext.length := by decide
  have hcontext := congrArg (List.take 30) heq
  dsimp only at hcontext
  rw [List.take_append_of_le_length hlength, List.take_append_of_le_length hlength']
    at hcontext
  exact absurd hcontext (by decide)

section

variable [UrlText] [CryptoCrates]

/-- The fingerprint of a validated registration stands for all its fields but the request id:
two registrations have one fingerprint exactly when these fields agree, the order of the
interests does not reach it, and no email alias is computed from its message. The hypotheses
say that the crate `url` writes no U+0000, and that HMAC does not collide on the messages of
the two registrations. -/
theorem fingerprint_identifies
    (hurl : ∀ value, '\x00' ∉ (UrlText.serialize value).toList)
    {key : List UInt8} {request request' : PreInterestRegistrationRequest} {host host' : String}
    {a b : ValidatedPreInterestRegistration}
    (ha : validateRegistration request host = .ok a)
    (hb : validateRegistration request' host' = .ok b)
    (hmac : ∀ {mac mac'}, requestFingerprintMac key a = .ok mac →
      requestFingerprintMac key b = .ok mac' →
        CryptoCrates.hmac key mac.message = CryptoCrates.hmac key mac'.message →
          mac.message = mac'.message) :
    (∀ digest digest', deriveRequestFingerprint key a = .ok digest →
        deriveRequestFingerprint key b = .ok digest' →
          (digest = digest' ↔ { a with requestId := b.requestId } = b)) ∧
      (∀ areas, areas.Perm request.interestAreas →
        validateRegistration { request with interestAreas := areas } host = .ok a) ∧
      ∀ email aliasMac mac, emailAliasMac key email = .ok aliasMac →
        requestFingerprintMac key a = .ok mac → aliasMac.message ≠ mac.message := by
  have hnormalizes := (validateRegistration_eq_ok_iff _ _ _).mp ha
  have hnormalizes' := (validateRegistration_eq_ok_iff _ _ _).mp hb
  refine ⟨?_, ?_, fun _ _ _ => alias_message_ne⟩
  · intro digest digest' hdigest hdigest'
    obtain ⟨mac, hmac₁, h⟩ := (bind_eq_ok_iff _ _ _).mp hdigest
    obtain ⟨mac', hmac₂, h'⟩ := (bind_eq_ok_iff _ _ _).mp hdigest'
    cases h
    cases h'
    -- Equal digests come from equal messages, which are the context and the fields.
    have hmessages := hmac hmac₁ hmac₂
    obtain ⟨-, rfl⟩ := (requestFingerprintMac_eq_ok_iff _ _ _).mp hmac₁
    obtain ⟨-, rfl⟩ := (requestFingerprintMac_eq_ok_iff _ _ _).mp hmac₂
    constructor
    · intro heq
      have hfields := List.append_cancel_left (hmessages (congrArg OpaqueDigest.asBytes heq))
      exact fingerprintFields_injective (separable_of_normalizes hurl hnormalizes)
        (separable_of_normalizes hurl hnormalizes') hfields
    · intro hsame
      rw [fingerprintFields_congr hsame]
  · intro areas hareas
    rw [validateRegistration_eq_ok_iff]
    exact { hnormalizes with
      interestAreas := (normalizeInterests_perm hareas).trans hnormalizes.interestAreas }

end

/-- The digest of the fixture has 32 bytes. -/
theorem length_zeroDigest : (List.replicate 32 (0 : UInt8)).length = 32 := rfl

/-- The signature of the fixture has 32 bytes. Its first byte is the length of the message, so it
tells messages of different lengths apart. -/
theorem length_messageMac (message : List UInt8) :
    (UInt8.ofNat message.length :: List.replicate 31 0).length = 32 := rfl

/-- A digest that tells the length of the message. -/
@[reducible] def lengthMac : CryptoCrates where
  sha256 _ := List.replicate 32 0
  hmac _ message := UInt8.ofNat message.length :: List.replicate 31 0
  sha256_length _ := length_zeroDigest
  hmac_length _ message := length_messageMac message

attribute [local instance] testUrlText lengthMac

/-- No URL that is written contains U+0000. -/
theorem nulFree_testUrlText (value : String) : '\x00' ∉ (UrlText.serialize value).toList := by
  intro hmem
  cases hquery : testQuery value with
  | none =>
    have hserialize : UrlText.serialize value = "" := by
      show (match testQuery value with
        | some query => "https://canonical.plus" ++ ("/?" ++ query)
        | none => "") = _
      rw [hquery]
    rw [hserialize] at hmem
    exact List.not_mem_nil hmem
  | some query =>
    rw [serialize_of_testQuery hquery, String.toList_append, String.toList_append,
      List.mem_append, List.mem_append] at hmem
    rcases hmem with hmem | hmem | hmem
    · revert hmem
      decide
    · revert hmem
      decide
    · exact absurd (List.all_eq_true.mp (testQuery_serialize hquery).1 _ hmem) (by decide)

/-- Two registrations that differ only in their website, under one key: the three parts of the
theorem for them, with an HMAC whose codes show the length of the message. -/
theorem fingerprint_identifies_test :
    let key := List.replicate 32 97
    let a := websiteRegistration "https://canonical.plus/?security"
    let b := websiteRegistration "https://canonical.plus/?privacy"
    (∀ digest digest', deriveRequestFingerprint key a = .ok digest →
        deriveRequestFingerprint key b = .ok digest' →
          (digest = digest' ↔ { a with requestId := b.requestId } = b)) ∧
      (∀ areas, areas.Perm [.hipaa, .soc2] →
        validateRegistration
          { websiteRequest "https://canonical.plus?security" with interestAreas := areas }
          "user.canonical.plus" = .ok a) ∧
      ∀ email aliasMac mac, emailAliasMac key email = .ok aliasMac →
        requestFingerprintMac key a = .ok mac → aliasMac.message ≠ mac.message := by
  have hsecurity : normalizeWebsiteUrl "https://canonical.plus?security"
      = .ok "https://canonical.plus/?security" := by decide
  have hprivacy : normalizeWebsiteUrl "https://canonical.plus?privacy"
      = .ok "https://canonical.plus/?privacy" := by decide
  refine fingerprint_identifies nulFree_testUrlText
    ((validateRegistration_eq_ok_iff _ _ _).mpr (normalizes_websiteRequest hsecurity))
    ((validateRegistration_eq_ok_iff _ _ _).mpr (normalizes_websiteRequest hprivacy)) ?_
  intro mac mac' hmac hmac' hcollision
  obtain ⟨-, rfl⟩ := (requestFingerprintMac_eq_ok_iff _ _ _).mp hmac
  obtain ⟨-, rfl⟩ := (requestFingerprintMac_eq_ok_iff _ _ _).mp hmac'
  -- The messages have different lengths, so the digests differ.
  have hlength := (List.cons.inj hcollision).1
  revert hlength
  decide +kernel

end CanonicalApi.PreInterest
