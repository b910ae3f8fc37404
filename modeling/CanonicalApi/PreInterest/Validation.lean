import CanonicalApi.Lib.Outcome
import CanonicalApi.Record
import CanonicalApi.Text
import Mathlib.Data.List.Infix

/-!
# `CanonicalApi.PreInterest.Validation`: a registration of interest

`validate_registration` of `pre_interest.rs` with its normalizers, in the order of the source:
the first check that fails decides the error. `Normalizes` says field by field what an accepted
request and its validated registration have to do with each other, and
`validateRegistration_eq_ok_iff` shows that this is all that the function does.
-/

set_option autoImplicit false

namespace CanonicalApi.PreInterest

open Outcome (bind_eq_ok_iff ite_error_eq_ok_iff)

/-! ### The bounds -/

/-- `MAX_EMAIL_BYTES`. -/
def maxEmailBytes : Nat := 320

/-- `MAX_ORGANIZATION_CHARS`. -/
def maxOrganizationChars : Nat := 200

/-- `MAX_DISPLAY_NAME_CHARS`. -/
def maxDisplayNameChars : Nat := 120

/-- `MAX_WEBSITE_URL_BYTES`. -/
def maxWebsiteUrlBytes : Nat := 2048

/-- `MAX_INTERESTS`. -/
def maxInterests : Nat := 9

/-- `MAX_CONSENT_REVISION_BYTES`. -/
def maxConsentRevisionBytes : Nat := 64

/-- `MAX_MARKETING_CONSENT_REVISION_BYTES`. -/
def maxMarketingConsentRevisionBytes : Nat := 64

/-- `MAX_LOCALE_BYTES`. -/
def maxLocaleBytes : Nat := 35

/-- `MAX_REFERRAL_BYTES`. -/
def maxReferralBytes : Nat := 64

/-! ### The data -/

/-- `PartyType`. -/
inductive PartyType where
  | individual
  | organization
deriving DecidableEq, Repr

/-- `InterestArea`, in the order of its derived `Ord`, which is the order of the `BTreeSet` of a
validated registration. -/
inductive InterestArea where
  | readinessAssessment
  | soc2
  | iso27001
  | hipaa
  | pciDss4
  | fedramp
  | nist
  | gdpr
  | cmmc
deriving DecidableEq, Repr

namespace InterestArea

/-- `InterestArea::as_str`, the name that the fingerprint covers. -/
def asStr : InterestArea → String
  | readinessAssessment => "readiness_assessment"
  | soc2 => "soc2"
  | iso27001 => "iso_27001"
  | hipaa => "hipaa"
  | pciDss4 => "pci_dss_4"
  | fedramp => "fedramp"
  | nist => "nist"
  | gdpr => "gdpr"
  | cmmc => "cmmc"

/-- The areas from the smallest to the largest. -/
def all : List InterestArea :=
  [readinessAssessment, soc2, iso27001, hipaa, pciDss4, fedramp, nist, gdpr, cmmc]

/-- `all` lists every interest. -/
theorem mem_all (area : InterestArea) : area ∈ all := by
  cases area <;> decide

/-- Different interests have different names. -/
theorem asStr_injective : Function.Injective asStr := by
  intro a b h
  cases a <;> cases b <;> first | rfl | exact absurd h (by decide)

end InterestArea

/-- `PreInterestRegistrationRequest`. The texts are as the client sent them. -/
structure PreInterestRegistrationRequest where
  requestId : Uuid
  email : String
  partyType : PartyType
  organizationName : Option String
  interestAreas : List InterestArea
  consentRevision : String
  consentedAt : String
  sourceHost : String
  locale : Option String
  referralCode : Option String
  displayName : Option String
  websiteUrl : Option String
  registrationConsent : Bool
  marketingConsent : Bool
  marketingConsentRevision : Option String
deriving DecidableEq

/-- `SensitiveText`. -/
structure SensitiveText where
  expose : String
deriving DecidableEq

/-- `ValidationError`. None of them carries a text of the request, so an error tells no address. -/
inductive ValidationError where
  | duplicateInterest
  | emptyInterestSet
  | invalidConsentRevision
  | invalidConsentedAt
  | invalidDisplayName
  | invalidEmail
  | invalidLocale
  | invalidMarketingConsentRevision
  | invalidOrganizationName
  | invalidReferralCode
  | invalidSourceHost
  | invalidWebsiteUrl
  | organizationNameForbidden
  | organizationNameRequired
  | partyHostMismatch
  | registrationConsentRequired
  | sourceHostMismatch
  | tooManyInterests
  | unexpectedMarketingConsentRevision
deriving DecidableEq, Repr

/-- `RegistrationHost`. -/
inductive RegistrationHost where
  | user
  | organization
deriving DecidableEq, Repr

namespace RegistrationHost

/-- `RegistrationHost::parse`. -/
def parse (value : String) : Except ValidationError RegistrationHost :=
  if value = "user.canonical.plus" then .ok user
  else if value = "org.canonical.plus" then .ok organization
  else .error .invalidSourceHost

/-- `RegistrationHost::as_str`. -/
def asStr : RegistrationHost → String
  | user => "user.canonical.plus"
  | organization => "org.canonical.plus"

/-- `RegistrationHost::party_type`. -/
def partyType : RegistrationHost → PartyType
  | user => .individual
  | organization => .organization

/-- The accepted hosts are the texts of the variants. -/
theorem parse_eq_ok_iff (value : String) (host : RegistrationHost) :
    parse value = .ok host ↔ value = host.asStr := by
  unfold parse
  constructor
  · intro h
    split at h
    · next hvalue =>
      cases h
      exact hvalue
    · split at h
      · next hvalue =>
        cases h
        exact hvalue
      · cases h
  · rintro rfl
    cases host <;> rfl

end RegistrationHost

/-- `ValidatedPreInterestRegistration`. What tells of a person is a `SensitiveText`, which is not
printed. -/
structure ValidatedPreInterestRegistration where
  requestId : Uuid
  email : SensitiveText
  partyType : PartyType
  organizationName : Option SensitiveText
  interestAreas : List InterestArea
  consentRevision : String
  consentedAt : String
  sourceHost : RegistrationHost
  locale : Option String
  referralCode : Option SensitiveText
  displayName : Option SensitiveText
  websiteUrl : Option SensitiveText
  registrationConsent : Bool
  marketingConsent : Bool
  marketingConsentRevision : Option String
deriving DecidableEq

/-! ### Text -/

/-- `str::split_whitespace`. -/
def splitWhitespace (value : List Char) : List (List Char) :=
  (value.splitOnP isWhitespace).filter (· ≠ [])

/-! ### The normalizers -/

/-- `valid_domain_label`. -/
def validDomainLabel (label : String) : Bool :=
  label.toList ≠ [] && label.toList.head? ≠ some '-' && label.toList.getLast? ≠ some '-' &&
    (bytes label).all fun byte => isAsciiAlphanumeric byte || byte == 45

/-- What `normalize_email` rejects of the two parts around the first `@`. -/
def validEmailParts (localPart domain : String) : Bool :=
  localPart.toList ≠ [] && domain.toList ≠ [] && '@' ∉ domain.toList &&
    localPart.toList.head? ≠ some '.' && localPart.toList.getLast? ≠ some '.' &&
    !decide (['.', '.'] <:+: localPart.toList) && '.' ∈ domain.toList &&
    (domain.toList.splitOn '.').all fun label => validDomainLabel (String.ofList label)

/-- `normalize_email`. The white space around an address is cut off and the rest is put in lower
case, the local part too; an address with a character beyond ASCII is refused. -/
def normalizeEmail (value : String) : Except ValidationError String :=
  let trimmed := trim value
  if trimmed.toList = [] ∨ len trimmed > maxEmailBytes ∨ !isAscii trimmed ∨
      trimmed.toList.any fun c => isControl c || isWhitespace c then
    .error .invalidEmail
  else
    match splitOnce trimmed '@' with
    | none => .error .invalidEmail
    | some (localPart, domain) =>
        if !validEmailParts localPart domain then .error .invalidEmail
        else .ok (lowercase localPart ++ "@" ++ lowercase domain)

/-- `normalize_human_text`: runs of white space become one space, and the bound is on the characters
that are left. A control character is refused, and a line break is one. -/
def normalizeHumanText (value : String) (maxChars : Nat) (error : ValidationError) :
    Except ValidationError String :=
  if value.toList.any isControl then .error error
  else
    let normalized := String.ofList ([' '].intercalate (splitWhitespace value.toList))
    if normalized.toList = [] ∨ normalized.toList.length > maxChars then .error error
    else .ok normalized

/-- `normalize_website_url`: the bound is checked on the text that is given, before the URL is
written anew. -/
def normalizeWebsiteUrl [UrlText] (value : String) : Except ValidationError String :=
  let normalized := trim value
  if normalized.toList = [] ∨ len normalized > maxWebsiteUrlBytes ∨
      normalized.toList.any isControl ∨ normalized.toList.any isWhitespace then
    .error .invalidWebsiteUrl
  else
    match UrlCrate.parse normalized with
    | none => .error .invalidWebsiteUrl
    | some parsed =>
        if parsed.scheme ≠ "https" ∨ parsed.host.isNone ∨ parsed.username ≠ "" ∨
            parsed.password.isSome ∨ parsed.fragment.isSome then
          .error .invalidWebsiteUrl
        else .ok (UrlText.serialize normalized)

/-- `is_locale`: a language of two or three letters, and any number of segments of two to eight
letters or digits. -/
def isLocale (value : String) : Bool :=
  match (value.toList.splitOn '-').map String.ofList with
  | [] => false
  | language :: segments =>
      ((2 ≤ len language && len language ≤ 3) && (bytes language).all isAsciiAlphabetic) &&
        segments.all fun segment =>
          (2 ≤ len segment && len segment ≤ 8) && (bytes segment).all isAsciiAlphanumeric

/-- `normalize_locale`. -/
def normalizeLocale (value : String) : Except ValidationError String :=
  let normalized := trim value
  if len normalized < 2 ∨ len normalized > maxLocaleBytes ∨ !isLocale normalized then
    .error .invalidLocale
  else .ok normalized

/-- The bytes of a portable identifier of this module. -/
def portableByte (byte : UInt8) : Bool :=
  isAsciiAlphanumeric byte || byte == 46 || byte == 95 || byte == 45

/-- `is_portable_identifier`. -/
def isPortableIdentifier (value : String) (maxBytes : Nat) : Bool :=
  match bytes value with
  | [] => false
  | first :: rest =>
      (first :: rest).length ≤ maxBytes && isAsciiAlphanumeric first &&
        (first :: rest).all portableByte

/-- A trimmed portable identifier, or the error of its field. -/
def normalizeIdentifier (maxBytes : Nat) (error : ValidationError) (value : String) :
    Except ValidationError String :=
  let normalized := trim value
  if !isPortableIdentifier normalized maxBytes then .error error else .ok normalized

/-- `normalize_referral`. -/
def normalizeReferral (value : String) : Except ValidationError String :=
  normalizeIdentifier maxReferralBytes .invalidReferralCode value

/-- `parse_two`. -/
def parseTwo (bytes : List UInt8) (start : Nat) : Option Nat := do
  let first ← bytes[start]?
  let second ← bytes[start + 1]?
  if !isAsciiDigit first || !isAsciiDigit second then none
  else some ((first.toNat - 48) * 10 + (second.toNat - 48))

/-- The index after the digits from `index` on. -/
def skipDigits (bytes : List UInt8) (index : Nat) : Nat :=
  index + ((bytes.drop index).takeWhile isAsciiDigit).length

/-- The index of the time zone, if the fraction of a second has a digit. -/
def timezoneIndex (bytes : List UInt8) : Option Nat :=
  if bytes[19]? = some 46 then
    if skipDigits bytes 20 = 20 then none else some (skipDigits bytes 20)
  else some 19

/-- The time zone of `is_rfc3339`, which ends the text: a `Z`, or a sign with hours and minutes. -/
def isTimezone (bytes : List UInt8) (index : Nat) : Bool :=
  match bytes[index]? with
  | some 90 => index + 1 == bytes.length
  | some sign =>
      (sign == 43 || sign == 45) && (index + 6 == bytes.length &&
        bytes[index + 3]? == some 58 && (parseTwo bytes (index + 1)).any (· ≤ 23) &&
        (parseTwo bytes (index + 4)).any (· ≤ 59))
  | none => false

/-- `is_rfc3339`. It works on bytes at fixed places and does not know the lengths of the months. -/
def isRfc3339 (value : String) : Bool :=
  let bytes := bytes value
  if !(20 ≤ bytes.length && bytes.length ≤ 35) || bytes[4]? ≠ some 45 ||
      bytes[7]? ≠ some 45 || bytes[10]? ≠ some 84 || bytes[13]? ≠ some 58 ||
      bytes[16]? ≠ some 58 || !(bytes.take 4).all isAsciiDigit then
    false
  else
    match parseTwo bytes 5, parseTwo bytes 8, parseTwo bytes 11, parseTwo bytes 14,
      parseTwo bytes 17 with
    | some month, some day, some hour, some minute, some second =>
        if !(1 ≤ month && month ≤ 12) || !(1 ≤ day && day ≤ 31) || hour > 23 ||
            minute > 59 || second > 60 then
          false
        else
          match timezoneIndex bytes with
          | none => false
          | some index => isTimezone bytes index
    | _, _, _, _, _ => false

/-- `consented_at`, trimmed and checked. -/
def normalizeConsentedAt (value : String) : Except ValidationError String :=
  let normalized := trim value
  if !isRfc3339 normalized then .error .invalidConsentedAt else .ok normalized

/-- `organization_name`: organizations give one, individuals do not. A name that is missing is
another error than one that is not valid. -/
def normalizeOrganizationName (partyType : PartyType) (organizationName : Option String) :
    Except ValidationError (Option SensitiveText) :=
  match partyType with
  | .individual =>
      if organizationName.isSome then .error .organizationNameForbidden else .ok none
  | .organization => do
      let value ← Outcome.okOr .organizationNameRequired organizationName
      let name ← normalizeHumanText value maxOrganizationChars .invalidOrganizationName
      .ok (some ⟨name⟩)

/-- `collect` into a `BTreeSet` and back: each area once, from the smallest to the largest. -/
def areaSet (interestAreas : List InterestArea) : List InterestArea :=
  InterestArea.all.filter (· ∈ interestAreas)

/-- The interests of a request, which must be given and distinct. -/
def normalizeInterests (interestAreas : List InterestArea) :
    Except ValidationError (List InterestArea) :=
  if interestAreas = [] then .error .emptyInterestSet
  else if interestAreas.length > maxInterests then .error .tooManyInterests
  else if (areaSet interestAreas).length ≠ interestAreas.length then .error .duplicateInterest
  else .ok (areaSet interestAreas)

/-- `marketing_consent_revision`: given exactly with the consent. The two mistakes have errors of
their own. -/
def normalizeMarketingRevision (marketingConsent : Bool)
    (marketingConsentRevision : Option String) : Except ValidationError (Option String) :=
  match marketingConsent, marketingConsentRevision with
  | true, some value => do
      let revision ← normalizeIdentifier maxMarketingConsentRevisionBytes
        .invalidMarketingConsentRevision value
      .ok (some revision)
  | true, none => .error .invalidMarketingConsentRevision
  | false, some _ => .error .unexpectedMarketingConsentRevision
  | false, none => .ok none

/-- An optional field: normalized when it is given (`map` and `transpose`). -/
def optionalField (normalize : String → Except ValidationError String) :
    Option String → Except ValidationError (Option String)
  | none => .ok none
  | some value => do
      let normalized ← normalize value
      .ok (some normalized)

variable [UrlText]

/-- `validate_registration`. The host that was verified decides on the kind of the party, and the
texts are normalized one by one in the order of the source; the first fault ends it. -/
def validateRegistration (request : PreInterestRegistrationRequest) (verifiedHost : String) :
    Except ValidationError ValidatedPreInterestRegistration := do
  let sourceHost ← RegistrationHost.parse verifiedHost
  if request.sourceHost ≠ verifiedHost then
    .error .sourceHostMismatch
  else if request.partyType ≠ sourceHost.partyType then
    .error .partyHostMismatch
  else if !request.registrationConsent then
    .error .registrationConsentRequired
  else do
    let email ← normalizeEmail request.email
    let organizationName ← normalizeOrganizationName request.partyType request.organizationName
    let displayName ← optionalField
      (normalizeHumanText · maxDisplayNameChars .invalidDisplayName) request.displayName
    let websiteUrl ← optionalField normalizeWebsiteUrl request.websiteUrl
    let interestAreas ← normalizeInterests request.interestAreas
    let consentRevision ← normalizeIdentifier maxConsentRevisionBytes .invalidConsentRevision
      request.consentRevision
    let consentedAt ← normalizeConsentedAt request.consentedAt
    let locale ← optionalField normalizeLocale request.locale
    let referralCode ← optionalField normalizeReferral request.referralCode
    let marketingConsentRevision ← normalizeMarketingRevision request.marketingConsent
      request.marketingConsentRevision
    .ok { requestId := request.requestId
          email := ⟨email⟩
          partyType := request.partyType
          organizationName
          interestAreas
          consentRevision
          consentedAt
          sourceHost
          locale
          referralCode := referralCode.map SensitiveText.mk
          displayName := displayName.map SensitiveText.mk
          websiteUrl := websiteUrl.map SensitiveText.mk
          registrationConsent := true
          marketingConsent := request.marketingConsent
          marketingConsentRevision }

/-! ### What an accepted request gives -/

/-- A request and its validated registration, field by field. It holds exactly when the validation
returns that registration, by `validateRegistration_eq_ok_iff`. -/
structure Normalizes (request : PreInterestRegistrationRequest) (verifiedHost : String)
    (registration : ValidatedPreInterestRegistration) : Prop where
  host : verifiedHost = registration.sourceHost.asStr
  sourceHost : request.sourceHost = verifiedHost
  partyOfHost : request.partyType = registration.sourceHost.partyType
  requestId : registration.requestId = request.requestId
  partyType : registration.partyType = request.partyType
  consentGiven : request.registrationConsent = true
  registrationConsent : registration.registrationConsent = true
  email : normalizeEmail request.email = .ok registration.email.expose
  organizationName : normalizeOrganizationName request.partyType request.organizationName
    = .ok registration.organizationName
  displayName : optionalField (normalizeHumanText · maxDisplayNameChars .invalidDisplayName)
    request.displayName = .ok (registration.displayName.map SensitiveText.expose)
  websiteUrl : optionalField normalizeWebsiteUrl request.websiteUrl
    = .ok (registration.websiteUrl.map SensitiveText.expose)
  interestAreas : normalizeInterests request.interestAreas = .ok registration.interestAreas
  consentRevision : normalizeIdentifier maxConsentRevisionBytes .invalidConsentRevision
    request.consentRevision = .ok registration.consentRevision
  consentedAt : normalizeConsentedAt request.consentedAt = .ok registration.consentedAt
  locale : optionalField normalizeLocale request.locale = .ok registration.locale
  referralCode : optionalField normalizeReferral request.referralCode
    = .ok (registration.referralCode.map SensitiveText.expose)
  marketingConsent : registration.marketingConsent = request.marketingConsent
  marketingConsentRevision : normalizeMarketingRevision request.marketingConsent
    request.marketingConsentRevision = .ok registration.marketingConsentRevision

omit [UrlText] in
/-- A text that is wrapped and read again. -/
theorem map_expose_map_mk (value : Option String) :
    (value.map SensitiveText.mk).map SensitiveText.expose = value := by
  cases value <;> rfl

omit [UrlText] in
/-- A sensitive text is determined by what it exposes. -/
theorem map_mk_map_expose (value : Option SensitiveText) :
    (value.map SensitiveText.expose).map SensitiveText.mk = value := by
  cases value <;> rfl

/-- `validate_registration` accepts a request exactly when every field normalizes. -/
theorem validateRegistration_eq_ok_iff (request : PreInterestRegistrationRequest)
    (verifiedHost : String) (registration : ValidatedPreInterestRegistration) :
    validateRegistration request verifiedHost = .ok registration
      ↔ Normalizes request verifiedHost registration := by
  unfold validateRegistration
  constructor
  · intro h
    -- The checks in the order of the source, each of which ended without an error.
    obtain ⟨sourceHost, hhost, h⟩ := (bind_eq_ok_iff _ _ _).mp h
    obtain ⟨hsource, h⟩ := (ite_error_eq_ok_iff _ _ _ _).mp h
    obtain ⟨hparty, h⟩ := (ite_error_eq_ok_iff _ _ _ _).mp h
    obtain ⟨hconsent, h⟩ := (ite_error_eq_ok_iff _ _ _ _).mp h
    obtain ⟨email, hemail, h⟩ := (bind_eq_ok_iff _ _ _).mp h
    obtain ⟨organizationName, horganization, h⟩ := (bind_eq_ok_iff _ _ _).mp h
    obtain ⟨displayName, hdisplay, h⟩ := (bind_eq_ok_iff _ _ _).mp h
    obtain ⟨websiteUrl, hwebsite, h⟩ := (bind_eq_ok_iff _ _ _).mp h
    obtain ⟨interestAreas, hinterests, h⟩ := (bind_eq_ok_iff _ _ _).mp h
    obtain ⟨consentRevision, hrevision, h⟩ := (bind_eq_ok_iff _ _ _).mp h
    obtain ⟨consentedAt, hconsented, h⟩ := (bind_eq_ok_iff _ _ _).mp h
    obtain ⟨locale, hlocale, h⟩ := (bind_eq_ok_iff _ _ _).mp h
    obtain ⟨referralCode, hreferral, h⟩ := (bind_eq_ok_iff _ _ _).mp h
    obtain ⟨marketingRevision, hmarketing, h⟩ := (bind_eq_ok_iff _ _ _).mp h
    cases h
    exact {
      host := (RegistrationHost.parse_eq_ok_iff _ _).mp hhost
      sourceHost := not_not.mp hsource
      partyOfHost := not_not.mp hparty
      requestId := rfl
      partyType := rfl
      consentGiven := by simpa using hconsent
      registrationConsent := rfl
      email := hemail
      organizationName := horganization
      displayName := by rw [hdisplay, map_expose_map_mk]
      websiteUrl := by rw [hwebsite, map_expose_map_mk]
      interestAreas := hinterests
      consentRevision := hrevision
      consentedAt := hconsented
      locale := hlocale
      referralCode := by rw [hreferral, map_expose_map_mk]
      marketingConsent := rfl
      marketingConsentRevision := hmarketing }
  · intro h
    -- Under the conditions each check is passed in turn.
    have hhost := (RegistrationHost.parse_eq_ok_iff _ _).mpr h.host
    have hconsent : ¬ (!request.registrationConsent) = true := by simp [h.consentGiven]
    rw [hhost, Outcome.ok_bind, if_neg (not_not.mpr h.sourceHost),
      if_neg (not_not.mpr h.partyOfHost), if_neg hconsent, h.email, Outcome.ok_bind,
      h.organizationName, Outcome.ok_bind, h.displayName, Outcome.ok_bind, h.websiteUrl,
      Outcome.ok_bind, h.interestAreas, Outcome.ok_bind, h.consentRevision, Outcome.ok_bind,
      h.consentedAt, Outcome.ok_bind, h.locale, Outcome.ok_bind, h.referralCode,
      Outcome.ok_bind, h.marketingConsentRevision, Outcome.ok_bind, map_mk_map_expose,
      map_mk_map_expose, map_mk_map_expose, ← h.requestId, ← h.partyType,
      ← h.marketingConsent, ← h.registrationConsent]

end CanonicalApi.PreInterest
