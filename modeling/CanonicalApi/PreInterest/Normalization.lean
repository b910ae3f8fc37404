import CanonicalApi.PreInterest.Normalizers

/-!
# `CanonicalApi.PreInterest.Normalization`: canonical registrations

A validated registration is canonical when the request that is built from it validates to it
again. Every normalizer but one makes it so. The exception is the website:
`normalizeWebsiteUrl` bounds the text that it is given and returns the text that the crate
`url` writes, which can be longer. An accepted website can then exceed the bound, and is
rejected when it is given again.
-/

set_option autoImplicit false

namespace CanonicalApi

open Outcome (bind_eq_ok_iff ite_error_eq_ok_iff)

namespace PreInterest

/-! ### The website -/

/-- What the crate `url` documents of the URLs with the scheme `https`: the text of a URL
begins with the scheme, has no control characters and no white space, and is the text of the
same URL. -/
structure Whatwg [UrlText] : Prop where
  scheme : ∀ {value : String} {parsed : ParsedUrl}, UrlCrate.parse value = some parsed →
    parsed.scheme = "https" → ∃ rest, UrlText.serialize value = "https:" ++ rest
  plain : ∀ {value : String} {parsed : ParsedUrl}, UrlCrate.parse value = some parsed →
    parsed.scheme = "https" →
      ∀ c ∈ (UrlText.serialize value).toList, isControl c = false ∧ isWhitespace c = false
  reparse : ∀ {value : String} {parsed : ParsedUrl}, UrlCrate.parse value = some parsed →
    parsed.scheme = "https" → UrlCrate.parse (UrlText.serialize value) = some parsed
  reserialize : ∀ {value : String} {parsed : ParsedUrl}, UrlCrate.parse value = some parsed →
    parsed.scheme = "https" →
      UrlText.serialize (UrlText.serialize value) = UrlText.serialize value

/-- A URL that a registration may name. -/
def ParsedUrl.IsWebsite (parsed : ParsedUrl) : Prop :=
  parsed.scheme = "https" ∧ parsed.host.isSome ∧ parsed.username = "" ∧
    parsed.password = none ∧ parsed.fragment = none

section

variable [UrlText]

/-- What `normalize_website_url` accepts, and what it returns. -/
theorem normalizeWebsiteUrl_eq_ok_iff (value url : String) :
    normalizeWebsiteUrl value = .ok url ↔
      (trim value).toList ≠ [] ∧ len (trim value) ≤ maxWebsiteUrlBytes ∧
        (∀ c ∈ (trim value).toList, isControl c = false ∧ isWhitespace c = false) ∧
        (∃ parsed, UrlCrate.parse (trim value) = some parsed ∧ ParsedUrl.IsWebsite parsed) ∧
        url = UrlText.serialize (trim value) := by
  unfold normalizeWebsiteUrl
  dsimp only
  rw [ite_error_eq_ok_iff, not_or, not_or, not_or, Nat.not_lt]
  have hplain : (¬ (trim value).toList.any isControl = true ∧
      ¬ (trim value).toList.any isWhitespace = true) ↔
        ∀ c ∈ (trim value).toList, isControl c = false ∧ isWhitespace c = false := by
    simp [forall_and]
  rw [hplain]
  cases hparse : UrlCrate.parse (trim value) with
  | none => simp
  | some parsed =>
    -- The checks on the parsed URL, as one condition.
    have hwebsite : (¬ (parsed.scheme ≠ "https" ∨ parsed.host.isNone = true ∨
        parsed.username ≠ "" ∨ parsed.password.isSome = true ∨
        parsed.fragment.isSome = true)) ↔ ParsedUrl.IsWebsite parsed := by
      simp [ParsedUrl.IsWebsite, Option.isSome_iff_ne_none]
    dsimp only
    rw [ite_error_eq_ok_iff, hwebsite, Except.ok.injEq]
    constructor
    · rintro ⟨⟨hne, hshort, hplain⟩, hparsed, rfl⟩
      exact ⟨hne, hshort, hplain, ⟨parsed, rfl, hparsed⟩, rfl⟩
    · rintro ⟨hne, hshort, hplain, ⟨found, hfound, hparsed⟩, rfl⟩
      cases hfound
      exact ⟨⟨hne, hshort, hplain⟩, hparsed, rfl⟩

/-- An accepted website is accepted again, as it is, exactly when it is within the bound. -/
theorem normalizeWebsiteUrl_again_iff (hurl : Whatwg) {value url : String}
    (h : normalizeWebsiteUrl value = .ok url) :
    normalizeWebsiteUrl url = .ok url ↔ len url ≤ maxWebsiteUrlBytes := by
  obtain ⟨-, -, -, ⟨parsed, hparse, hwebsite⟩, rfl⟩ := (normalizeWebsiteUrl_eq_ok_iff _ _).mp h
  have hhttps := hwebsite.1
  have hplain := hurl.plain hparse hhttps
  -- The serialized URL has no spaces, so that trimming changes nothing.
  have htrim := trim_eq_self fun c hc => (hplain c hc).2
  obtain ⟨rest, hrest⟩ := hurl.scheme hparse hhttps
  have hne : (UrlText.serialize (trim value)).toList ≠ [] := by
    rw [hrest, String.toList_append]
    exact List.append_ne_nil_of_left_ne_nil (by decide) _
  rw [normalizeWebsiteUrl_eq_ok_iff, htrim]
  constructor
  · rintro ⟨-, hshort, -⟩
    exact hshort
  · intro hshort
    have hagain := hurl.reparse hparse hhttps
    exact ⟨hne, hshort, hplain, ⟨parsed, hagain, hwebsite⟩, (hurl.reserialize hparse hhttps).symm⟩

/-! ### Registrations -/

/-- Every text of a registration is within its bound. Names are counted in characters and everything
else in bytes. -/
structure ValidatedPreInterestRegistration.Bounded
    (registration : ValidatedPreInterestRegistration) : Prop where
  email : len registration.email.expose ≤ maxEmailBytes
  organizationName : ∀ name ∈ registration.organizationName,
    name.expose.toList.length ≤ maxOrganizationChars
  displayName : ∀ name ∈ registration.displayName,
    name.expose.toList.length ≤ maxDisplayNameChars
  websiteUrl : ∀ url ∈ registration.websiteUrl, len url.expose ≤ maxWebsiteUrlBytes
  consentRevision : len registration.consentRevision ≤ maxConsentRevisionBytes
  locale : ∀ locale ∈ registration.locale, len locale ≤ maxLocaleBytes
  referralCode : ∀ code ∈ registration.referralCode, len code.expose ≤ maxReferralBytes
  marketingConsentRevision : ∀ revision ∈ registration.marketingConsentRevision,
    len revision ≤ maxMarketingConsentRevisionBytes

/-- The request with the fields of a registration: what a client would send that repeats what the
service has stored. -/
def ValidatedPreInterestRegistration.toRequest
    (registration : ValidatedPreInterestRegistration) : PreInterestRegistrationRequest where
  requestId := registration.requestId
  email := registration.email.expose
  partyType := registration.partyType
  organizationName := registration.organizationName.map SensitiveText.expose
  interestAreas := registration.interestAreas
  consentRevision := registration.consentRevision
  consentedAt := registration.consentedAt
  sourceHost := registration.sourceHost.asStr
  locale := registration.locale
  referralCode := registration.referralCode.map SensitiveText.expose
  displayName := registration.displayName.map SensitiveText.expose
  websiteUrl := registration.websiteUrl.map SensitiveText.expose
  registrationConsent := registration.registrationConsent
  marketingConsent := registration.marketingConsent
  marketingConsentRevision := registration.marketingConsentRevision

omit [UrlText] in
/-- A normalized organization name is a normalized text and normalizes to itself. -/
theorem normalizeOrganizationName_spec {partyType : PartyType} {value : Option String}
    {name : Option SensitiveText} (h : normalizeOrganizationName partyType value = .ok name) :
    (∀ text ∈ name, normalizeHumanText text.expose maxOrganizationChars
        .invalidOrganizationName = .ok text.expose) ∧
      normalizeOrganizationName partyType (name.map SensitiveText.expose) = .ok name := by
  unfold normalizeOrganizationName at h
  cases partyType with
  | individual =>
    obtain ⟨-, h⟩ := (ite_error_eq_ok_iff _ _ _ _).mp h
    cases h
    exact ⟨fun _ hmem => (nomatch hmem), rfl⟩
  | organization =>
    obtain ⟨given, -, h⟩ := (bind_eq_ok_iff _ _ _).mp h
    obtain ⟨text, htext, h⟩ := (bind_eq_ok_iff _ _ _).mp h
    cases h
    refine ⟨?_, ?_⟩
    · intro _ hmem
      cases hmem
      exact normalizeHumanText_idempotent htext
    · show (do
        let name ← normalizeHumanText text maxOrganizationChars .invalidOrganizationName
        .ok (some ⟨name⟩)) = Except.ok (some (SensitiveText.mk text))
      rw [normalizeHumanText_idempotent htext, Outcome.ok_bind]

omit [UrlText] in
/-- A normalized marketing revision is bounded and normalizes to itself. -/
theorem normalizeMarketingRevision_spec {marketingConsent : Bool}
    {value revision : Option String}
    (h : normalizeMarketingRevision marketingConsent value = .ok revision) :
    (∀ text ∈ revision,
        isPortableIdentifier text maxMarketingConsentRevisionBytes = true) ∧
      normalizeMarketingRevision marketingConsent revision = .ok revision := by
  unfold normalizeMarketingRevision at h
  split at h
  · next given =>
    obtain ⟨text, htext, h⟩ := (bind_eq_ok_iff _ _ _).mp h
    cases h
    refine ⟨?_, ?_⟩
    · intro _ hmem
      cases hmem
      exact ((normalizeIdentifier_eq_ok_iff _ _ _ _).mp htext).2
    · have hagain := trimmed_again (normalizeIdentifier_eq_ok_iff _ _) htext
      rw [normalizeMarketingRevision, hagain, Outcome.ok_bind]
  · cases h
  · cases h
  · cases h
    exact ⟨fun _ hmem => (nomatch hmem), rfl⟩

omit [UrlText] in
/-- The length in bytes of a normalized email address. -/
theorem len_le_of_normalizeEmail {value email : String} (h : normalizeEmail value = .ok email) :
    len email ≤ maxEmailBytes := by
  obtain ⟨_, _, haddress, rfl⟩ := (normalizeEmail_eq_ok_iff _ _).mp h
  exact haddress.lowercase.short

/-- A validated registration whose website is within the bound. -/
theorem bounded_of_normalizes {request : PreInterestRegistrationRequest} {verifiedHost : String}
    {registration : ValidatedPreInterestRegistration}
    (h : Normalizes request verifiedHost registration)
    (hwebsite : ∀ url ∈ registration.websiteUrl, len url.expose ≤ maxWebsiteUrlBytes) :
    registration.Bounded where
  email := len_le_of_normalizeEmail h.email
  organizationName := by
    intro name hname
    have hok := (normalizeOrganizationName_spec h.organizationName).1 name hname
    exact ((normalizeHumanText_eq_ok_iff _ _ _ _).mp hok).2.2.2
  displayName := by
    intro name hname
    exact optionalField_spec (P := fun text => text.toList.length ≤ maxDisplayNameChars)
      (fun hok => ((normalizeHumanText_eq_ok_iff _ _ _ _).mp hok).2.2.2) h.displayName
      name.expose (Option.mem_map_of_mem _ hname)
  -- The one bound that is not checked on the result.
  websiteUrl := hwebsite
  consentRevision :=
    (len_le_of_isPortableIdentifier
      ((normalizeIdentifier_eq_ok_iff _ _ _ _).mp h.consentRevision).2).1
  locale := optionalField_spec
    (fun hok => ((normalizeLocale_eq_ok_iff _ _).mp hok).2.2.1) h.locale
  referralCode := by
    intro code hcode
    exact optionalField_spec (P := fun text => len text ≤ maxReferralBytes)
      (fun hok => (len_le_of_isPortableIdentifier
        ((normalizeIdentifier_eq_ok_iff _ _ _ _).mp hok).2).1) h.referralCode
      code.expose (Option.mem_map_of_mem _ hcode)
  marketingConsentRevision := fun text htext =>
    (len_le_of_isPortableIdentifier
      ((normalizeMarketingRevision_spec h.marketingConsentRevision).1 text htext)).1

/-- The registration of a request is the registration of its own fields, when the website is
accepted again. -/
theorem normalizes_toRequest {request : PreInterestRegistrationRequest} {verifiedHost : String}
    {registration : ValidatedPreInterestRegistration}
    (h : Normalizes request verifiedHost registration)
    (hwebsite : optionalField normalizeWebsiteUrl
      (registration.websiteUrl.map SensitiveText.expose)
        = .ok (registration.websiteUrl.map SensitiveText.expose)) :
    Normalizes registration.toRequest verifiedHost registration where
  host := h.host
  sourceHost := h.host.symm
  -- What the first pass verified is what the second pass reads.
  partyOfHost := h.partyType.trans h.partyOfHost
  requestId := rfl
  partyType := rfl
  consentGiven := h.registrationConsent
  registrationConsent := h.registrationConsent
  -- Each normalizer returns its own results unchanged.
  email := normalizeEmail_idempotent h.email
  organizationName := by
    show normalizeOrganizationName registration.partyType
      (registration.organizationName.map SensitiveText.expose) = .ok registration.organizationName
    rw [h.partyType]
    exact (normalizeOrganizationName_spec h.organizationName).2
  displayName := optionalField_again
    (optionalField_spec normalizeHumanText_idempotent h.displayName)
  websiteUrl := hwebsite
  interestAreas := normalizeInterests_idempotent h.interestAreas
  consentRevision := trimmed_again (normalizeIdentifier_eq_ok_iff _ _) h.consentRevision
  consentedAt := trimmed_again normalizeConsentedAt_eq_ok_iff h.consentedAt
  locale := optionalField_again
    (optionalField_spec (trimmed_again normalizeLocale_eq_ok_iff) h.locale)
  referralCode := optionalField_again
    (optionalField_spec (trimmed_again (normalizeIdentifier_eq_ok_iff _ _)) h.referralCode)
  marketingConsent := rfl
  marketingConsentRevision := by
    show normalizeMarketingRevision registration.marketingConsent
      registration.marketingConsentRevision = .ok registration.marketingConsentRevision
    rw [h.marketingConsent]
    exact (normalizeMarketingRevision_spec h.marketingConsentRevision).2

/-- A validated registration is within its bounds and validates to itself exactly when the
URL that the crate `url` writes for its website is within the bound. -/
theorem canonical_iff (hurl : Whatwg) {request : PreInterestRegistrationRequest}
    {verifiedHost : String} {registration : ValidatedPreInterestRegistration}
    (h : validateRegistration request verifiedHost = .ok registration) :
    (registration.Bounded ∧
        validateRegistration registration.toRequest verifiedHost = .ok registration) ↔
      ∀ website ∈ request.websiteUrl,
        len (UrlText.serialize (trim website)) ≤ maxWebsiteUrlBytes := by
  rw [validateRegistration_eq_ok_iff] at h ⊢
  rcases (optionalField_eq_ok_iff _ _ _).mp h.websiteUrl with
    ⟨hgiven, htext⟩ | ⟨given, url, hgiven, htext, hok⟩
  · -- No website is given: nothing is to be said about it.
    have hnone : registration.websiteUrl = none := Option.map_eq_none_iff.mp htext
    rw [hgiven]
    refine ⟨fun _ _ hmem => (nomatch hmem), fun _ => ⟨bounded_of_normalizes h ?_, ?_⟩⟩
    · rw [hnone]
      exact fun _ hmem => nomatch hmem
    · apply normalizes_toRequest h
      rw [htext]
      rfl
  · obtain ⟨text, hsome, rfl⟩ := Option.map_eq_some_iff.mp htext
    have hserialized := ((normalizeWebsiteUrl_eq_ok_iff _ _).mp hok).2.2.2.2
    rw [hgiven]
    constructor
    · rintro ⟨hbounded, -⟩ website hmem
      cases hmem
      rw [← hserialized]
      exact hbounded.websiteUrl text hsome
    · intro hshort
      have hurlShort : len text.expose ≤ maxWebsiteUrlBytes := by
        rw [hserialized]
        exact hshort given rfl
      refine ⟨bounded_of_normalizes h ?_, normalizes_toRequest h ?_⟩
      · intro url hmem
        rw [hsome] at hmem
        cases hmem
        exact hurlShort
      · rw [htext]
        apply optionalField_again
        intro url hmem
        cases hmem
        exact (normalizeWebsiteUrl_again_iff hurl hok).mpr hurlShort

end

/-! ### A website that outgrows the bound -/

/-- The query of a URL of one host, with or without the slash in front of it. Only lower case
letters occur in it, so nothing is escaped. -/
def testQuery (value : String) : Option String :=
  match (stripPrefix value "https://canonical.plus").map String.toList with
  | some ('?' :: query) => if query.all Char.isLower then some (String.ofList query) else none
  | some ('/' :: '?' :: query) =>
      if query.all Char.isLower then some (String.ofList query) else none
  | _ => none

/-- The URL of the host with a query. -/
def testParsed (query : String) : ParsedUrl where
  scheme := "https"
  username := ""
  password := none
  host := some "canonical.plus"
  query := some query
  fragment := none

/-- The crate `url` on such URLs: the empty path is written as a slash. -/
@[reducible] def testUrlText : UrlText where
  parse value := (testQuery value).map testParsed
  serialize value :=
    match testQuery value with
    | some query => "https://canonical.plus" ++ ("/?" ++ query)
    | none => ""

/-- The query of a written URL is the one that was read. -/
theorem testQuery_serialize {value query : String} (h : testQuery value = some query) :
    query.toList.all Char.isLower = true ∧
      testQuery ("https://canonical.plus" ++ ("/?" ++ query)) = some query := by
  have hlower : query.toList.all Char.isLower = true := by
    unfold testQuery at h
    split at h
    · obtain ⟨hall, h⟩ := Option.ite_none_right_eq_some.mp h
      cases h
      rwa [String.toList_ofList]
    · obtain ⟨hall, h⟩ := Option.ite_none_right_eq_some.mp h
      cases h
      rwa [String.toList_ofList]
    · cases h
  refine ⟨hlower, ?_⟩
  have hstrip : stripPrefix ("https://canonical.plus" ++ ("/?" ++ query))
      "https://canonical.plus" = some ("/?" ++ query) :=
    (stripPrefix_eq_some_iff _ _ _).mpr (String.toList_append ..)
  have htext : ("/?" ++ query).toList = '/' :: '?' :: query.toList := by
    rw [String.toList_append]
    rfl
  unfold testQuery
  rw [hstrip, Option.map_some, htext]
  show (if query.toList.all Char.isLower = true then some (String.ofList query.toList)
    else none) = some query
  rw [if_pos hlower, String.ofList_toList]

/-- The URL that is written for a query. -/
theorem serialize_of_testQuery {value query : String} (h : testQuery value = some query) :
    testUrlText.serialize value = "https://canonical.plus" ++ ("/?" ++ query) := by
  show (match testQuery value with
    | some query => "https://canonical.plus" ++ ("/?" ++ query)
    | none => "") = _
  rw [h]

/-- A lower-case letter is an ASCII one. -/
theorem ascii_of_isLower {c : Char} (h : c.isLower = true) : c.toNat < 128 := by
  have hrange : (decide ('a'.val ≤ c.val) && decide (c.val ≤ 'z'.val)) = true := h
  rw [Bool.and_eq_true, decide_eq_true_iff, decide_eq_true_iff] at hrange
  have hle : c.toNat ≤ 122 := UInt32.le_iff_toNat_le.mp hrange.2
  omega

/-- A lower case letter is neither a control character nor white space. -/
theorem plain_of_isLower {c : Char} (h : c.isLower = true) :
    isControl c = false ∧ isWhitespace c = false := by
  have hc := ascii_of_isLower h
  revert h
  exact forall_ascii (P := fun c => c.isLower = true → isControl c = false ∧ isWhitespace c = false)
    (by decide) hc

attribute [local instance] testUrlText

/-- The fixture behaves as the URL standard says. -/
theorem whatwg_testUrlText : Whatwg := by
  have hread : ∀ {value : String} {parsed : ParsedUrl}, UrlCrate.parse value = some parsed →
      ∃ query, testQuery value = some query ∧ testParsed query = parsed :=
    fun h => Option.map_eq_some_iff.mp h
  exact {
    scheme := by
      intro value parsed hparse _
      obtain ⟨query, hquery, -⟩ := hread hparse
      refine ⟨"//canonical.plus" ++ ("/?" ++ query), ?_⟩
      rw [serialize_of_testQuery hquery, ← String.append_assoc]
      rfl
    plain := by
      intro value parsed hparse _ c hc
      obtain ⟨query, hquery, -⟩ := hread hparse
      rw [serialize_of_testQuery hquery, String.toList_append, String.toList_append,
        List.mem_append, List.mem_append] at hc
      rcases hc with hc | hc | hc
      · revert c
        exact forall_mem_of_all (by decide)
      · revert c
        exact forall_mem_of_all (by decide)
      · exact plain_of_isLower (List.all_eq_true.mp (testQuery_serialize hquery).1 c hc)
    reparse := by
      intro value parsed hparse _
      obtain ⟨query, hquery, rfl⟩ := hread hparse
      show (testQuery (UrlText.serialize value)).map _ = _
      rw [serialize_of_testQuery hquery, (testQuery_serialize hquery).2]
      rfl
    reserialize := by
      intro value parsed hparse _
      obtain ⟨query, hquery, rfl⟩ := hread hparse
      rw [serialize_of_testQuery hquery,
        serialize_of_testQuery (testQuery_serialize hquery).2] }

/-- A registration of an individual with a given website. The other fields are those of a valid
request that still has to be normalized. -/
def websiteRequest (website : String) : PreInterestRegistrationRequest where
  requestId := ⟨1⟩
  email := " Person@Example.com "
  partyType := .individual
  organizationName := none
  interestAreas := [.hipaa, .soc2]
  consentRevision := "pre-interest-v1"
  consentedAt := "2026-07-23T12:00:00Z"
  sourceHost := "user.canonical.plus"
  locale := some "en-US"
  referralCode := none
  displayName := some "Example   Person"
  websiteUrl := some website
  registrationConsent := true
  marketingConsent := false
  marketingConsentRevision := none

/-- The registration of such a request, with the URL that is written, the address in lower case, and
the interests in their order. -/
def websiteRegistration (url : String) : ValidatedPreInterestRegistration where
  requestId := ⟨1⟩
  email := ⟨"person@example.com"⟩
  partyType := .individual
  organizationName := none
  interestAreas := [.soc2, .hipaa]
  consentRevision := "pre-interest-v1"
  consentedAt := "2026-07-23T12:00:00Z"
  sourceHost := .user
  locale := some "en-US"
  referralCode := none
  displayName := some ⟨"Example Person"⟩
  websiteUrl := some ⟨url⟩
  registrationConsent := true
  marketingConsent := false
  marketingConsentRevision := none

/-- The request has this registration when its website normalizes to the URL. -/
theorem normalizes_websiteRequest {website url : String}
    (h : normalizeWebsiteUrl website = .ok url) :
    Normalizes (websiteRequest website) "user.canonical.plus" (websiteRegistration url) where
  host := rfl
  sourceHost := rfl
  partyOfHost := rfl
  requestId := rfl
  partyType := rfl
  consentGiven := rfl
  registrationConsent := rfl
  email := show normalizeEmail " Person@Example.com " = .ok "person@example.com" from by
    decide
  organizationName := rfl
  displayName := show optionalField (normalizeHumanText · maxDisplayNameChars .invalidDisplayName)
      (some "Example   Person") = .ok (some "Example Person") from by decide
  websiteUrl := by
    show optionalField normalizeWebsiteUrl (some website) = .ok (some url)
    rw [optionalField, h, Outcome.ok_bind]
  interestAreas := show normalizeInterests [.hipaa, .soc2] = .ok [.soc2, .hipaa] from by decide
  consentRevision := show normalizeIdentifier maxConsentRevisionBytes .invalidConsentRevision
      "pre-interest-v1" = .ok "pre-interest-v1" from by decide
  consentedAt := show normalizeConsentedAt "2026-07-23T12:00:00Z"
      = .ok "2026-07-23T12:00:00Z" from by decide
  locale := show optionalField normalizeLocale (some "en-US") = .ok (some "en-US") from by
    decide
  referralCode := rfl
  marketingConsent := rfl
  marketingConsentRevision := rfl

/-- A URL with a query that follows the host at once is written with a slash between. -/
theorem normalizeWebsiteUrl_query {query : String} (hquery : query.toList.all Char.isLower = true)
    (hlength : query.toList.length ≤ 2025) :
    normalizeWebsiteUrl ("https://canonical.plus" ++ ("?" ++ query))
      = .ok ("https://canonical.plus" ++ ("/?" ++ query)) := by
  have htext : ("https://canonical.plus" ++ ("?" ++ query)).toList
      = "https://canonical.plus?".toList ++ query.toList := by
    rw [String.toList_append, String.toList_append, ← List.append_assoc]
    rfl
  -- The text is plain ASCII, so that trimming and counting are easy.
  have hascii : ∀ c ∈ ("https://canonical.plus" ++ ("?" ++ query)).toList,
      c.toNat < 128 ∧ isControl c = false ∧ isWhitespace c = false := by
    intro c hc
    rw [htext, List.mem_append] at hc
    rcases hc with hc | hc
    · revert c
      exact forall_mem_of_all (by decide)
    · have hlower := List.all_eq_true.mp hquery c hc
      exact ⟨ascii_of_isLower hlower, plain_of_isLower hlower⟩
  have htrim := trim_eq_self fun c hc => (hascii c hc).2.2
  -- The parser of the fixture reads the query back.
  have hread : testQuery ("https://canonical.plus" ++ ("?" ++ query)) = some query := by
    have hstrip : stripPrefix ("https://canonical.plus" ++ ("?" ++ query))
        "https://canonical.plus" = some ("?" ++ query) :=
      (stripPrefix_eq_some_iff _ _ _).mpr (String.toList_append ..)
    have hafter : ("?" ++ query).toList = '?' :: query.toList := by
      rw [String.toList_append]
      rfl
    unfold testQuery
    rw [hstrip, Option.map_some, hafter]
    show (if query.toList.all Char.isLower = true then some (String.ofList query.toList)
      else none) = some query
    rw [if_pos hquery, String.ofList_toList]
  rw [normalizeWebsiteUrl_eq_ok_iff, htrim, len, bytes_eq_map fun c hc => (hascii c hc).1,
    List.length_map, serialize_of_testQuery hread]
  refine ⟨?_, ?_, fun c hc => (hascii c hc).2, ⟨testParsed query, ?_, ?_⟩, rfl⟩
  · rw [htext]
    exact List.append_ne_nil_of_left_ne_nil (by decide) _
  · rw [htext, List.length_append]
    have hhost : "https://canonical.plus?".toList.length = 23 := by decide
    rw [maxWebsiteUrlBytes, hhost]
    omega
  · show (testQuery _).map _ = _
    rw [hread, Option.map_some]
  · exact ⟨rfl, rfl, rfl, rfl, rfl⟩

/-- A query of lower case letters that fills the website to its bound. -/
def longQuery : String :=
  String.ofList (List.replicate 2025 'x')

/-- The query of the example: letters only, and long enough that a `?` before it makes the URL too
long. -/
theorem longQuery_spec :
    longQuery.toList.all Char.isLower = true ∧ longQuery.toList.length = 2025 := by
  unfold longQuery
  rw [String.toList_ofList]
  refine ⟨List.all_eq_true.mpr fun c hc => ?_, List.length_replicate⟩
  rw [List.eq_of_mem_replicate hc]
  decide

/-- The URL that is written for a website of 2048 bytes has 2049. -/
theorem len_longWebsite :
    len ("https://canonical.plus" ++ ("/?" ++ longQuery)) = 2049 := by
  have htext : ("https://canonical.plus" ++ ("/?" ++ longQuery)).toList
      = "https://canonical.plus/?".toList ++ longQuery.toList := by
    rw [String.toList_append, String.toList_append, ← List.append_assoc]
    rfl
  have hascii : ∀ c ∈ ("https://canonical.plus" ++ ("/?" ++ longQuery)).toList,
      c.toNat < 128 := by
    intro c hc
    rw [htext, List.mem_append] at hc
    rcases hc with hc | hc
    · revert c
      exact forall_mem_of_all (by decide)
    · exact ascii_of_isLower (List.all_eq_true.mp longQuery_spec.1 c hc)
  have hhost : "https://canonical.plus/?".toList.length = 24 := by decide
  rw [len, bytes_eq_map hascii, List.length_map, htext, List.length_append, longQuery_spec.2,
    hhost]

/-- A registration with a short website, whose serialized URL is within the bound: it is within all
bounds and validates to itself. -/
theorem canonical_iff_test :
    (websiteRegistration "https://canonical.plus/?security").Bounded ∧
      validateRegistration
          (websiteRegistration "https://canonical.plus/?security").toRequest
          "user.canonical.plus"
        = .ok (websiteRegistration "https://canonical.plus/?security") := by
  have hwebsite : normalizeWebsiteUrl "https://canonical.plus?security"
      = .ok "https://canonical.plus/?security" := by decide
  have hvalid := (validateRegistration_eq_ok_iff _ _ _).mpr (normalizes_websiteRequest hwebsite)
  apply (canonical_iff whatwg_testUrlText hvalid).mpr
  intro website hmem
  cases hmem
  decide

/-- A website of 2048 bytes is accepted and stored with 2049, and is rejected when the stored
registration is given again. -/
theorem stored_website_rejected :
    Whatwg ∧
      let request := websiteRequest ("https://canonical.plus" ++ ("?" ++ longQuery))
      let registration := websiteRegistration ("https://canonical.plus" ++ ("/?" ++ longQuery))
      validateRegistration request "user.canonical.plus" = .ok registration ∧
        ¬ registration.Bounded ∧
        validateRegistration registration.toRequest "user.canonical.plus"
          ≠ .ok registration := by
  have hwebsite := normalizeWebsiteUrl_query longQuery_spec.1 longQuery_spec.2.le
  have hlong := len_longWebsite
  refine ⟨whatwg_testUrlText,
    (validateRegistration_eq_ok_iff _ _ _).mpr (normalizes_websiteRequest hwebsite), ?_, ?_⟩
  · intro hbounded
    have hle := hbounded.websiteUrl _ rfl
    rw [hlong] at hle
    exact absurd hle (by decide)
  · intro hagain
    have hfields := (validateRegistration_eq_ok_iff _ _ _).mp hagain
    obtain ⟨normalized, hok, heq⟩ := (bind_eq_ok_iff _ _ _).mp hfields.websiteUrl
    cases heq
    have hle := (normalizeWebsiteUrl_again_iff whatwg_testUrlText hwebsite).mp hok
    rw [hlong] at hle
    exact absurd hle (by decide)

end PreInterest

end CanonicalApi
