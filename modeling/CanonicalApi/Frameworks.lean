import CanonicalApi.Memory.Assessments
import Mathlib.Data.List.Nodup

/-!
# `CanonicalApi.Frameworks`: the readiness catalog and the payload of an assessment

`frameworks.rs`: the catalog of frameworks, and `parse_assessment_request`, which every payload of
`create_readiness_assessment` passes first. The handler compares a retry with the first request by
the normalized payload, `AssessmentSubmission.toValue`.

`parseAssessmentRequest_eq_ok_iff` says what the parser accepts and what it returns, in terms of
`Reads` and `WellFormed`. `parseAssessmentRequest_toValue` reads the normalized payload back.
`assessment_replay` lifts both to the runs of a replica without a database.
-/

set_option autoImplicit false

namespace CanonicalApi

open Outcome (bind_eq_ok_iff ite_error_eq_ok_iff okOr okOr_eq_ok_iff)
open JsonValue (asArray_eq_some_iff asObject_eq_some_iff asStr_eq_some_iff)
open Transition (System)

namespace Frameworks

/-! ### The catalog -/

/-- `FrameworkDescriptor`, an entry of the catalogue that the service was built with. -/
structure FrameworkDescriptor where
  category : String
  governingBody : String
  id : String
  sourceUrl : String
  summary : String
  title : String
deriving DecidableEq, Repr

/-- `CATALOG`, sorted by id. The parser accepts the ids of its entries and no others. -/
def catalog : List FrameworkDescriptor := [
  { category := "security-program"
    governingBody := "Center for Internet Security"
    id := "cis-controls-8.1"
    sourceUrl := "https://www.cisecurity.org/controls/v8-1"
    summary := "Prioritized safeguards for building and benchmarking a security program. " ++
      "Canonical Plus maps readiness work to the safeguards ahead of any independent " ++
      "assessment."
    title := "CIS Critical Security Controls" },
  { category := "assurance-target"
    governingBody := "U.S. Department of Defense"
    id := "cmmc-2.0"
    sourceUrl := "https://dodcio.defense.gov/CMMC/"
    summary := "Defense industrial base maturity model assessed by authorized C3PAOs. " ++
      "Canonical Plus prepares the CUI boundary and evidence for that independent assessment."
    title := "Cybersecurity Maturity Model Certification" },
  { category := "assurance-target"
    governingBody := "Cloud Security Alliance"
    id := "csa-ccm"
    sourceUrl := "https://cloudsecurityalliance.org/research/cloud-controls-matrix"
    summary := "Cloud control matrix behind the STAR assurance program. Canonical Plus " ++
      "readies cloud control evidence for independent STAR review."
    title := "CSA Cloud Controls Matrix and STAR" },
  { category := "security-program"
    governingBody := "European Union"
    id := "dora-2022-2554"
    sourceUrl := "https://eur-lex.europa.eu/eli/reg/2022/2554/oj"
    summary := "EU operational-resilience regulation for financial entities. Canonical Plus " ++
      "prepares ICT risk, testing, and reporting practices for supervisory scrutiny."
    title := "Digital Operational Resilience Act" },
  { category := "assurance-target"
    governingBody := "U.S. General Services Administration"
    id := "fedramp-rev5"
    sourceUrl := "https://www.fedramp.gov/documents-templates/"
    summary := "U.S. federal cloud authorization program assessed by independent 3PAOs. " ++
      "Canonical Plus prepares the authorization boundary and package for that assessment."
    title := "Federal Risk and Authorization Management Program" },
  { category := "privacy-regulation"
    governingBody := "European Union"
    id := "gdpr-2016-679"
    sourceUrl := "https://eur-lex.europa.eu/eli/reg/2016/679/oj"
    summary := "EU data-protection regulation enforced by supervisory authorities. Canonical " ++
      "Plus prepares processing records, lawful bases, and safeguards for regulator review."
    title := "General Data Protection Regulation" },
  { category := "privacy-regulation"
    governingBody := "U.S. Department of Health and Human Services"
    id := "hipaa-security-rule"
    sourceUrl := "https://www.hhs.gov/hipaa/for-professionals/security/index.html"
    summary := "U.S. health-information security regulation overseen by HHS OCR. Canonical " ++
      "Plus prepares the required safeguards and documentation for independent review."
    title := "HIPAA Security Rule" },
  { category := "assurance-target"
    governingBody := "ISO"
    id := "iso-22301-2019"
    sourceUrl := "https://www.iso.org/standard/75106.html"
    summary := "Business-continuity management standard certified by accredited bodies. " ++
      "Canonical Plus prepares the continuity program for that independent certification " ++
      "audit."
    title := "ISO 22301 Business Continuity Management" },
  { category := "assurance-target"
    governingBody := "ISO/IEC"
    id := "iso-iec-27001-2022"
    sourceUrl := "https://www.iso.org/standard/27001"
    summary := "Information-security management system standard certified by accredited " ++
      "bodies. Canonical Plus prepares the ISMS and evidence for that independent " ++
      "certification audit."
    title := "ISO/IEC 27001" },
  { category := "assurance-target"
    governingBody := "ISO/IEC"
    id := "iso-iec-27701"
    sourceUrl := "https://www.iso.org/standard/85819.html"
    summary := "Privacy information management extension to ISO/IEC 27001. Canonical Plus " ++
      "prepares the privacy program for independent certification against it."
    title := "ISO/IEC 27701 Privacy Information Management" },
  { category := "security-program"
    governingBody := "European Union"
    id := "nis2-2022-2555"
    sourceUrl := "https://eur-lex.europa.eu/eli/dir/2022/2555/oj"
    summary := "EU cybersecurity directive for essential and important entities. Canonical " ++
      "Plus prepares governance, risk, and reporting practices for national-authority " ++
      "oversight."
    title := "NIS2 Directive" },
  { category := "security-program"
    governingBody := "National Institute of Standards and Technology"
    id := "nist-csf-2.0"
    sourceUrl := "https://www.nist.gov/cyberframework"
    summary := "Voluntary cybersecurity outcomes framework across six functions. Canonical " ++
      "Plus uses it to structure readiness work ahead of any independent evaluation."
    title := "NIST Cybersecurity Framework" },
  { category := "security-program"
    governingBody := "National Institute of Standards and Technology"
    id := "nist-sp-800-53-5.2.0"
    sourceUrl := "https://csrc.nist.gov/projects/risk-management/sp800-53-controls/release-search"
    summary := "Federal control catalog underpinning RMF authorizations. Canonical Plus " ++
      "prepares control implementations and evidence for independent assessment."
    title := "NIST SP 800-53 Control Catalog" },
  { category := "assurance-target"
    governingBody := "PCI Security Standards Council"
    id := "pci-dss-4.0.1"
    sourceUrl := "https://www.pcisecuritystandards.org/standards/pci-dss/"
    summary := "Payment-card security standard validated by QSAs or self-assessment. " ++
      "Canonical Plus prepares cardholder-data controls for that independent validation."
    title := "Payment Card Industry Data Security Standard" },
  { category := "assurance-target"
    governingBody := "AICPA"
    id := "soc2-tsc"
    sourceUrl := "https://www.aicpa-cima.com/resources/landing/" ++
      "system-and-organization-controls-soc-suite-of-services"
    summary := "Trust Services Criteria examined by independent CPA firms in SOC 2 reports. " ++
      "Canonical Plus prepares controls and evidence for that examination."
    title := "SOC 2 Trust Services Criteria" }]

/-- `find`. -/
def find (frameworkId : String) : Option FrameworkDescriptor :=
  catalog.find? fun descriptor => descriptor.id = frameworkId

/-- `get_readiness_framework`. -/
def getReadinessFramework (frameworkId : String) : Except ApiError FrameworkDescriptor :=
  okOr (.notFound "not_found" "readiness framework was not found") (find frameworkId)

/-- The frameworks of the catalog have different ids. -/
theorem catalog_nodup : (catalog.map FrameworkDescriptor.id).Nodup := by
  decide

/-- The id of a known framework is in the catalog. -/
theorem mem_catalog_of_find {frameworkId : String} (h : (find frameworkId).isSome = true) :
    frameworkId ∈ catalog.map FrameworkDescriptor.id := by
  obtain ⟨descriptor, hfound⟩ := Option.isSome_iff_exists.mp h
  have hid : descriptor.id = frameworkId := by
    simpa using List.find?_some hfound
  rw [← hid]
  exact List.mem_map_of_mem (List.mem_of_find?_eq_some hfound)

/-- Every framework of the catalog is found by its id. -/
theorem find_of_mem {descriptor : FrameworkDescriptor} (h : descriptor ∈ catalog) :
    find descriptor.id = some descriptor := by
  have hfound : (find descriptor.id).isSome = true :=
    List.find?_isSome.mpr ⟨descriptor, h, decide_eq_true rfl⟩
  obtain ⟨found, hfound⟩ := Option.isSome_iff_exists.mp hfound
  have hid : found.id = descriptor.id := by
    simpa using List.find?_some hfound
  rw [hfound, List.inj_on_of_nodup_map catalog_nodup (List.mem_of_find?_eq_some hfound) h hid]

/-- `get_readiness_framework` answers with the one framework of the catalog that has the id. -/
theorem getReadinessFramework_eq_ok_iff {frameworkId : String}
    {descriptor : FrameworkDescriptor} :
    getReadinessFramework frameworkId = .ok descriptor ↔
      descriptor ∈ catalog ∧ descriptor.id = frameworkId := by
  rw [getReadinessFramework, okOr_eq_ok_iff]
  constructor
  · intro h
    exact ⟨List.mem_of_find?_eq_some h, by simpa using List.find?_some h⟩
  · rintro ⟨hmem, rfl⟩
    exact find_of_mem hmem

/-- Known frameworks without repetition are no more than the catalog has. -/
theorem length_le_of_known {frameworkIds : List String} (hnodup : frameworkIds.Nodup)
    (hknown : ∀ id ∈ frameworkIds, (find id).isSome = true) :
    frameworkIds.length ≤ catalog.length := by
  have hsubset : frameworkIds ⊆ catalog.map FrameworkDescriptor.id :=
    fun id hid => mem_catalog_of_find (hknown id hid)
  have hle := hnodup.length_le_of_subset hsubset
  rwa [List.length_map] at hle

/-! ### The parser -/

/-- `MAX_ASSESSMENT_ORGANIZATION_BYTES`. -/
def maxAssessmentOrganizationBytes : Nat := 200

/-- `MAX_ASSESSMENT_NOTES_BYTES`. -/
def maxAssessmentNotesBytes : Nat := 2000

/-- `ASSESSMENT_FIELDS`. -/
def assessmentFields : List String := ["frameworkIds", "notes", "organization"]

/-- A turn of the loop over the supplied ids. An unknown id is reported before a repeated one. -/
def pushFrameworkId (frameworkIds : List String) (supplied : JsonValue) :
    Except ApiError (List String) := do
  let frameworkId ← okOr
    (.badRequest "invalid_request" "frameworkIds may only contain known readiness framework ids")
    (supplied.asStr.filter fun frameworkId => (find frameworkId).isSome)
  if frameworkId ∈ frameworkIds then
    .error (.badRequest "invalid_request" "frameworkIds must not contain duplicates")
  else .ok (frameworkIds ++ [frameworkId])

/-- The notes of a payload. -/
def parseNotes : Option JsonValue → Except ApiError (Option String)
  | none | some .null => .ok none
  | some value =>
      (okOr (.badRequest "invalid_request" "notes must be a string of at most 2000 bytes")
        (value.asStr.filter fun notes => len notes ≤ maxAssessmentNotesBytes)).map some

/-- `parse_assessment_request`. The ids are checked before the organization and the organization
before the notes, and the first fault is the one reported. -/
def parseAssessmentRequest (payload : JsonValue) : Except ApiError AssessmentSubmission := do
  let object ← okOr
    (.badRequest "invalid_request" "assessment request must be a JSON object") payload.asObject
  if object.any fun field => field.1 ∉ assessmentFields then
    .error (.badRequest "invalid_request" "assessment request contains an unknown field")
  else
    let suppliedIds ← okOr
      (.badRequest "invalid_request" "frameworkIds must list 1 to 15 readiness framework ids")
      ((JsonValue.arrayMember object "frameworkIds").filter fun ids =>
        !ids.isEmpty && ids.length ≤ catalog.length)
    let frameworkIds ← suppliedIds.foldlM pushFrameworkId []
    let organization ← okOr
      (.badRequest "invalid_request" "organization must contain 1 to 200 bytes")
      ((((JsonValue.member object "organization").bind JsonValue.asStr).map trim).filter
        fun organization =>
          organization ≠ "" && len organization ≤ maxAssessmentOrganizationBytes)
    let notes ← parseNotes (JsonValue.member object "notes")
    return { frameworkIds, notes, organization }

/-! ### What it accepts -/

/-- A submission that the parser can return. Notes may be there or not; an organization is named,
and its text has no white space around it. -/
structure WellFormed (submission : AssessmentSubmission) : Prop where
  nonempty : submission.frameworkIds ≠ []
  nodup : submission.frameworkIds.Nodup
  known : ∀ id ∈ submission.frameworkIds, (find id).isSome = true
  trimmed : trim submission.organization = submission.organization
  named : submission.organization ≠ ""
  organization : len submission.organization ≤ maxAssessmentOrganizationBytes
  notes : ∀ notes, submission.notes = some notes → len notes ≤ maxAssessmentNotesBytes

/-- The members of a payload say what the submission does. A member that occurs nowhere in the
submission is none of the three names. -/
structure Reads (members : List (String × JsonValue)) (submission : AssessmentSubmission) :
    Prop where
  fields : ∀ field ∈ members, field.1 ∈ assessmentFields
  frameworkIds : JsonValue.member members "frameworkIds" =
    some (.array (submission.frameworkIds.map .string))
  organization : ∃ text, JsonValue.member members "organization" = some (.string text) ∧
    submission.organization = trim text
  /-- Notes that are `null` are as good as none. -/
  notes : JsonValue.member members "notes" = submission.notes.map .string ∨
    submission.notes = none ∧ JsonValue.member members "notes" = some .null

/-- A turn of the loop accepts a known id that is new. -/
theorem pushFrameworkId_eq_ok_iff {frameworkIds ids : List String} {supplied : JsonValue} :
    pushFrameworkId frameworkIds supplied = .ok ids ↔
      ∃ id, supplied = .string id ∧ (find id).isSome = true ∧ id ∉ frameworkIds ∧
        ids = frameworkIds ++ [id] := by
  simp only [pushFrameworkId, bind_eq_ok_iff, okOr_eq_ok_iff, Option.filter_eq_some_iff,
    ite_error_eq_ok_iff, Except.ok.injEq, asStr_eq_some_iff]
  constructor
  · rintro ⟨id, ⟨hid, hknown⟩, hnew, rfl⟩
    exact ⟨id, hid, hknown, hnew, rfl⟩
  · rintro ⟨id, hid, hknown, hnew, rfl⟩
    exact ⟨id, ⟨hid, hknown⟩, hnew, rfl⟩

/-- The loop accepts known ids without repetition, and keeps their order. -/
theorem foldlM_pushFrameworkId_eq_ok_iff {seen ids : List String} {supplied : List JsonValue}
    (hseen : seen.Nodup) :
    supplied.foldlM pushFrameworkId seen = .ok ids ↔
      ∃ new, supplied = new.map .string ∧ ids = seen ++ new ∧
        (∀ id ∈ new, (find id).isSome = true) ∧ ids.Nodup := by
  induction supplied generalizing seen with
  | nil =>
    show Except.ok seen = Except.ok ids ↔ _
    constructor
    · intro h
      obtain rfl := Except.ok.inj h
      refine ⟨[], rfl, (List.append_nil _).symm, ?_, hseen⟩
      intro id hid
      cases hid
    · rintro ⟨new, hnew, rfl, -, -⟩
      rw [List.map_eq_nil_iff.mp hnew.symm, List.append_nil]
  | cons item supplied ih =>
    rw [List.foldlM_cons, bind_eq_ok_iff]
    constructor
    · rintro ⟨seen', hpush, hrest⟩
      obtain ⟨id, rfl, hknown, hid, rfl⟩ := pushFrameworkId_eq_ok_iff.mp hpush
      -- The id is pushed because it is new, so the accumulator stays free of repetitions.
      have hseen' : (seen ++ [id]).Nodup :=
        List.nodup_append_comm.mpr (List.nodup_cons.mpr ⟨hid, hseen⟩)
      obtain ⟨new, rfl, rfl, hnew, hnodup⟩ := (ih hseen').mp hrest
      exact ⟨id :: new, rfl, List.append_assoc _ _ _,
        List.forall_mem_cons.mpr ⟨hknown, hnew⟩, hnodup⟩
    · rintro ⟨new, hnew, rfl, hknown, hnodup⟩
      cases new with
      | nil => cases hnew
      | cons id new =>
        obtain ⟨rfl, rfl⟩ := List.cons.inj hnew
        obtain ⟨hid, hknown⟩ := List.forall_mem_cons.mp hknown
        -- Read from the other end: the next id is new, since no id occurs twice in all.
        have hsplit : seen ++ id :: new = (seen ++ [id]) ++ new := by simp
        have hseen' : (seen ++ [id]).Nodup := by
          rw [hsplit] at hnodup
          exact hnodup.of_append_left
        have hfresh : id ∉ seen := (List.nodup_cons.mp (List.nodup_append_comm.mp hseen')).1
        refine ⟨seen ++ [id], pushFrameworkId_eq_ok_iff.mpr ⟨id, rfl, hid, hfresh, rfl⟩, ?_⟩
        exact (ih hseen').mpr ⟨new, rfl, hsplit, hknown, hnodup⟩

/-- The notes that the parser returns. -/
theorem parseNotes_eq_ok_iff {member? : Option JsonValue} {notes : Option String} :
    parseNotes member? = .ok notes ↔
      (member? = notes.map .string ∨ notes = none ∧ member? = some .null) ∧
        ∀ text, notes = some text → len text ≤ maxAssessmentNotesBytes := by
  unfold parseNotes
  split
  · constructor
    · intro h
      obtain rfl := Except.ok.inj h
      exact ⟨.inl rfl, fun _ htext => by cases htext⟩
    · rintro ⟨hnotes | ⟨rfl, -⟩, -⟩
      · rw [Option.map_eq_none_iff.mp hnotes.symm]
      · rfl
  · constructor
    · intro h
      obtain rfl := Except.ok.inj h
      exact ⟨.inr ⟨rfl, rfl⟩, fun _ htext => by cases htext⟩
    · rintro ⟨hnotes | ⟨rfl, -⟩, -⟩
      · cases notes <;> cases hnotes
      · rfl
  · next value hnull =>
    -- A member that is there and not `null` has to be a text.
    cases hfilter : value.asStr.filter fun notes => len notes ≤ maxAssessmentNotesBytes with
    | none =>
      constructor
      · intro h
        cases h
      · rintro ⟨hnotes | ⟨-, hvalue⟩, hlen⟩
        · obtain ⟨text, hsome, rfl⟩ := Option.map_eq_some_iff.mp hnotes.symm
          have hnone := Option.filter_eq_none_iff.mp hfilter text rfl
          exact absurd (decide_eq_true (hlen text hsome)) hnone
        · exact absurd (Option.some.inj hvalue) hnull
    | some text =>
      obtain ⟨hstr, hlen⟩ := Option.filter_eq_some_iff.mp hfilter
      obtain rfl := asStr_eq_some_iff.mp hstr
      constructor
      · intro h
        obtain rfl := Except.ok.inj h
        refine ⟨.inl rfl, fun other hother => ?_⟩
        obtain rfl := Option.some.inj hother
        exact of_decide_eq_true hlen
      · rintro ⟨hnotes | ⟨-, hvalue⟩, -⟩
        · obtain ⟨other, rfl, hother⟩ := Option.map_eq_some_iff.mp hnotes.symm
          obtain rfl := JsonValue.string.inj hother
          rfl
        · cases hvalue

/-- The parser accepts an object whose members say what a well-formed submission does, and
returns the submission. -/
theorem parseAssessmentRequest_eq_ok_iff {payload : JsonValue}
    {submission : AssessmentSubmission} :
    parseAssessmentRequest payload = .ok submission ↔
      ∃ members, payload = .object members ∧ Reads members submission ∧
        WellFormed submission := by
  simp only [parseAssessmentRequest, bind_eq_ok_iff, okOr_eq_ok_iff, ite_error_eq_ok_iff,
    foldlM_pushFrameworkId_eq_ok_iff .nil, parseNotes_eq_ok_iff, Option.filter_eq_some_iff,
    Option.map_eq_some_iff, Option.bind_eq_some_iff, JsonValue.arrayMember,
    asObject_eq_some_iff, asArray_eq_some_iff, asStr_eq_some_iff, List.nil_append]
  -- The checks of the code, one by one, are the fields of `Reads` and `WellFormed`.
  constructor
  · rintro ⟨members, rfl, hfields, supplied, ⟨⟨_, harray, rfl⟩, hlength⟩, ids,
      ⟨_, rfl, rfl, hknown, hnodup⟩, organization, ⟨⟨text, ⟨_, htext, rfl⟩, rfl⟩,
      horganization⟩, notes, ⟨hnotes, hlen⟩, hreturn⟩
    obtain rfl := Except.ok.inj hreturn
    refine ⟨members, rfl, ?_, ?_⟩
    · exact {
        fields := by simpa using hfields
        frameworkIds := harray
        organization := ⟨text, htext, rfl⟩
        notes := hnotes }
    · obtain ⟨hnamed, hbytes⟩ := Bool.and_eq_true_iff.mp horganization
      exact {
        nonempty := by
          intro hnil
          obtain rfl : ids = [] := hnil
          cases hlength
        nodup := hnodup
        known := hknown
        trimmed := trim_trim text
        named := of_decide_eq_true hnamed
        organization := of_decide_eq_true hbytes
        notes := hlen }
  · rintro ⟨members, rfl, hreads, hformed⟩
    obtain ⟨text, htext, htrim⟩ := hreads.organization
    have hlength : (!(submission.frameworkIds.map JsonValue.string).isEmpty &&
        decide ((submission.frameworkIds.map JsonValue.string).length ≤ catalog.length)) =
          true := by
      rw [Bool.and_eq_true_iff, decide_eq_true_iff, List.length_map]
      -- The length check follows: distinct known ids are no more than the catalogue has.
      refine ⟨?_, length_le_of_known hformed.nodup hformed.known⟩
      simpa using hformed.nonempty
    have horganization : (decide (submission.organization ≠ "") &&
        decide (len submission.organization ≤ maxAssessmentOrganizationBytes)) = true := by
      rw [Bool.and_eq_true_iff, decide_eq_true_iff, decide_eq_true_iff]
      exact ⟨hformed.named, hformed.organization⟩
    refine ⟨members, rfl, by simpa using hreads.fields, _,
      ⟨⟨_, hreads.frameworkIds, rfl⟩, hlength⟩, submission.frameworkIds,
      ⟨_, rfl, rfl, hformed.known, hformed.nodup⟩, submission.organization,
      ⟨⟨text, ⟨_, htext, rfl⟩, htrim.symm⟩, horganization⟩, submission.notes,
      ⟨hreads.notes, hformed.notes⟩, rfl⟩

/-- The normalized payload of a well-formed submission is read back. -/
theorem parseAssessmentRequest_toValue {submission : AssessmentSubmission}
    (h : WellFormed submission) :
    parseAssessmentRequest submission.toValue = .ok submission := by
  refine parseAssessmentRequest_eq_ok_iff.mpr ⟨_, rfl, ?_, h⟩
  constructor
  · simp [assessmentFields]
  · rfl
  · exact ⟨submission.organization, rfl, h.trimmed.symm⟩
  · show some ((submission.notes.map JsonValue.string).getD .null) = _ ∨
      _ ∧ some ((submission.notes.map JsonValue.string).getD .null) = _
    cases submission.notes with
    | none => exact .inr ⟨rfl, rfl⟩
    | some notes => exact .inl rfl

/-- Two submissions have one normalized payload only if they are the same. -/
theorem toValue_injective : Function.Injective AssessmentSubmission.toValue := by
  intro submission submission' h
  obtain ⟨frameworkIds, notes, organization⟩ := submission
  obtain ⟨frameworkIds', notes', organization'⟩ := submission'
  simp only [AssessmentSubmission.toValue, JsonValue.object.injEq, List.cons.injEq,
    Prod.mk.injEq, JsonValue.array.injEq, JsonValue.string.injEq, true_and, and_true] at h
  obtain ⟨hids, hnotes, rfl⟩ := h
  have hstring : Function.Injective JsonValue.string := fun _ _ => JsonValue.string.inj
  obtain rfl := List.map_injective_iff.mpr hstring hids
  cases notes <;> cases notes' <;> simp_all

end Frameworks

/-! ### Runs -/

section

open Frameworks

variable [CanonicalLib]

/-- A record that the handler can store. -/
structure AssessmentRecord.Accepted (record : AssessmentRecord) : Prop where
  formed : WellFormed record.submission
  received : record.status = "received"

/-- The submissions that arrive come out of the parser. -/
def ParsedPayloads (_ : memoryTasks.State) : memoryTasks.Action → Prop
  | .arrive _ (.assessing request) =>
      ∃ payload, parseAssessmentRequest payload = .ok request.submission
  | _ => True

/-- `create_readiness_assessment` from its parser on, for a subject that is admitted. -/
def answerPayload (state : AppState) (subject idempotencyKey : String) (payload : JsonValue)
    (fresh : Uuid) (timestamp : Option String) : Except ApiError AssessmentRecord × AppState :=
  match parseAssessmentRequest payload with
  | .error error => (.error error, state)
  | .ok submission =>
      createReadinessAssessment state { subject, idempotencyKey, submission, fresh } timestamp

/-- What waits, what is stored and what is answered is well formed. -/
structure IntakeFormed (s : memoryTasks.State) : Prop where
  waiting : ∀ pid request, s.tasks pid = some (.assessing request) →
    WellFormed request.submission
  stored : ∀ record ∈ s.shared.assessments, record.Accepted
  answered : ∀ pid record, s.tasks pid = some (.assessed (.ok record)) → record.Accepted

/-- A record that `find_assessment` finds is stored. -/
theorem AppState.mem_of_findAssessment {state : AppState} {id : Uuid} {subject : String}
    {record : AssessmentRecord} (h : state.findAssessment id subject = .ok record) :
    record ∈ state.assessments :=
  List.mem_of_find?_eq_some ((okOr_eq_ok_iff _ _ _).mp h)

/-- The handler stores and answers well-formed records. -/
theorem createReadinessAssessment_accepted {state : AppState} {request : AssessmentRequest}
    (hrequest : WellFormed request.submission)
    (hstored : ∀ record ∈ state.assessments, record.Accepted) (timestamp : Option String) :
    (∀ record ∈ (createReadinessAssessment state request timestamp).2.assessments,
      record.Accepted) ∧
    ∀ record, (createReadinessAssessment state request timestamp).1 = .ok record →
      record.Accepted := by
  rcases createReadinessAssessment_cases state request timestamp with
    ⟨_, found, -, hfound, heq⟩ | ⟨_, _, -, -, heq⟩ | ⟨_, -, heq⟩ | ⟨receivedAt, -, heq⟩
  · rw [heq]
    refine ⟨hstored, fun record hrecord => ?_⟩
    obtain rfl := Except.ok.inj hrecord
    exact hstored _ (AppState.mem_of_findAssessment hfound)
  · rw [heq]
    exact ⟨hstored, fun record hrecord => by cases hrecord⟩
  · rw [heq]
    exact ⟨hstored, fun record hrecord => by cases hrecord⟩
  · -- Only this branch stores a record, which is made of a well-formed submission.
    have hnew : (request.record receivedAt).Accepted := ⟨hrequest, rfl⟩
    rw [heq]
    constructor
    · intro record hrecord
      rcases AppState.mem_insertAssessment hrecord with hold | rfl
      · exact hstored record hold
      · exact hnew
    · intro record hrecord
      obtain rfl := Except.ok.inj hrecord
      exact hnew

/-- Only a waiting assessment is answered with a record of the deque. -/
theorem Polled.of_assessed {state state' : AppState} {task : MemoryTask}
    {result : Except ApiError AssessmentRecord} {child? : Option MemoryTask}
    (h : Polled state task state' (.assessed result) child?) :
    ∃ request, task = .assessing request := by
  cases h
  exact ⟨_, rfl⟩

/-- No task starts with its answer. -/
theorem Polled.not_assessed {state state' : AppState} {task task' : MemoryTask}
    {child? : Option MemoryTask} (h : Polled state task state' task' child?)
    (result : Except ApiError AssessmentRecord) : child? ≠ some (.assessed result) := by
  intro hchild
  subst hchild
  cases h

/-- A step keeps the assessments well formed. -/
theorem intakeFormed_step {s s' : memoryTasks.State} {a : memoryTasks.Action}
    (hs : IntakeFormed s) (hparsed : ParsedPayloads s a) (h : memoryTasks.next s a = some s') :
    IntakeFormed s' where
  waiting pid request hp' := by
    -- A request that waits was waiting before, or it has just been parsed.
    rcases assessing_step h hp' with ⟨hp, -⟩ | ⟨rfl, -⟩
    · exact hs.waiting pid request hp
    · obtain ⟨payload, hpayload⟩ := hparsed
      obtain ⟨_, -, -, hformed⟩ := parseAssessmentRequest_eq_ok_iff.mp hpayload
      exact hformed
  stored := by
    -- Records are added by the poll of a waiting request only.
    rcases intake_step_cases h with ⟨pid, _, request, timestamp, -, hp, hshared⟩ | ⟨hsame, -, -⟩
    · rw [hshared]
      exact (createReadinessAssessment_accepted (hs.waiting pid request hp) hs.stored timestamp).1
    · rw [hsame]
      exact hs.stored
  answered pid record hp' := by
    cases (Tasks.step_of_next h).origin hp' with
    | same hp _ _ => exact hs.answered pid record hp
    | arrived _ _ harrives =>
      rcases memory_arrives harrives with ⟨_, heq, -⟩ | ⟨_, heq, -⟩
      · cases heq
      · cases heq
    | @polled p input _ _ _ hp hpoll =>
      obtain ⟨request, rfl⟩ := (polled_of_poll hpoll).of_assessed
      cases input with
      | resume timestamp =>
        simp only [MemoryTask.poll, Option.some.injEq, Prod.mk.injEq,
          MemoryTask.assessed.injEq] at hpoll
        exact (createReadinessAssessment_accepted (hs.waiting pid request hp) hs.stored
          timestamp).2 record hpoll.2.1
      | called outcome timestamp => cases hpoll
    | started _ _ _ hpoll => exact absurd rfl ((polled_of_poll hpoll).not_assessed _)

/-- The run lemma of `IntakeFormed`, for runs whose assessments come from parsed payloads. -/
theorem intakeFormed_reachable {s : memoryTasks.State}
    (hs : memoryTasks.system.ReachableWith ParsedPayloads s) : IntakeFormed s := by
  refine hs.induct (I := IntakeFormed) ?_ ?_
  · intro s hs
    obtain rfl := hs
    exact {
      waiting := fun _ _ hp => by cases hp
      stored := fun _ hrecord => by cases hrecord
      answered := fun _ _ hp => by cases hp }
  · exact fun _ _ _ _ ih hparsed h => intakeFormed_step ih hparsed h

end

section

open Frameworks

attribute [local instance] fixtureLib

/-- A payload with the text as its organization. -/
def testPayload (organization : String) : JsonValue :=
  .object [("frameworkIds", .array [.string "soc2-tsc", .string "csa-ccm"]),
    ("organization", .string organization)]

/-- The submission of `testPayload "Example"`. -/
def testSubmission : AssessmentSubmission where
  frameworkIds := ["soc2-tsc", "csa-ccm"]
  notes := none
  organization := "Example"

end

end CanonicalApi
