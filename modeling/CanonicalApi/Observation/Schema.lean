import CanonicalApi.Observation.Signature
import CanonicalApi.Observation.Tamper
import CanonicalApi.Schema

/-!
# `CanonicalApi.Observation.Schema`: admitted observations and the checks of their table

`Checks` lists the `CHECK` constraints of `canonical_readiness_observation`, on the parameters
of the insert. `freshInsert` is the insert of `store_database`.

`insert_checks` says that the insert of every admitted observation satisfies all of them.
`event_json_holds_iff` says when its `event_json` is a value that `jsonb` holds: the texts
whose characters `validate_event` does not look at must have no U+0000. `admitted_storable_iff`
puts both together.
-/

set_option autoImplicit false

namespace CanonicalApi

open Transaction Transition
open Outcome (bind_eq_ok_iff ite_error_eq_ok_iff okOr_eq_ok_iff)

/-! ### What the validators leave -/

section

variable [TimeCrate] [UrlCrate]

/-- What the loop over the evidence has checked: the fields of every item, and the ids that it
returns are those of the items. -/
theorem validateEvidence_ok {now observedAt : Instant} {items : List EvidenceItem} :
    ∀ {seen ids : List String}, validateEvidence now observedAt seen items = .ok ids →
      (∀ e ∈ items, evidenceFieldsInvalid e = false) ∧
        ∀ id ∈ ids, id ∈ seen ∨ ∃ e ∈ items, e.evidenceId = id := by
  induction items with
  | nil =>
    intro seen ids h
    cases h
    exact ⟨fun _ he => (nomatch he), fun _ hid => .inl hid⟩
  | cons e items ih =>
    intro seen ids h
    obtain ⟨hinvalid, h⟩ := (ite_error_eq_ok_iff _ _ _ _).mp h
    obtain ⟨_, -, h⟩ := (bind_eq_ok_iff _ _ _).mp h
    obtain ⟨-, h⟩ := (ite_error_eq_ok_iff _ _ _ _).mp h
    -- With or without a locator, the rest is validated with the id seen.
    have hrest : validateEvidence now observedAt (e.evidenceId :: seen) items = .ok ids := by
      dsimp only at h
      split at h
      · obtain ⟨_, -, h⟩ := (bind_eq_ok_iff _ _ _).mp h
        exact h
      · exact h
    obtain ⟨hvalid, hids⟩ := ih hrest
    rw [not_or, Bool.not_eq_true] at hinvalid
    refine ⟨List.forall_mem_cons.mpr ⟨hinvalid.1, hvalid⟩, fun id hid => ?_⟩
    rcases hids id hid with hseen | ⟨e', he', hid'⟩
    · rcases List.mem_cons.mp hseen with rfl | hseen
      · exact .inr ⟨e, List.mem_cons_self, rfl⟩
      · exact .inl hseen
    · exact .inr ⟨e', List.mem_cons_of_mem _ he', hid'⟩

omit [TimeCrate] [UrlCrate] in
/-- Every reference that passes names an evidence item. -/
theorem validateReferences_ok {evidenceIds refs : List String} :
    ∀ {seen : List String}, validateReferences evidenceIds seen refs = .ok () →
      ∀ id ∈ refs, id ∈ evidenceIds := by
  induction refs with
  | nil => exact fun _ id hid => nomatch hid
  | cons ref refs ih =>
    intro seen h
    obtain ⟨hinvalid, h⟩ := (ite_error_eq_ok_iff _ _ _ _).mp h
    rw [not_or, not_not] at hinvalid
    exact List.forall_mem_cons.mpr ⟨hinvalid.2, ih h⟩

omit [TimeCrate] [UrlCrate] in
/-- What the loop over the assertions has checked: the fields of every assertion, and that it
refers to evidence that is there. -/
theorem validateAssertions_ok {evidenceIds : List String} {items : List ObservationAssertion} :
    ∀ {seen : List (String × String)}, validateAssertions evidenceIds seen items = .ok () →
      ∀ a ∈ items, assertionFieldsInvalid a = false ∧ ∀ id ∈ a.evidenceIds, id ∈ evidenceIds := by
  induction items with
  | nil => exact fun _ a ha => nomatch ha
  | cons a items ih =>
    intro seen h
    obtain ⟨hinvalid, h⟩ := (ite_error_eq_ok_iff _ _ _ _).mp h
    obtain ⟨_, hrefs, h⟩ := (bind_eq_ok_iff _ _ _).mp h
    rw [not_or, Bool.not_eq_true] at hinvalid
    exact List.forall_mem_cons.mpr ⟨⟨hinvalid.1, validateReferences_ok hrefs⟩, ih h⟩

/-- What `validate_event` establishes for the texts of an event: the bounds and the alphabets, which
the constraints of the table ask for again. -/
structure ValidTexts (event : ObservationEvent) : Prop where
  specVersion : event.specVersion = eventSpec
  eventId : portableIdentifier event.eventId = true
  sourceId : portableIdentifier event.sourceId = true
  organization : portableIdentifier event.organization = true
  sequence : ¬ event.sourceSequence ≤ 0
  evidence : ∀ e ∈ event.evidence, evidenceFieldsInvalid e = false
  assertions : ∀ a ∈ event.assertions, assertionFieldsInvalid a = false
  references : ∀ a ∈ event.assertions, ∀ id ∈ a.evidenceIds,
    ∃ e ∈ event.evidence, e.evidenceId = id

/-- A valid event has valid texts. -/
theorem validTexts_of_validateEvent {event : ObservationEvent} {now : Instant}
    (h : validateEvent event now = .ok ()) : ValidTexts event := by
  obtain ⟨hfields, h⟩ := (ite_error_eq_ok_iff _ _ _ _).mp h
  obtain ⟨_, -, h⟩ := (bind_eq_ok_iff _ _ _).mp h
  obtain ⟨-, h⟩ := (ite_error_eq_ok_iff _ _ _ _).mp h
  obtain ⟨ids, hids, h⟩ := (bind_eq_ok_iff _ _ _).mp h
  obtain ⟨hevidence, horigin⟩ := validateEvidence_ok hids
  have hassertions := validateAssertions_ok h
  simp only [eventFieldsInvalid, Bool.or_eq_true, not_or, Bool.not_eq_true', decide_eq_true_eq,
    Bool.not_eq_false, bne_iff_ne, ne_eq, not_not] at hfields
  obtain ⟨⟨⟨⟨⟨⟨⟨hspec, heventId⟩, hsourceId⟩, horganization⟩, hsequence⟩, -⟩, -⟩, -⟩ := hfields
  refine ⟨hspec, heventId, hsourceId, horganization, hsequence, hevidence,
    fun a ha => (hassertions a ha).1, fun a ha id hid => ?_⟩
  rcases horigin id ((hassertions a ha).2 id hid) with hnil | he
  · cases hnil
  · exact he

end

/-! ### `event_json` -/

/-- The texts of an event whose characters `validate_event` does not look at. The crates `time`
and `url` decide which times and locators are accepted. -/
def ObservationEvent.freeTexts (event : ObservationEvent) : List String :=
  event.observedAt ::
    (event.evidence.flatMap fun e => e.kind :: e.collectedAt :: e.locator.toList) ++
    event.assertions.flatMap fun a => a.statement.toList

/-- No such text has U+0000. -/
def ObservationEvent.TextsNulFree (event : ObservationEvent) : Prop :=
  ∀ s ∈ event.freeTexts, NulFree s

instance (event : ObservationEvent) : Decidable event.TextsNulFree :=
  inferInstanceAs (Decidable (∀ s ∈ _, NulFree s))

/-- An optional member is written only when there is a value. -/
theorem forall_mem_optionalMember {p : String × JsonValue → Prop} (field : String)
    (value : Option JsonValue) :
    (∀ m ∈ optionalMember field value, p m) ↔ ∀ v ∈ value, p (field, v) := by
  cases value <;> simp [optionalMember]

/-- A digest has only hexadecimal digits and so no U+0000. -/
theorem nulFree_of_validSha256 {value : String} (h : validSha256 value = true) :
    NulFree value := by
  unfold validSha256 at h
  cases hstrip : stripPrefix value "sha256:" with
  | none =>
    rw [hstrip] at h
    cases h
  | some hex =>
    rw [hstrip, Option.any_some, Bool.and_eq_true] at h
    have hhex : '\x00' ∉ hex.toList := not_mem_of_all_bytes (b := 0) h.2 (by decide) (by decide)
    rw [NulFree, (stripPrefix_eq_some_iff _ _ _).mp hstrip, List.mem_append, not_or]
    exact ⟨by decide, hhex⟩

/-- A text without control characters has no U+0000. -/
theorem nulFree_of_noControl {value : String} (h : (bytes value).any isAsciiControl = false) :
    NulFree value := by
  intro hmem
  have hbyte := mem_bytes_of_mem (b := 0) hmem (by decide)
  exact List.any_eq_false.mp h 0 hbyte (by decide)

/-- An evidence item whose fields passed their checks. -/
theorem evidence_holds_iff {e : EvidenceItem} (h : evidenceFieldsInvalid e = false) :
    JsonbHolds e.toValue ↔ ∀ s ∈ e.kind :: e.collectedAt :: e.locator.toList, NulFree s := by
  simp only [evidenceFieldsInvalid, Bool.or_eq_false_iff, Bool.not_eq_false'] at h
  obtain ⟨⟨⟨⟨⟨hid, -⟩, -⟩, hsha⟩, hcontent⟩, -⟩ := h
  have hid := nulFree_of_portableIdentifier hid
  have hsha := nulFree_of_validSha256 hsha
  have hcontent : ∀ v ∈ e.contentType, NulFree v := by
    intro v hv
    obtain hv : e.contentType = some v := hv
    rw [hv, Option.any_some, Bool.or_eq_false_iff] at hcontent
    exact nulFree_of_noControl hcontent.2
  have hfields : NulFree "collectedAt" ∧ NulFree "contentType" ∧ NulFree "evidenceId" ∧
      NulFree "kind" ∧ NulFree "locator" ∧ NulFree "sha256" ∧ NulFree "sizeBytes" := by
    decide
  simp only [EvidenceItem.toValue, jsonbHolds_object, List.forall_mem_append,
    forall_mem_optionalMember, List.forall_mem_cons, List.not_mem_nil, IsEmpty.forall_iff,
    implies_true, jsonbHolds_string, hfields, hid, hsha, true_and, and_true]
  simp only [Option.mem_map, forall_exists_index, and_imp, forall_apply_eq_imp_iff₂,
    jsonbHolds_string, jsonbHolds_number, implies_true, and_true, Option.mem_toList]
  tauto

/-- An assertion whose fields passed their checks. -/
theorem assertion_holds_iff {a : ObservationAssertion} (h : assertionFieldsInvalid a = false)
    (hrefs : ∀ id ∈ a.evidenceIds, NulFree id) :
    JsonbHolds a.toValue ↔ ∀ s ∈ a.statement.toList, NulFree s := by
  simp only [assertionFieldsInvalid, Bool.or_eq_false_iff, Bool.not_eq_false'] at h
  obtain ⟨⟨⟨hframework, hcontrol⟩, -⟩, -⟩ := h
  have hframework := nulFree_of_portableIdentifier hframework
  have hcontrol := nulFree_of_portableIdentifier hcontrol
  have hstatus : NulFree a.reportedStatus.text := by
    cases a.reportedStatus <;> decide
  have hfields : NulFree "controlId" ∧ NulFree "evidenceIds" ∧ NulFree "frameworkId" ∧
      NulFree "reportedStatus" ∧ NulFree "statement" := by
    decide
  simp only [ObservationAssertion.toValue, jsonbHolds_object, List.forall_mem_append,
    forall_mem_optionalMember, List.forall_mem_cons, List.not_mem_nil, IsEmpty.forall_iff,
    implies_true, jsonbHolds_string, jsonbHolds_array, List.forall_mem_map, hfields, hframework,
    hcontrol, hstatus, true_and, and_true]
  simp only [Option.mem_map, forall_exists_index, and_imp, forall_apply_eq_imp_iff₂,
    jsonbHolds_string, Option.mem_toList]
  tauto

/-- The stored value of a valid event is one that `jsonb` holds exactly when the texts that
`validate_event` does not look at have no U+0000. -/
theorem event_json_holds_iff {event : ObservationEvent} (h : ValidTexts event) :
    JsonbHolds event.toValue ↔ event.TextsNulFree := by
  -- What has an alphabet of its own holds no U+0000, so only the free texts decide.
  have hevidence : ∀ e ∈ event.evidence, (JsonbHolds e.toValue ↔
      ∀ s ∈ e.kind :: e.collectedAt :: e.locator.toList, NulFree s) :=
    fun e he => evidence_holds_iff (h.evidence e he)
  have hassertion : ∀ a ∈ event.assertions, (JsonbHolds a.toValue ↔
      ∀ s ∈ a.statement.toList, NulFree s) := by
    intro a ha
    refine assertion_holds_iff (h.assertions a ha) fun id hid => ?_
    obtain ⟨e, he, rfl⟩ := h.references a ha id hid
    have hfields := h.evidence e he
    simp only [evidenceFieldsInvalid, Bool.or_eq_false_iff, Bool.not_eq_false'] at hfields
    exact nulFree_of_portableIdentifier hfields.1.1.1.1.1
  have hfields : NulFree "assertions" ∧ NulFree "eventId" ∧ NulFree "evidence" ∧
      NulFree "observedAt" ∧ NulFree "organization" ∧ NulFree "sourceId" ∧
      NulFree "sourceSequence" ∧ NulFree "specVersion" ∧ NulFree eventSpec := by
    decide
  have heventId := nulFree_of_portableIdentifier h.eventId
  have hsourceId := nulFree_of_portableIdentifier h.sourceId
  have horganization := nulFree_of_portableIdentifier h.organization
  simp only [ObservationEvent.toValue, jsonbHolds_object, List.forall_mem_cons, List.not_mem_nil,
    IsEmpty.forall_iff, implies_true, jsonbHolds_string, jsonbHolds_array, jsonbHolds_number,
    List.forall_mem_map, hfields, heventId, hsourceId, horganization, h.specVersion, true_and,
    and_true]
  rw [ObservationEvent.TextsNulFree, ObservationEvent.freeTexts]
  simp only [List.cons_append, List.forall_mem_cons, List.forall_mem_append,
    List.mem_flatMap, forall_exists_index, and_imp]
  constructor
  · rintro ⟨ha, he, hobserved⟩
    exact ⟨hobserved, fun s e hmem => (hevidence e hmem).mp (he e hmem) s,
      fun s a hmem => (hassertion a hmem).mp (ha a hmem) s⟩
  · rintro ⟨hobserved, he, ha⟩
    exact ⟨fun a hmem => (hassertion a hmem).mpr fun s => ha s a hmem,
      fun e hmem => (hevidence e hmem).mpr fun s => he s e hmem, hobserved⟩

/-! ### The constraints -/

/-- `value ~ '^sha256:[0-9a-f]{64}$'`. -/
def MatchesSha256 (value : String) : Prop :=
  ∃ hex : List Char, value.toList = "sha256:".toList ++ hex ∧ hex.length = 64 ∧
    ∀ c ∈ hex, isLowerHexChar c = true

/-- The columns `transport_verification` and `substantive_review` that the insert writes. -/
def insertedReview : String × String := ("signature-valid", "unreviewed")

/-- The `CHECK` constraints of `canonical_readiness_observation`, on the parameters of the
insert. -/
structure Checks (row : ObservationInsert) : Prop where
  ownerSubject : LengthBetween 1 255 row.ownerSubject
  organization : LengthBetween 1 200 row.organization
  sourceId : LengthBetween 1 128 row.sourceId ∧ Matches identifierClass row.sourceId
  eventId : LengthBetween 1 128 row.eventId ∧ Matches identifierClass row.eventId
  sourceSequence : 0 < row.sourceSequence.toInt
  payloadSha256 : MatchesSha256 row.payloadSha256
  priorRecordSha256 : MatchesSha256 row.priorRecordSha256
  recordSha256 : MatchesSha256 row.recordSha256
  receiptId : LengthBetween 8 128 row.receiptId ∧ Matches identifierClass row.receiptId
  keyId : LengthBetween 1 128 row.keyId ∧ Matches identifierClass row.keyId
  eventJson : row.eventJson.asObject.isSome
  rawBodyOctets : 1 ≤ row.rawBodyOctets ∧ row.rawBodyOctets ≤ 262144
  transportVerification : insertedReview.1 = "signature-valid"
  substantiveReview : insertedReview.2 ∈
    ["unreviewed", "in-review", "accepted-as-evidence", "rejected", "superseded"]

section

variable [CryptoCrates]

/-- The insert of `store_database` after a row with the sequence number and digest `prior`. Every
column is written here, so the constraints of the table are conditions on this value. -/
def freshInsert (transport : VerifiedTransport) (event : ObservationEvent)
    (payloadSha256 : String) (bodyLen : Nat) (candidate : ReceiptIdentity)
    (prior : Int64 × String) : ObservationInsert where
  ownerSubject := transport.ownerSubject
  sourceId := event.sourceId
  eventId := event.eventId
  sourceSequence := event.sourceSequence
  organization := event.organization
  observedAt := event.observedAt
  payloadSha256
  priorRecordSha256 := prior.2
  recordSha256 := recordDigest prior.2 payloadSha256 event.eventId event.sourceSequence
  receiptId := candidate.receiptId
  keyId := transport.keyId
  eventJson := event.toValue
  rawBodyOctets := bodyLen
  receivedAt := candidate.receivedAt

/-- The transaction that stores an event reads its cursor, and with the answer `cursor` its
next statement is the insert of `row`. -/
def Inserts [Postgres] (transport : VerifiedTransport) (event : ObservationEvent)
    (payloadSha256 : String) (bodyLen : Nat) (candidate : ReceiptIdentity)
    (cursor : Option ObservationRow) (row : ObservationInsert) : Prop :=
  ∃ next rest, storeFresh transport event payloadSha256 bodyLen candidate =
      .exec (ObservationStmt.selectCursor transport.ownerSubject event.sourceId) next ∧
    next cursor = .exec (ObservationStmt.insertObservation row) rest

/-- The insert runs when the sequence number is the next one. -/
theorem storeFresh_inserts [Postgres] {transport : VerifiedTransport} {event : ObservationEvent}
    (payloadSha256 : String) {bodyLen : Nat} (candidate : ReceiptIdentity)
    {cursor : Option ObservationRow} (hlen : bodyLen ≤ 262144)
    (hnext : checkedSucc (priorOf cursor).1 = some event.sourceSequence) :
    Inserts transport event payloadSha256 bodyLen candidate cursor
      (freshInsert transport event payloadSha256 bodyLen candidate (priorOf cursor)) := by
  have hsmall : ¬ bodyLen ≥ 2 ^ 63 := by omega
  refine ⟨_, fun _ => .commit ⟨false, candidate.receiptId, candidate.receivedAt⟩, rfl, ?_⟩
  show (do
    let expected ← Program.ofExcept
      (Outcome.okOr IngestError.sequenceConflict (checkedSucc (priorOf cursor).1))
    if event.sourceSequence ≠ expected then .rollback .sequenceConflict
    else if bodyLen ≥ 2 ^ 63 then .rollback .bodyTooLarge
    else do
      Program.stmt (ObservationStmt.insertObservation
        (freshInsert transport event payloadSha256 bodyLen candidate (priorOf cursor)))
      return { duplicate := false
               receiptId := candidate.receiptId
               receivedAt := candidate.receivedAt } : ObservationTx StorageOutcome) = _
  simp only [hnext, Outcome.okOr, Program.ofExcept_ok, Program.commit_bind, ne_eq,
    not_true_eq_false, if_false, hsmall]
  rfl

omit [CryptoCrates] in
/-- A digest text has the form that the schema asks for. -/
theorem matchesSha256_label {digest : List UInt8} (h : digest.length = 32) :
    MatchesSha256 ("sha256:" ++ hexLower digest) := by
  refine ⟨(hexLower digest).toList, String.toList_append .., ?_,
    fun c hc => isLowerHexChar_of_mem_hexLower hc⟩
  rw [length_hexLower, h]

omit [CryptoCrates] in
/-- A receipt id has the form that the schema asks for. -/
theorem matches_receiptId (receipt : Uuid) :
    LengthBetween 8 128 ("rcpt_" ++ String.ofList receipt.digits) ∧
      Matches identifierClass ("rcpt_" ++ String.ofList receipt.digits) := by
  have hdigits : ∀ c ∈ receipt.digits, identifierClass c = true := by
    intro c hc
    obtain ⟨i, -, rfl⟩ := List.mem_map.mp hc
    have hall : ∀ n : Fin 16, identifierClass (JsonValue.hexDigit n) = true := by decide
    exact hall ⟨_, Nat.mod_lt _ (by decide)⟩
  have hlength : receipt.digits.length = 32 := by
    rw [Uuid.digits, List.length_map, List.length_range]
  have htext : ("rcpt_" ++ String.ofList receipt.digits).toList =
      ['r', 'c', 'p', 't', '_'] ++ receipt.digits := by
    rw [String.toList_append, String.toList_ofList, String.toList_ofList]
  have hlabel : ['r', 'c', 'p', 't', '_'].all identifierClass = true := by decide
  unfold LengthBetween Matches
  rw [htext, List.length_append, hlength]
  refine ⟨by decide, by simp, ?_⟩
  intro c hc
  rcases List.mem_append.mp hc with hc | hc
  · exact List.all_eq_true.mp hlabel c hc
  · exact hdigits c hc

variable [TimeCrate] [UrlCrate] [IngestDecoder]

omit [CryptoCrates] [UrlCrate] in
/-- The keys of a parsed document have portable ids and valid owners. -/
theorem parse_fields {document : String} {inputs : List KeyInput} {ring : KeyRing}
    (hdocument : IngestDecoder.keyDocument document = some inputs)
    (hring : KeyRing.parse document = .ok ring) :
    ∀ input ∈ inputs, portableIdentifier input.keyId = true ∧
      validOwnerSubject input.ownerSubject = true := by
  -- The loop over the inputs, for any ids that were seen before.
  have hloop : ∀ (inputs : List KeyInput) {keyIds : List String}
      {keys : List (String × IngestKey)}, KeyRing.parseKeys keyIds inputs = .ok keys →
      ∀ input ∈ inputs, portableIdentifier input.keyId = true ∧
        validOwnerSubject input.ownerSubject = true := by
    intro inputs
    induction inputs with
    | nil => exact fun _ input hinput => (nomatch hinput)
    | cons input inputs ih =>
      intro keyIds keys h
      obtain ⟨hfields, h⟩ := (ite_error_eq_ok_iff _ _ _ _).mp h
      obtain ⟨_, -, h⟩ := (bind_eq_ok_iff _ _ _).mp h
      obtain ⟨_, hkeys, -⟩ := (bind_eq_ok_iff _ _ _).mp h
      simp only [KeyRing.keyFieldsInvalid, Bool.or_eq_true, not_or, Bool.not_eq_true',
        Bool.not_eq_false] at hfields
      exact List.forall_mem_cons.mpr ⟨⟨hfields.1.1.1.1, hfields.1.2⟩, ih hkeys⟩
  obtain ⟨inputs', hinputs, hparse⟩ := (bind_eq_ok_iff _ _ _).mp hring
  rw [okOr_eq_ok_iff, hdocument] at hinputs
  cases hinputs
  obtain ⟨-, hparse⟩ := (ite_error_eq_ok_iff _ _ _ _).mp hparse
  obtain ⟨keys, hkeys, -⟩ := (bind_eq_ok_iff _ _ _).mp hparse
  exact hloop inputs hkeys

variable [Postgres]

/-- The digest that the next row of a stored stream refers to has the form of a digest. -/
theorem matchesSha256_prior {s : ingestService.State} (hs : ingestService.interleaved.Reachable s)
    (stream : ObservationCell) :
    MatchesSha256 (priorOf (ObservationTable.cursor (s.db stream))).2 := by
  cases hcursor : ObservationTable.cursor (s.db stream) with
  | none =>
    have hzero : zeroRecordDigest = "sha256:" ++ hexLower (List.replicate 32 0) := by
      decide
    show MatchesSha256 zeroRecordDigest
    rw [hzero]
    exact matchesSha256_label rfl
  | some row =>
    have hmem : row.record ∈ (s.db stream).map ObservationRow.record :=
      List.mem_map_of_mem (List.argmax_mem hcursor)
    show MatchesSha256 row.record.recordSha256
    rw [(database_stream_built hs stream).digest _ hmem]
    exact matchesSha256_label (CryptoCrates.sha256_length _)

section

variable {document : String} {inputs : List KeyInput} {ring : KeyRing} {headers : HeaderMap}
  {body : List UInt8} {event : ObservationEvent} {now : Instant} {transport : VerifiedTransport}
  {s : ingestService.State}

/-- The insert of an admitted observation satisfies every constraint of its table. -/
theorem insert_checks (hdocument : IngestDecoder.keyDocument document = some inputs)
    (hring : KeyRing.parse document = .ok ring) (hne : body ≠ []) (hle : body.length ≤ 262144)
    (hvalid : validateEvent event now = .ok ())
    (hverify : ring.verify headers body event now = .ok transport)
    (hs : ingestService.interleaved.Reachable s) (receipt : Uuid) (receivedAt : String) :
    Checks (freshInsert transport event (sha256Label body) body.length
      ⟨"rcpt_" ++ String.ofList receipt.digits, receivedAt⟩
      (priorOf (ObservationTable.cursor (s.db ⟨transport.ownerSubject, event.sourceId⟩)))) := by
  have htexts := validTexts_of_validateEvent hvalid
  -- The key that verified the delivery is an entry of the document.
  obtain ⟨input, hinput, hkeyId, howner⟩ : ∃ input ∈ inputs,
      transport.keyId = input.keyId ∧ transport.ownerSubject = input.ownerSubject := by
    obtain ⟨i, hi, _, _, -, rfl⟩ := verify_firstFit hdocument hring hverify
    exact ⟨inputs[i], List.getElem_mem hi, rfl, rfl⟩
  obtain ⟨hportable, hvalidOwner⟩ := parse_fields hdocument hring input hinput
  have horganization := (portableIdentifier_matches htexts.organization).1
  have hsequence := htexts.sequence
  have hpos := List.length_pos_of_ne_nil hne
  exact {
    ownerSubject := by
      show LengthBetween 1 255 transport.ownerSubject
      rw [howner]
      exact (validOwnerSubject_fits hvalidOwner).1
    organization := ⟨horganization.1, Nat.le_trans horganization.2 (by decide)⟩
    sourceId := portableIdentifier_matches htexts.sourceId
    eventId := portableIdentifier_matches htexts.eventId
    sourceSequence := by
      show 0 < event.sourceSequence.toInt
      rw [Int64.le_iff_toInt_le, show (0 : Int64).toInt = 0 from rfl] at hsequence
      omega
    payloadSha256 := matchesSha256_label (CryptoCrates.sha256_length _)
    priorRecordSha256 := matchesSha256_prior hs _
    recordSha256 := matchesSha256_label (CryptoCrates.sha256_length _)
    receiptId := matches_receiptId receipt
    keyId := by
      show LengthBetween 1 128 transport.keyId ∧ Matches identifierClass transport.keyId
      rw [hkeyId]
      exact portableIdentifier_matches hportable
    eventJson := rfl
    rawBodyOctets := ⟨hpos, hle⟩
    transportVerification := rfl
    substantiveReview := List.mem_cons_self }

/-- When an admitted observation can be stored. Let the key ring come from a document, let
`validate_event` and `verify` accept the event of a body of at most 262144 bytes, and let its
sequence number be the next one of its stream in any state that the service reaches. Then the
row that `store_database` inserts satisfies every constraint of the table and its `event_json`
is a value that `jsonb` holds exactly when no kind, statement, locator or time of the event has
U+0000. -/
theorem admitted_storable_iff (hdocument : IngestDecoder.keyDocument document = some inputs)
    (hring : KeyRing.parse document = .ok ring) (hne : body ≠ []) (hle : body.length ≤ 262144)
    (hvalid : validateEvent event now = .ok ())
    (hverify : ring.verify headers body event now = .ok transport)
    (hs : ingestService.interleaved.Reachable s)
    (hnext : checkedSucc (priorOf (ObservationTable.cursor
      (s.db ⟨transport.ownerSubject, event.sourceId⟩))).1 = some event.sourceSequence)
    (receipt : Uuid) (receivedAt : String) :
    ∃ row, Inserts transport event (sha256Label body) body.length
        ⟨"rcpt_" ++ String.ofList receipt.digits, receivedAt⟩
        (ObservationTable.cursor (s.db ⟨transport.ownerSubject, event.sourceId⟩)) row ∧
      ((Checks row ∧ JsonbHolds row.eventJson) ↔ event.TextsNulFree) := by
  refine ⟨_, storeFresh_inserts _ _ hle hnext, ?_⟩
  have hchecks := insert_checks hdocument hring hne hle hvalid hverify hs receipt receivedAt
  -- The checks of the table always hold, so that only the JSON column decides.
  have hjson : JsonbHolds event.toValue ↔ event.TextsNulFree :=
    event_json_holds_iff (validTexts_of_validateEvent hvalid)
  show (_ ∧ JsonbHolds event.toValue) ↔ _
  rw [hjson]
  exact ⟨fun h => h.2, fun h => ⟨hchecks, h⟩⟩

end

end

/-! ### A statement with U+0000 -/

section

attribute [local instance] testTime testUrl testDecoder testCrypto testServer

/-- The test event, whose assertion has the statement U+0000. -/
def nulEvent : ObservationEvent :=
  { testEvent 1 "event.test.00000001" with
    assertions := [{
      frameworkId := "soc2-tsc"
      controlId := "CC6.1"
      reportedStatus := .observed
      statement := some "\x00"
      evidenceIds := [] }] }

/-- The test body with this statement, which JSON writes as an escape. -/
def nulBody : List UInt8 :=
  testBody.take 288 ++
    [34, 115, 116, 97, 116, 101, 109, 101, 110, 116, 34, 58, 34, 92, 117, 48, 48, 48, 48, 34,
    44] ++ testBody.drop 288

/-- The test event as the first of its stream. Its row meets the checks of the table, and the JSON
column holds its value. -/
theorem admitted_storable_iff_test : ∃ row : ObservationInsert,
    Checks row ∧ JsonbHolds row.eventJson := by
  have hvalid : validateEvent (testEvent 1 "event.test.00000001") testDelivery.now = .ok () := by
    decide
  have hverify : KeyRing.verify ⟨[("source.customer-ci", testKey)]⟩ testDelivery.headers
      testBody (testEvent 1 "event.test.00000001") testDelivery.now =
        .ok ⟨"key.customer-ci", "org:example"⟩ :=
    testDelivery_verify testBody rfl rfl rfl
  have hdocument : IngestDecoder.keyDocument "document" = some [testKeyInput] := rfl
  have hne : testBody ≠ [] := List.cons_ne_nil _ _
  have hle : testBody.length ≤ 262144 := by decide +kernel
  have hstart : ingestService.interleaved.Reachable
      ⟨⟨ingestService.start, fun _ => none⟩, fun _ => none, fun _ => none⟩ := .init rfl
  obtain ⟨row, -, hstorable⟩ := admitted_storable_iff hdocument testRing_parse hne hle hvalid
    hverify hstart rfl ⟨0⟩ "2026-07-20T00:00:00Z"
  exact ⟨row, hstorable.mpr (by decide)⟩

/-- Not every admitted observation is storable: the event with the statement U+0000 is admitted
as the first of its stream, and `jsonb` does not hold its value. -/
theorem admitted_not_all_storable :
    ¬ ∀ (ring : KeyRing) (headers : HeaderMap) (body : List UInt8) (event : ObservationEvent)
      (now : Instant) (transport : VerifiedTransport) (candidate : ReceiptIdentity),
      KeyRing.parse "document" = .ok ring → body ≠ [] → body.length ≤ 262144 →
      validateEvent event now = .ok () → ring.verify headers body event now = .ok transport →
      checkedSucc (priorOf (ObservationTable.cursor [])).1 = some event.sourceSequence →
      ∀ row, Inserts transport event (sha256Label body) body.length candidate
        (ObservationTable.cursor []) row → Checks row ∧ JsonbHolds row.eventJson := by
  intro h
  have hle : nulBody.length ≤ 262144 := by decide +kernel
  have hvalid : validateEvent nulEvent testDelivery.now = .ok () := by
    decide
  have hverify : KeyRing.verify ⟨[("source.customer-ci", testKey)]⟩ testDelivery.headers nulBody
      nulEvent testDelivery.now = .ok ⟨"key.customer-ci", "org:example"⟩ :=
    testDelivery_verify nulBody rfl rfl rfl
  have hjson : JsonbHolds nulEvent.toValue :=
    (h _ _ _ _ _ _ ⟨"rcpt_0", "2026-07-20T00:00:00Z"⟩ testRing_parse (by decide) hle
      hvalid hverify rfl _ (storeFresh_inserts _ _ hle rfl)).2
  have hnul : ¬ nulEvent.TextsNulFree := by
    decide
  exact hnul ((event_json_holds_iff (validTexts_of_validateEvent hvalid)).mp hjson)

end

end CanonicalApi
