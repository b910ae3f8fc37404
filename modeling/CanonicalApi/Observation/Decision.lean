import CanonicalApi.Observation.Keys
import Mathlib.Data.List.Perm.Basic

/-!
# `CanonicalApi.Observation.Decision`: what `validate_event` decides

`validateEvent` walks over the evidence, the assertions and the references of each assertion, and
a set that collects what it has seen finds the repetitions. `ValidEvent` is the same decision
without an order: every item is valid by itself, and the lists have no repetition.

Each loop has one lemma that says when it succeeds with a given set of seen items
(`validateEvidence_ok_iff`, `validateReferences_ok_iff`, `validateAssertions_ok_iff`).
`validate_event_decides` puts them together. A verdict that depends on the lists only through
their items is the same for every order of them.
-/

set_option autoImplicit false

namespace CanonicalApi

open Outcome

section

variable [TimeCrate] [UrlCrate]

/-! ### The specification -/

/-- A locator: a URN, or an `https` URL with a host, and nothing secret in it. -/
def ValidLocator (locator : String) : Prop :=
  locator ≠ "" ∧ len locator ≤ 2048 ∧ ∃ url, UrlCrate.parse locator = some url ∧
    url.query = none ∧ url.fragment = none ∧ url.username = "" ∧ url.password = none ∧
    (url.scheme = "urn" ∨ url.scheme = "https" ∧ url.host ≠ none)

/-- An evidence item that is valid by itself. As in the code, the times are compared by their whole
Unix seconds. -/
structure ValidEvidence (now observedAt : Instant) (evidence : EvidenceItem) : Prop where
  evidenceId : portableIdentifier evidence.evidenceId = true
  kind : evidence.kind ≠ "" ∧ len evidence.kind ≤ 64
  sha256 : validSha256 evidence.sha256 = true
  contentType : ∀ value ∈ evidence.contentType,
    value ≠ "" ∧ len value ≤ 128 ∧ ∀ byte ∈ bytes value, isAsciiControl byte = false
  sizeBytes : ∀ size ∈ evidence.sizeBytes, size.toNat ≤ 2 ^ 50
  collectedAt : ∃ collectedAt, TimeCrate.parse evidence.collectedAt = some collectedAt ∧
    collectedAt.unixTimestamp ≤ now.unixTimestamp + 300 ∧
    collectedAt.unixTimestamp ≤ observedAt.unixTimestamp + 300
  locator : ∀ locator ∈ evidence.locator, ValidLocator locator

/-- The references of an assertion name evidence, each item once. -/
structure ValidReferences (evidenceIds : List String) (references : List String) : Prop where
  few : references.length ≤ 128
  distinct : references.Nodup
  known : ∀ evidenceId ∈ references, evidenceId ∈ evidenceIds

/-- A statement that is given is not empty and not too long. -/
def ValidStatement (assertion : ObservationAssertion) : Prop :=
  ∀ value ∈ assertion.statement, value ≠ "" ∧ len value ≤ 2048

/-- The ids of the evidence of an event. -/
def ObservationEvent.evidenceIds (event : ObservationEvent) : List String :=
  event.evidence.map EvidenceItem.evidenceId

/-- The controls that the assertions of an event are about. -/
def ObservationEvent.controls (event : ObservationEvent) : List (String × String) :=
  event.assertions.map fun assertion => (assertion.frameworkId, assertion.controlId)

/-- The identifiers, the evidence and the references of an event that was observed at
`observedAt`. -/
structure CoherentEvent (event : ObservationEvent) (now observedAt : Instant) : Prop where
  specVersion : event.specVersion = eventSpec
  eventId : portableIdentifier event.eventId = true
  sourceId : portableIdentifier event.sourceId = true
  organization : portableIdentifier event.organization = true
  sourceSequence : 0 < event.sourceSequence
  assertionCount : 1 ≤ event.assertions.length ∧ event.assertions.length ≤ 256
  evidenceCount : event.evidence.length ≤ 256
  distinctEvidence : event.evidenceIds.Nodup
  evidence : ∀ evidence ∈ event.evidence, ValidEvidence now observedAt evidence
  distinctControls : event.controls.Nodup
  controls : ∀ assertion ∈ event.assertions, portableIdentifier assertion.frameworkId = true ∧
    portableIdentifier assertion.controlId = true
  references : ∀ assertion ∈ event.assertions,
    ValidReferences event.evidenceIds assertion.evidenceIds

/-- A coherent event that was not observed in the future, with valid statements. -/
def ValidEvent (event : ObservationEvent) (now : Instant) : Prop :=
  ∃ observedAt, TimeCrate.parse event.observedAt = some observedAt ∧
    CoherentEvent event now observedAt ∧
    observedAt.unixTimestamp ≤ now.unixTimestamp + 300 ∧
    ∀ assertion ∈ event.assertions, ValidStatement assertion

/-- An assertion with its references in another order. -/
def SameAssertion (assertion assertion' : ObservationAssertion) : Prop :=
  assertion' = { assertion with evidenceIds := assertion'.evidenceIds } ∧
    assertion.evidenceIds.Perm assertion'.evidenceIds

/-- The event with its evidence, its assertions and their references in another order. -/
structure SameEvent (event event' : ObservationEvent) : Prop where
  fields : event' = { event with evidence := event'.evidence, assertions := event'.assertions }
  evidence : event.evidence.Perm event'.evidence
  assertions : ∃ assertions, event.assertions.Perm assertions ∧
    List.Forall₂ SameAssertion assertions event'.assertions

/-! ### The loops -/

omit [TimeCrate] in
/-- `validate_locator` accepts the valid locators. -/
theorem validateLocator_ok_iff (locator : String) :
    validateLocator locator = .ok () ↔ ValidLocator locator := by
  unfold validateLocator ValidLocator maxLocatorBytes
  rw [ite_error_eq_ok_iff, bind_eq_ok_iff]
  simp only [okOr_eq_ok_iff, ite_error_eq_ok_iff, not_or, Nat.not_lt, Option.isSome_iff_ne_none,
    not_not, ne_eq]
  constructor
  · rintro ⟨⟨hne, hlen⟩, url, hurl, ⟨hquery, hfragment, husername, hpassword⟩, hscheme⟩
    refine ⟨hne, hlen, url, hurl, hquery, hfragment, husername, hpassword, ?_⟩
    split at hscheme
    · next hurn => exact .inl hurn
    · split at hscheme
      · next hhttps => exact .inr hhttps
      · cases hscheme
  · rintro ⟨hne, hlen, url, hurl, hquery, hfragment, husername, hpassword, hscheme⟩
    refine ⟨⟨hne, hlen⟩, url, hurl, ⟨hquery, hfragment, husername, hpassword⟩, ?_⟩
    -- A URN is accepted first; every other scheme must be HTTPS.
    rcases hscheme with hurn | hhttps
    · rw [if_pos hurn]
    · by_cases hurn : url.scheme = "urn"
      · rw [if_pos hurn]
      · rw [if_neg hurn, if_pos hhttps]

omit [TimeCrate] [UrlCrate] in
/-- The fields of an evidence item pass when each of them does. -/
theorem evidenceFieldsInvalid_iff (evidence : EvidenceItem) :
    evidenceFieldsInvalid evidence = false ↔
      portableIdentifier evidence.evidenceId = true ∧
      (evidence.kind ≠ "" ∧ len evidence.kind ≤ 64) ∧ validSha256 evidence.sha256 = true ∧
      (∀ value ∈ evidence.contentType,
        value ≠ "" ∧ len value ≤ 128 ∧ ∀ byte ∈ bytes value, isAsciiControl byte = false) ∧
      ∀ size ∈ evidence.sizeBytes, size.toNat ≤ 2 ^ 50 := by
  have hsize : ∀ size : UInt64, ¬ size > 1125899906842624 ↔ size.toNat ≤ 2 ^ 50 := by
    intro size
    rw [gt_iff_lt, UInt64.lt_iff_toNat_lt, Nat.not_lt]
    rfl
  simp only [evidenceFieldsInvalid, maxContentTypeBytes, Bool.or_eq_false_iff,
    Bool.not_eq_false', beq_eq_false_iff_ne, decide_eq_false_iff_not, Option.any_eq_false,
    Nat.not_lt, List.any_eq_false, Bool.not_eq_true, hsize, and_assoc, ne_eq, gt_iff_lt,
    Option.mem_def]

/-- One turn of the loop over the evidence. -/
theorem validateEvidence_cons {now observedAt : Instant} {evidence : EvidenceItem}
    {rest : List EvidenceItem} {seen ids : List String} :
    validateEvidence now observedAt seen (evidence :: rest) = .ok ids ↔
      (evidenceFieldsInvalid evidence = false ∧ evidence.evidenceId ∉ seen) ∧
      ∃ collectedAt, TimeCrate.parse evidence.collectedAt = some collectedAt ∧
        (¬ collectedAt.unixTimestamp - now.unixTimestamp > maxClockSkewSeconds ∧
          ¬ collectedAt.unixTimestamp - observedAt.unixTimestamp > maxClockSkewSeconds) ∧
        (∀ locator ∈ evidence.locator, ValidLocator locator) ∧
        validateEvidence now observedAt (evidence.evidenceId :: seen) rest = .ok ids := by
  rw [validateEvidence, ite_error_eq_ok_iff, bind_eq_ok_iff]
  cases hlocator : evidence.locator with
  | none =>
    simp only [not_or, Bool.not_eq_true, okOr_eq_ok_iff, ite_error_eq_ok_iff, ok_bind,
      Option.not_mem_none, IsEmpty.forall_iff, implies_true, true_and]
  | some locator =>
    simp only [not_or, Bool.not_eq_true, okOr_eq_ok_iff, ite_error_eq_ok_iff,
      unit_bind_eq_ok_iff, validateLocator_ok_iff, Option.mem_some_iff, forall_eq']

/-- The loop over the evidence: every item is valid, and no id is repeated or was seen. -/
theorem validateEvidence_ok_iff {now observedAt : Instant} {items : List EvidenceItem}
    {seen ids : List String} :
    validateEvidence now observedAt seen items = .ok ids ↔
      (∀ evidence ∈ items, ValidEvidence now observedAt evidence) ∧
      (items.map EvidenceItem.evidenceId).Nodup ∧
      (∀ evidence ∈ items, evidence.evidenceId ∉ seen) ∧
      ids = (items.map EvidenceItem.evidenceId).reverse ++ seen := by
  induction items generalizing seen with
  | nil => simp [validateEvidence, eq_comm]
  | cons evidence rest ih =>
    rw [validateEvidence_cons, evidenceFieldsInvalid_iff, ih]
    unfold maxClockSkewSeconds
    rw [List.forall_mem_cons, List.forall_mem_cons, List.map_cons, List.nodup_cons,
      List.reverse_cons, List.append_assoc, List.singleton_append]
    constructor
    · rintro ⟨⟨⟨hid, hkind, hsha, htype, hsize⟩, hnew⟩, collectedAt, hparse, ⟨hnow, hobserved⟩,
        hlocator, hrest, hnodup, hfresh, hids⟩
      refine ⟨⟨⟨hid, hkind, hsha, htype, hsize, ⟨collectedAt, hparse, by omega, by omega⟩,
        hlocator⟩, hrest⟩, ⟨?_, hnodup⟩, ⟨hnew, fun e he hmem => ?_⟩, hids⟩
      · -- An id that came again later would be among those seen by then.
        intro hmem
        obtain ⟨e, he, heq⟩ := List.mem_map.mp hmem
        exact hfresh e he (heq ▸ List.mem_cons_self)
      · exact hfresh e he (List.mem_cons_of_mem _ hmem)
    · rintro ⟨⟨hvalid, hrest⟩, ⟨hdistinct, hnodup⟩, ⟨hnew, hfresh⟩, hids⟩
      obtain ⟨collectedAt, hparse, hnow, hobserved⟩ := hvalid.collectedAt
      refine ⟨⟨⟨hvalid.evidenceId, hvalid.kind, hvalid.sha256, hvalid.contentType,
        hvalid.sizeBytes⟩, hnew⟩, collectedAt, hparse, ⟨by omega, by omega⟩, hvalid.locator,
        hrest, hnodup, fun e he hmem => ?_, hids⟩
      rcases List.mem_cons.mp hmem with heq | hmem
      · exact hdistinct (heq ▸ List.mem_map_of_mem he)
      · exact hfresh e he hmem

omit [TimeCrate] [UrlCrate] in
/-- The loop over the references of an assertion. -/
theorem validateReferences_ok_iff {evidenceIds seen references : List String} :
    validateReferences evidenceIds seen references = .ok () ↔
      references.Nodup ∧ (∀ evidenceId ∈ references, evidenceId ∉ seen) ∧
        ∀ evidenceId ∈ references, evidenceId ∈ evidenceIds := by
  induction references generalizing seen with
  | nil => simp [validateReferences]
  -- The head joins the seen ids, so that the rest is checked against it as well.
  | cons evidenceId rest ih =>
    rw [validateReferences, ite_error_eq_ok_iff, ih, not_or, not_not, List.nodup_cons,
      List.forall_mem_cons, List.forall_mem_cons]
    constructor
    · rintro ⟨⟨hnew, hknown⟩, hnodup, hfresh, hrest⟩
      refine ⟨⟨fun hmem => ?_, hnodup⟩, ⟨hnew, fun id hid hmem => ?_⟩, hknown, hrest⟩
      · exact hfresh evidenceId hmem List.mem_cons_self
      · exact hfresh id hid (List.mem_cons_of_mem _ hmem)
    · rintro ⟨⟨hdistinct, hnodup⟩, ⟨hnew, hfresh⟩, hknown, hrest⟩
      refine ⟨⟨hnew, hknown⟩, hnodup, fun id hid hmem => ?_, hrest⟩
      rcases List.mem_cons.mp hmem with rfl | hmem
      · exact hdistinct hid
      · exact hfresh id hid hmem

omit [TimeCrate] [UrlCrate] in
/-- The fields of an assertion pass when each of them does. -/
theorem assertionFieldsInvalid_iff (assertion : ObservationAssertion) :
    assertionFieldsInvalid assertion = false ↔
      (portableIdentifier assertion.frameworkId = true ∧
        portableIdentifier assertion.controlId = true) ∧ ValidStatement assertion ∧
      assertion.evidenceIds.length ≤ 128 := by
  simp only [assertionFieldsInvalid, maxStatementBytes, ValidStatement, Bool.or_eq_false_iff,
    Bool.not_eq_false', beq_eq_false_iff_ne, decide_eq_false_iff_not, Option.any_eq_false,
    Nat.not_lt, and_assoc, ne_eq, gt_iff_lt, Option.mem_def]

omit [TimeCrate] [UrlCrate] in
/-- The loop over the assertions: every assertion is valid, and no control is repeated or was
seen. -/
theorem validateAssertions_ok_iff {evidenceIds : List String}
    {assertions : List ObservationAssertion} {seen : List (String × String)} :
    validateAssertions evidenceIds seen assertions = .ok () ↔
      (∀ assertion ∈ assertions, (portableIdentifier assertion.frameworkId = true ∧
        portableIdentifier assertion.controlId = true) ∧ ValidStatement assertion ∧
        ValidReferences evidenceIds assertion.evidenceIds) ∧
      (assertions.map fun assertion => (assertion.frameworkId, assertion.controlId)).Nodup ∧
      ∀ assertion ∈ assertions, (assertion.frameworkId, assertion.controlId) ∉ seen := by
  induction assertions generalizing seen with
  | nil => simp [validateAssertions]
  -- The pair of the head joins the seen pairs.
  | cons assertion rest ih =>
    rw [validateAssertions, ite_error_eq_ok_iff, unit_bind_eq_ok_iff]
    simp only [not_or, Bool.not_eq_true, assertionFieldsInvalid_iff, validateReferences_ok_iff, ih]
    rw [List.forall_mem_cons, List.forall_mem_cons, List.map_cons, List.nodup_cons]
    constructor
    · rintro ⟨⟨⟨hids, hstatement, hfew⟩, hnew⟩, ⟨hnodup, -, hknown⟩, hrest, hdistinct, hfresh⟩
      refine ⟨⟨⟨hids, hstatement, hfew, hnodup, hknown⟩, hrest⟩, ⟨?_, hdistinct⟩, hnew,
        fun a ha hmem => ?_⟩
      · intro hmem
        obtain ⟨a, ha, heq⟩ := List.mem_map.mp hmem
        exact hfresh a ha (heq ▸ List.mem_cons_self)
      · exact hfresh a ha (List.mem_cons_of_mem _ hmem)
    · rintro ⟨⟨⟨hids, hstatement, href⟩, hrest⟩, ⟨hself, hdistinct⟩, hnew, hfresh⟩
      refine ⟨⟨⟨hids, hstatement, href.few⟩, hnew⟩,
        ⟨href.distinct, fun _ _ => List.not_mem_nil, href.known⟩, hrest, hdistinct,
        fun a ha hmem => ?_⟩
      rcases List.mem_cons.mp hmem with heq | hmem
      · exact hself (heq ▸ List.mem_map_of_mem ha)
      · exact hfresh a ha hmem

/-! ### The decision -/

omit [TimeCrate] [UrlCrate] in
/-- The references are compared with the evidence ids as a set. -/
theorem ValidReferences.congr {evidenceIds evidenceIds' references references' : List String}
    (h : ValidReferences evidenceIds references)
    (hids : ∀ evidenceId, evidenceId ∈ evidenceIds → evidenceId ∈ evidenceIds')
    (hperm : references.Perm references') : ValidReferences evidenceIds' references' where
  few := hperm.length_eq ▸ h.few
  distinct := hperm.nodup_iff.mp h.distinct
  known id hid := hids id (h.known id (hperm.mem_iff.mpr hid))

omit [TimeCrate] [UrlCrate] in
/-- The same event has the same evidence ids, up to their order. -/
theorem SameEvent.evidenceIds {event event' : ObservationEvent} (h : SameEvent event event') :
    event.evidenceIds.Perm event'.evidenceIds :=
  h.evidence.map EvidenceItem.evidenceId

omit [TimeCrate] [UrlCrate] in
/-- The same assertions are about the same controls. -/
theorem map_control_eq {assertions assertions' : List ObservationAssertion}
    (h : List.Forall₂ SameAssertion assertions assertions') :
    (assertions.map fun assertion => (assertion.frameworkId, assertion.controlId)) =
      assertions'.map fun assertion => (assertion.frameworkId, assertion.controlId) := by
  induction h with
  | nil => rfl
  | cons hsame _ ih =>
    rw [List.map_cons, List.map_cons, ih, hsame.1]

omit [TimeCrate] [UrlCrate] in
/-- Every assertion of the second list is one of the first, with its references in another
order. -/
theorem exists_of_forall₂ {assertions assertions' : List ObservationAssertion}
    (h : List.Forall₂ SameAssertion assertions assertions') {assertion' : ObservationAssertion}
    (hmem : assertion' ∈ assertions') :
    ∃ assertion ∈ assertions, SameAssertion assertion assertion' := by
  induction h with
  | nil => cases hmem
  | cons hsame _ ih =>
    rcases List.mem_cons.mp hmem with rfl | hmem
    · exact ⟨_, List.mem_cons_self, hsame⟩
    · obtain ⟨assertion, hassertion, hsame⟩ := ih hmem
      exact ⟨assertion, List.mem_cons_of_mem _ hassertion, hsame⟩

/-- The order of the lists does not matter for the specification. -/
theorem ValidEvent.perm {event event' : ObservationEvent} {now : Instant}
    (h : ValidEvent event now) (hsame : SameEvent event event') : ValidEvent event' now := by
  obtain ⟨observedAt, hparse, hcoherent, hnow, hstatements⟩ := h
  obtain ⟨assertions, hperm, hpairs⟩ := hsame.assertions
  have hfields := hsame.fields
  have hlength : event.assertions.length = event'.assertions.length :=
    hperm.length_eq.trans hpairs.length_eq
  have hcontrols : event.controls.Perm event'.controls := by
    unfold ObservationEvent.controls
    rw [← map_control_eq hpairs]
    exact hperm.map _
  -- Every assertion of the second event is an assertion of the first one.
  have horigin : ∀ assertion' ∈ event'.assertions, ∃ assertion ∈ event.assertions,
      SameAssertion assertion assertion' := by
    intro assertion' hmem
    obtain ⟨assertion, hassertion, hsame⟩ := exists_of_forall₂ hpairs hmem
    exact ⟨assertion, hperm.mem_iff.mpr hassertion, hsame⟩
  refine ⟨observedAt, ?_, ?_, hnow, ?_⟩
  · rw [hfields]
    exact hparse
  · constructor
    · rw [hfields]
      exact hcoherent.specVersion
    · rw [hfields]
      exact hcoherent.eventId
    · rw [hfields]
      exact hcoherent.sourceId
    · rw [hfields]
      exact hcoherent.organization
    · rw [hfields]
      exact hcoherent.sourceSequence
    · rw [← hlength]
      exact hcoherent.assertionCount
    · rw [← hsame.evidence.length_eq]
      exact hcoherent.evidenceCount
    · exact hsame.evidenceIds.nodup_iff.mp hcoherent.distinctEvidence
    · intro evidence hmem
      exact hcoherent.evidence evidence (hsame.evidence.mem_iff.mpr hmem)
    · exact hcontrols.nodup_iff.mp hcoherent.distinctControls
    · intro assertion' hmem
      obtain ⟨assertion, hassertion, heq, -⟩ := horigin assertion' hmem
      rw [heq]
      exact hcoherent.controls assertion hassertion
    · intro assertion' hmem
      obtain ⟨assertion, hassertion, -, hreferences⟩ := horigin assertion' hmem
      exact (hcoherent.references assertion hassertion).congr
        (fun id => hsame.evidenceIds.mem_iff.mp) hreferences
  · intro assertion' hmem
    obtain ⟨assertion, hassertion, heq, -⟩ := horigin assertion' hmem
    rw [heq]
    exact hstatements assertion hassertion

omit [TimeCrate] [UrlCrate] in
/-- It does not matter which of the two events comes first. -/
theorem SameEvent.symm {event event' : ObservationEvent} (h : SameEvent event event') :
    SameEvent event' event := by
  obtain ⟨assertions, hperm, hpairs⟩ := h.assertions
  obtain ⟨assertions', hpairs', hperm'⟩ := List.perm_comp_forall₂ hperm hpairs
  refine ⟨?_, h.evidence.symm, assertions', hperm'.symm, ?_⟩
  · rw [h.fields]
  · refine List.Forall₂.flip (hpairs'.imp fun assertion assertion' hsame => ?_)
    refine ⟨?_, hsame.2.symm⟩
    rw [hsame.1]

omit [TimeCrate] [UrlCrate] in
/-- The fields of an event pass when each of them does. The source sequence must be positive, and
there must be an assertion. -/
theorem eventFieldsInvalid_iff (event : ObservationEvent) :
    eventFieldsInvalid event = false ↔
      event.specVersion = eventSpec ∧ portableIdentifier event.eventId = true ∧
      portableIdentifier event.sourceId = true ∧ portableIdentifier event.organization = true ∧
      0 < event.sourceSequence ∧ (1 ≤ event.assertions.length ∧ event.assertions.length ≤ 256) ∧
      event.evidence.length ≤ 256 := by
  have hsequence : ¬ event.sourceSequence ≤ 0 ↔ 0 < event.sourceSequence := Int64.not_le
  have hassertions : event.assertions.isEmpty = false ↔ 1 ≤ event.assertions.length := by
    cases event.assertions <;> simp
  simp only [eventFieldsInvalid, maxAssertions, maxEvidence, Bool.or_eq_false_iff,
    Bool.not_eq_false', bne_eq_false_iff_eq, decide_eq_false_iff_not, hsequence, hassertions,
    Nat.not_lt, gt_iff_lt, and_assoc]

/-- `validate_event` decides the specification. -/
theorem validateEvent_ok_iff (event : ObservationEvent) (now : Instant) :
    validateEvent event now = .ok () ↔ ValidEvent event now := by
  unfold validateEvent
  rw [ite_error_eq_ok_iff, bind_eq_ok_iff]
  simp only [okOr_eq_ok_iff, ite_error_eq_ok_iff, bind_eq_ok_iff, validateEvidence_ok_iff,
    validateAssertions_ok_iff, List.append_nil, List.not_mem_nil, not_false_eq_true, implies_true,
    true_and, and_true, Bool.not_eq_true, eventFieldsInvalid_iff]
  unfold maxClockSkewSeconds
  -- The assertions are checked against the ids in the order of the set.
  have hset : ∀ references, ValidReferences event.evidenceIds.reverse references ↔
      ValidReferences event.evidenceIds references := by
    intro references
    have hperm := List.Perm.refl references
    exact ⟨fun h => h.congr (fun _ => List.mem_reverse.mp) hperm,
      fun h => h.congr (fun _ => List.mem_reverse.mpr) hperm⟩
  constructor
  · rintro ⟨⟨hspec, hid, hsource, horganization, hsequence, hcount, hfew⟩, observedAt, hparse, hnow,
      ids, ⟨hevidence, hdistinct, rfl⟩, hassertions, hcontrols⟩
    refine ⟨observedAt, hparse, ?_, by omega,
      fun assertion hmem => (hassertions assertion hmem).2.1⟩
    exact { specVersion := hspec, eventId := hid, sourceId := hsource,
            organization := horganization, sourceSequence := hsequence,
            assertionCount := hcount, evidenceCount := hfew, distinctEvidence := hdistinct,
            evidence := hevidence, distinctControls := hcontrols,
            controls := fun assertion hmem => (hassertions assertion hmem).1,
            references := fun assertion hmem =>
              (hset _).mp (hassertions assertion hmem).2.2 }
  · rintro ⟨observedAt, hparse, h, hnow, hstatements⟩
    refine ⟨⟨h.specVersion, h.eventId, h.sourceId, h.organization, h.sourceSequence,
      h.assertionCount, h.evidenceCount⟩, observedAt, hparse, by omega, _,
      ⟨h.evidence, h.distinctEvidence, rfl⟩, fun assertion hmem => ?_, h.distinctControls⟩
    exact ⟨h.controls assertion hmem, hstatements assertion hmem,
      (hset _).mpr (h.references assertion hmem)⟩

/-! ### The error -/

omit [TimeCrate] in
/-- The only error of the check of a locator is an invalid request. -/
theorem validateLocator_error {locator : String} {e : IngestError}
    (h : validateLocator locator = .error e) : e = .invalidRequest := by
  unfold validateLocator at h
  split at h
  · cases h
    rfl
  · cases hparse : UrlCrate.parse locator with
    | none =>
      rw [hparse] at h
      cases h
      rfl
    | some url =>
      rw [hparse, okOr_some, ok_bind] at h
      split at h
      · cases h
        rfl
      · split at h
        · cases h
        · split at h
          · cases h
          · cases h
            rfl

/-- The only error of the loop over the evidence is an invalid request. -/
theorem validateEvidence_error {now observedAt : Instant} {items : List EvidenceItem}
    {seen : List String} {e : IngestError}
    (h : validateEvidence now observedAt seen items = .error e) : e = .invalidRequest := by
  induction items generalizing seen with
  | nil => cases h
  | cons evidence rest ih =>
    rw [validateEvidence] at h
    split at h
    · cases h
      rfl
    · cases hparse : TimeCrate.parse evidence.collectedAt with
      | none =>
        rw [hparse] at h
        cases h
        rfl
      | some collectedAt =>
        rw [hparse, okOr_some, ok_bind] at h
        split at h
        · cases h
          rfl
        · split at h
          · -- The locator is optional and has errors of its own, all of this one kind.
            next locator _ =>
            cases hlocator : validateLocator locator with
            | error e' =>
              rw [hlocator] at h
              cases h
              exact validateLocator_error hlocator
            | ok u =>
              rw [hlocator] at h
              exact ih h
          · exact ih h

omit [TimeCrate] [UrlCrate] in
/-- The only error of the loop over the references is an invalid request. -/
theorem validateReferences_error {evidenceIds seen references : List String} {e : IngestError}
    (h : validateReferences evidenceIds seen references = .error e) : e = .invalidRequest := by
  induction references generalizing seen with
  | nil => cases h
  | cons evidenceId rest ih =>
    rw [validateReferences] at h
    split at h
    · cases h
      rfl
    · exact ih h

omit [TimeCrate] [UrlCrate] in
/-- The only error of the loop over the assertions is an invalid request. -/
theorem validateAssertions_error {evidenceIds : List String}
    {assertions : List ObservationAssertion} {seen : List (String × String)} {e : IngestError}
    (h : validateAssertions evidenceIds seen assertions = .error e) : e = .invalidRequest := by
  induction assertions generalizing seen with
  | nil => cases h
  | cons assertion rest ih =>
    rw [validateAssertions] at h
    split at h
    · cases h
      rfl
    · cases hreferences : validateReferences evidenceIds [] assertion.evidenceIds with
      | error e' =>
        rw [hreferences] at h
        cases h
        exact validateReferences_error hreferences
      | ok u =>
        rw [hreferences] at h
        exact ih h

/-- `validate_event` has one error only. -/
theorem validateEvent_error {event : ObservationEvent} {now : Instant} {e : IngestError}
    (h : validateEvent event now = .error e) : e = .invalidRequest := by
  unfold validateEvent at h
  -- The checks in the order of the source; each fails with the same error.
  split at h
  · cases h
    rfl
  · cases hparse : TimeCrate.parse event.observedAt with
    | none =>
      rw [hparse] at h
      cases h
      rfl
    | some observedAt =>
      rw [hparse, okOr_some, ok_bind] at h
      split at h
      · cases h
        rfl
      · cases hevidence : validateEvidence now observedAt [] event.evidence with
        | error e' =>
          rw [hevidence] at h
          cases h
          exact validateEvidence_error hevidence
        | ok ids =>
          rw [hevidence] at h
          exact validateAssertions_error h

/-! ### The result -/

/-- `validate_event` decides its specification, for every event and every time. The verdict does
not depend on the order of the evidence, of the assertions or of their references. -/
theorem validate_event_decides (event : ObservationEvent) (now : Instant) :
    (validateEvent event now = .ok () ↔ ValidEvent event now) ∧
    ∀ event', SameEvent event event' → validateEvent event' now = validateEvent event now := by
  refine ⟨validateEvent_ok_iff event now, fun event' hsame => ?_⟩
  have hiff : validateEvent event' now = .ok () ↔ validateEvent event now = .ok () := by
    rw [validateEvent_ok_iff, validateEvent_ok_iff]
    exact ⟨fun h => h.perm hsame.symm, fun h => h.perm hsame⟩
  cases hverdict : validateEvent event now with
  | ok u => exact hiff.mpr hverdict
  | error e =>
    cases hverdict' : validateEvent event' now with
    | ok u =>
      rw [hiff.mp hverdict'] at hverdict
      cases hverdict
    | error e' => rw [validateEvent_error hverdict, validateEvent_error hverdict']

end

/-! ### Two events -/

/-- An event with one assertion, which has this statement. -/
def statementEvent (statement : Option String) : ObservationEvent :=
  { testEvent 1 "event.test.00000001" with
    assertions := [{
      frameworkId := "soc2-tsc"
      controlId := "CC6.1"
      reportedStatus := .observed
      statement := statement
      evidenceIds := [] }] }

/-- It is coherent, whatever the statement and the clock say. -/
theorem statementEvent_coherent [TimeCrate] [UrlCrate] (statement : Option String)
    (now observedAt : Instant) : CoherentEvent (statementEvent statement) now observedAt where
  specVersion := rfl
  eventId := (by decide : portableIdentifier "event.test.00000001" = true)
  sourceId := (by decide : portableIdentifier "source.customer-ci" = true)
  organization := (by decide : portableIdentifier "org:example" = true)
  sourceSequence := (by decide : (0 : Int64) < 1)
  assertionCount := ⟨Nat.le_refl 1, (by decide : 1 ≤ 256)⟩
  evidenceCount := Nat.zero_le _
  distinctEvidence := List.nodup_nil
  evidence := nofun
  distinctControls := List.nodup_cons.mpr ⟨List.not_mem_nil, List.nodup_nil⟩
  controls := by
    intro assertion hmem
    obtain rfl := List.mem_singleton.mp hmem
    exact ⟨(by decide : portableIdentifier "soc2-tsc" = true),
      (by decide : portableIdentifier "CC6.1" = true)⟩
  references := by
    intro assertion hmem
    obtain rfl := List.mem_singleton.mp hmem
    exact ⟨Nat.zero_le _, List.nodup_nil, nofun⟩

/-- A clock with a text between two seconds. -/
@[reducible] def fractionTime : TimeCrate where
  parse value :=
    if value = "2026-09-09T05:00:00Z" then some 1788930000000000000
    else if value = "2026-09-09T05:05:00.9Z" then some 1788930300900000000
    else none
  format _ := none

/-- An event at five o'clock, with evidence of 300.9 seconds later. In whole seconds that is 300, so
the window still holds it. -/
def fractionEvent : ObservationEvent :=
  { statementEvent none with
    evidence := [{
      evidenceId := "evidence.test.1"
      kind := "report"
      sha256 := "sha256:0000000000000000000000000000000000000000000000000000000000000000"
      collectedAt := "2026-09-09T05:05:00.9Z"
      locator := none
      contentType := none
      sizeBytes := none }] }

/-- Coherence alone is not enough: the event with an empty statement is rejected, and so is an
event that was observed 301 seconds ahead of the clock. And the code compares whole seconds, so it
accepts evidence that was collected 300.9 seconds after the clock and after the observation. -/
theorem validate_event_differs :
    (@CoherentEvent testTime testUrl (statementEvent (some "")) 1788930000000000000
        1788930000000000000 ∧
      @validateEvent testTime testUrl (statementEvent (some "")) 1788930000000000000 =
        .error .invalidRequest) ∧
    (@CoherentEvent testTime testUrl (statementEvent none) 1788929699000000000
        1788930000000000000 ∧
      @validateEvent testTime testUrl (statementEvent none) 1788929699000000000 =
        .error .invalidRequest) ∧
    @validateEvent fractionTime testUrl fractionEvent 1788930000000000000 = .ok () ∧
      ∃ evidence ∈ fractionEvent.evidence, ∃ collectedAt observedAt : Instant,
        fractionTime.parse evidence.collectedAt = some collectedAt ∧
        fractionTime.parse fractionEvent.observedAt = some observedAt ∧
        1788930000000000000 + 300 * 1000000000 < collectedAt ∧
        observedAt + 300 * 1000000000 < collectedAt := by
  refine ⟨⟨?_, by decide⟩, ⟨?_, by decide⟩, by decide, _, List.mem_singleton_self _,
    1788930300900000000, 1788930000000000000, by decide, by decide, by decide, by decide⟩
  · exact @statementEvent_coherent testTime testUrl _ _ _
  · exact @statementEvent_coherent testTime testUrl _ _ _

end CanonicalApi
