import CanonicalApi.Contract
import CanonicalApi.Gemini

/-!
# `CanonicalApi.Readable`: which finished quotes can be read back

`validateAnalysis` admits the output of the model, and `quoteEstimate` reads the same value
again each time a completed quote is rendered. The two ask different things of it: the
projection wants every text list to hold non-empty texts, a hundred times the fees in an
`i64` and the weeks in an `i64`. `FitsProjection` is this difference.

`succeeds_quoteEstimate_iff` says when the estimate of a completed quote renders, and the
lemmas after it carry this to the projections that contain the estimate and to list pages.
-/

set_option autoImplicit false

namespace CanonicalApi

open JsonValue (member nonEmpty textMember u64Member arrayMember nonEmpty_eq_some_iff)
open Outcome

/-- A JSON text that is not empty. -/
def IsText (item : JsonValue) : Prop := ∃ text, item = .string text ∧ text ≠ ""

/-- What the projection asks of an analysis beyond `validateAnalysis`. -/
structure FitsProjection (analysis : JsonValue) : Prop where
  /-- A hundred times the upper fee fits an `i64`. -/
  fee : ∀ fee, (analysis.get "estimated_total_fee_high").bind JsonValue.asU64 = some fee →
    100 * fee.toNat < 2 ^ 63
  /-- The upper number of weeks fits an `i64`. -/
  weeks : ∀ weeks, (analysis.get "estimated_total_weeks_high").bind JsonValue.asU64 =
    some weeks → weeks.toNat < 2 ^ 63
  /-- The text lists hold non-empty texts. -/
  texts : ∀ field ∈ ["assumptions", "risks", "missing_information"], ∀ items,
    (analysis.get field).bind JsonValue.asArray = some items → ∀ item ∈ items, IsText item

/-! ### The parts of an estimate -/

/-- `i64::try_from` accepts the numbers below 2^63 and keeps their value. -/
theorem i64TryFrom_eq_some_iff (value : UInt64) (n : Int) :
    i64TryFrom value = some n ↔ value.toNat < 2 ^ 63 ∧ n = value.toNat := by
  unfold i64TryFrom
  split
  · next h =>
    rw [Option.some.injEq]
    exact ⟨fun hn => ⟨h, hn.symm⟩, fun hn => hn.2.symm⟩
  · next h => exact iff_of_false nofun fun hboth => h hboth.1

/-- `integer` gives the member when it fits an `i64`. -/
theorem integer_eq_ok_iff (object : List (String × JsonValue)) (field : String) (n : Int) :
    integer object field = .ok n ↔
      ∃ value, u64Member object field = some value ∧ value.toNat < 2 ^ 63 ∧
        n = value.toNat := by
  simp only [integer, requiredU64, bind_eq_ok_iff, okOr_eq_ok_iff, i64TryFrom_eq_some_iff]

/-- An item passes when it is a non-empty text. -/
theorem succeeds_stringItem_iff (item : JsonValue) :
    Succeeds (stringItem item) ↔ IsText item := by
  simp only [Succeeds, stringItem, okOr_eq_ok_iff, Option.bind_eq_some_iff,
    nonEmpty_eq_some_iff, IsText]
  constructor
  · rintro ⟨text, value, hvalue, rfl, hne⟩
    cases item with
    | string s =>
      cases hvalue
      exact ⟨_, rfl, hne⟩
    | _ => cases hvalue
  · rintro ⟨text, rfl, hne⟩
    exact ⟨text, text, rfl, rfl, hne⟩

/-- `strings` succeeds on an array of non-empty texts. -/
theorem succeeds_strings_iff (object : List (String × JsonValue)) (field : String) :
    Succeeds (strings object field) ↔
      ∃ items, arrayMember object field = some items ∧ ∀ item ∈ items, IsText item := by
  simp only [strings, succeeds_bind_iff, okOr_eq_ok_iff, succeeds_mapM_iff,
    succeeds_stringItem_iff]

section

variable {object : List (String × JsonValue)} {fields : AnalysisFields}

/-- The condition on an analysis, read off its valid fields. -/
theorem fitsProjection_iff {analysis : JsonValue} (hobject : analysis.asObject = some object)
    (h : ValidFields object fields) :
    FitsProjection analysis ↔
      100 * fields.feeHigh.toNat < 2 ^ 63 ∧ fields.weeksHigh.toNat < 2 ^ 63 ∧
        (∀ item ∈ fields.assumptions, IsText item) ∧ (∀ item ∈ fields.risks, IsText item) ∧
        ∀ item ∈ fields.missing, IsText item := by
  -- The fields that validation read are the ones that the projection reads.
  have hget : ∀ field, analysis.get field = member object field := by
    intro field
    rw [JsonValue.get, hobject, Option.bind_some]
  have hfee : (member object "estimated_total_fee_high").bind JsonValue.asU64 =
      some fields.feeHigh := h.feeHigh
  have hweeks : (member object "estimated_total_weeks_high").bind JsonValue.asU64 =
      some fields.weeksHigh := h.weeksHigh
  have hassumptions : (member object "assumptions").bind JsonValue.asArray =
      some fields.assumptions := h.assumptions
  have hrisks : (member object "risks").bind JsonValue.asArray = some fields.risks := h.risks
  have hmissing : (member object "missing_information").bind JsonValue.asArray =
      some fields.missing := h.missing
  constructor
  · intro hfits
    refine ⟨hfits.fee _ ?_, hfits.weeks _ ?_, hfits.texts "assumptions" (by simp) _ ?_,
      hfits.texts "risks" (by simp) _ ?_, hfits.texts "missing_information" (by simp) _ ?_⟩
    all_goals rw [hget]
    all_goals assumption
  · rintro ⟨hhigh, hweeks', hassumptions', hrisks', hmissing'⟩
    refine ⟨?_, ?_, ?_⟩
    · intro fee h'
      rw [hget, hfee, Option.some.injEq] at h'
      rwa [← h']
    · intro weeks h'
      rw [hget, hweeks, Option.some.injEq] at h'
      rwa [← h']
    · intro field hfield items h'
      rw [hget] at h'
      rcases List.mem_cons.mp hfield with rfl | hfield
      · rw [hassumptions, Option.some.injEq] at h'
        rwa [← h']
      rcases List.mem_cons.mp hfield with rfl | hfield
      · rw [hrisks, Option.some.injEq] at h'
        rwa [← h']
      · rw [List.mem_singleton.mp hfield, hmissing, Option.some.injEq] at h'
        rwa [← h']

variable [CanonicalLib]

/-- On valid fields the estimate renders exactly when the upper bounds fit and the lists
hold texts. The lower bounds are covered by the upper ones. -/
theorem succeeds_estimateOf_iff (record : QuoteRecord) (h : ValidFields object fields) :
    Succeeds (estimateOf record object) ↔
      100 * fields.feeHigh.toNat < 2 ^ 63 ∧ fields.weeksHigh.toNat < 2 ^ 63 ∧
        (∀ item ∈ fields.assumptions, IsText item) ∧ (∀ item ∈ fields.risks, IsText item) ∧
        ∀ item ∈ fields.missing, IsText item := by
  -- The validation ordered both ranges, so that the upper ends decide.
  have hfee : fields.feeLow.toNat ≤ fields.feeHigh.toNat := UInt64.le_iff_toNat_le.mp h.fee_le
  have hweeks : fields.weeksLow.toNat ≤ fields.weeksHigh.toNat :=
    UInt64.le_iff_toNat_le.mp h.weeks_le
  have hpos : fields.weeksLow.toNat ≠ 0 := by
    intro h0
    exact h.weeks_pos (UInt64.toNat_inj.mp h0)
  simp only [estimateOf, requiredU64, requiredString, h.feeLow, h.feeHigh, h.weeksLow,
    h.weeksHigh, h.services, h.currency, h.summary, okOr_some, ok_bind, succeeds_bind_iff,
    cents_eq_ok_iff, integer_eq_ok_iff, succeeds_ite_error_iff, succeeds_pure, and_true,
    exists_and_right, exists_eq_ok_iff, succeeds_strings_iff, h.assumptions, h.risks,
    h.missing, Option.some.injEq, exists_eq_left']
  constructor
  · rintro ⟨_, ⟨-, rfl⟩, _, ⟨hhigh, rfl⟩, _, ⟨-, rfl⟩, _, ⟨hweeks', rfl⟩, -, hrisks, hmissing,
      hassumptions⟩
    exact ⟨hhigh, hweeks', hassumptions, hrisks, hmissing⟩
  · rintro ⟨hhigh, hweeks', hassumptions, hrisks, hmissing⟩
    refine ⟨_, ⟨by omega, rfl⟩, _, ⟨hhigh, rfl⟩, _, ⟨by omega, rfl⟩, _, ⟨hweeks', rfl⟩, ?_,
      hrisks, hmissing, hassumptions⟩
    omega

/-! ### The projections -/

/-- The estimate of a completed quote with a checked analysis renders exactly when the
analysis fits the projection. -/
theorem quoteEstimate_eq_some_iff {record : QuoteRecord} {analysis : JsonValue}
    (hvalid : validateAnalysis analysis = .ok ()) (hstatus : record.status = "completed")
    (hanalysis : record.analysis = some analysis) :
    (∃ estimate, quoteEstimate record = .ok (some estimate)) ↔ FitsProjection analysis := by
  obtain ⟨object, fields, hobject, hfields⟩ := (validateAnalysis_ok_iff analysis).mp hvalid
  have hdone : ¬ (record.status ≠ "completed" ∧ record.status ≠ "ready") := by
    intro h
    exact h.1 hstatus
  rw [fitsProjection_iff hobject hfields, ← succeeds_estimateOf_iff record hfields,
    quoteEstimate, if_neg hdone, hanalysis, Option.bind_some, hobject, okOr_some, ok_bind]
  constructor
  · rintro ⟨estimate, h⟩
    obtain ⟨value, hvalue, -⟩ := (bind_eq_ok_iff _ _ _).mp h
    exact ⟨value, hvalue⟩
  · rintro ⟨estimate, h⟩
    exact ⟨estimate, by rw [h]; rfl⟩

/-- The same for success alone: a completed quote never renders without an estimate. -/
theorem succeeds_quoteEstimate_iff {record : QuoteRecord} {analysis : JsonValue}
    (hvalid : validateAnalysis analysis = .ok ()) (hstatus : record.status = "completed")
    (hanalysis : record.analysis = some analysis) :
    Succeeds (quoteEstimate record) ↔ FitsProjection analysis := by
  rw [← quoteEstimate_eq_some_iff hvalid hstatus hanalysis]
  have hdone : ¬ (record.status ≠ "completed" ∧ record.status ≠ "ready") := by
    intro h
    exact h.1 hstatus
  constructor
  · rintro ⟨estimate?, h⟩
    have h' := h
    rw [quoteEstimate, if_neg hdone] at h'
    obtain ⟨_, -, h'⟩ := (bind_eq_ok_iff _ _ _).mp h'
    obtain ⟨estimate, -, h'⟩ := (bind_eq_ok_iff _ _ _).mp h'
    cases h'
    exact ⟨estimate, h⟩
  · rintro ⟨estimate, h⟩
    exact ⟨some estimate, h⟩

/-- The details render when the status and the estimate do. -/
theorem succeeds_quoteDetail_iff (record : QuoteRecord) :
    Succeeds (quoteDetail record) ↔
      Succeeds (detailStatus record.status) ∧ Succeeds (quoteEstimate record) := by
  simp only [quoteDetail, succeeds_bind_iff, succeeds_pure, and_true, exists_and_right,
    exists_eq_ok_iff]

/-- The summary renders when the status and the estimate do. -/
theorem succeeds_quoteSummary_iff (record : QuoteRecord) :
    Succeeds (quoteSummary record) ↔
      Succeeds (detailStatus record.status) ∧ Succeeds (quoteEstimate record) := by
  simp only [quoteSummary, succeeds_bind_iff, succeeds_pure, and_true, exists_and_right,
    exists_eq_ok_iff]

/-- The status event renders when its stage and the estimate of the quote do. -/
theorem succeeds_quoteStatusEvent_iff (event : QuoteEventRecord) (record : QuoteRecord) :
    Succeeds (quoteStatusEvent event record) ↔
      Succeeds (eventStage event.status) ∧ Succeeds (quoteEstimate record) := by
  simp only [quoteStatusEvent, succeeds_bind_iff, succeeds_pure, and_true, exists_and_right,
    exists_eq_ok_iff]

/-- A page renders exactly when each of its records does: one unreadable record blocks every
page that contains it. -/
theorem succeeds_quoteListResponse_iff (records : List QuoteRecord) (limit : Nat) :
    Succeeds (quoteListResponse records limit) ↔
      ∀ record ∈ records.take limit, Succeeds (quoteSummary record) := by
  have hpage : (if records.length > limit then records.take limit else records) =
      records.take limit := by
    split
    · rfl
    · next h => rw [List.take_of_length_le (by omega)]
  simp only [quoteListResponse, hpage, succeeds_bind_iff, succeeds_pure, and_true,
    exists_eq_ok_iff, succeeds_mapM_iff]

/-- A record as a finished quote worker leaves it: completed, with an analysis that came out
of the model call. -/
def Finished (record : QuoteRecord) : Prop :=
  record.status = "completed" ∧
    ∃ analysis, record.analysis = some analysis ∧ validateAnalysis analysis = .ok ()

/-- The stored analysis of a record fits the projection. -/
def AnalysisFits (record : QuoteRecord) : Prop :=
  ∀ analysis, record.analysis = some analysis → FitsProjection analysis

/-- The completed quotes that can be read back are those whose analysis fits the projection,
and a page of completed quotes can be listed when that holds of each of its records. -/
theorem completed_quote_readable_iff :
    (∀ (analysis : JsonValue) (record : QuoteRecord), validateAnalysis analysis = .ok () →
      record.status = "completed" → record.analysis = some analysis →
      ((∃ estimate, quoteEstimate record = .ok (some estimate)) ↔ FitsProjection analysis) ∧
      (Succeeds (quoteDetail record) ↔ FitsProjection analysis) ∧
      (Succeeds (quoteSummary record) ↔ FitsProjection analysis) ∧
      ∀ event : QuoteEventRecord,
        event.status ∈ ["queued", "analyzing", "completed", "failed"] →
        (Succeeds (quoteStatusEvent event record) ↔ FitsProjection analysis)) ∧
    ∀ (records : List QuoteRecord) (limit : Nat), (∀ record ∈ records, Finished record) →
      (Succeeds (quoteListResponse records limit) ↔
        ∀ record ∈ records.take limit, AnalysisFits record) := by
  -- The status never fails, so each projection succeeds exactly when the estimate does.
  have hstatusOk : Succeeds (detailStatus "completed") := ⟨.ready, rfl⟩
  refine ⟨?_, ?_⟩
  · intro analysis record hvalid hstatus hanalysis
    have hestimate := succeeds_quoteEstimate_iff hvalid hstatus hanalysis
    refine ⟨quoteEstimate_eq_some_iff hvalid hstatus hanalysis, ?_, ?_, ?_⟩
    · rw [succeeds_quoteDetail_iff, hstatus, hestimate]
      exact and_iff_right hstatusOk
    · rw [succeeds_quoteSummary_iff, hstatus, hestimate]
      exact and_iff_right hstatusOk
    · intro event hevent
      have hstage : Succeeds (eventStage event.status) := by
        simp only [List.mem_cons, List.not_mem_nil, or_false] at hevent
        rcases hevent with h | h | h | h
        all_goals rw [h]
        · exact ⟨.queued, rfl⟩
        · exact ⟨.analyzing, rfl⟩
        · exact ⟨.ready, rfl⟩
        · exact ⟨.failed, rfl⟩
      rw [succeeds_quoteStatusEvent_iff, hestimate]
      exact and_iff_right hstage
  · intro records limit hfinished
    rw [succeeds_quoteListResponse_iff]
    -- A page succeeds when each record on it does.
    refine forall₂_congr fun record hmem => ?_
    obtain ⟨hstatus, analysis, hanalysis, hvalid⟩ :=
      hfinished record (List.mem_of_mem_take hmem)
    rw [succeeds_quoteSummary_iff, hstatus, succeeds_quoteEstimate_iff hvalid hstatus hanalysis,
      and_iff_right hstatusOk, AnalysisFits, hanalysis]
    simp

end

/-! ### An analysis that is admitted and cannot be read back -/

/-- An analysis with an empty risk. It passes `validateAnalysis`, which does not look into the
lists. -/
def emptyRiskAnalysis : JsonValue :=
  .object [
    ("assumptions", .array [.string "Existing controls are documented."]),
    ("currency", .string "USD"),
    ("disclaimer", .string "Preliminary estimate."),
    ("estimated_total_fee_high", .number (.posInt 60000)),
    ("estimated_total_fee_low", .number (.posInt 40000)),
    ("estimated_total_weeks_high", .number (.posInt 16)),
    ("estimated_total_weeks_low", .number (.posInt 12)),
    ("missing_information", .array [.string "Asset inventory"]),
    ("recommended_services", .array []),
    ("risks", .array [.string ""]),
    ("summary", .string "A SOC 2 readiness engagement.")]

section

attribute [local instance] fixtureLib

/-- A completed quote with this analysis. -/
def emptyRiskRecord : QuoteRecord where
  analysis := some emptyRiskAnalysis
  contextRecordId := Uuid.nil
  errorCode := none
  geminiModel := "gemini-3-pro-preview"
  ownerSubject := "customer-1"
  persistence := "memory"
  quoteId := ⟨1⟩
  request := fixtureRequest
  status := "completed"
  createdAt := "2026-01-01T00:00:00Z"
  updatedAt := "2026-01-01T00:01:00Z"

/-- `validateAnalysis` admits an empty risk, and the projection of the quote does not. So the
completed quote cannot be read back, and no page with it can be listed. -/
theorem emptyRiskRecord_unreadable :
    (¬ ∀ (analysis : JsonValue) (record : QuoteRecord), validateAnalysis analysis = .ok () →
        record.status = "completed" → record.analysis = some analysis →
        ∃ estimate, quoteEstimate record = .ok (some estimate)) ∧
      ¬ ∀ (records : List QuoteRecord) (limit : Nat), (∀ record ∈ records, Finished record) →
        Succeeds (quoteListResponse records limit) := by
  have hvalid : validateAnalysis emptyRiskAnalysis = .ok () := by decide
  have hfail : quoteEstimate emptyRiskRecord = .error invalidAnalysis := by decide
  refine ⟨?_, ?_⟩
  · intro h
    obtain ⟨estimate, h⟩ := h emptyRiskAnalysis emptyRiskRecord hvalid rfl rfl
    rw [hfail] at h
    cases h
  · intro h
    have h := h [emptyRiskRecord] 20 (by simp [Finished, emptyRiskRecord, hvalid])
    rw [succeeds_quoteListResponse_iff] at h
    have h := h emptyRiskRecord (by simp)
    rw [succeeds_quoteSummary_iff, hfail] at h
    exact not_succeeds_error _ h.2

/-- The theorem at a completed quote whose analysis has an empty risk, and at the page that holds
nothing else. -/
theorem completed_quote_readable_iff_emptyRisk :
    ((∃ estimate, quoteEstimate emptyRiskRecord = .ok (some estimate)) ↔
      FitsProjection emptyRiskAnalysis) ∧
    (Succeeds (quoteListResponse [emptyRiskRecord] 20) ↔
      ∀ record ∈ [emptyRiskRecord], AnalysisFits record) :=
  ⟨(completed_quote_readable_iff.1 emptyRiskAnalysis emptyRiskRecord (by decide) rfl rfl).1,
    completed_quote_readable_iff.2 [emptyRiskRecord] 20
      (by simp only [List.forall_mem_singleton]
          exact ⟨rfl, emptyRiskAnalysis, rfl, by decide⟩)⟩

end

end CanonicalApi
