import CanonicalApi.Readable
import Mathlib.Algebra.Group.Int.Defs

/-!
# `CanonicalApi.Estimate`: what an estimate says of its analysis

`quoteEstimate` reads an analysis, which is untrusted JSON, and computes prices from it.
`Describes` says of each field of an estimate what it is, in terms of the members of the
analysis and without the steps of the code: the fees as integers, the lists as lists of texts,
the next steps as the services that have both of their texts, the confidence as a statement
about all services.

`quote_estimate_describes` proves it for every record.
-/

set_option autoImplicit false

namespace CanonicalApi

open JsonValue (member nonEmpty u64Member arrayMember nonEmpty_eq_some_iff)
open Outcome

/-! ### The lists -/

/-- The member `field` is an array of the texts, and none of them is empty. -/
def HasTexts (object : List (String × JsonValue)) (field : String) (texts : List String) : Prop :=
  member object field = some (.array (texts.map .string)) ∧ ∀ text ∈ texts, text ≠ ""

/-- A text of a service without the blanks around it, or nothing. -/
def serviceText (service : JsonValue) (field : String) : String :=
  trim (((service.get field).bind JsonValue.asStr).getD "")

/-- The service has a phase and a scope that are not blank. -/
def hasStep (service : JsonValue) : Bool :=
  serviceText service "phase" ≠ "" && serviceText service "scope" ≠ ""

/-- The step of a service. -/
def stepText (service : JsonValue) : String :=
  serviceText service "phase" ++ ": " ++ serviceText service "scope"

/-- The service states the confidence. -/
def States (service : JsonValue) (confidence : String) : Prop :=
  service.get "confidence" = some (.string confidence)

/-- The estimate says what the analysis `object` says. -/
structure Describes (object : List (String × JsonValue)) (e : QuoteEstimate) : Prop where
  fees : ∃ low high, u64Member object "estimated_total_fee_low" = some low ∧
    u64Member object "estimated_total_fee_high" = some high ∧
    e.lowerBoundCents = 100 * (low.toNat : Int) ∧ e.upperBoundCents = 100 * (high.toNat : Int)
  bounds : 0 ≤ e.lowerBoundCents ∧ e.lowerBoundCents ≤ e.upperBoundCents ∧
    e.upperBoundCents < 2 ^ 63
  weeks : ∃ low high, u64Member object "estimated_total_weeks_low" = some low ∧
    u64Member object "estimated_total_weeks_high" = some high ∧
    e.durationWeeksLow = (low.toNat : Int) ∧ e.durationWeeksHigh = (high.toNat : Int)
  duration : 1 ≤ e.durationWeeksLow ∧ e.durationWeeksLow ≤ e.durationWeeksHigh ∧
    e.durationWeeksHigh < 2 ^ 63
  gaps : ∃ risks missing, HasTexts object "risks" risks ∧
    HasTexts object "missing_information" missing ∧ e.gaps = (risks ++ missing).take 50
  assumptions : HasTexts object "assumptions" e.assumptions
  services : ∃ services, arrayMember object "recommended_services" = some services ∧
    e.nextSteps = (if services.filter hasStep = [] then
      ["Review the preliminary estimate with Canonical."]
      else ((services.filter hasStep).take 25).map stepText) ∧
    (e.confidence = "low" ↔ ∃ service ∈ services, States service "low") ∧
    (e.confidence = "high" ↔ (∃ service ∈ services, ∃ c, States service c) ∧
      ∀ service ∈ services, ∀ c, States service c → c = "high") ∧
    (e.confidence = "low" ∨ e.confidence = "medium" ∨ e.confidence = "high")

section

variable {object : List (String × JsonValue)} {field : String}

/-- An item of a list of texts is a text, which is not empty. -/
theorem stringItem_eq_ok_iff (item : JsonValue) (text : String) :
    stringItem item = .ok text ↔ item = .string text ∧ text ≠ "" := by
  simp only [stringItem, okOr_eq_ok_iff, Option.bind_eq_some_iff, nonEmpty_eq_some_iff]
  cases item <;> simp [JsonValue.asStr]

/-- `strings` gives the texts of an array, unchanged and in their order. -/
theorem strings_eq_ok_iff (texts : List String) :
    strings object field = .ok texts ↔ HasTexts object field texts := by
  have hitems : ∀ (items : List JsonValue) (texts : List String),
      items.mapM stringItem = .ok texts ↔
        items = texts.map .string ∧ ∀ text ∈ texts, text ≠ "" := by
    intro items
    -- The loop stops at the first item that is no text or empty.
    induction items with
    | nil =>
      intro texts
      rw [List.mapM_nil]
      cases texts with
      | nil => simp [pure, Except.pure]
      | cons text texts => simp [pure, Except.pure]
    | cons item items ih =>
      intro texts
      rw [List.mapM_cons, bind_eq_ok_iff]
      simp only [stringItem_eq_ok_iff, bind_eq_ok_iff, ih, pure, Except.pure, Except.ok.injEq]
      cases texts with
      | nil => simp
      | cons text texts =>
        constructor
        · rintro ⟨text', ⟨rfl, hne⟩, texts', ⟨rfl, hall⟩, heq⟩
          cases heq
          exact ⟨rfl, List.forall_mem_cons.mpr ⟨hne, hall⟩⟩
        · rintro ⟨heq, hall⟩
          obtain ⟨hne, hall⟩ := List.forall_mem_cons.mp hall
          cases heq
          exact ⟨text, ⟨rfl, hne⟩, texts, ⟨rfl, hall⟩, rfl⟩
  rw [strings, bind_eq_ok_iff]
  simp only [okOr_eq_ok_iff, hitems, HasTexts, arrayMember, Option.bind_eq_some_iff]
  constructor
  · rintro ⟨items, ⟨value, hvalue, harray⟩, rfl, hall⟩
    cases value with
    | array items =>
      cases harray
      exact ⟨hvalue, hall⟩
    | _ => cases harray
  · rintro ⟨hvalue, hall⟩
    exact ⟨_, ⟨_, hvalue, rfl⟩, rfl, hall⟩

/-! ### The services -/

/-- A text of a service, with a blank text and no text alike. -/
theorem nextStep_eq (service : JsonValue) :
    nextStep service = if hasStep service then some (stepText service) else none := by
  have htrim : trim "" = "" := rfl
  cases hservice : service.asObject with
  | none => simp [nextStep, hasStep, serviceText, JsonValue.get, hservice, htrim]
  | some members =>
    -- A service without a phase, or without a scope, has no step: the member is missing or no text.
    cases hphase : (member members "phase").bind JsonValue.asStr with
    | none =>
      have hnone : nextStep service = none := by
        unfold nextStep
        rw [hservice]
        cases hmember : member members "phase" with
        | none => simp [hmember]
        | some value =>
          rw [hmember, Option.bind_some] at hphase
          simp [hmember, hphase]
      simp [hnone, hasStep, serviceText, JsonValue.get, hservice, hphase, htrim]
    | some phase =>
      obtain ⟨phaseValue, hphaseMember, hphaseText⟩ := Option.bind_eq_some_iff.mp hphase
      cases hscope : (member members "scope").bind JsonValue.asStr with
      | none =>
        have hnone : nextStep service = none := by
          unfold nextStep
          rw [hservice]
          cases hmember : member members "scope" with
          | none => simp [hphaseMember, hmember]
          | some value =>
            rw [hmember, Option.bind_some] at hscope
            simp [hphaseMember, hmember, hscope]
        simp [hnone, hasStep, serviceText, JsonValue.get, hservice, hscope, htrim]
      | some scope =>
        obtain ⟨scopeValue, hscopeMember, hscopeText⟩ := Option.bind_eq_some_iff.mp hscope
        simp [nextStep, hasStep, stepText, serviceText, JsonValue.get, hservice, hphaseMember,
          hphaseText, hscopeMember, hscopeText]

/-- The next steps are those of the first 25 services that have one. -/
theorem nextSteps_eq (services : List JsonValue) :
    nextSteps services = if services.filter hasStep = [] then
      ["Review the preliminary estimate with Canonical."]
      else ((services.filter hasStep).take 25).map stepText := by
  -- The services that have no step are left out.
  have hsteps : services.filterMap nextStep = (services.filter hasStep).map stepText := by
    induction services with
    | nil => rfl
    | cons service services ih =>
      by_cases hstep : hasStep service = true
      · have hsome : nextStep service = some (stepText service) := by
          rw [nextStep_eq, if_pos hstep]
        rw [List.filterMap_cons_some hsome, List.filter_cons, if_pos hstep, List.map_cons, ih]
      · have hnone : nextStep service = none := by rw [nextStep_eq, if_neg hstep]
        rw [List.filterMap_cons_none hnone, List.filter_cons, if_neg hstep, ih]
  have hnil : (services.filter hasStep).take 25 = [] ↔ services.filter hasStep = [] := by
    simp [List.take_eq_nil_iff]
  unfold nextSteps
  simp only [hsteps, ← List.map_take, List.map_eq_nil_iff, hnil]

/-- The texts that the services state. -/
theorem mem_confidence_iff {services : List JsonValue} {c : String} :
    c ∈ (services.filterMap fun service => (service.get "confidence").bind JsonValue.asStr) ↔
      ∃ service ∈ services, States service c := by
  simp only [List.mem_filterMap, Option.bind_eq_some_iff, States]
  constructor
  · rintro ⟨service, hservice, value, hvalue, htext⟩
    cases value with
    | string text =>
      cases htext
      exact ⟨service, hservice, hvalue⟩
    | _ => cases htext
  · rintro ⟨service, hservice, hvalue⟩
    exact ⟨service, hservice, _, hvalue, rfl⟩

/-- `aggregate_confidence`: low when one service says so, high when all that say something say
high, medium otherwise. -/
theorem aggregateConfidence_cases (services : List JsonValue) :
    (aggregateConfidence services = "low" ↔ ∃ service ∈ services, States service "low") ∧
    (aggregateConfidence services = "high" ↔
      (∃ service ∈ services, ∃ c, States service c) ∧
        ∀ service ∈ services, ∀ c, States service c → c = "high") ∧
    (aggregateConfidence services = "low" ∨ aggregateConfidence services = "medium" ∨
      aggregateConfidence services = "high") := by
  unfold aggregateConfidence
  simp only [← mem_confidence_iff]
  -- Both conditions are about the list of the stated confidences.
  have hstated : (∃ service ∈ services, ∃ c, States service c) ↔
      (services.filterMap fun service =>
        (service.get "confidence").bind JsonValue.asStr) ≠ [] := by
    constructor
    · rintro ⟨service, hservice, c, hc⟩
      exact List.ne_nil_of_mem (mem_confidence_iff.mpr ⟨service, hservice, hc⟩)
    · intro hne
      obtain ⟨c, hc⟩ := List.exists_mem_of_ne_nil _ hne
      obtain ⟨service, hservice, hc⟩ := mem_confidence_iff.mp hc
      exact ⟨service, hservice, c, hc⟩
  have hall : (∀ service ∈ services, ∀ c, States service c → c = "high") ↔
      ∀ c ∈ (services.filterMap fun service =>
        (service.get "confidence").bind JsonValue.asStr), c = "high" := by
    simp only [mem_confidence_iff]
    exact ⟨fun h c ⟨s, hs, hc⟩ => h s hs c hc, fun h s hs c hc => h c ⟨s, hs, hc⟩⟩
  rw [hstated, hall]
  generalize (services.filterMap fun service =>
    (service.get "confidence").bind JsonValue.asStr) = stated
  -- The three branches of the code.
  by_cases hlow : "low" ∈ stated
  · have hnot : ¬ ∀ c ∈ stated, c = "high" := fun h => absurd (h "low" hlow) (by decide)
    simp [hlow, hnot]
  · by_cases hhigh : stated ≠ [] ∧ ∀ c ∈ stated, c = "high"
    · rw [if_neg hlow, if_pos hhigh]
      exact ⟨⟨fun h => absurd h (by decide), fun h => absurd h hlow⟩,
        ⟨fun _ => hhigh, fun _ => rfl⟩, .inr (.inr rfl)⟩
    · rw [if_neg hlow, if_neg hhigh]
      exact ⟨⟨fun h => absurd h (by decide), fun h => absurd h hlow⟩,
        ⟨fun h => absurd h (by decide), fun h => absurd h hhigh⟩, .inr (.inl rfl)⟩

end

/-! ### The estimate -/

section

variable [CanonicalLib]

/-- An estimate describes its analysis. -/
theorem estimateOf_describes {record : QuoteRecord} {object : List (String × JsonValue)}
    {e : QuoteEstimate} (h : estimateOf record object = .ok e) : Describes object e := by
  unfold estimateOf requiredU64 at h
  simp only [bind_eq_ok_iff, okOr_eq_ok_iff, cents_eq_ok_iff, integer_eq_ok_iff,
    ite_error_eq_ok_iff, strings_eq_ok_iff, pure, Except.pure, Except.ok.injEq] at h
  -- Each field of the estimate was read in one of the steps that succeeded.
  obtain ⟨feeLow, hfeeLow, feeHigh, hfeeHigh, lower, ⟨hlower, rfl⟩, upper, ⟨hupper, rfl⟩,
    weeksLow, ⟨_, hweeksLow, -, rfl⟩, weeksHigh, ⟨_, hweeksHigh, hhigh, rfl⟩, hrange, services,
    hservices, risks, hrisks, missing, hmissing, currency, -, summary, -, assumptions,
    hassumptions, rfl⟩ := h
  obtain ⟨hlow, hhighc, hcases⟩ := aggregateConfidence_cases services
  constructor
  · exact ⟨feeLow, feeHigh, hfeeLow, hfeeHigh, rfl, rfl⟩
  · show 0 ≤ 100 * (feeLow.toNat : Int) ∧ 100 * (feeLow.toNat : Int) ≤ 100 * feeHigh.toNat ∧
      100 * (feeHigh.toNat : Int) < 2 ^ 63
    omega
  · exact ⟨_, _, hweeksLow, hweeksHigh, rfl, rfl⟩
  · dsimp only
    omega
  · exact ⟨risks, missing, hrisks, hmissing, rfl⟩
  · exact hassumptions
  · exact ⟨services, hservices, nextSteps_eq services, hlow, hhighc, hcases⟩

/-- The estimate of a record. There is none exactly when the quote is not finished. Otherwise
the record has an analysis, which is an object, and the estimate describes it. -/
theorem quote_estimate_describes (record : QuoteRecord) :
    (quoteEstimate record = .ok none ↔
      record.status ≠ "completed" ∧ record.status ≠ "ready") ∧
    ∀ e, quoteEstimate record = .ok (some e) →
      ∃ object, record.analysis = some (.object object) ∧ Describes object e := by
  by_cases hopen : record.status ≠ "completed" ∧ record.status ≠ "ready"
  · have hnone : quoteEstimate record = .ok none := by rw [quoteEstimate, if_pos hopen]
    refine ⟨⟨fun _ => hopen, fun _ => hnone⟩, fun e he => ?_⟩
    rw [hnone] at he
    cases he
  · -- On a finished quote the projection returns an estimate or fails, but never nothing.
    have hsome : ∀ e?, quoteEstimate record = .ok e? → ∃ object e, e? = some e ∧
        record.analysis.bind JsonValue.asObject = some object ∧
          estimateOf record object = .ok e := by
      intro e? he
      rw [quoteEstimate, if_neg hopen, bind_eq_ok_iff] at he
      obtain ⟨object, hobject, he⟩ := he
      obtain ⟨e, hestimate, he⟩ := (bind_eq_ok_iff _ _ _).mp he
      cases he
      exact ⟨object, e, rfl, (okOr_eq_ok_iff _ _ _).mp hobject, hestimate⟩
    refine ⟨⟨fun hnone => ?_, fun h => absurd h hopen⟩, fun e he => ?_⟩
    · obtain ⟨_, _, heq, -⟩ := hsome none hnone
      cases heq
    · obtain ⟨object, e', heq, hobject, hestimate⟩ := hsome (some e) he
      cases heq
      obtain ⟨analysis, hanalysis, hasObject⟩ := Option.bind_eq_some_iff.mp hobject
      -- An analysis that is no object was refused.
      cases analysis with
      | object members =>
        cases hasObject
        exact ⟨_, hanalysis, estimateOf_describes hestimate⟩
      | _ => cases hasObject

end

end CanonicalApi
