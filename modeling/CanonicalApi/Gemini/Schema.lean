import CanonicalApi.Gemini
import CanonicalApi.JsonSchema

/-!
# `CanonicalApi.Gemini.Schema`: the schema that is requested and the check that is made

`analysisSchema` is the schema that goes to the model with each request. `validateAnalysis`
walks over the answer by itself. It reads eleven members of the object and looks at the range
of four of them, but neither at the currency that is named nor into the arrays nor for further
members.

`conforms_analysisSchema_iff` spells out what the schema asks, `Unchecked` names the part of it
that the check leaves out, and `conforms_when` proves that this part decides: an accepted
answer conforms exactly when `Unchecked` holds of it.
-/

set_option autoImplicit false

namespace CanonicalApi

open JsonValue (member asStr asU64 asArray textMember u64Member arrayMember nonEmpty
  nonEmpty_eq_some_iff)
open JsonSchema

/-- The names that `analysis_schema` requires of a service. -/
def serviceNames : List String :=
  ["framework", "phase", "scope", "estimated_weeks_low", "estimated_weeks_high",
    "estimated_fee_low", "estimated_fee_high", "confidence", "rationale"]

/-- The schema of an item of `recommended_services`. Each of its members is required, and no other
is allowed. -/
def serviceSchema : JsonValue :=
  closedObject
    [("confidence", oneOf ["low", "medium", "high"]),
      ("estimated_fee_high", integerFrom 0),
      ("estimated_fee_low", integerFrom 0),
      ("estimated_weeks_high", integerFrom 1),
      ("estimated_weeks_low", integerFrom 1),
      ("framework", typed "string"),
      ("phase", typed "string"),
      ("rationale", typed "string"),
      ("scope", typed "string")]
    serviceNames

/-- The names that `analysis_schema` requires of an analysis. -/
def analysisNames : List String :=
  ["summary", "currency", "estimated_total_fee_low", "estimated_total_fee_high",
    "estimated_total_weeks_low", "estimated_total_weeks_high", "recommended_services",
    "assumptions", "risks", "missing_information", "disclaimer"]

/-- `analysis_schema`, the schema that the request hands to the model. Nothing in the service checks
an answer against it. -/
def analysisSchema : JsonValue :=
  closedObject
    [("assumptions", arrayOf (typed "string")),
      ("currency", oneOf ["USD"]),
      ("disclaimer", typed "string"),
      ("estimated_total_fee_high", integerFrom 0),
      ("estimated_total_fee_low", integerFrom 0),
      ("estimated_total_weeks_high", integerFrom 1),
      ("estimated_total_weeks_low", integerFrom 1),
      ("missing_information", arrayOf (typed "string")),
      ("recommended_services", arrayOf serviceSchema),
      ("risks", arrayOf (typed "string")),
      ("summary", typed "string")]
    analysisNames

/-! ### What the schema asks -/

/-- The member `field` is a text. -/
def HasText (object : List (String × JsonValue)) (field : String) : Prop :=
  ∃ text, member object field = some (.string text)

/-- The member `field` is one of the texts. -/
def HasOneOf (object : List (String × JsonValue)) (field : String) (texts : List String) : Prop :=
  ∃ text ∈ texts, member object field = some (.string text)

/-- The member `field` is an integer from `bound` on. -/
def HasInteger (object : List (String × JsonValue)) (field : String) (bound : Int) : Prop :=
  ∃ value n, member object field = some value ∧ JsonSchema.integer value = some n ∧ bound ≤ n

/-- The member `field` is an array of items with the property. -/
def HasItems (object : List (String × JsonValue)) (field : String) (P : JsonValue → Prop) :
    Prop :=
  ∃ items, member object field = some (.array items) ∧ ∀ item ∈ items, P item

/-- The value is a text. -/
def IsString (value : JsonValue) : Prop :=
  ∃ text, value = .string text

/-- The value is a service with exactly the nine members. -/
def IsService (value : JsonValue) : Prop :=
  ∃ object, value = .object object ∧ (∀ m ∈ object, m.1 ∈ serviceNames) ∧
    HasText object "framework" ∧ HasText object "phase" ∧ HasText object "scope" ∧
    HasInteger object "estimated_weeks_low" 1 ∧ HasInteger object "estimated_weeks_high" 1 ∧
    HasInteger object "estimated_fee_low" 0 ∧ HasInteger object "estimated_fee_high" 0 ∧
    HasOneOf object "confidence" ["low", "medium", "high"] ∧ HasText object "rationale"

section

variable (object : List (String × JsonValue)) (field : String)

/-- The schema of a text member asks what the code asks. -/
theorem hasText_iff :
    (∃ item, member object field = some item ∧ conforms (typed "string") item = true) ↔
      HasText object field := by
  simp only [conforms_text_iff, HasText]
  constructor
  · rintro ⟨_, hmember, text, rfl⟩
    exact ⟨text, hmember⟩
  · rintro ⟨text, hmember⟩
    exact ⟨_, hmember, text, rfl⟩

/-- The schema of an enumerated member asks what the code asks. -/
theorem hasOneOf_iff (texts : List String) :
    (∃ item, member object field = some item ∧ conforms (oneOf texts) item = true) ↔
      HasOneOf object field texts := by
  simp only [conforms_oneOf_iff, HasOneOf]
  constructor
  · rintro ⟨_, hmember, text, htext, rfl⟩
    exact ⟨text, htext, hmember⟩
  · rintro ⟨text, htext, hmember⟩
    exact ⟨_, hmember, text, htext, rfl⟩

/-- The schema of an integer with a minimum asks what the code asks. -/
theorem hasInteger_iff (bound : UInt64) :
    (∃ item, member object field = some item ∧ conforms (integerFrom bound) item = true) ↔
      HasInteger object field bound.toNat := by
  simp only [conforms_integerFrom_iff, HasInteger]
  constructor
  · rintro ⟨item, hmember, n, hn, hle⟩
    exact ⟨item, n, hmember, hn, hle⟩
  · rintro ⟨item, n, hmember, hn, hle⟩
    exact ⟨item, hmember, n, hn, hle⟩

/-- The schema of a list asks what the code asks, item by item. -/
theorem hasItems_iff (schema : JsonValue) :
    (∃ item, member object field = some item ∧ conforms (arrayOf schema) item = true) ↔
      HasItems object field fun item => conforms schema item = true := by
  simp only [conforms_arrayOf_iff, HasItems]
  constructor
  · rintro ⟨_, hmember, items, rfl, hitems⟩
    exact ⟨items, hmember, hitems⟩
  · rintro ⟨items, hmember, hitems⟩
    exact ⟨_, hmember, items, rfl, hitems⟩

end

/-- The schema of an item of the other lists. -/
theorem conforms_isString_iff (value : JsonValue) :
    conforms (typed "string") value = true ↔ IsString value :=
  conforms_text_iff value

/-- The schema of a service. -/
theorem conforms_serviceSchema_iff (value : JsonValue) :
    conforms serviceSchema value = true ↔ IsService value := by
  rw [serviceSchema, conforms_closedObject_iff value (by decide) (by decide), IsService]
  refine exists_congr fun object => and_congr_right fun _ => and_congr_right fun _ => ?_
  simp only [List.forall_mem_cons, hasText_iff, hasOneOf_iff, hasInteger_iff]
  simp
  tauto

/-- The schema of an analysis. -/
theorem conforms_analysisSchema_iff (value : JsonValue) :
    conforms analysisSchema value = true ↔
      ∃ object, value = .object object ∧ (∀ m ∈ object, m.1 ∈ analysisNames) ∧
        HasText object "summary" ∧ HasOneOf object "currency" ["USD"] ∧
        HasInteger object "estimated_total_fee_low" 0 ∧
        HasInteger object "estimated_total_fee_high" 0 ∧
        HasInteger object "estimated_total_weeks_low" 1 ∧
        HasInteger object "estimated_total_weeks_high" 1 ∧
        HasItems object "recommended_services" IsService ∧
        HasItems object "assumptions" IsString ∧ HasItems object "risks" IsString ∧
        HasItems object "missing_information" IsString ∧ HasText object "disclaimer" := by
  -- A closed object conforms when its members are listed and each field does.
  rw [analysisSchema, conforms_closedObject_iff value (by decide) (by decide)]
  refine exists_congr fun object => and_congr_right fun _ => and_congr_right fun _ => ?_
  simp only [List.forall_mem_cons, hasText_iff, hasOneOf_iff, hasInteger_iff, hasItems_iff]
  simp only [conforms_serviceSchema_iff, conforms_isString_iff]
  simp
  tauto

/-! ### What the check leaves out -/

/-- What the schema asks of an analysis and `validateAnalysis` does not look at. An answer that
violates one of these is accepted all the same. -/
structure Unchecked (object : List (String × JsonValue)) (fields : AnalysisFields) : Prop where
  listed : ∀ m ∈ object, m.1 ∈ analysisNames
  currency : fields.currency = "USD"
  services : ∀ service ∈ fields.services, IsService service
  assumptions : ∀ item ∈ fields.assumptions, IsString item
  risks : ∀ item ∈ fields.risks, IsString item
  missing : ∀ item ∈ fields.missing, IsString item

section

variable {object : List (String × JsonValue)} {field : String}

/-- A text that was checked. -/
theorem member_of_textMember {text : String} (h : textMember object field = some text) :
    member object field = some (.string text) := by
  obtain ⟨read, hread, hne⟩ := Option.bind_eq_some_iff.mp h
  obtain ⟨value, hvalue, hstr⟩ := Option.bind_eq_some_iff.mp hread
  obtain ⟨rfl, -⟩ := (nonEmpty_eq_some_iff _ _).mp hne
  cases value with
  | string s =>
    cases hstr
    exact hvalue
  | _ => cases hstr

/-- A number that was checked. -/
theorem hasInteger_of_u64Member {n : UInt64} {bound : Int} (h : u64Member object field = some n)
    (hbound : bound ≤ n.toNat) : HasInteger object field bound := by
  obtain ⟨value, hvalue, hread⟩ := Option.bind_eq_some_iff.mp h
  have hinteger : JsonSchema.integer value = some (n.toNat : Int) := by
    cases value with
    | number number =>
      cases number with
      | posInt m =>
        cases hread
        rfl
      | _ => cases hread
    | _ => cases hread
  exact ⟨value, n.toNat, hvalue, hinteger, hbound⟩

/-- The items of an array that was checked. -/
theorem hasItems_iff_of_arrayMember {items : List JsonValue} {P : JsonValue → Prop}
    (h : arrayMember object field = some items) :
    HasItems object field P ↔ ∀ item ∈ items, P item := by
  obtain ⟨value, hvalue, hread⟩ := Option.bind_eq_some_iff.mp h
  have harray : value = .array items := by
    cases value with
    | array items' =>
      cases hread
      rfl
    | _ => cases hread
  simp [HasItems, hvalue, harray]

end

/-- Of valid fields, the rest of the schema is what the check leaves out. -/
theorem conforms_iff_unchecked {object : List (String × JsonValue)} {fields : AnalysisFields}
    (h : ValidFields object fields) :
    conforms analysisSchema (.object object) = true ↔ Unchecked object fields := by
  have hsummary : HasText object "summary" := ⟨_, member_of_textMember h.summary⟩
  have hdisclaimer : HasText object "disclaimer" := ⟨_, member_of_textMember h.disclaimer⟩
  have hcurrency : HasOneOf object "currency" ["USD"] ↔ fields.currency = "USD" := by
    simp [HasOneOf, member_of_textMember h.currency]
  -- What the validation has checked meets the schema.
  have hweeks : 1 ≤ fields.weeksLow.toNat := by
    have hne : fields.weeksLow.toNat ≠ 0 := fun h0 => h.weeks_pos (UInt64.toNat_inj.mp h0)
    omega
  have hweeks' : fields.weeksLow.toNat ≤ fields.weeksHigh.toNat := h.weeks_le
  have hfeeLow := hasInteger_of_u64Member h.feeLow (show (0 : Int) ≤ _ by omega)
  have hfeeHigh := hasInteger_of_u64Member h.feeHigh (show (0 : Int) ≤ _ by omega)
  have hweeksLow := hasInteger_of_u64Member h.weeksLow (show (1 : Int) ≤ _ by omega)
  have hweeksHigh := hasInteger_of_u64Member h.weeksHigh (show (1 : Int) ≤ _ by omega)
  simp only [conforms_analysisSchema_iff, JsonValue.object.injEq, exists_eq_left', hsummary,
    hdisclaimer, hcurrency, hfeeLow, hfeeHigh, hweeksLow, hweeksHigh,
    hasItems_iff_of_arrayMember h.services, hasItems_iff_of_arrayMember h.assumptions,
    hasItems_iff_of_arrayMember h.risks, hasItems_iff_of_arrayMember h.missing, true_and, and_true]
  -- The rest of the schema is what the validation leaves out.
  constructor
  · rintro ⟨hlisted, husd, hservices, hassumptions, hrisks, hmissing⟩
    exact ⟨hlisted, husd, hservices, hassumptions, hrisks, hmissing⟩
  · intro hrest
    exact ⟨hrest.listed, hrest.currency, hrest.services, hrest.assumptions, hrest.risks,
      hrest.missing⟩

/-- An analysis that passes the check conforms to the schema exactly when the part holds that
the check leaves out: no further members, dollars, services with their nine members, and lists
of texts. -/
theorem conforms_when (analysis : JsonValue) :
    (validateAnalysis analysis = .ok () → conforms analysisSchema analysis = true) ↔
      ∀ object fields, analysis = .object object → ValidFields object fields →
        Unchecked object fields := by
  constructor
  · rintro hconforms object fields rfl hvalid
    have hok : validateAnalysis (.object object) = .ok () :=
      (validateAnalysis_ok_iff _).mpr ⟨object, fields, rfl, hvalid⟩
    exact (conforms_iff_unchecked hvalid).mp (hconforms hok)
  · intro hunchecked hok
    obtain ⟨object, fields, hobject, hvalid⟩ := (validateAnalysis_ok_iff analysis).mp hok
    cases analysis with
    | object members =>
      cases hobject
      exact (conforms_iff_unchecked hvalid).mpr (hunchecked _ fields rfl hvalid)
    | _ => cases hobject

/-- An answer in euros, with a text in place of a service, a number in a list of texts and a
member that no one asked for. -/
def looseAnalysis : JsonValue :=
  .object
    [("assumptions", .array [.number (.posInt 1)]),
      ("currency", .string "EUR"),
      ("disclaimer", .string "Preliminary"),
      ("estimated_total_fee_high", .number (.posInt 20)),
      ("estimated_total_fee_low", .number (.posInt 10)),
      ("estimated_total_weeks_high", .number (.posInt 4)),
      ("estimated_total_weeks_low", .number (.posInt 2)),
      ("missing_information", .array []),
      ("notes", .null),
      ("recommended_services", .array [.string "audit"]),
      ("risks", .array []),
      ("summary", .string "A quote")]

/-- The answer of the fixture passes the check, which looks at the types of the members that it
knows and at their ranges. It does not conform to the schema that was sent to the model. -/
theorem conforms_fails :
    validateAnalysis looseAnalysis = .ok () ∧ conforms analysisSchema looseAnalysis = false := by
  decide +kernel

end CanonicalApi
