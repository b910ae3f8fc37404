import CanonicalApi.Json

/-!
# `CanonicalApi.JsonSchema`: conformance of a JSON value to a JSON schema

A schema is itself a JSON value. `conforms` evaluates the keywords `type`, `enum`, `minimum`,
`items`, `properties`, `required` and `additionalProperties` of it. A keyword that speaks about
another kind of value than the one at hand holds, and an unknown keyword holds too.

An integer is a number without fraction and exponent, so a float is none. The bound of a
`minimum` is compared with integers only: where it stands beside `"type": "integer"`, a float
fails at the type.

The lemmas say what the schemas mean that a client writes most: a text, a text of a list, an
integer from a bound on, an array of one kind of items, and an object with a closed list of
required properties.
-/

set_option autoImplicit false

namespace CanonicalApi.JsonSchema

open JsonValue (member)

/-- The value is of the type with this name. An integer is a number too, and a float is never an
integer here, whatever its value. -/
def hasType (type : String) : JsonValue → Bool
  | .null => type = "null"
  | .bool _ => type = "boolean"
  | .number (.float _) => type = "number"
  | .number _ => type = "integer" || type = "number"
  | .string _ => type = "string"
  | .array _ => type = "array"
  | .object _ => type = "object"

/-- The integer that a value is. -/
def integer : JsonValue → Option Int
  | .number (.posInt n) => some n.toNat
  | .number (.negInt n) => some n
  | _ => none

/-- An integer value is not below an integer bound. -/
def atLeast (bound value : JsonValue) : Bool :=
  match integer bound, integer value with
  | some b, some n => b ≤ n
  | _, _ => true

/-- All names of the array are members of the object. -/
def requires (names : JsonValue) : JsonValue → Bool
  | .object members => (names.asArray.getD []).all fun name =>
      name.asStr.any fun name => (member members name).isSome
  | _ => true

/-- All members of the object are properties of the schema. -/
def closed (schema : List (String × JsonValue)) (value : JsonValue) : Bool :=
  let properties := ((member schema "properties").bind JsonValue.asObject).getD []
  (value.asObject.getD []).all fun m => m.1 ∈ properties.map Prod.fst

/-- What a keyword asks of a value, apart from the schemas inside its argument. A keyword that is
not listed asks nothing. -/
def asserts (schema : List (String × JsonValue)) (keyword : String) (argument value : JsonValue) :
    Bool :=
  if keyword = "type" then argument.asStr.any fun type => hasType type value
  else if keyword = "enum" then value ∈ argument.asArray.getD []
  else if keyword = "minimum" then atLeast argument value
  else if keyword = "required" then requires argument value
  else if keyword = "additionalProperties" then argument ≠ .bool false || closed schema value
  else true

mutual

/-- The value conforms to the schema. -/
def conforms : (schema value : JsonValue) → Bool
  | .bool b, _ => b
  | .object keywords, value => keywordsHold keywords keywords value
  | _, _ => false

/-- The value conforms to each of the keywords of `schema` that are listed. The schema itself is
there for `additionalProperties`, which looks at its neighbour `properties`. -/
def keywordsHold (schema : List (String × JsonValue)) :
    List (String × JsonValue) → JsonValue → Bool
  | [], _ => true
  | (keyword, argument) :: keywords, value =>
      asserts schema keyword argument value &&
      (keyword ≠ "items" || (value.asArray.getD []).all fun item => conforms argument item) &&
      (keyword ≠ "properties" || propertiesHold argument (value.asObject.getD [])) &&
      keywordsHold schema keywords value

/-- The members conform to the schemas that the argument of `properties` gives for them. -/
def propertiesHold : JsonValue → List (String × JsonValue) → Bool
  | .object properties, members => eachHolds properties members
  | _, _ => true

/-- The members conform to the schemas that are listed for them. -/
def eachHolds : List (String × JsonValue) → List (String × JsonValue) → Bool
  | [], _ => true
  | (name, schema) :: properties, members =>
      ((member members name).all fun value => conforms schema value) &&
      eachHolds properties members

end

/-- Each listed property holds of the member with its name, if there is one. -/
theorem eachHolds_iff (properties members : List (String × JsonValue)) :
    eachHolds properties members = true ↔
      ∀ p ∈ properties, ∀ value, member members p.1 = some value → conforms p.2 value = true := by
  induction properties with
  | nil => simp [eachHolds]
  | cons p properties ih =>
    rw [eachHolds, Bool.and_eq_true, ih, List.forall_mem_cons, Option.all_eq_true_iff_get]
    refine and_congr_left fun _ => ?_
    cases h : member members p.1 with
    | none => simp
    | some value => simp

/-! ### The schemas in use -/

/-- `{"type": type}`. -/
def typed (type : String) : JsonValue :=
  .object [("type", .string type)]

/-- `{"type": "string", "enum": [..]}`. -/
def oneOf (texts : List String) : JsonValue :=
  .object [("enum", .array (texts.map .string)), ("type", .string "string")]

/-- `{"type": "integer", "minimum": bound}`. -/
def integerFrom (bound : UInt64) : JsonValue :=
  .object [("minimum", .number (.posInt bound)), ("type", .string "integer")]

/-- `{"type": "array", "items": schema}`. -/
def arrayOf (schema : JsonValue) : JsonValue :=
  .object [("items", schema), ("type", .string "array")]

/-- `{"type": "object", "additionalProperties": false, ..}`. -/
def closedObject (properties : List (String × JsonValue)) (required : List String) : JsonValue :=
  .object [("additionalProperties", .bool false), ("properties", .object properties),
    ("required", .array (required.map .string)), ("type", .string "object")]

section

variable (value : JsonValue)

/-- The values of type string are the texts. -/
theorem conforms_text_iff : conforms (typed "string") value = true ↔
    ∃ text, value = .string text := by
  cases value with
  | number n => cases n <;> simp [typed, conforms, keywordsHold, asserts, hasType, JsonValue.asStr]
  | _ => simp [typed, conforms, keywordsHold, asserts, hasType, JsonValue.asStr]

/-- The values of an enumeration of texts are these texts. -/
theorem conforms_oneOf_iff (texts : List String) : conforms (oneOf texts) value = true ↔
    ∃ text ∈ texts, value = .string text := by
  cases value with
  | number n => cases n <;> simp [oneOf, conforms, keywordsHold, asserts, hasType, JsonValue.asStr]
  | _ => simp [oneOf, conforms, keywordsHold, asserts, hasType, JsonValue.asStr, JsonValue.asArray]

/-- The values of type integer with a minimum are the integers from this minimum on. -/
theorem conforms_integerFrom_iff (bound : UInt64) : conforms (integerFrom bound) value = true ↔
    ∃ n, integer value = some n ∧ bound.toNat ≤ n := by
  cases value with
  | number n =>
    cases n <;> simp [integerFrom, conforms, keywordsHold, asserts, hasType, atLeast, integer,
      JsonValue.asStr]
  | _ => simp [integerFrom, conforms, keywordsHold, asserts, hasType, integer, JsonValue.asStr]

/-- The values of an array schema are the arrays whose items all conform to the item schema. -/
theorem conforms_arrayOf_iff (schema : JsonValue) : conforms (arrayOf schema) value = true ↔
    ∃ items, value = .array items ∧ ∀ item ∈ items, conforms schema item = true := by
  cases value with
  | number n =>
    cases n <;> simp [arrayOf, conforms, keywordsHold, asserts, hasType, JsonValue.asStr]
  | _ =>
    simp [arrayOf, conforms, keywordsHold, asserts, hasType, JsonValue.asStr, JsonValue.asArray]

/-- An object with a closed list of properties, all of them required, has exactly these. -/
theorem conforms_closedObject_iff {properties : List (String × JsonValue)} {required : List String}
    (hall : ∀ p ∈ properties, p.1 ∈ required)
    (hlisted : ∀ name ∈ required, name ∈ properties.map Prod.fst) :
    conforms (closedObject properties required) value = true ↔
      ∃ members, value = .object members ∧
        (∀ m ∈ members, m.1 ∈ required) ∧
        ∀ p ∈ properties, ∃ item, member members p.1 = some item ∧ conforms p.2 item = true := by
  cases value with
  | object members =>
    have hnames : ∀ name, name ∈ properties.map Prod.fst ↔ name ∈ required :=
      fun name => ⟨fun h => by obtain ⟨p, hp, rfl⟩ := List.mem_map.mp h; exact hall p hp,
        hlisted name⟩
    -- Each keyword of the schema asks for one part of the right-hand side.
    have hclosed : closed [("additionalProperties", .bool false),
        ("properties", .object properties), ("required", .array (required.map .string)),
        ("type", .string "object")] (.object members) = true ↔ ∀ m ∈ members, m.1 ∈ required := by
      show (members.all fun m => decide (m.1 ∈ properties.map Prod.fst)) = true ↔ _
      simp only [List.all_eq_true, decide_eq_true_eq, hnames]
    have hrequires : requires (.array (required.map .string)) (.object members) = true ↔
        ∀ name ∈ required, ∃ item, member members name = some item := by
      simp [requires, JsonValue.asArray, JsonValue.asStr, Option.isSome_iff_exists]
    have hconforms : conforms (closedObject properties required) (.object members) = true ↔
        (∀ m ∈ members, m.1 ∈ required) ∧
        (∀ p ∈ properties, ∀ item, member members p.1 = some item → conforms p.2 item = true) ∧
        ∀ name ∈ required, ∃ item, member members name = some item := by
      rw [← hclosed, ← eachHolds_iff, ← hrequires]
      simp [closedObject, conforms, keywordsHold, propertiesHold, asserts, hasType,
        JsonValue.asStr, JsonValue.asObject]
    rw [hconforms]
    constructor
    · rintro ⟨hmembers, hproperties, hpresent⟩
      refine ⟨members, rfl, hmembers, fun p hp => ?_⟩
      obtain ⟨item, hitem⟩ := hpresent p.1 (hall p hp)
      exact ⟨item, hitem, hproperties p hp item hitem⟩
    · rintro ⟨_, heq, hmembers, hproperties⟩
      cases heq
      refine ⟨hmembers, fun p hp item hitem => ?_, fun name hname => ?_⟩
      · obtain ⟨item', hitem', hholds⟩ := hproperties p hp
        rw [hitem, Option.some.injEq] at hitem'
        rw [hitem']
        exact hholds
      · obtain ⟨p, hp, rfl⟩ := List.mem_map.mp (hlisted name hname)
        obtain ⟨item, hitem, -⟩ := hproperties p hp
        exact ⟨item, hitem⟩
  | number n =>
    cases n <;> simp [closedObject, conforms, keywordsHold, asserts, hasType, JsonValue.asStr]
  | _ => simp [closedObject, conforms, keywordsHold, asserts, hasType, JsonValue.asStr]

end

end CanonicalApi.JsonSchema
