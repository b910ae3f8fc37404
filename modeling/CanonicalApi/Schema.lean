import CanonicalApi.Identity

/-!
# `CanonicalApi.Schema`: the conditions of the SQL schema on texts

The checks of `db/schema.sql` count characters and match regular expressions, where the
validators of the API count bytes and look at single bytes. The definitions here are the
conditions as the schema has them. The lemmas carry what the validators admit over to them.

PostgreSQL refuses U+0000 in every text and in every string of a `jsonb` value. `JsonbHolds`
says that a JSON value has no such string.
-/

set_option autoImplicit false

namespace CanonicalApi

/-- `char_length(value) BETWEEN low AND high`. -/
def LengthBetween (low high : Nat) (value : String) : Prop :=
  low ≤ value.toList.length ∧ value.toList.length ≤ high

/-- `value ~ '^[…]+$'`, for a class of characters. -/
def Matches (characters : Char → Bool) (value : String) : Prop :=
  value.toList ≠ [] ∧ ∀ c ∈ value.toList, characters c = true

instance (low high : Nat) (value : String) : Decidable (LengthBetween low high value) :=
  inferInstanceAs (Decidable (_ ∧ _))

instance (characters : Char → Bool) (value : String) : Decidable (Matches characters value) :=
  inferInstanceAs (Decidable (_ ∧ _))

/-- `[A-Za-z0-9]`. -/
def alphanumericClass (c : Char) : Bool :=
  ('A' ≤ c && c ≤ 'Z') || ('a' ≤ c && c ≤ 'z') || ('0' ≤ c && c ≤ '9')

/-- `[A-Za-z0-9._:-]`. -/
def keyClass (c : Char) : Bool :=
  alphanumericClass c || c == '.' || c == '_' || c == ':' || c == '-'

/-- The same class with the slash, which the schema writes before the hyphen. -/
def identifierClass (c : Char) : Bool :=
  keyClass c || c == '/'

/-- A text without U+0000. -/
def NulFree (value : String) : Prop := '\x00' ∉ value.toList

instance (value : String) : Decidable (NulFree value) := inferInstanceAs (Decidable (¬ _))

/-! ### From bytes to characters -/

/-- A fact about the first 128 characters, checked one by one. -/
theorem ascii_char {p : Char → Prop} (h : ∀ n : Fin 128, p (Char.ofNat n)) {c : Char}
    (hc : c.toNat < 128) : p c := by
  have := h ⟨c.toNat, hc⟩
  rwa [Char.ofNat_toNat] at this

/-- The bytes of identifiers are ASCII. -/
theorem identifierByte_ascii (b : UInt8) (h : identifierByte b = true) : b < 128 := by
  have hall : ∀ n : Fin 256, identifierByte (UInt8.ofNat n) = true → UInt8.ofNat n < 128 := by
    decide +kernel
  have := hall ⟨b.toNat, b.toNat_lt⟩
  rw [UInt8.ofNat_toNat] at this
  exact this h

/-- The characters that a portable identifier and an idempotency key are made of. -/
theorem identifierClass_of_byte {c : Char} (hc : c.toNat < 128)
    (h : identifierByte (UInt8.ofNat c.toNat) = true) : identifierClass c = true := by
  revert h
  exact ascii_char (p := fun c => identifierByte (UInt8.ofNat c.toNat) = true →
    identifierClass c = true) (by decide) hc

variable {value : String}

/-- The number of characters and the characters of a text of identifier bytes. -/
theorem identifier_chars (h : (bytes value).all identifierByte = true) :
    (∀ c ∈ value.toList, identifierClass c = true) ∧ len value = value.toList.length := by
  obtain ⟨hchars, hlen⟩ := chars_of_all_bytes h identifierByte_ascii
  exact ⟨fun c hc => identifierClass_of_byte (hchars c hc).1 (hchars c hc).2, hlen⟩

/-- A portable identifier is an identifier of the schema. -/
theorem portableIdentifier_matches (h : portableIdentifier value = true) :
    LengthBetween 1 128 value ∧ Matches identifierClass value := by
  obtain ⟨hchars, hlen⟩ := identifier_chars (identifierBytes_of_portableIdentifier h)
  simp only [portableIdentifier, Bool.and_eq_true, decide_eq_true_eq] at h
  obtain ⟨⟨hne, hle⟩, -⟩ := h
  have hnil : value.toList ≠ [] := fun h => hne (String.toList_eq_nil_iff.mp h)
  have hpos := List.length_pos_of_ne_nil hnil
  have hmax : maxIdentifierBytes = 128 := rfl
  exact ⟨⟨hpos, by omega⟩, hnil, hchars⟩

/-- A portable identifier has no U+0000, which PostgreSQL refuses in a text. -/
theorem nulFree_of_portableIdentifier (h : portableIdentifier value = true) : NulFree value :=
  (not_mem_of_identifierBytes (identifierBytes_of_portableIdentifier h)).1

/-- A text has no more characters than bytes. -/
theorem length_le_len (value : String) : value.toList.length ≤ len value := by
  have hall : ∀ l : List Char, l.length ≤ (l.flatMap String.utf8EncodeChar).length := by
    intro l
    induction l with
    | nil => exact Nat.le_refl 0
    | cons c l ih =>
      have hpos := List.length_pos_of_ne_nil (String.utf8EncodeChar_ne_nil (c := c))
      rw [List.flatMap_cons, List.length_append, List.length_cons]
      omega
  exact hall value.toList

/-- A subject of at most 255 bytes fits the columns for owners. -/
theorem validOwnerSubject_fits (h : validOwnerSubject value = true) :
    LengthBetween 1 255 value ∧ NulFree value := by
  have hbytes := subjectBytes_of_validOwnerSubject h
  simp only [validOwnerSubject, Bool.and_eq_true, decide_eq_true_eq] at h
  obtain ⟨⟨hne, hle⟩, -⟩ := h
  have hpos := List.length_pos_of_ne_nil fun h => hne (String.toList_eq_nil_iff.mp h)
  exact ⟨⟨hpos, Nat.le_trans (length_le_len value) hle⟩, (not_mem_of_subjectBytes hbytes).1⟩

/-! ### JSON values -/

namespace JsonValue

mutual

/-- All strings of a value, the names of members included. PostgreSQL refuses the document if one of
them holds U+0000. -/
def strings : JsonValue → List String
  | null => []
  | bool _ => []
  | number _ => []
  | string s => [s]
  | array items => stringsOfItems items
  | object members => stringsOfMembers members

/-- All strings of a list of values. -/
def stringsOfItems : List JsonValue → List String
  | [] => []
  | item :: items => strings item ++ stringsOfItems items

/-- All strings of a list of members. -/
def stringsOfMembers : List (String × JsonValue) → List String
  | [] => []
  | (field, value) :: members => field :: strings value ++ stringsOfMembers members

end

end JsonValue

/-- A value that `jsonb` holds: no string of it has U+0000. -/
def JsonbHolds (value : JsonValue) : Prop := ∀ s ∈ value.strings, NulFree s

instance (value : JsonValue) : Decidable (JsonbHolds value) :=
  inferInstanceAs (Decidable (∀ s ∈ _, NulFree s))

/-- A `jsonb` column holds every number. -/
@[simp] theorem jsonbHolds_number (n : JsonNumber) : JsonbHolds (.number n) := by
  intro s hs
  simp [JsonValue.strings] at hs

/-- A `jsonb` column holds the strings without U+0000. -/
@[simp] theorem jsonbHolds_string (s : String) : JsonbHolds (.string s) ↔ NulFree s := by
  simp [JsonbHolds, JsonValue.strings]

/-- A `jsonb` column holds an array when it holds the items. -/
@[simp] theorem jsonbHolds_array (items : List JsonValue) :
    JsonbHolds (.array items) ↔ ∀ item ∈ items, JsonbHolds item := by
  unfold JsonbHolds
  rw [JsonValue.strings]
  induction items with
  | nil => simp [JsonValue.stringsOfItems]
  | cons item items ih =>
    simp only [JsonValue.stringsOfItems, List.mem_append, or_imp, forall_and, ih,
      List.forall_mem_cons]

/-- A `jsonb` column holds an object when it holds the values, and the names have no U+0000. -/
@[simp] theorem jsonbHolds_object (members : List (String × JsonValue)) :
    JsonbHolds (.object members) ↔ ∀ m ∈ members, NulFree m.1 ∧ JsonbHolds m.2 := by
  unfold JsonbHolds
  rw [JsonValue.strings]
  induction members with
  | nil => simp [JsonValue.stringsOfMembers]
  | cons m members ih =>
    obtain ⟨field, value⟩ := m
    simp only [JsonValue.stringsOfMembers, List.mem_append, List.mem_cons, or_imp, forall_and,
      forall_eq, ih, List.cons_append]
    tauto

end CanonicalApi
