import CanonicalApi.Text

/-!
# `CanonicalApi.Json`: JSON values as `serde_json` holds them

`JsonValue` is `serde_json::Value`. A number is an unsigned 64-bit integer, a negative
integer, or a float, which is represented by the text that `serde_json` prints for it. The
members of an object come in key order without repetition, as in the `BTreeMap` that
`serde_json` uses here. Two objects are then equal exactly when their member lists are.

The accessors return `none` where the Rust ones return `None`. `compact` is the output of
`serde_json::to_vec`.
-/

set_option autoImplicit false

namespace CanonicalApi

/-- `serde_json::Number`. -/
inductive JsonNumber where
  | posInt (n : UInt64)
  | negInt (n : Int)
  | float (text : String)
deriving DecidableEq, Repr

/-- `serde_json::Value`. The members of an object are a list, in the order of the map that holds
them. -/
inductive JsonValue where
  | null
  | bool (b : Bool)
  | number (n : JsonNumber)
  | string (s : String)
  | array (items : List JsonValue)
  | object (members : List (String × JsonValue))
deriving Repr

namespace JsonValue

mutual

/-- Equality of JSON values is decidable. The instance cannot be derived, because the values are
nested in lists. -/
def decEq : (a b : JsonValue) → Decidable (a = b)
  | null, null => isTrue rfl
  | bool a, bool b => decidable_of_iff (a = b) (by simp)
  | number a, number b => decidable_of_iff (a = b) (by simp)
  | string a, string b => decidable_of_iff (a = b) (by simp)
  | array a, array b =>
      match decEqItems a b with
      | isTrue h => isTrue (by rw [h])
      | isFalse h => isFalse (by simpa using h)
  | object a, object b =>
      match decEqMembers a b with
      | isTrue h => isTrue (by rw [h])
      | isFalse h => isFalse (by simpa using h)
  | null, bool _ | null, number _ | null, string _ | null, array _ | null, object _
  | bool _, null | bool _, number _ | bool _, string _ | bool _, array _ | bool _, object _
  | number _, null | number _, bool _ | number _, string _ | number _, array _
  | number _, object _
  | string _, null | string _, bool _ | string _, number _ | string _, array _
  | string _, object _
  | array _, null | array _, bool _ | array _, number _ | array _, string _
  | array _, object _
  | object _, null | object _, bool _ | object _, number _ | object _, string _
  | object _, array _ => isFalse (by simp)

/-- Equality of lists of JSON values is decidable. -/
def decEqItems : (a b : List JsonValue) → Decidable (a = b)
  | [], [] => isTrue rfl
  | x :: xs, y :: ys =>
      match decEq x y, decEqItems xs ys with
      | isTrue h, isTrue h' => isTrue (by rw [h, h'])
      | isFalse h, _ => isFalse (by simp [h])
      | _, isFalse h => isFalse (by simp [h])
  | [], _ :: _ | _ :: _, [] => isFalse (by simp)

/-- Equality of member lists is decidable. -/
def decEqMembers : (a b : List (String × JsonValue)) → Decidable (a = b)
  | [], [] => isTrue rfl
  | (k, x) :: xs, (l, y) :: ys =>
      match decEq x y, decEqMembers xs ys, (inferInstance : Decidable (k = l)) with
      | isTrue h, isTrue h', isTrue h'' => isTrue (by rw [h, h', h''])
      | isFalse h, _, _ => isFalse (by simp [h])
      | _, isFalse h, _ => isFalse (by simp [h])
      | _, _, isFalse h => isFalse (by simp [h])
  | [], _ :: _ | _ :: _, [] => isFalse (by simp)

end

instance : DecidableEq JsonValue := decEq

/-- `Map::get`. -/
def member (object : List (String × JsonValue)) (field : String) : Option JsonValue :=
  object.lookup field

/-- `Value::as_object`. -/
def asObject : JsonValue → Option (List (String × JsonValue))
  | object members => some members
  | _ => none

/-- `Value::get` with a string index. -/
def get (value : JsonValue) (field : String) : Option JsonValue :=
  value.asObject.bind (member · field)

/-- `Value::as_array`. -/
def asArray : JsonValue → Option (List JsonValue)
  | array items => some items
  | _ => none

/-- `Value::as_str`. -/
def asStr : JsonValue → Option String
  | string s => some s
  | _ => none

/-- Only objects have members. -/
theorem asObject_eq_some_iff {value : JsonValue} {members : List (String × JsonValue)} :
    value.asObject = some members ↔ value = object members := by
  cases value <;> simp [asObject]

/-- Only arrays have items. -/
theorem asArray_eq_some_iff {value : JsonValue} {items : List JsonValue} :
    value.asArray = some items ↔ value = array items := by
  cases value <;> simp [asArray]

/-- Only strings are texts. -/
theorem asStr_eq_some_iff {value : JsonValue} {s : String} :
    value.asStr = some s ↔ value = string s := by
  cases value <;> simp [asStr]

/-- `Value::as_u64`. -/
def asU64 : JsonValue → Option UInt64
  | number (.posInt n) => some n
  | _ => none

/-- A text that is not empty. -/
def nonEmpty (value : String) : Option String :=
  if value = "" then none else some value

/-- `nonEmpty` gives back the text, unless it is empty. -/
theorem nonEmpty_eq_some_iff (value text : String) :
    nonEmpty value = some text ↔ value = text ∧ text ≠ "" := by
  unfold nonEmpty
  split
  · next h =>
    subst h
    simp [eq_comm]
  · next h =>
    rw [Option.some.injEq]
    constructor
    · rintro rfl
      exact ⟨rfl, h⟩
    · exact fun hv => hv.1

/-- The member `field`, when it is a text that is not empty. -/
def textMember (object : List (String × JsonValue)) (field : String) : Option String :=
  ((member object field).bind asStr).bind nonEmpty

/-- The member `field`, when it is an unsigned 64-bit integer. -/
def u64Member (object : List (String × JsonValue)) (field : String) : Option UInt64 :=
  (member object field).bind asU64

/-- The member `field`, when it is an array. -/
def arrayMember (object : List (String × JsonValue)) (field : String) :
    Option (List JsonValue) :=
  (member object field).bind asArray

/-- A lowercase hexadecimal digit. -/
def hexDigit (n : Nat) : Char :=
  if n < 10 then Char.ofNat (48 + n) else Char.ofNat (87 + n)

/-- One character of a JSON string as `serde_json` writes it: the short escapes, four digits for the
other control characters, and everything else as it is. -/
def escapeChar (c : Char) : List Char :=
  if c = '"' then ['\\', '"']
  else if c = '\\' then ['\\', '\\']
  else if c = '\x08' then ['\\', 'b']
  else if c = '\x0c' then ['\\', 'f']
  else if c = '\n' then ['\\', 'n']
  else if c = '\r' then ['\\', 'r']
  else if c = '\t' then ['\\', 't']
  else if c.toNat < 0x20 then
    ['\\', 'u', '0', '0', hexDigit (c.toNat / 16), hexDigit (c.toNat % 16)]
  else [c]

/-- A JSON string with its quotes. -/
def quote (s : String) : String :=
  String.ofList ('"' :: s.toList.flatMap escapeChar ++ ['"'])

/-- The text of a number. -/
def numberText : JsonNumber → String
  | .posInt n => toString n.toNat
  | .negInt n => toString n
  | .float text => text

mutual

/-- `serde_json::to_vec`, as text. There is no white space in it outside strings. -/
def compact : JsonValue → String
  | null => "null"
  | bool true => "true"
  | bool false => "false"
  | number n => numberText n
  | string s => quote s
  | array items => "[" ++ compactItems items ++ "]"
  | object members => "\x7b" ++ compactMembers members ++ "\x7d"

/-- The items of an array, separated by commas. -/
def compactItems : List JsonValue → String
  | [] => ""
  | [v] => compact v
  | v :: vs => compact v ++ "," ++ compactItems vs

/-- The members of an object, separated by commas. -/
def compactMembers : List (String × JsonValue) → String
  | [] => ""
  | [(k, v)] => quote k ++ ":" ++ compact v
  | (k, v) :: ms => quote k ++ ":" ++ compact v ++ "," ++ compactMembers ms

end

end JsonValue

end CanonicalApi
