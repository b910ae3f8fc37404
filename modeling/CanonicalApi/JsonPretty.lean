import CanonicalApi.Json

/-!
# `CanonicalApi.JsonPretty`: `serde_json::to_string_pretty`

Each element of an array and each member of an object stands on a line of its own, indented by
two spaces a level. Empty arrays and objects take no line.

`len_prettyAt` compares the length with that of the compact text: pretty printing adds a line
break and the indentation for every element, member and closing bracket, and a space for every
member. How much this is depends on the shape of the value (`growth`), and it is not bounded by
the length of the compact text times a constant.
-/

set_option autoImplicit false

namespace CanonicalApi.JsonValue

/-- The indentation of a level. -/
def indent (depth : Nat) : String :=
  String.ofList (List.replicate (2 * depth) ' ')

mutual

/-- A value of the level `depth`, as the pretty printer writes it: one item on a line, two blanks
for each level. Empty arrays and objects stay on their line. -/
def prettyAt (depth : Nat) : JsonValue → String
  | null => "null"
  | bool true => "true"
  | bool false => "false"
  | number n => numberText n
  | string s => quote s
  | array items =>
      if items.isEmpty then "[]"
      else "[\n" ++ prettyItems (depth + 1) items ++ "\n" ++ indent depth ++ "]"
  | object members =>
      if members.isEmpty then "\x7b\x7d"
      else "\x7b\n" ++ prettyMembers (depth + 1) members ++ "\n" ++ indent depth ++ "\x7d"

/-- The elements of an array, each on its line. -/
def prettyItems (depth : Nat) : List JsonValue → String
  | [] => ""
  | [v] => indent depth ++ prettyAt depth v
  | v :: vs => indent depth ++ prettyAt depth v ++ ",\n" ++ prettyItems depth vs

/-- The members of an object, each on its line. -/
def prettyMembers (depth : Nat) : List (String × JsonValue) → String
  | [] => ""
  | [(k, v)] => indent depth ++ quote k ++ ": " ++ prettyAt depth v
  | (k, v) :: ms =>
      indent depth ++ quote k ++ ": " ++ prettyAt depth v ++ ",\n" ++ prettyMembers depth ms

end

/-- `serde_json::to_string_pretty`. -/
def toStringPretty (value : JsonValue) : String :=
  prettyAt 0 value

/-! ### The length -/

mutual

/-- The bytes that the pretty printer adds to the compact text, from the shape of the value alone.
The texts inside do not grow. -/
def growth (depth : Nat) : JsonValue → Nat
  | null => 0
  | bool _ => 0
  | number _ => 0
  | string _ => 0
  | array items => if items.isEmpty then 0 else 1 + 2 * depth + growthItems (depth + 1) items
  | object members =>
      if members.isEmpty then 0 else 1 + 2 * depth + growthMembers (depth + 1) members

/-- The bytes that it adds for the elements of an array. -/
def growthItems (depth : Nat) : List JsonValue → Nat
  | [] => 0
  | v :: vs => 1 + 2 * depth + growth depth v + growthItems depth vs

/-- The bytes that it adds for the members of an object. -/
def growthMembers (depth : Nat) : List (String × JsonValue) → Nat
  | [] => 0
  | (_, v) :: ms => 1 + 2 * depth + 1 + growth depth v + growthMembers depth ms

end

/-- Lengths in bytes add up. The induction over a value counts its text this way. -/
theorem len_append (a b : String) : len (a ++ b) = len a + len b := by
  rw [len, bytes_append, List.length_append]
  rfl

/-- The length of a literal. -/
theorem len_literal {letters : List Char} {n : Nat}
    (h : (letters.flatMap String.utf8EncodeChar).length = n) : len (String.ofList letters) = n := by
  rw [len, bytes, String.toList_ofList, h]

/-- An indentation has two blanks for each level. -/
theorem len_indent (depth : Nat) : len (indent depth) = 2 * depth := by
  have hspaces : ∀ n : Nat, ((List.replicate n ' ').flatMap String.utf8EncodeChar).length = n := by
    intro n
    induction n with
    | zero => rfl
    | succ n ih =>
      rw [List.replicate_succ, List.flatMap_cons, List.length_append, ih, Nat.add_comm]
      rfl
  rw [len, bytes, indent, String.toList_ofList, hspaces]

mutual

/-- The length of the pretty text. -/
theorem len_prettyAt (depth : Nat) : ∀ value : JsonValue,
    len (prettyAt depth value) = len (compact value) + growth depth value
  | null => by simp only [prettyAt, compact, growth, Nat.add_zero]
  | bool true => by simp only [prettyAt, compact, growth, Nat.add_zero]
  | bool false => by simp only [prettyAt, compact, growth, Nat.add_zero]
  | number n => by simp only [prettyAt, compact, growth, Nat.add_zero]
  | string s => by simp only [prettyAt, compact, growth, Nat.add_zero]
  | array [] => by rfl
  -- The brackets stand on lines of their own, the items one step deeper.
  | array (v :: vs) => by
    have hitems := len_prettyItems (depth + 1) (v :: vs) (List.cons_ne_nil v vs)
    have hopen : len "[\n" = len "[" + 1 := rfl
    have hbreak : len "\n" = 1 := rfl
    simp only [prettyAt, compact, growth, List.isEmpty_cons, Bool.false_eq_true, if_false,
      len_append, len_indent]
    omega
  | object [] => by rfl
  | object (m :: ms) => by
    have hmembers := len_prettyMembers (depth + 1) (m :: ms) (List.cons_ne_nil m ms)
    have hopen : len "\x7b\n" = len "\x7b" + 1 := rfl
    have hbreak : len "\n" = 1 := rfl
    simp only [prettyAt, compact, growth, List.isEmpty_cons, Bool.false_eq_true, if_false,
      len_append, len_indent]
    omega

/-- The length of the lines of the elements, with one more line break. -/
theorem len_prettyItems (depth : Nat) : ∀ items : List JsonValue, items ≠ [] →
    len (prettyItems depth items) + 1 = len (compactItems items) + growthItems depth items
  | [], h => absurd rfl h
  | [v], _ => by
    have hvalue := len_prettyAt depth v
    simp only [prettyItems, compactItems, growthItems, len_append, len_indent]
    omega
  | v :: w :: vs, _ => by
    have hvalue := len_prettyAt depth v
    have hrest := len_prettyItems depth (w :: vs) (List.cons_ne_nil w vs)
    have hcomma : len ",\n" = len "," + 1 := rfl
    simp only [prettyItems, compactItems, len_append, len_indent] at hrest ⊢
    rw [growthItems]
    omega

/-- The length of the lines of the members, with one more line break. -/
theorem len_prettyMembers (depth : Nat) : ∀ members : List (String × JsonValue), members ≠ [] →
    len (prettyMembers depth members) + 1 =
      len (compactMembers members) + growthMembers depth members
  | [], h => absurd rfl h
  | [(k, v)], _ => by
    have hvalue := len_prettyAt depth v
    have hcolon : len ": " = len ":" + 1 := rfl
    simp only [prettyMembers, compactMembers, growthMembers, len_append, len_indent]
    omega
  -- A member costs its indentation, the space after the colon and the end of its line.
  | (k, v) :: m :: ms, _ => by
    have hvalue := len_prettyAt depth v
    have hrest := len_prettyMembers depth (m :: ms) (List.cons_ne_nil m ms)
    have hcolon : len ": " = len ":" + 1 := rfl
    have hcomma : len ",\n" = len "," + 1 := rfl
    simp only [prettyMembers, compactMembers, len_append, len_indent] at hrest ⊢
    rw [growthMembers]
    omega

end

end CanonicalApi.JsonValue
