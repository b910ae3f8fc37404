import CanonicalApi.JsonPretty

/-!
# `CanonicalApi.JsonPretty.Reading`: a pretty text is read in one way

`toStringPretty_injective`: two values with the same pretty text are the same. The proof goes
by induction over the value, with what follows it in the statement: the first letter tells the
kind of the value, a number ends in front of the first letter that no number has, a text ends
at the first quote that is not escaped, and an element or a member ends at the line break.

This takes numbers as `serde_json` holds them (`proper`): a negative integer is negative, and
the text of a float has a point or an exponent.
-/

set_option autoImplicit false

namespace CanonicalApi

/-- A letter of a number. -/
def numberLetter (c : Char) : Bool :=
  c.isDigit || c ∈ ['-', '+', '.', 'e']

/-- A number as `serde_json` holds it. -/
def JsonNumber.proper : JsonNumber → Bool
  | posInt _ => true
  | negInt n => n < 0
  | float text => text.toList.all numberLetter && text.toList.any fun c => c ∈ ['.', 'e']

namespace JsonValue

mutual

/-- All numbers of the value are as `serde_json` holds them. -/
def proper : JsonValue → Bool
  | number n => n.proper
  | array items => properItems items
  | object members => properMembers members
  | _ => true

/-- All numbers of the elements are as `serde_json` holds them. -/
def properItems : List JsonValue → Bool
  | [] => true
  | v :: vs => proper v && properItems vs

/-- All numbers of the members are as `serde_json` holds them. -/
def properMembers : List (String × JsonValue) → Bool
  | [] => true
  | (_, v) :: ms => proper v && properMembers ms

end

/-! ### Numbers -/

/-- What follows does not go on with a letter of a number. -/
def Stops (rest : List Char) : Prop :=
  ∀ c ∈ rest.head?, numberLetter c = false

/-- Letters of numbers in front of something else are determined. -/
theorem letters_append_injective {a b r r' : List Char} (ha : ∀ c ∈ a, numberLetter c = true)
    (hb : ∀ c ∈ b, numberLetter c = true) (hr : Stops r) (hr' : Stops r')
    (h : a ++ r = b ++ r') : a = b ∧ r = r' := by
  induction a generalizing b with
  | nil =>
    cases b with
    | nil => exact ⟨rfl, h⟩
    | cons c b =>
      -- One number ends where the other goes on, which the rest forbids.
      have hstop := hr c (by rw [List.nil_append] at h; simp [h])
      rw [hb c List.mem_cons_self] at hstop
      cases hstop
  | cons c a ih =>
    obtain ⟨hc, ha⟩ := List.forall_mem_cons.mp ha
    cases b with
    | nil =>
      have hstop := hr' c (by rw [List.nil_append] at h; simp [← h])
      rw [hc] at hstop
      cases hstop
    | cons c' b =>
      rw [List.cons_append, List.cons_append, List.cons.injEq] at h
      obtain ⟨htail, hrest⟩ := ih ha (List.forall_mem_cons.mp hb).2 h.2
      exact ⟨by rw [h.1, htail], hrest⟩

/-- The digits of a natural number. -/
theorem digits_injective {n m : Nat} (h : Nat.toDigits 10 n = Nat.toDigits 10 m) : n = m := by
  have hvalue := congrArg (Nat.ofDigitChars 10 · 0) h
  simpa only [Nat.ofDigitChars_ten_toDigits] using hvalue

/-- The digits of a number are decimal ones. -/
theorem isDigit_of_mem_digits {n : Nat} {c : Char} (hc : c ∈ Nat.toDigits 10 n) :
    c.isDigit = true :=
  Nat.isDigit_of_mem_toDigits (by decide) (by decide) hc

/-- A number that is not negative is written as its digits. -/
theorem toList_posInt (n : UInt64) : (numberText (.posInt n)).toList = Nat.toDigits 10 n.toNat := by
  rw [numberText, Nat.toString_eq_repr, Nat.toList_repr]

/-- A negative number is written as a minus and the digits of its absolute value. -/
theorem toList_negInt {n : Int} (hn : n < 0) :
    (numberText (.negInt n)).toList = '-' :: Nat.toDigits 10 (-n).toNat := by
  rw [numberText, Int.toString_eq_repr, Int.repr_eq_if, if_neg (by omega), String.toList_append,
    Nat.toList_repr]
  rfl

/-- The text of a number has letters of numbers only. -/
theorem numberLetter_of_mem {n : JsonNumber} (hn : n.proper = true) :
    ∀ c ∈ (numberText n).toList, numberLetter c = true := by
  intro c hc
  cases n with
  | posInt n =>
    rw [toList_posInt] at hc
    simp [numberLetter, isDigit_of_mem_digits hc]
  | negInt n =>
    rw [toList_negInt (of_decide_eq_true hn), List.mem_cons] at hc
    rcases hc with rfl | hc
    · rfl
    · simp [numberLetter, isDigit_of_mem_digits hc]
  | float text =>
    rw [JsonNumber.proper, Bool.and_eq_true] at hn
    exact List.all_eq_true.mp hn.1 c hc

/-- No number is written as the empty text. So the first letter of a value tells its kind. -/
theorem numberText_ne_nil {n : JsonNumber} (hn : n.proper = true) :
    (numberText n).toList ≠ [] := by
  cases n with
  | posInt n =>
    rw [toList_posInt]
    exact Nat.toDigits_ne_nil
  | negInt n =>
    rw [toList_negInt (of_decide_eq_true hn)]
    exact List.cons_ne_nil _ _
  | float text =>
    rw [JsonNumber.proper, Bool.and_eq_true] at hn
    intro hnil
    have hany := hn.2
    rw [numberText] at hnil
    rw [hnil] at hany
    cases hany

/-- The text of a float has a point or an exponent. -/
theorem mem_float {text : String} (h : (JsonNumber.float text).proper = true) :
    ∃ c ∈ text.toList, c = '.' ∨ c = 'e' := by
  rw [JsonNumber.proper, Bool.and_eq_true] at h
  obtain ⟨c, hc, hletter⟩ := List.any_eq_true.mp h.2
  exact ⟨c, hc, by simpa using hletter⟩

/-- The text of an integer has neither. -/
theorem not_mem_digits {n : Nat} {c : Char} (hc : c = '-' ∨ c = '.' ∨ c = 'e') :
    c ∉ Nat.toDigits 10 n := by
  intro hmem
  have hdigit := isDigit_of_mem_digits hmem
  rcases hc with rfl | rfl | rfl <;> revert hdigit <;> decide

/-- A proper number is known by its text. -/
theorem numberText_injective {n m : JsonNumber} (hn : n.proper = true) (hm : m.proper = true)
    (h : (numberText n).toList = (numberText m).toList) : n = m := by
  cases n with
  | posInt n =>
    rw [toList_posInt] at h
    cases m with
    | posInt m =>
      rw [toList_posInt] at h
      rw [UInt64.toNat_inj.mp (digits_injective h)]
    | negInt m =>
      rw [toList_negInt (of_decide_eq_true hm)] at h
      -- A minus is no digit, so numbers of different kinds have different texts.
      exact absurd (h ▸ List.mem_cons_self) (not_mem_digits (.inl rfl))
    | float text =>
      -- A float has a letter that integers do not have.
      obtain ⟨c, hc, hletter⟩ := mem_float hm
      exact absurd (h ▸ hc) (not_mem_digits (.inr hletter))
  | negInt n =>
    rw [toList_negInt (of_decide_eq_true hn)] at h
    cases m with
    | posInt m =>
      rw [toList_posInt] at h
      exact absurd (h ▸ List.mem_cons_self) (not_mem_digits (.inl rfl))
    | negInt m =>
      rw [toList_negInt (of_decide_eq_true hm), List.cons.injEq] at h
      have habs := digits_injective h.2
      have hn : n < 0 := of_decide_eq_true hn
      have hm : m < 0 := of_decide_eq_true hm
      exact congrArg JsonNumber.negInt (by omega)
    | float text =>
      obtain ⟨c, hc, hletter⟩ := mem_float hm
      have hmem : c ∈ '-' :: Nat.toDigits 10 (-n).toNat := h ▸ hc
      rcases List.mem_cons.mp hmem with rfl | hmem
      · exact absurd hletter (by decide)
      · exact absurd hmem (not_mem_digits (.inr hletter))
  | float text =>
    obtain ⟨c, hc, hletter⟩ := mem_float hn
    cases m with
    | posInt m =>
      rw [toList_posInt] at h
      exact absurd (h ▸ hc) (not_mem_digits (.inr hletter))
    | negInt m =>
      rw [toList_negInt (of_decide_eq_true hm)] at h
      have hmem : c ∈ '-' :: Nat.toDigits 10 (-m).toNat := h ▸ hc
      rcases List.mem_cons.mp hmem with rfl | hmem
      · exact absurd hletter (by decide)
      · exact absurd hmem (not_mem_digits (.inr hletter))
    | float text' =>
      have htext : text = text' := String.toList_inj.mp h
      rw [htext]

/-- A number in front of something else is determined. -/
theorem numberText_append_injective {n m : JsonNumber} {r r' : List Char} (hn : n.proper = true)
    (hm : m.proper = true) (hr : Stops r) (hr' : Stops r')
    (h : (numberText n).toList ++ r = (numberText m).toList ++ r') : n = m ∧ r = r' := by
  obtain ⟨htext, hrest⟩ :=
    letters_append_injective (numberLetter_of_mem hn) (numberLetter_of_mem hm) hr hr' h
  exact ⟨numberText_injective hn hm htext, hrest⟩

/-! ### Texts -/

/-- The character that an escape letter stands for. -/
def unescaped (c : Char) : Char :=
  if c = 'b' then '\x08'
  else if c = 'f' then '\x0c'
  else if c = 'n' then '\n'
  else if c = 'r' then '\r'
  else if c = 't' then '\t'
  else c

/-- The value of a hexadecimal digit. -/
def hexValue (c : Char) : Nat :=
  if c.toNat < 58 then c.toNat - 48 else c.toNat - 87

/-- The first character of the inside of a text, and what follows it. At the closing quote there
is none. -/
def readChar : List Char → Option (Char × List Char)
  | [] => none
  | c :: rest =>
      if c = '"' then none
      else if c = '\\' then
        match rest with
        | 'u' :: '0' :: '0' :: h :: l :: rest =>
            some (Char.ofNat (16 * hexValue h + hexValue l), rest)
        | e :: rest => some (unescaped e, rest)
        | [] => none
      else some (c, rest)

/-- An escaped character is read back. -/
theorem readChar_escapeChar (c : Char) (rest : List Char) :
    readChar (escapeChar c ++ rest) = some (c, rest) := by
  -- A control character is written as two hexadecimal digits.
  have hcontrol : ∀ n < 32, Char.ofNat (16 * hexValue (hexDigit (n / 16)) +
      hexValue (hexDigit (n % 16))) = Char.ofNat n := by decide
  unfold escapeChar
  split
  · next h => subst h; rfl
  split
  · next h => subst h; rfl
  split
  · next h => subst h; rfl
  split
  · next h => subst h; rfl
  split
  · next h => subst h; rfl
  split
  · next h => subst h; rfl
  split
  · next h => subst h; rfl
  split
  · next hlow =>
    have hc := hcontrol c.toNat hlow
    rw [Char.ofNat_toNat] at hc
    simp [readChar, hc]
  · next hquote hbackslash _ _ _ _ _ _ => simp [readChar, hquote, hbackslash]

/-- The inside of a text up to its closing quote is determined. -/
theorem escape_append_injective {a b r r' : List Char}
    (h : a.flatMap escapeChar ++ '"' :: r = b.flatMap escapeChar ++ '"' :: r') :
    a = b ∧ r = r' := by
  -- A closing quote is never read as a character, so that both texts end together.
  have hclose : ∀ rest, readChar ('"' :: rest) = none := fun _ => rfl
  have hopen : ∀ (c : Char) (s rest : List Char),
      readChar ((c :: s).flatMap escapeChar ++ rest) = some (c, s.flatMap escapeChar ++ rest) := by
    intro c s rest
    rw [List.flatMap_cons, List.append_assoc, readChar_escapeChar]
  induction a generalizing b with
  | nil =>
    cases b with
    | nil => exact ⟨rfl, (List.cons.inj h).2⟩
    | cons c b =>
      have hread := congrArg readChar h
      rw [hopen, List.flatMap_nil, List.nil_append, hclose] at hread
      cases hread
  | cons c a ih =>
    have hread := congrArg readChar h
    rw [hopen] at hread
    cases b with
    | nil =>
      rw [List.flatMap_nil, List.nil_append, hclose] at hread
      cases hread
    | cons c' b =>
      rw [hopen, Option.some.injEq, Prod.mk.injEq] at hread
      obtain ⟨htail, hrest⟩ := ih hread.2
      exact ⟨by rw [hread.1, htail], hrest⟩

/-- A text is its escaped characters between quotes. -/
theorem toList_quote (s : String) :
    (quote s).toList = '"' :: (s.toList.flatMap escapeChar ++ ['"']) := by
  rw [quote, String.toList_ofList, List.cons_append]

/-- A text with its quotes is determined. -/
theorem quote_append_injective {s s' : String} {r r' : List Char}
    (h : (quote s).toList ++ r = (quote s').toList ++ r') : s = s' ∧ r = r' := by
  rw [toList_quote, toList_quote] at h
  simp only [List.cons_append, List.append_assoc, List.nil_append, List.cons.injEq, true_and] at h
  obtain ⟨htext, hrest⟩ := escape_append_injective h
  exact ⟨String.toList_inj.mp htext, hrest⟩

/-! ### Values -/

section

variable (depth : Nat)

/-- An array that is not empty is its items, one level deeper, on lines of their own between
brackets. -/
theorem toList_array (v : JsonValue) (vs : List JsonValue) :
    (prettyAt depth (array (v :: vs))).toList = '[' :: '\n' ::
      ((prettyItems (depth + 1) (v :: vs)).toList ++ '\n' :: ((indent depth).toList ++ [']'])) := by
  simp only [prettyAt, List.isEmpty_cons, Bool.false_eq_true, if_false, String.toList_append,
    List.append_assoc]
  rfl

/-- An object that is not empty is its members, one level deeper, on lines of their own between
braces. -/
theorem toList_object (m : String × JsonValue) (ms : List (String × JsonValue)) :
    (prettyAt depth (object (m :: ms))).toList = '\x7b' :: '\n' ::
      ((prettyMembers (depth + 1) (m :: ms)).toList ++
        '\n' :: ((indent depth).toList ++ ['\x7d'])) := by
  simp only [prettyAt, List.isEmpty_cons, Bool.false_eq_true, if_false, String.toList_append,
    List.append_assoc]
  rfl

/-- The last item has no comma after it. -/
theorem toList_item (v : JsonValue) :
    (prettyItems depth [v]).toList = (indent depth).toList ++ (prettyAt depth v).toList := by
  rw [prettyItems, String.toList_append]

/-- Another item follows after a comma and a line break. -/
theorem toList_items (v w : JsonValue) (vs : List JsonValue) :
    (prettyItems depth (v :: w :: vs)).toList = (indent depth).toList ++
      ((prettyAt depth v).toList ++ ',' :: '\n' :: (prettyItems depth (w :: vs)).toList) := by
  rw [prettyItems, String.toList_append, String.toList_append, String.toList_append,
    List.append_assoc, List.append_assoc]
  · rfl
  · exact List.cons_ne_nil w vs

/-- The last member has no comma after it. -/
theorem toList_member (k : String) (v : JsonValue) :
    (prettyMembers depth [(k, v)]).toList = (indent depth).toList ++
      ((quote k).toList ++ ':' :: ' ' :: (prettyAt depth v).toList) := by
  rw [prettyMembers, String.toList_append, String.toList_append, String.toList_append,
    List.append_assoc, List.append_assoc]
  rfl

/-- Another member follows after a comma and a line break. -/
theorem toList_members (k : String) (v : JsonValue) (m : String × JsonValue)
    (ms : List (String × JsonValue)) :
    (prettyMembers depth ((k, v) :: m :: ms)).toList = (indent depth).toList ++
      ((quote k).toList ++ ':' :: ' ' ::
        ((prettyAt depth v).toList ++ ',' :: '\n' :: (prettyMembers depth (m :: ms)).toList)) := by
  rw [prettyMembers, String.toList_append, String.toList_append, String.toList_append,
    String.toList_append, String.toList_append, List.append_assoc, List.append_assoc,
    List.append_assoc, List.append_assoc]
  · rfl
  · exact List.cons_ne_nil m ms

end

/-- The kind of a value, as a number. Two values of different kinds begin with different letters. -/
def kind : JsonValue → Nat
  | null => 0
  | bool _ => 1
  | number _ => 2
  | string _ => 3
  | array _ => 4
  | object _ => 5

/-- The kind of the value that begins with a letter. What begins with none of the others is a
number. -/
def kindOfLetter (c : Char) : Nat :=
  if c = 'n' then 0
  else if c = 't' ∨ c = 'f' then 1
  else if c = '"' then 3
  else if c = '[' then 4
  else if c = '\x7b' then 5
  else 2

/-- The letters of a number start no other kind of value. -/
theorem kindOfLetter_of_numberLetter {c : Char} (hc : numberLetter c = true) :
    kindOfLetter c = 2 := by
  have hne : ∀ c' : Char, numberLetter c' = false → c ≠ c' := by
    rintro c' hfalse rfl
    rw [hc] at hfalse
    cases hfalse
  simp [kindOfLetter, hne 'n' rfl, hne 't' rfl, hne 'f' rfl, hne '"' rfl, hne '[' rfl,
    hne '\x7b' rfl]

/-- The first letter of a value tells its kind. -/
theorem head_prettyAt (depth : Nat) (v : JsonValue) (hv : v.proper = true) :
    ∃ c tail, (prettyAt depth v).toList = c :: tail ∧ kindOfLetter c = v.kind := by
  cases v with
  | null => exact ⟨'n', ['u', 'l', 'l'], by simp [prettyAt], rfl⟩
  | bool b =>
    cases b with
    | false => exact ⟨'f', ['a', 'l', 's', 'e'], by simp [prettyAt], rfl⟩
    | true => exact ⟨'t', ['r', 'u', 'e'], by simp [prettyAt], rfl⟩
  | number n =>
    have hproper : n.proper = true := hv
    obtain ⟨c, tail, htail⟩ := List.exists_cons_of_ne_nil (numberText_ne_nil hproper)
    have hletter := numberLetter_of_mem hproper c (htail ▸ List.mem_cons_self)
    exact ⟨c, tail, htail, kindOfLetter_of_numberLetter hletter⟩
  | string s => exact ⟨'"', _, toList_quote s, rfl⟩
  -- An empty array or object is written on one line.
  | array items =>
    cases items with
    | nil => exact ⟨'[', [']'], by simp [prettyAt], rfl⟩
    | cons v vs => exact ⟨'[', _, toList_array depth v vs, rfl⟩
  | object members =>
    cases members with
    | nil => exact ⟨'\x7b', ['\x7d'], by simp [prettyAt], rfl⟩
    | cons m ms => exact ⟨'\x7b', _, toList_object depth m ms, rfl⟩

/-- Two values with the same text in front are of one kind. -/
theorem kind_eq {depth : Nat} {v w : JsonValue} {r r' : List Char} (hv : v.proper = true)
    (hw : w.proper = true)
    (h : (prettyAt depth v).toList ++ r = (prettyAt depth w).toList ++ r') : v.kind = w.kind := by
  obtain ⟨c, tail, hc, hkind⟩ := head_prettyAt depth v hv
  obtain ⟨c', tail', hc', hkind'⟩ := head_prettyAt depth w hw
  rw [hc, hc', List.cons_append, List.cons_append, List.cons.injEq] at h
  rw [← hkind, ← hkind', h.1]

/-- A number ends before a line break. -/
theorem stops_break (rest : List Char) : Stops ('\n' :: rest) := by
  intro c hc
  cases hc
  decide

/-- A number ends before a comma. -/
theorem stops_comma (rest : List Char) : Stops (',' :: rest) := by
  intro c hc
  cases hc
  decide

mutual

/-- A value in front of something else is determined by its text. -/
theorem prettyAt_append_injective (depth : Nat) : ∀ (v w : JsonValue) {r r' : List Char},
    v.proper = true → w.proper = true → Stops r → Stops r' →
    (prettyAt depth v).toList ++ r = (prettyAt depth w).toList ++ r' → v = w ∧ r = r'
  | null, w, _, _, hv, hw, _, _, h => by
    -- The first letter tells the kind of the value, so `w` is of the same kind.
    have hkind := kind_eq hv hw h
    cases w with
    | null => exact ⟨rfl, List.append_cancel_left h⟩
    | _ => cases hkind
  | bool b, w, _, _, hv, hw, _, _, h => by
    have hkind := kind_eq hv hw h
    cases w with
    | bool b' =>
      cases b <;> cases b'
      · exact ⟨rfl, List.append_cancel_left h⟩
      · simp [prettyAt] at h
      · simp [prettyAt] at h
      · exact ⟨rfl, List.append_cancel_left h⟩
    | _ => cases hkind
  | number n, w, _, _, hv, hw, hr, hr', h => by
    have hkind := kind_eq hv hw h
    cases w with
    | number m =>
      -- A number ends where the text stops being one, which is why `r` and `r'` have to stop it.
      obtain ⟨hnumber, hrest⟩ := numberText_append_injective hv hw hr hr' h
      exact ⟨by rw [hnumber], hrest⟩
    | _ => cases hkind
  | string s, w, _, _, hv, hw, _, _, h => by
    have hkind := kind_eq hv hw h
    cases w with
    | string s' =>
      obtain ⟨htext, hrest⟩ := quote_append_injective h
      exact ⟨by rw [htext], hrest⟩
    | _ => cases hkind
  | array [], w, _, _, hv, hw, _, _, h => by
    have hkind := kind_eq hv hw h
    cases w with
    | array items =>
      cases items with
      | nil => exact ⟨rfl, List.append_cancel_left h⟩
      | cons w ws =>
        -- The empty array closes at once, another one breaks the line first.
        rw [toList_array] at h
        simp [prettyAt] at h
    | _ => cases hkind
  | array (v :: vs), w, _, _, hv, hw, _, _, h => by
    have hkind := kind_eq hv hw h
    cases w with
    | array items =>
      cases items with
      | nil =>
        rw [toList_array] at h
        simp [prettyAt] at h
      | cons w ws =>
        rw [toList_array, toList_array] at h
        simp only [List.cons_append, List.append_assoc, List.cons.injEq, true_and] at h
        obtain ⟨hitems, hrest⟩ := prettyItems_append_injective (depth + 1) (v :: vs) (w :: ws)
          (List.cons_ne_nil v vs) (List.cons_ne_nil w ws) hv hw h
        exact ⟨by rw [hitems], by simpa using hrest⟩
    | _ => cases hkind
  | object [], w, _, _, hv, hw, _, _, h => by
    have hkind := kind_eq hv hw h
    cases w with
    | object members =>
      cases members with
      | nil => exact ⟨rfl, List.append_cancel_left h⟩
      | cons m ms =>
        rw [toList_object] at h
        simp [prettyAt] at h
    | _ => cases hkind
  | object (m :: ms), w, _, _, hv, hw, _, _, h => by
    have hkind := kind_eq hv hw h
    cases w with
    | object members =>
      cases members with
      | nil =>
        rw [toList_object] at h
        simp [prettyAt] at h
      | cons m' ms' =>
        rw [toList_object, toList_object] at h
        simp only [List.cons_append, List.append_assoc, List.cons.injEq, true_and] at h
        obtain ⟨hmembers, hrest⟩ := prettyMembers_append_injective (depth + 1) (m :: ms) (m' :: ms')
          (List.cons_ne_nil m ms) (List.cons_ne_nil m' ms') hv hw h
        exact ⟨by rw [hmembers], by simpa using hrest⟩
    | _ => cases hkind

/-- The lines of the elements, up to the line break after them, are determined. -/
theorem prettyItems_append_injective (depth : Nat) : ∀ (vs ws : List JsonValue) {t t' : List Char},
    vs ≠ [] → ws ≠ [] → properItems vs = true → properItems ws = true →
    (prettyItems depth vs).toList ++ '\n' :: t = (prettyItems depth ws).toList ++ '\n' :: t' →
    vs = ws ∧ t = t'
  | [], _, _, _, hne, _, _, _, _ => absurd rfl hne
  | _ :: _, [], _, _, _, hne, _, _, _ => absurd rfl hne
  | v :: vs, w :: ws, t, t', _, _, hv, hw, h => by
    rw [properItems, Bool.and_eq_true] at hv hw
    cases vs with
    | nil =>
      cases ws with
      | nil =>
        simp only [toList_item, List.append_assoc] at h
        obtain ⟨hvalue, hrest⟩ := prettyAt_append_injective depth v w hv.1 hw.1 (stops_break t)
          (stops_break t') (List.append_cancel_left h)
        exact ⟨by rw [hvalue], (List.cons.inj hrest).2⟩
      | cons w' ws =>
        simp only [toList_item, toList_items, List.append_assoc, List.cons_append] at h
        have hrest := (prettyAt_append_injective depth v w hv.1 hw.1 (stops_break t)
          (stops_comma _) (List.append_cancel_left h)).2
        -- A comma against the line break after the last item: the lists cannot have different
        -- lengths.
        exact absurd (List.cons.inj hrest).1 (by decide)
    | cons v' vs =>
      cases ws with
      | nil =>
        simp only [toList_item, toList_items, List.append_assoc, List.cons_append] at h
        have hrest := (prettyAt_append_injective depth v w hv.1 hw.1 (stops_comma _)
          (stops_break t') (List.append_cancel_left h)).2
        exact absurd (List.cons.inj hrest).1 (by decide)
      | cons w' ws =>
        simp only [toList_items, List.append_assoc, List.cons_append] at h
        obtain ⟨hvalue, hrest⟩ := prettyAt_append_injective depth v w hv.1 hw.1 (stops_comma _)
          (stops_comma _) (List.append_cancel_left h)
        rw [List.cons.injEq, List.cons.injEq] at hrest
        obtain ⟨hitems, ht⟩ := prettyItems_append_injective depth (v' :: vs) (w' :: ws)
          (List.cons_ne_nil v' vs) (List.cons_ne_nil w' ws) hv.2 hw.2 hrest.2.2
        exact ⟨by rw [hvalue, hitems], ht⟩

/-- The lines of the members, up to the line break after them, are determined. -/
theorem prettyMembers_append_injective (depth : Nat) :
    ∀ (ms ns : List (String × JsonValue)) {t t' : List Char},
    ms ≠ [] → ns ≠ [] → properMembers ms = true → properMembers ns = true →
    (prettyMembers depth ms).toList ++ '\n' :: t = (prettyMembers depth ns).toList ++ '\n' :: t' →
    ms = ns ∧ t = t'
  | [], _, _, _, hne, _, _, _, _ => absurd rfl hne
  | _ :: _, [], _, _, _, hne, _, _, _ => absurd rfl hne
  | (k, v) :: ms, (l, w) :: ns, t, t', _, _, hv, hw, h => by
    rw [properMembers, Bool.and_eq_true] at hv hw
    -- The names are read first, then the values; what follows a value tells whether there is
    -- another member.
    cases ms with
    | nil =>
      cases ns with
      | nil =>
        simp only [toList_member, List.append_assoc, List.cons_append] at h
        obtain ⟨hkey, hafter⟩ := quote_append_injective (List.append_cancel_left h)
        rw [List.cons.injEq, List.cons.injEq] at hafter
        obtain ⟨hvalue, hrest⟩ := prettyAt_append_injective depth v w hv.1 hw.1 (stops_break t)
          (stops_break t') hafter.2.2
        exact ⟨by rw [hkey, hvalue], (List.cons.inj hrest).2⟩
      | cons n ns =>
        simp only [toList_member, toList_members, List.append_assoc, List.cons_append] at h
        have hafter := (quote_append_injective (List.append_cancel_left h)).2
        rw [List.cons.injEq, List.cons.injEq] at hafter
        have hrest := (prettyAt_append_injective depth v w hv.1 hw.1 (stops_break t)
          (stops_comma _) hafter.2.2).2
        exact absurd (List.cons.inj hrest).1 (by decide)
    | cons m ms =>
      cases ns with
      | nil =>
        simp only [toList_member, toList_members, List.append_assoc, List.cons_append] at h
        have hafter := (quote_append_injective (List.append_cancel_left h)).2
        rw [List.cons.injEq, List.cons.injEq] at hafter
        have hrest := (prettyAt_append_injective depth v w hv.1 hw.1 (stops_comma _)
          (stops_break t') hafter.2.2).2
        exact absurd (List.cons.inj hrest).1 (by decide)
      | cons n ns =>
        simp only [toList_members, List.append_assoc, List.cons_append] at h
        obtain ⟨hkey, hafter⟩ := quote_append_injective (List.append_cancel_left h)
        rw [List.cons.injEq, List.cons.injEq] at hafter
        obtain ⟨hvalue, hrest⟩ := prettyAt_append_injective depth v w hv.1 hw.1 (stops_comma _)
          (stops_comma _) hafter.2.2
        rw [List.cons.injEq, List.cons.injEq] at hrest
        obtain ⟨hmembers, ht⟩ := prettyMembers_append_injective depth (m :: ms) (n :: ns)
          (List.cons_ne_nil m ms) (List.cons_ne_nil n ns) hv.2 hw.2 hrest.2.2
        exact ⟨by rw [hkey, hvalue, hmembers], ht⟩

end

/-- A value is known by its pretty text. -/
theorem toStringPretty_injective {v w : JsonValue} (hv : v.proper = true) (hw : w.proper = true)
    (h : toStringPretty v = toStringPretty w) : v = w := by
  have hstop : Stops [] := fun c hc => by cases hc
  exact (prettyAt_append_injective 0 v w hv hw hstop hstop (by
    rw [List.append_nil, List.append_nil, ← toStringPretty, ← toStringPretty, h])).1

end JsonValue

end CanonicalApi
