import CanonicalApi.JsonPretty.Reading

/-!
# `CanonicalApi.JsonPretty.Compact`: a compact text is read in one way

`compact_injective`: two values with the same compact text are the same. The proof goes as for the
pretty text, with what follows a value in the statement. What follows an element or a member begins
with a comma or with the end of its list (`itemsAfter`, `membersAfter`), so the end of a list is
just one more letter.
-/

set_option autoImplicit false

namespace CanonicalApi

namespace JsonValue

/-! ### What follows -/

/-- What follows an element: the end of the array, or a comma and the other elements. -/
def itemsAfter (rest : List Char) : List JsonValue → List Char
  | [] => ']' :: rest
  | v :: vs => ',' :: ((compactItems (v :: vs)).toList ++ ']' :: rest)

/-- What follows a member: the end of the object, or a comma and the other members. -/
def membersAfter (rest : List Char) : List (String × JsonValue) → List Char
  | [] => '\x7d' :: rest
  | m :: ms => ',' :: ((compactMembers (m :: ms)).toList ++ '\x7d' :: rest)

/-- The text of a list of items, with what follows it, is the text of its first item and then what
`itemsAfter` says of the others. -/
theorem toList_compactItems (v : JsonValue) (vs : List JsonValue) (rest : List Char) :
    (compactItems (v :: vs)).toList ++ ']' :: rest =
      (compact v).toList ++ itemsAfter rest vs := by
  cases vs with
  | nil => rw [compactItems, itemsAfter]
  | cons w ws =>
    rw [compactItems, String.toList_append, String.toList_append, itemsAfter, List.append_assoc,
      List.append_assoc]
    · rfl
    · exact List.cons_ne_nil w ws

/-- The text of a list of members, with what follows it, is the first member and then what
`membersAfter` says of the others. -/
theorem toList_compactMembers (k : String) (v : JsonValue) (ms : List (String × JsonValue))
    (rest : List Char) :
    (compactMembers ((k, v) :: ms)).toList ++ '\x7d' :: rest =
      (quote k).toList ++ ':' :: ((compact v).toList ++ membersAfter rest ms) := by
  cases ms with
  | nil =>
    rw [compactMembers, String.toList_append, String.toList_append, membersAfter,
      List.append_assoc, List.append_assoc]
    rfl
  | cons m ms =>
    rw [compactMembers, String.toList_append, String.toList_append, String.toList_append,
      String.toList_append, membersAfter, List.append_assoc, List.append_assoc, List.append_assoc,
      List.append_assoc]
    · rfl
    · exact List.cons_ne_nil m ms

/-- An array is its items between brackets. -/
theorem toList_compactArray (items : List JsonValue) (rest : List Char) :
    (compact (array items)).toList ++ rest =
      '[' :: ((compactItems items).toList ++ ']' :: rest) := by
  rw [compact, String.toList_append, String.toList_append, List.append_assoc, List.append_assoc]
  rfl

/-- An object is its members between braces. -/
theorem toList_compactObject (members : List (String × JsonValue)) (rest : List Char) :
    (compact (object members)).toList ++ rest =
      '\x7b' :: ((compactMembers members).toList ++ '\x7d' :: rest) := by
  rw [compact, String.toList_append, String.toList_append, List.append_assoc, List.append_assoc]
  rfl

/-- What follows an element is no letter of a number. -/
theorem stops_itemsAfter (rest : List Char) (vs : List JsonValue) :
    Stops (itemsAfter rest vs) := by
  cases vs <;> (intro c hc; cases hc; decide)

/-- What follows a member is no letter of a number. -/
theorem stops_membersAfter (rest : List Char) (ms : List (String × JsonValue)) :
    Stops (membersAfter rest ms) := by
  cases ms <;> (intro c hc; cases hc; decide)

/-! ### Values -/

/-- The first letter of a value tells its kind, and is not the end of an array. -/
theorem head_compact (v : JsonValue) (hv : v.proper = true) :
    ∃ c tail, (compact v).toList = c :: tail ∧ kindOfLetter c = v.kind ∧ c ≠ ']' := by
  cases v with
  | null => exact ⟨'n', ['u', 'l', 'l'], by simp [compact], rfl, by decide⟩
  | bool b =>
    cases b with
    | false => exact ⟨'f', ['a', 'l', 's', 'e'], by simp [compact], rfl, by decide⟩
    | true => exact ⟨'t', ['r', 'u', 'e'], by simp [compact], rfl, by decide⟩
  | number n =>
    have hproper : n.proper = true := hv
    obtain ⟨c, tail, htail⟩ := List.exists_cons_of_ne_nil (numberText_ne_nil hproper)
    have hletter := numberLetter_of_mem hproper c (htail ▸ List.mem_cons_self)
    refine ⟨c, tail, htail, kindOfLetter_of_numberLetter hletter, ?_⟩
    -- No number begins with the closing bracket.
    intro hend
    rw [hend] at hletter
    cases hletter
  | string s => exact ⟨'"', _, toList_quote s, rfl, by decide⟩
  | array items =>
    have htext := toList_compactArray items []
    rw [List.append_nil] at htext
    exact ⟨'[', _, htext, rfl, by decide⟩
  | object members =>
    have htext := toList_compactObject members []
    rw [List.append_nil] at htext
    exact ⟨'\x7b', _, htext, rfl, by decide⟩

/-- Two values with the same text in front are of one kind. -/
theorem compact_kind_eq {v w : JsonValue} {r r' : List Char} (hv : v.proper = true)
    (hw : w.proper = true) (h : (compact v).toList ++ r = (compact w).toList ++ r') :
    v.kind = w.kind := by
  obtain ⟨c, tail, hc, hkind, -⟩ := head_compact v hv
  obtain ⟨c', tail', hc', hkind', -⟩ := head_compact w hw
  rw [hc, hc', List.cons_append, List.cons_append, List.cons.injEq] at h
  rw [← hkind, ← hkind', h.1]

/-- The elements of an array do not begin with its end. -/
theorem compactItems_ne_end {v : JsonValue} (hv : v.proper = true) (vs : List JsonValue)
    (rest rest' : List Char) :
    (compactItems (v :: vs)).toList ++ ']' :: rest ≠ ']' :: rest' := by
  intro h
  obtain ⟨c, tail, hc, -, hend⟩ := head_compact v hv
  rw [toList_compactItems, hc, List.cons_append, List.cons.injEq] at h
  exact hend h.1

/-- The members of an object do not begin with its end. -/
theorem compactMembers_ne_end (m : String × JsonValue) (ms : List (String × JsonValue))
    (rest rest' : List Char) :
    (compactMembers (m :: ms)).toList ++ '\x7d' :: rest ≠ '\x7d' :: rest' := by
  intro h
  rw [toList_compactMembers, toList_quote, List.cons_append, List.cons.injEq] at h
  exact absurd h.1 (by decide)

mutual

/-- A value in front of something else is determined by its text. -/
theorem compact_append_injective (v w : JsonValue) {r r' : List Char} (hv : v.proper = true)
    (hw : w.proper = true) (hr : Stops r) (hr' : Stops r')
    (h : (compact v).toList ++ r = (compact w).toList ++ r') : v = w ∧ r = r' := by
  -- The first letter tells the kinds apart, so only equal kinds are left.
  have hkind := compact_kind_eq hv hw h
  cases v with
  | null =>
    cases w with
    | null => exact ⟨rfl, List.append_cancel_left h⟩
    | _ => cases hkind
  | bool b =>
    cases w with
    | bool b' =>
      cases b <;> cases b'
      · exact ⟨rfl, List.append_cancel_left h⟩
      · simp [compact] at h
      · simp [compact] at h
      · exact ⟨rfl, List.append_cancel_left h⟩
    | _ => cases hkind
  | number n =>
    cases w with
    | number m =>
      rw [compact, compact] at h
      obtain ⟨hnumber, hrest⟩ := numberText_append_injective hv hw hr hr' h
      exact ⟨by rw [hnumber], hrest⟩
    | _ => cases hkind
  | string s =>
    cases w with
    | string s' =>
      rw [compact, compact] at h
      obtain ⟨htext, hrest⟩ := quote_append_injective h
      exact ⟨by rw [htext], hrest⟩
    | _ => cases hkind
  | array items =>
    cases w with
    | array items' =>
      rw [toList_compactArray, toList_compactArray, List.cons.injEq] at h
      obtain ⟨hitems, hrest⟩ := compactItems_append_injective items items' hv hw h.2
      exact ⟨by rw [hitems], hrest⟩
    | _ => cases hkind
  | object members =>
    cases w with
    | object members' =>
      rw [toList_compactObject, toList_compactObject, List.cons.injEq] at h
      obtain ⟨hmembers, hrest⟩ := compactMembers_append_injective members members' hv hw h.2
      exact ⟨by rw [hmembers], hrest⟩
    | _ => cases hkind

/-- The elements up to the end of their array are determined. -/
theorem compactItems_append_injective : ∀ (vs ws : List JsonValue) {t t' : List Char},
    properItems vs = true → properItems ws = true →
    (compactItems vs).toList ++ ']' :: t = (compactItems ws).toList ++ ']' :: t' →
    vs = ws ∧ t = t'
  | [], [], _, _, _, _, h => ⟨rfl, (List.cons.inj h).2⟩
  | [], w :: ws, _, _, _, hw, h => by
    rw [properItems, Bool.and_eq_true] at hw
    exact absurd h.symm (compactItems_ne_end hw.1 ws _ _)
  | v :: vs, [], _, _, hv, _, h => by
    rw [properItems, Bool.and_eq_true] at hv
    exact absurd h (compactItems_ne_end hv.1 vs _ _)
  | v :: vs, w :: ws, t, t', hv, hw, h => by
    rw [properItems, Bool.and_eq_true] at hv hw
    rw [toList_compactItems, toList_compactItems] at h
    obtain ⟨rfl, hafter⟩ := compact_append_injective v w hv.1 hw.1 (stops_itemsAfter t vs)
      (stops_itemsAfter t' ws) h
    -- After equal items there stands a comma or the bracket, on both sides the same.
    cases vs with
    | nil =>
      cases ws with
      | nil => exact ⟨rfl, (List.cons.inj hafter).2⟩
      | cons w ws => exact absurd (List.cons.inj hafter).1 (by decide)
    | cons v' vs =>
      cases ws with
      | nil => exact absurd (List.cons.inj hafter).1 (by decide)
      | cons w' ws =>
        obtain ⟨hitems, ht⟩ := compactItems_append_injective (v' :: vs) (w' :: ws) hv.2 hw.2
          (List.cons.inj hafter).2
        exact ⟨by rw [hitems], ht⟩

/-- The members up to the end of their object are determined. -/
theorem compactMembers_append_injective : ∀ (ms ns : List (String × JsonValue)) {t t' : List Char},
    properMembers ms = true → properMembers ns = true →
    (compactMembers ms).toList ++ '\x7d' :: t = (compactMembers ns).toList ++ '\x7d' :: t' →
    ms = ns ∧ t = t'
  | [], [], _, _, _, _, h => ⟨rfl, (List.cons.inj h).2⟩
  | [], n :: ns, _, _, _, _, h => absurd h.symm (compactMembers_ne_end n ns _ _)
  | m :: ms, [], _, _, _, _, h => absurd h (compactMembers_ne_end m ms _ _)
  | (k, v) :: ms, (l, w) :: ns, t, t', hv, hw, h => by
    rw [properMembers, Bool.and_eq_true] at hv hw
    rw [toList_compactMembers, toList_compactMembers] at h
    -- The key ends at its quote, and the value behind the colon is determined by itself.
    obtain ⟨rfl, hvalue⟩ := quote_append_injective h
    obtain ⟨rfl, hafter⟩ := compact_append_injective v w hv.1 hw.1 (stops_membersAfter t ms)
      (stops_membersAfter t' ns) (List.cons.inj hvalue).2
    cases ms with
    | nil =>
      cases ns with
      | nil => exact ⟨rfl, (List.cons.inj hafter).2⟩
      | cons n ns => exact absurd (List.cons.inj hafter).1 (by decide)
    | cons m ms =>
      cases ns with
      | nil => exact absurd (List.cons.inj hafter).1 (by decide)
      | cons n ns =>
        obtain ⟨hmembers, ht⟩ := compactMembers_append_injective (m :: ms) (n :: ns) hv.2 hw.2
          (List.cons.inj hafter).2
        exact ⟨by rw [hmembers], ht⟩

end

/-- A value is known by its compact text. -/
theorem compact_injective {v w : JsonValue} (hv : v.proper = true) (hw : w.proper = true)
    (h : compact v = compact w) : v = w := by
  have hstop : Stops [] := fun c hc => by cases hc
  exact (compact_append_injective v w hv hw hstop hstop (by rw [h])).1

end JsonValue

end CanonicalApi
