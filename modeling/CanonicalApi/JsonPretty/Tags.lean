import CanonicalApi.JsonPretty.Reading
import CanonicalApi.Lib.Occurrences

/-!
# `CanonicalApi.JsonPretty.Tags`: the tags in a pretty text

A tag is a text that begins with `<` and has lowercase letters, `-`, `/`, `<` and `>` only. The
punctuation of JSON and the white space between its parts separate, and the escapes of a JSON
text touch no letter of a tag. So a tag occurs in the pretty text of a value as often as in the
texts and keys of the value (`occurrences_prettyAt`).
-/

set_option autoImplicit false

namespace CanonicalApi.JsonValue

open Occurrences

/-- A letter of a tag. -/
def tagLetter (c : Char) : Bool :=
  c.isLower || c ∈ ['<', '>', '/', '-']

/-- A tag. -/
def isTag (tag : List Char) : Bool :=
  tag.head? = some '<' && tag.all tagLetter

mutual

/-- The texts and keys of a value. -/
def texts : JsonValue → List String
  | string s => [s]
  | array items => textsItems items
  | object members => textsMembers members
  | _ => []

/-- The texts and keys of the elements. -/
def textsItems : List JsonValue → List String
  | [] => []
  | v :: vs => texts v ++ textsItems vs

/-- The texts and keys of the members. -/
def textsMembers : List (String × JsonValue) → List String
  | [] => []
  | (k, v) :: ms => k :: texts v ++ textsMembers ms

end

/-- How often a pattern occurs in the texts. -/
def occurrencesIn (pattern : List Char) (texts : List String) : Nat :=
  (texts.map fun text => occurrences pattern text.toList).sum

/-- Occurrences within the pieces of a text add up over its pieces. -/
theorem occurrencesIn_append (pattern : List Char) (a b : List String) :
    occurrencesIn pattern (a ++ b) = occurrencesIn pattern a + occurrencesIn pattern b := by
  rw [occurrencesIn, List.map_append, List.sum_append]
  rfl

section

variable {tag : List Char} (htag : isTag tag = true)

include htag

/-- A tag is not empty. -/
theorem tag_ne_nil : tag ≠ [] := by
  rintro rfl
  cases htag

/-- The first letter of a tag. -/
theorem tag_head : ∃ rest, tag = '<' :: rest := by
  rw [isTag, Bool.and_eq_true] at htag
  exact List.head?_eq_some_iff.mp (of_decide_eq_true htag.1)

/-- What is no letter of a tag does not occur in one. The punctuation of JSON is of this kind. -/
theorem not_mem_tag {c : Char} (hc : tagLetter c = false) : c ∉ tag := by
  intro hmem
  rw [isTag, Bool.and_eq_true] at htag
  have hletter := List.all_eq_true.mp htag.2 c hmem
  rw [hc] at hletter
  cases hletter

/-- Letters that no tag has separate. -/
theorem apart_tag {letters : List Char} (h : letters.any tagLetter = false) :
    Apart tag letters :=
  fun c hc => not_mem_tag htag (Bool.not_eq_true _ ▸ List.any_eq_false.mp h c hc)

end

/-- A letter of a tag is not escaped, and the others are escaped by a backslash, without `<`. -/
theorem escapeChar_cases (c : Char) :
    escapeChar c = [c] ∨
      tagLetter c = false ∧ ∃ rest, escapeChar c = '\\' :: rest ∧ '<' ∉ rest := by
  have hcontrol : ∀ n < 32, '<' ∉ ['u', '0', '0', hexDigit (n / 16), hexDigit (n % 16)] ∧
      tagLetter (Char.ofNat n) = false := by decide
  unfold escapeChar
  -- The characters with an escape of their own, in the order of the source.
  split
  · next h => subst h; exact .inr ⟨rfl, _, rfl, by decide⟩
  split
  · next h => subst h; exact .inr ⟨rfl, _, rfl, by decide⟩
  split
  · next h => subst h; exact .inr ⟨rfl, _, rfl, by decide⟩
  split
  · next h => subst h; exact .inr ⟨rfl, _, rfl, by decide⟩
  split
  · next h => subst h; exact .inr ⟨rfl, _, rfl, by decide⟩
  split
  · next h => subst h; exact .inr ⟨rfl, _, rfl, by decide⟩
  split
  · next h => subst h; exact .inr ⟨rfl, _, rfl, by decide⟩
  split
  · next h =>
    obtain ⟨hnot, hletter⟩ := hcontrol c.toNat h
    rw [Char.ofNat_toNat] at hletter
    exact .inr ⟨hletter, _, rfl, hnot⟩
  · exact .inl rfl

/-- The beginning of a text is a part of a tag exactly when it is one after escaping. -/
theorem prefix_escape_iff {part : List Char} (hpart : ∀ c ∈ part, tagLetter c = true)
    (s : List Char) : part <+: s.flatMap escapeChar ↔ part <+: s := by
  induction part generalizing s with
  | nil => simp
  | cons x part ih =>
    obtain ⟨hx, hpart⟩ := List.forall_mem_cons.mp hpart
    cases s with
    | nil => simp
    | cons c s =>
      rw [List.flatMap_cons]
      rcases escapeChar_cases c with hsame | ⟨hletter, rest, hescape, -⟩
      · rw [hsame, List.cons_append, List.nil_append, List.cons_prefix_cons, List.cons_prefix_cons,
          ih hpart]
      · -- An escaped character is no letter of a tag, and neither is the backslash before it.
        have hne : x ≠ c := by
          rintro rfl
          rw [hx] at hletter
          cases hletter
        have hne' : x ≠ '\\' := by
          rintro rfl
          cases hx
        rw [hescape, List.cons_append, List.cons_prefix_cons, List.cons_prefix_cons]
        simp [hne, hne']

section

variable {tag : List Char} (htag : isTag tag = true)

include htag

/-- Escaping neither makes nor removes a tag. -/
theorem occurrences_escape (s : List Char) :
    occurrences tag (s.flatMap escapeChar) = occurrences tag s := by
  have hletters : ∀ c ∈ tag, tagLetter c = true := by
    rw [isTag, Bool.and_eq_true] at htag
    exact List.all_eq_true.mp htag.2
  induction s with
  | nil => rfl
  | cons c s ih =>
    have hbegins := prefix_escape_iff hletters (c :: s)
    rw [List.flatMap_cons] at hbegins ⊢
    -- The character stays as it is, or its escape begins with a backslash and holds no angle
    -- bracket.
    rcases escapeChar_cases c with hsame | ⟨hletter, rest, hescape, hrest⟩
    · rw [hsame, List.cons_append, List.nil_append] at hbegins ⊢
      rw [occurrences, occurrences, ih]
      simp only [hbegins]
    · have hnot : ¬ tag <+: c :: s := fun h => by
        obtain ⟨tail, rfl⟩ := tag_head htag
        have hc := (List.cons_prefix_cons.mp h).1
        rw [← hc] at hletter
        cases hletter
      -- No occurrence begins in the escape.
      have hescaped : occurrences tag ('\\' :: (rest ++ s.flatMap escapeChar)) =
          occurrences tag (s.flatMap escapeChar) := by
        obtain ⟨tail, rfl⟩ := tag_head htag
        have hall : '<' ∉ '\\' :: rest := by simp [hrest]
        exact occurrences_append_of_head_not_mem hall tail _
      rw [hescape, List.cons_append, hescaped, ih, occurrences, if_neg hnot, Nat.zero_add]

/-- The tags of a text with its quotes. -/
theorem occurrences_quote (s : String) :
    occurrences tag (quote s).toList = occurrences tag s.toList := by
  have hquote : Apart tag ['"'] := apart_tag htag (by decide)
  have hopen := occurrences_apart_append (tag_ne_nil htag) hquote
    (s.toList.flatMap escapeChar ++ ['"'])
  rw [List.cons_append, List.nil_append] at hopen
  rw [toList_quote, hopen, occurrences_append_apart_end (tag_ne_nil htag) hquote,
    occurrences_escape htag]

/-- A number has no tag. -/
theorem occurrences_number {n : JsonNumber} (hn : n.proper = true) :
    occurrences tag (numberText n).toList = 0 := by
  obtain ⟨rest, rfl⟩ := tag_head htag
  refine occurrences_eq_zero_of_not_mem List.mem_cons_self fun hmem => ?_
  exact absurd (numberLetter_of_mem hn '<' hmem) (by decide)

/-- The indentation separates. -/
theorem occurrences_indent_append (depth : Nat) (rest : List Char) :
    occurrences tag ((indent depth).toList ++ rest) = occurrences tag rest := by
  refine occurrences_apart_append (tag_ne_nil htag) (fun c hc => not_mem_tag htag ?_) rest
  rw [indent, String.toList_ofList] at hc
  rw [List.eq_of_mem_replicate hc]
  rfl

/-- Punctuation between two texts separates them. -/
theorem occurrences_punctuation {s : Char} {m : List Char}
    (h : (s :: m).any tagLetter = false) (a b : List Char) :
    occurrences tag (a ++ s :: (m ++ b)) = occurrences tag a + occurrences tag b :=
  occurrences_append_apart (tag_ne_nil htag) (apart_tag htag h) a b

/-- The brackets around the lines of an array or an object separate. -/
theorem occurrences_brackets {first last : Char} (hfirst : tagLetter first = false)
    (hlast : tagLetter last = false) (depth : Nat) (lines : List Char) :
    occurrences tag (first :: '\n' :: (lines ++ '\n' :: ((indent depth).toList ++ [last]))) =
      occurrences tag lines := by
  -- No tag begins in the line of a bracket or ends in the indentation.
  have hopen : Apart tag [first, '\n'] := by
    refine apart_tag htag ?_
    rw [List.any_cons, hfirst]
    rfl
  have hclose : Apart tag ('\n' :: ((indent depth).toList ++ [last])) := by
    refine fun c hc => not_mem_tag htag ?_
    rw [indent, String.toList_ofList, List.mem_cons, List.mem_append, List.mem_singleton] at hc
    rcases hc with rfl | hc | rfl
    · rfl
    · rw [List.eq_of_mem_replicate hc]
      rfl
    · exact hlast
  have hlines := occurrences_apart_append (tag_ne_nil htag) hopen
    (lines ++ '\n' :: ((indent depth).toList ++ [last]))
  rw [List.cons_append, List.cons_append, List.nil_append] at hlines
  rw [hlines, occurrences_append_apart_end (tag_ne_nil htag) hclose]

mutual

/-- The tags of a pretty text are those of the texts and keys. -/
theorem occurrences_prettyAt (depth : Nat) : ∀ v : JsonValue, v.proper = true →
    occurrences tag (prettyAt depth v).toList = occurrencesIn tag (texts v)
  | null, _ => by
    obtain ⟨rest, rfl⟩ := tag_head htag
    simp only [prettyAt, texts]
    -- The constants have no letter that starts a tag.
    exact occurrences_eq_zero_of_not_mem List.mem_cons_self (by decide)
  | bool true, _ => by
    obtain ⟨rest, rfl⟩ := tag_head htag
    simp only [prettyAt, texts]
    exact occurrences_eq_zero_of_not_mem List.mem_cons_self (by decide)
  | bool false, _ => by
    obtain ⟨rest, rfl⟩ := tag_head htag
    simp only [prettyAt, texts]
    exact occurrences_eq_zero_of_not_mem List.mem_cons_self (by decide)
  | number n, hv => by
    simp only [prettyAt, texts]
    exact occurrences_number htag hv
  | string s, _ => by
    simp only [prettyAt, texts, occurrencesIn, List.map_cons, List.map_nil, List.sum_cons,
      List.sum_nil, Nat.add_zero]
    exact occurrences_quote htag s
  | array [], _ => by
    obtain ⟨rest, rfl⟩ := tag_head htag
    have hempty : (prettyAt depth (array [])).toList = ['[', ']'] := by simp [prettyAt]
    rw [hempty]
    exact occurrences_eq_zero_of_not_mem List.mem_cons_self (by decide)
  | array (v :: vs), hv => by
    rw [toList_array, occurrences_brackets htag rfl rfl, texts]
    -- Punctuation and indentation are no letters of a tag, so no occurrence crosses an item.
    exact occurrences_prettyItems (depth + 1) (v :: vs) hv
  | object [], _ => by
    obtain ⟨rest, rfl⟩ := tag_head htag
    have hempty : (prettyAt depth (object [])).toList = ['\x7b', '\x7d'] := by simp [prettyAt]
    rw [hempty]
    exact occurrences_eq_zero_of_not_mem List.mem_cons_self (by decide)
  | object (m :: ms), hv => by
    rw [toList_object, occurrences_brackets htag rfl rfl, texts]
    exact occurrences_prettyMembers (depth + 1) (m :: ms) hv

/-- The tags in the lines of the elements. -/
theorem occurrences_prettyItems (depth : Nat) : ∀ vs : List JsonValue, properItems vs = true →
    occurrences tag (prettyItems depth vs).toList = occurrencesIn tag (textsItems vs)
  | [], _ => rfl
  | [v], hv => by
    rw [properItems, Bool.and_eq_true] at hv
    rw [toList_item, occurrences_indent_append htag, occurrences_prettyAt depth v hv.1, textsItems,
      textsItems, List.append_nil]
  | v :: w :: vs, hv => by
    rw [properItems, Bool.and_eq_true] at hv
    have hcomma := occurrences_punctuation htag (s := ',') (m := ['\n']) (by decide)
      (prettyAt depth v).toList (prettyItems depth (w :: vs)).toList
    rw [List.cons_append, List.nil_append] at hcomma
    have htexts : textsItems (v :: w :: vs) = texts v ++ textsItems (w :: vs) := by rw [textsItems]
    rw [toList_items, occurrences_indent_append htag, hcomma, occurrences_prettyAt depth v hv.1,
      occurrences_prettyItems depth (w :: vs) hv.2, htexts, occurrencesIn_append]

/-- The tags in the lines of the members. -/
theorem occurrences_prettyMembers (depth : Nat) : ∀ ms : List (String × JsonValue),
    properMembers ms = true →
    occurrences tag (prettyMembers depth ms).toList = occurrencesIn tag (textsMembers ms)
  | [], _ => rfl
  | [(k, v)], hv => by
    rw [properMembers, Bool.and_eq_true] at hv
    have hcolon := occurrences_punctuation htag (s := ':') (m := [' ']) (by decide)
      (quote k).toList (prettyAt depth v).toList
    rw [List.cons_append, List.nil_append] at hcolon
    rw [toList_member, occurrences_indent_append htag, hcolon, occurrences_quote htag,
      occurrences_prettyAt depth v hv.1, textsMembers, textsMembers, List.append_nil,
      occurrencesIn, occurrencesIn, List.map_cons, List.sum_cons]
  | (k, v) :: m :: ms, hv => by
    rw [properMembers, Bool.and_eq_true] at hv
    -- The member is cut at its colon and at the comma behind it.
    have hcomma := occurrences_punctuation htag (s := ',') (m := ['\n']) (by decide)
      (prettyAt depth v).toList (prettyMembers depth (m :: ms)).toList
    have hcolon := occurrences_punctuation htag (s := ':') (m := [' ']) (by decide)
      (quote k).toList ((prettyAt depth v).toList ++
        ',' :: '\n' :: (prettyMembers depth (m :: ms)).toList)
    rw [List.cons_append, List.nil_append] at hcomma hcolon
    have hrest := occurrences_prettyMembers depth (m :: ms) hv.2
    have hkey : occurrencesIn tag [k] = occurrences tag k.toList := by simp [occurrencesIn]
    have htexts : textsMembers ((k, v) :: m :: ms) =
        [k] ++ texts v ++ textsMembers (m :: ms) := by simp [textsMembers]
    rw [toList_members, occurrences_indent_append htag, hcolon, hcomma, occurrences_quote htag,
      occurrences_prettyAt depth v hv.1, hrest, htexts, occurrencesIn_append, occurrencesIn_append,
      hkey, Nat.add_assoc]

end

end

/-- The tags of what `to_string_pretty` prints. -/
theorem occurrences_toStringPretty {tag : List Char} (htag : isTag tag = true) {v : JsonValue}
    (hv : v.proper = true) :
    occurrences tag (toStringPretty v).toList = occurrencesIn tag (texts v) :=
  occurrences_prettyAt htag 0 v hv

end CanonicalApi.JsonValue
