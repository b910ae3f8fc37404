import CanonicalApi.PreInterest.Validation
import Mathlib.Data.List.DropRight
import Mathlib.Data.List.TakeDrop

/-!
# `CanonicalApi.PreInterest.Normalizers`: what each normalizer accepts

One lemma for each normalizer of `pre_interest.rs` says what it accepts and what it returns,
and another that it returns its own results unchanged. Lower case changes nothing twice, and
words that are joined by one space split into the same words.
-/

set_option autoImplicit false

namespace CanonicalApi

open Outcome (bind_eq_ok_iff ite_error_eq_ok_iff)

/-! ### Lists split at a separator -/

section

variable {α β : Type}

/-- The parts of a split contain items of the list that are no separators. -/
theorem mem_of_mem_splitOnP {p : α → Bool} {l w : List α} (hw : w ∈ l.splitOnP p) {c : α}
    (hc : c ∈ w) : c ∈ l ∧ p c = false := by
  induction l generalizing w with
  | nil =>
    rw [List.splitOnP_nil, List.mem_singleton] at hw
    exact absurd (hw ▸ hc) List.not_mem_nil
  | cons x l ih =>
    rw [List.splitOnP_cons_eq_if_modifyHead] at hw
    split at hw
    · -- The head is a separator: it starts a new part.
      rcases List.mem_cons.mp hw with rfl | hw
      · exact absurd hc List.not_mem_nil
      · have hrest := ih hw hc
        exact ⟨List.mem_cons_of_mem _ hrest.1, hrest.2⟩
    · next hx =>
      -- The head belongs to the first part.
      cases hparts : l.splitOnP p with
      | nil => exact absurd hparts (List.splitOnP_ne_nil _ _)
      | cons first parts =>
        rw [hparts, List.modifyHead_cons] at hw
        rcases List.mem_cons.mp hw with rfl | hw
        · rcases List.mem_cons.mp hc with rfl | hc
          · exact ⟨List.mem_cons_self, Bool.eq_false_iff.mpr hx⟩
          · have hfirst := ih (hparts ▸ List.mem_cons_self) hc
            exact ⟨List.mem_cons_of_mem _ hfirst.1, hfirst.2⟩
        · have hrest := ih (hparts ▸ List.mem_cons_of_mem _ hw) hc
          exact ⟨List.mem_cons_of_mem _ hrest.1, hrest.2⟩

/-- A map that neither makes nor hides separators acts on the parts. -/
theorem splitOn_map [DecidableEq α] [DecidableEq β] {f : α → β} {a : α} {b : β}
    (hf : ∀ x, f x = b ↔ x = a) (l : List α) :
    (l.map f).splitOn b = (l.splitOn a).map (List.map f) := by
  induction l with
  | nil => rfl
  | cons x l ih =>
    rw [List.map_cons, List.splitOn_cons_eq_if_modifyHead, List.splitOn_cons_eq_if_modifyHead,
      ih]
    by_cases hx : x = a
    · have hfx := (hf x).mpr hx
      rw [if_pos (by simpa using hfx), if_pos (by simpa using hx), List.map_cons, List.map_nil]
    · have hfx : f x ≠ b := fun h => hx ((hf x).mp h)
      rw [if_neg (by simpa using hfx), if_neg (by simpa using hx)]
      cases l.splitOn a with
      | nil => rfl
      | cons part parts => rfl

/-- An item of a joined list is the separator or comes from one of the parts. -/
theorem mem_intercalate {s c : α} {parts : List (List α)} (h : c ∈ [s].intercalate parts) :
    c = s ∨ ∃ part ∈ parts, c ∈ part := by
  induction parts with
  | nil => exact absurd h List.not_mem_nil
  | cons part parts ih =>
    cases parts with
    | nil =>
      rw [List.intercalate_singleton] at h
      exact .inr ⟨part, List.mem_cons_self, h⟩
    | cons next parts =>
      rw [List.intercalate_cons_cons, List.mem_append, List.mem_append,
        List.mem_singleton] at h
      rcases h with (h | h) | h
      · exact .inr ⟨part, List.mem_cons_self, h⟩
      · exact .inl h
      · rcases ih h with h | ⟨found, hfound, hc⟩
        · exact .inl h
        · exact .inr ⟨found, List.mem_cons_of_mem _ hfound, hc⟩

end

namespace PreInterest

/-! ### Words -/

/-- The words of a text are not empty and contain no white space. -/
theorem word_of_mem {text word : List Char} (h : word ∈ splitWhitespace text) :
    word ≠ [] ∧ ∀ c ∈ word, c ∈ text ∧ isWhitespace c = false := by
  rw [splitWhitespace, List.mem_filter, decide_eq_true_iff] at h
  exact ⟨h.2, fun c hc => mem_of_mem_splitOnP h.1 hc⟩

/-- Words that are joined by one space split into the same words. -/
theorem splitWhitespace_intercalate {words : List (List Char)}
    (h : ∀ word ∈ words, word ≠ [] ∧ ∀ c ∈ word, isWhitespace c = false) :
    splitWhitespace ([' '].intercalate words) = words := by
  unfold splitWhitespace
  induction words with
  | nil => rfl
  | cons word words ih =>
    obtain ⟨hword, hwords⟩ := List.forall_mem_cons.mp h
    cases words with
    | nil =>
      rw [List.intercalate_singleton, List.splitOnP_eq_singleton hword.2,
        List.filter_cons_of_pos (by simpa using hword.1), List.filter_nil]
    | cons next words =>
      rw [List.intercalate_cons_cons, List.append_assoc, List.singleton_append,
        List.splitOnP_append_cons_of_forall_mem hword.2 ' ' (by decide),
        List.filter_cons_of_pos (by simpa using hword.1), ih hwords]

/-- What `normalize_human_text` accepts, and what it returns. -/
theorem normalizeHumanText_eq_ok_iff (value : String) (maxChars : Nat)
    (error : ValidationError) (text : String) :
    normalizeHumanText value maxChars error = .ok text ↔
      (∀ c ∈ value.toList, isControl c = false) ∧
        text.toList = [' '].intercalate (splitWhitespace value.toList) ∧
          text.toList ≠ [] ∧ text.toList.length ≤ maxChars := by
  unfold normalizeHumanText
  dsimp only
  -- First the control characters of the value, then the bounds of the joined words.
  rw [ite_error_eq_ok_iff, ite_error_eq_ok_iff, List.any_eq_true, String.toList_ofList, not_or,
    Nat.not_lt, Except.ok.injEq]
  constructor
  · rintro ⟨hcontrol, ⟨hne, hlength⟩, rfl⟩
    rw [String.toList_ofList]
    exact ⟨fun c hc => by simpa using fun h => hcontrol ⟨c, hc, h⟩, rfl, hne, hlength⟩
  · rintro ⟨hcontrol, htext, hne, hlength⟩
    rw [← htext, String.ofList_toList]
    refine ⟨?_, ⟨hne, hlength⟩, rfl⟩
    rintro ⟨c, hc, h⟩
    rw [hcontrol c hc] at h
    cases h

/-- A normalized text has no control characters. -/
theorem not_control_of_normalizeHumanText {value text : String} {maxChars : Nat}
    {error : ValidationError} (h : normalizeHumanText value maxChars error = .ok text) :
    ∀ c ∈ text.toList, isControl c = false := by
  obtain ⟨hcontrol, htext, -⟩ := (normalizeHumanText_eq_ok_iff _ _ _ _).mp h
  intro c hc
  rw [htext] at hc
  rcases mem_intercalate hc with rfl | ⟨word, hword, hc⟩
  · decide
  · exact hcontrol c ((word_of_mem hword).2 c hc).1

/-- `normalize_human_text` is idempotent. -/
theorem normalizeHumanText_idempotent {value text : String} {maxChars : Nat}
    {error : ValidationError} (h : normalizeHumanText value maxChars error = .ok text) :
    normalizeHumanText text maxChars error = .ok text := by
  have hcontrol := not_control_of_normalizeHumanText h
  obtain ⟨-, htext, hne, hlength⟩ := (normalizeHumanText_eq_ok_iff _ _ _ _).mp h
  have hwords : splitWhitespace text.toList = splitWhitespace value.toList := by
    rw [htext]
    apply splitWhitespace_intercalate
    intro word hword
    have hw := word_of_mem hword
    exact ⟨hw.1, fun c hc => (hw.2 c hc).2⟩
  rw [normalizeHumanText_eq_ok_iff, hwords]
  exact ⟨hcontrol, htext, hne, hlength⟩

/-! ### Email addresses -/

/-- A property of the ASCII characters is checked on each of them. -/
theorem forall_ascii {P : Char → Prop} (h : ∀ n < 128, P (Char.ofNat n)) {c : Char}
    (hc : c.toNat < 128) : P c := by
  have hP := h c.toNat hc
  rwa [Char.ofNat_toNat] at hP

/-- A property of the characters of a text is checked on each of them. -/
theorem forall_mem_of_all {P : Char → Prop} [DecidablePred P] {text : List Char}
    (h : text.all (fun c => decide (P c)) = true) : ∀ c ∈ text, P c :=
  fun c hc => of_decide_eq_true (List.all_eq_true.mp h c hc)

/-- What lower case keeps of an ASCII character. -/
theorem toAsciiLowercase_spec {c : Char} (hc : c.toNat < 128) :
    (toAsciiLowercase c).toNat < 128 ∧
      toAsciiLowercase (toAsciiLowercase c) = toAsciiLowercase c ∧
      isControl (toAsciiLowercase c) = isControl c ∧
      isWhitespace (toAsciiLowercase c) = isWhitespace c ∧
      isAsciiAlphanumeric (UInt8.ofNat (toAsciiLowercase c).toNat)
        = isAsciiAlphanumeric (UInt8.ofNat c.toNat) ∧
      (∀ kept ∈ ['@', '.', '-'], toAsciiLowercase c = kept ↔ c = kept) := by
  rw [List.forall_mem_cons, List.forall_mem_cons, List.forall_mem_singleton]
  revert c
  apply forall_ascii
  decide

/-- An address of which `normalize_email` finds the two parts. The first at sign parts them, and the
checks on the parts are those of `validEmailParts`. -/
structure IsAddress (address localPart domain : String) : Prop where
  text : address.toList = localPart.toList ++ '@' :: domain.toList
  first : '@' ∉ localPart.toList
  short : len address ≤ maxEmailBytes
  ascii : ∀ c ∈ address.toList, c.toNat < 128
  plain : ∀ c ∈ address.toList, isControl c = false ∧ isWhitespace c = false
  valid : validEmailParts localPart domain = true

/-- `split_once` finds the first separator. -/
theorem splitOnce_eq_some_iff (value : String) (separator : Char) (before after : String) :
    splitOnce value separator = some (before, after) ↔
      value.toList = before.toList ++ separator :: after.toList ∧
        separator ∉ before.toList := by
  have hjoin := List.takeWhile_append_dropWhile (p := (· ≠ separator)) (l := value.toList)
  unfold splitOnce
  rw [List.span_eq_takeWhile_dropWhile]
  constructor
  · intro h
    cases hdrop : value.toList.dropWhile (· ≠ separator) with
    | nil =>
      rw [hdrop] at h
      cases h
    | cons c rest =>
      rw [hdrop] at h hjoin
      cases h
      have hne : value.toList.dropWhile (· ≠ separator) ≠ [] := by
        rw [hdrop]
        exact List.cons_ne_nil _ _
      -- The first character that is not passed over is the separator.
      have hc := List.head_dropWhile_not (· ≠ separator) hne
      simp only [hdrop, List.head_cons, decide_eq_false_iff_not, not_not] at hc
      subst hc
      rw [String.toList_ofList, String.toList_ofList, hjoin]
      refine ⟨rfl, fun hmem => ?_⟩
      have hkept := List.mem_takeWhile_imp hmem
      simp at hkept
  · rintro ⟨htext, hfirst⟩
    have hbefore : ∀ c ∈ before.toList, decide (c ≠ separator) = true := by
      intro c hc
      exact decide_eq_true fun h => hfirst (h ▸ hc)
    rw [htext, List.takeWhile_append_of_pos hbefore, List.dropWhile_append_of_pos hbefore,
      List.takeWhile_cons_of_neg (by simp), List.dropWhile_cons_of_neg (by simp),
      List.append_nil]
    show some (String.ofList before.toList, String.ofList after.toList) = some (before, after)
    rw [String.ofList_toList, String.ofList_toList]

/-- What `normalize_email` accepts, and what it returns. -/
theorem normalizeEmail_eq_ok_iff (value email : String) :
    normalizeEmail value = .ok email ↔
      ∃ localPart domain, IsAddress (trim value) localPart domain ∧
        email = lowercase localPart ++ "@" ++ lowercase domain := by
  unfold normalizeEmail
  dsimp only
  rw [ite_error_eq_ok_iff]
  constructor
  · rintro ⟨hchecks, h⟩
    rw [not_or, not_or, not_or] at hchecks
    -- The emptiness check says nothing more, because an address has an at sign.
    obtain ⟨-, hshort, hascii, hplain⟩ := hchecks
    cases hparts : splitOnce (trim value) '@' with
    | none =>
      rw [hparts] at h
      cases h
    | some parts =>
      obtain ⟨localPart, domain⟩ := parts
      rw [hparts] at h
      obtain ⟨hvalid, h⟩ := (ite_error_eq_ok_iff _ _ _ _).mp h
      obtain ⟨htext, hfirst⟩ := (splitOnce_eq_some_iff _ _ _ _).mp hparts
      refine ⟨localPart, domain, ⟨htext, hfirst, Nat.not_lt.mp hshort, ?_, ?_, ?_⟩, ?_⟩
      · simpa [isAscii] using hascii
      · simpa using hplain
      · simpa using hvalid
      · cases h
        rfl
  · rintro ⟨localPart, domain, haddress, rfl⟩
    have hparts := (splitOnce_eq_some_iff _ _ _ _).mpr ⟨haddress.text, haddress.first⟩
    refine ⟨?_, ?_⟩
    · rw [not_or, not_or, not_or]
      refine ⟨?_, Nat.not_lt.mpr haddress.short, ?_, ?_⟩
      · -- An address is not empty.
        simp [haddress.text]
      · simpa [isAscii] using haddress.ascii
      · simpa using haddress.plain
    · rw [hparts]
      exact if_neg (by simp [haddress.valid])

/-- The characters of a text in lower case. -/
theorem toList_lowercase (value : String) :
    (lowercase value).toList = value.toList.map toAsciiLowercase :=
  String.toList_ofList

/-- An ASCII text has as many bytes in lower case. -/
theorem len_lowercase {value : String} (h : ∀ c ∈ value.toList, c.toNat < 128) :
    len (lowercase value) = len value := by
  have hlower : ∀ c ∈ (lowercase value).toList, c.toNat < 128 := by
    intro c hc
    rw [toList_lowercase] at hc
    obtain ⟨d, hd, rfl⟩ := List.mem_map.mp hc
    exact (toAsciiLowercase_spec (h d hd)).1
  rw [len, len, bytes_eq_map hlower, bytes_eq_map h, toList_lowercase, List.length_map,
    List.length_map, List.length_map]

/-- Lower case is reached at once, for ASCII texts. For other letters one mapping can enable
another. -/
theorem lowercase_lowercase {value : String} (h : ∀ c ∈ value.toList, c.toNat < 128) :
    lowercase (lowercase value) = lowercase value := by
  apply String.toList_inj.mp
  rw [toList_lowercase, toList_lowercase, List.map_map]
  apply List.map_congr_left
  intro c hc
  exact (toAsciiLowercase_spec (h c hc)).2.1

/-- The characters that separate the parts of an address stay where they are, and no other
character becomes one. -/
theorem toAsciiLowercase_eq_iff (kept : Char) (hkept : kept ∈ ['@', '.', '-']) (c : Char) :
    toAsciiLowercase c = kept ↔ c = kept := by
  by_cases hc : c.toNat < 128
  · exact (toAsciiLowercase_spec hc).2.2.2.2.2 kept hkept
  · rw [toAsciiLowercase, if_neg (by omega)]

/-- A position holds a separator in lower case exactly when it held it before. -/
theorem map_toAsciiLowercase_eq_some_iff (kept : Char) (hkept : kept ∈ ['@', '.', '-'])
    (position : Option Char) :
    position.map toAsciiLowercase = some kept ↔ position = some kept := by
  cases position with
  | none => simp
  | some c => rw [Option.map_some, Option.some.injEq, Option.some.injEq,
      toAsciiLowercase_eq_iff _ hkept]

/-- A separator occurs in lower case exactly when it occurred before. -/
theorem mem_lowercase_iff {kept : Char} (hkept : kept ∈ ['@', '.', '-']) (value : String) :
    kept ∈ (lowercase value).toList ↔ kept ∈ value.toList := by
  rw [toList_lowercase, List.mem_map]
  constructor
  · rintro ⟨c, hc, heq⟩
    rwa [(toAsciiLowercase_eq_iff _ hkept c).mp heq] at hc
  · intro h
    exact ⟨kept, h, (toAsciiLowercase_eq_iff _ hkept kept).mpr rfl⟩

/-- The bytes of a domain label are ASCII. -/
theorem labelByte_lt {byte : UInt8} (h : (isAsciiAlphanumeric byte || byte == 45) = true) :
    byte < 128 := by
  simp only [isAsciiAlphanumeric, isAsciiDigit, Bool.or_eq_true, Bool.and_eq_true,
    decide_eq_true_iff, beq_iff_eq, UInt8.le_iff_toNat_le, UInt8.reduceToNat] at h
  rw [UInt8.lt_iff_toNat_lt]
  show byte.toNat < 128
  rcases h with ((h | h) | h) | h
  · omega
  · omega
  · omega
  · rw [h]
    decide

/-- A label of a domain is one in lower case too. -/
theorem validDomainLabel_lowercase {label : String} (h : validDomainLabel label = true) :
    validDomainLabel (lowercase label) = true := by
  have hhyphen := map_toAsciiLowercase_eq_some_iff '-' (by decide)
  simp only [validDomainLabel, Bool.and_eq_true, decide_eq_true_iff] at h ⊢
  obtain ⟨⟨⟨hne, hhead⟩, hlast⟩, hbytes⟩ := h
  have hchars := (chars_of_all_bytes hbytes fun _ => labelByte_lt).1
  refine ⟨⟨⟨?_, ?_⟩, ?_⟩, all_bytes_of_chars ?_⟩
  · rw [toList_lowercase]
    simpa using hne
  · rwa [toList_lowercase, List.head?_map, ne_eq, hhyphen]
  · rwa [toList_lowercase, List.getLast?_map, ne_eq, hhyphen]
  · intro c hc
    rw [toList_lowercase] at hc
    obtain ⟨d, hd, rfl⟩ := List.mem_map.mp hc
    obtain ⟨hascii, hbyte⟩ := hchars d hd
    obtain ⟨hlower, -, -, -, halnum, hkept⟩ := toAsciiLowercase_spec hascii
    refine ⟨hlower, ?_⟩
    rw [Bool.or_eq_true, beq_iff_eq] at hbyte ⊢
    rw [halnum]
    rcases hbyte with hbyte | hbyte
    · exact .inl hbyte
    · -- The one byte of a label that is no letter or digit is the hyphen, which stays.
      refine .inr ?_
      have hd : d = '-' := by
        apply Char.toNat_inj.mp
        have hnat := congrArg UInt8.toNat hbyte
        rw [UInt8.toNat_ofNat_of_lt' (by simp only [UInt8.size]; omega)] at hnat
        exact hnat
      rw [hd]
      decide

/-- Two dots in a row are in lower case what they were. -/
theorem dots_infix_lowercase_iff (value : String) :
    ['.', '.'] <:+: (lowercase value).toList ↔ ['.', '.'] <:+: value.toList := by
  have hdot := toAsciiLowercase_eq_iff '.' (by decide)
  rw [toList_lowercase]
  constructor
  · rintro ⟨before, after, heq⟩
    obtain ⟨front, back, htext, hfront, -⟩ := List.map_eq_append_iff.mp heq.symm
    obtain ⟨first, rest, rfl, -, hdots⟩ := List.map_eq_append_iff.mp hfront
    obtain ⟨a, l, rfl, ha, hl⟩ := List.map_eq_cons_iff.mp hdots
    obtain ⟨b, l', rfl, hb, hl'⟩ := List.map_eq_cons_iff.mp hl
    rw [List.map_eq_nil_iff.mp hl', (hdot a).mp ha, (hdot b).mp hb] at htext
    exact ⟨first, back, htext.symm⟩
  · rintro ⟨before, after, heq⟩
    refine ⟨before.map toAsciiLowercase, after.map toAsciiLowercase, ?_⟩
    rw [← heq, List.map_append, List.map_append]
    rfl

/-- The parts of an address are valid in lower case too. -/
theorem validEmailParts_lowercase {localPart domain : String}
    (h : validEmailParts localPart domain = true) :
    validEmailParts (lowercase localPart) (lowercase domain) = true := by
  have hdot := map_toAsciiLowercase_eq_some_iff '.' (by decide)
  simp only [validEmailParts, Bool.and_eq_true, decide_eq_true_iff, Bool.not_eq_true',
    decide_eq_false_iff_not, List.all_eq_true] at h ⊢
  obtain ⟨⟨⟨⟨⟨⟨⟨hlocal, hdomain⟩, hat⟩, hhead⟩, hlast⟩, hdots⟩, hdotted⟩, hlabels⟩ := h
  refine ⟨⟨⟨⟨⟨⟨⟨?_, ?_⟩, ?_⟩, ?_⟩, ?_⟩, ?_⟩, ?_⟩, ?_⟩
  · rw [toList_lowercase]
    simpa using hlocal
  · rw [toList_lowercase]
    simpa using hdomain
  · rwa [mem_lowercase_iff (by decide)]
  · rwa [toList_lowercase, List.head?_map, ne_eq, hdot]
  · rwa [toList_lowercase, List.getLast?_map, ne_eq, hdot]
  · rwa [dots_infix_lowercase_iff]
  · rwa [mem_lowercase_iff (by decide)]
  · intro label hlabel
    rw [toList_lowercase, splitOn_map (toAsciiLowercase_eq_iff _ (by decide))] at hlabel
    obtain ⟨part, hpart, rfl⟩ := List.mem_map.mp hlabel
    have hvalid := validDomainLabel_lowercase (hlabels part hpart)
    rwa [lowercase, String.toList_ofList] at hvalid

/-- An address in lower case is an address. -/
theorem IsAddress.lowercase {address localPart domain : String}
    (h : IsAddress address localPart domain) :
    IsAddress (CanonicalApi.lowercase localPart ++ "@" ++ CanonicalApi.lowercase domain)
      (CanonicalApi.lowercase localPart) (CanonicalApi.lowercase domain) := by
  -- Lowering the parts is lowering the whole.
  have hlower : CanonicalApi.lowercase localPart ++ "@" ++ CanonicalApi.lowercase domain
      = CanonicalApi.lowercase address := by
    apply String.toList_inj.mp
    rw [String.toList_append, String.toList_append, toList_lowercase, toList_lowercase,
      toList_lowercase, h.text, List.map_append, List.map_cons, List.append_assoc]
    rfl
  have hspec : ∀ c ∈ (CanonicalApi.lowercase address).toList,
      c.toNat < 128 ∧ isControl c = false ∧ isWhitespace c = false := by
    intro c hc
    rw [toList_lowercase] at hc
    obtain ⟨d, hd, rfl⟩ := List.mem_map.mp hc
    obtain ⟨hascii, -, hcontrol, hspace, -⟩ := toAsciiLowercase_spec (h.ascii d hd)
    rw [hcontrol, hspace]
    exact ⟨hascii, h.plain d hd⟩
  exact {
    text := by
      rw [String.toList_append, String.toList_append, List.append_assoc]
      rfl
    first := by
      rw [mem_lowercase_iff (by decide)]
      exact h.first
    short := by
      rw [hlower, len_lowercase h.ascii]
      exact h.short
    ascii := by
      rw [hlower]
      exact fun c hc => (hspec c hc).1
    plain := by
      rw [hlower]
      exact fun c hc => (hspec c hc).2
    valid := validEmailParts_lowercase h.valid }

/-- `normalize_email` is idempotent. -/
theorem normalizeEmail_idempotent {value email : String}
    (h : normalizeEmail value = .ok email) : normalizeEmail email = .ok email := by
  obtain ⟨localPart, domain, haddress, rfl⟩ := (normalizeEmail_eq_ok_iff _ _).mp h
  have hlower := haddress.lowercase
  have hascii := haddress.ascii
  rw [haddress.text] at hascii
  rw [normalizeEmail_eq_ok_iff, trim_eq_self fun c hc => (hlower.plain c hc).2]
  refine ⟨_, _, hlower, ?_⟩
  rw [lowercase_lowercase fun c hc => hascii c (List.mem_append_left _ hc),
    lowercase_lowercase fun c hc =>
      hascii c (List.mem_append_right _ (List.mem_cons_of_mem _ hc))]

/-! ### Fields that are only trimmed -/

/-- A field that is trimmed and checked is accepted again as it is. -/
theorem trimmed_again {normalize : String → Except ValidationError String} {P : String → Prop}
    (hspec : ∀ value text, normalize value = .ok text ↔ text = trim value ∧ P text)
    {value text : String} (h : normalize value = .ok text) : normalize text = .ok text := by
  obtain ⟨htext, hP⟩ := (hspec _ _).mp h
  refine (hspec _ _).mpr ⟨?_, hP⟩
  rw [htext, trim_trim]

/-- An identifier is accepted when its trimmed text is portable. -/
theorem normalizeIdentifier_eq_ok_iff (maxBytes : Nat) (error : ValidationError)
    (value text : String) :
    normalizeIdentifier maxBytes error value = .ok text ↔
      text = trim value ∧ isPortableIdentifier text maxBytes = true := by
  unfold normalizeIdentifier
  dsimp only
  rw [ite_error_eq_ok_iff, Except.ok.injEq, Bool.not_eq_true', Bool.not_eq_false]
  constructor
  · rintro ⟨hcheck, rfl⟩
    exact ⟨rfl, hcheck⟩
  · rintro ⟨rfl, hcheck⟩
    exact ⟨hcheck, rfl⟩

/-- A locale is accepted when its trimmed text is one. -/
theorem normalizeLocale_eq_ok_iff (value text : String) :
    normalizeLocale value = .ok text ↔
      text = trim value ∧ 2 ≤ len text ∧ len text ≤ maxLocaleBytes ∧ isLocale text = true := by
  unfold normalizeLocale
  dsimp only
  rw [ite_error_eq_ok_iff, Except.ok.injEq, not_or, not_or, Nat.not_lt, Nat.not_lt,
    Bool.not_eq_true', Bool.not_eq_false]
  constructor
  · rintro ⟨hchecks, rfl⟩
    exact ⟨rfl, hchecks⟩
  · rintro ⟨rfl, hchecks⟩
    exact ⟨hchecks, rfl⟩

/-- A time of consent is accepted when its trimmed text is an RFC 3339 time stamp. -/
theorem normalizeConsentedAt_eq_ok_iff (value text : String) :
    normalizeConsentedAt value = .ok text ↔ text = trim value ∧ isRfc3339 text = true := by
  unfold normalizeConsentedAt
  dsimp only
  rw [ite_error_eq_ok_iff, Except.ok.injEq, Bool.not_eq_true', Bool.not_eq_false]
  constructor
  · rintro ⟨hcheck, rfl⟩
    exact ⟨rfl, hcheck⟩
  · rintro ⟨rfl, hcheck⟩
    exact ⟨hcheck, rfl⟩

/-- A portable identifier is within its bound. -/
theorem len_le_of_isPortableIdentifier {value : String} {maxBytes : Nat}
    (h : isPortableIdentifier value maxBytes = true) :
    len value ≤ maxBytes ∧ (bytes value).all portableByte = true := by
  unfold isPortableIdentifier at h
  split at h
  · cases h
  · next first rest hbytes =>
    simp only [Bool.and_eq_true, decide_eq_true_iff] at h
    rw [len, hbytes]
    exact ⟨h.1.1, h.2⟩

/-! ### Interests -/

/-- Sorting and removing repetitions keeps the interests that are there. -/
theorem mem_areaSet (area : InterestArea) (interestAreas : List InterestArea) :
    area ∈ areaSet interestAreas ↔ area ∈ interestAreas := by
  rw [areaSet, List.mem_filter, decide_eq_true_iff]
  exact and_iff_right (InterestArea.mem_all area)

/-- The set of areas depends on which areas are given, not on how. -/
theorem areaSet_congr {interestAreas interestAreas' : List InterestArea}
    (h : ∀ area, area ∈ interestAreas ↔ area ∈ interestAreas') :
    areaSet interestAreas = areaSet interestAreas' := by
  apply List.filter_congr
  intro area _
  exact decide_eq_decide.mpr (h area)

/-- Normalized interests normalize to themselves. -/
theorem normalizeInterests_idempotent {given areas : List InterestArea}
    (h : normalizeInterests given = .ok areas) : normalizeInterests areas = .ok areas := by
  unfold normalizeInterests at h
  obtain ⟨hne, h⟩ := (ite_error_eq_ok_iff _ _ _ _).mp h
  obtain ⟨hcount, h⟩ := (ite_error_eq_ok_iff _ _ _ _).mp h
  obtain ⟨hdistinct, h⟩ := (ite_error_eq_ok_iff _ _ _ _).mp h
  cases h
  have hlength := not_not.mp hdistinct
  have hsame : areaSet (areaSet given) = areaSet given :=
    areaSet_congr fun area => mem_areaSet area given
  have hset : areaSet given ≠ [] := by
    intro hnil
    rw [hnil, List.length_nil] at hlength
    exact hne (List.length_eq_zero_iff.mp hlength.symm)
  unfold normalizeInterests
  rw [hsame, if_neg hset, if_neg (by omega), if_neg (by simp)]

/-! ### Optional fields -/

/-- An optional field is normalized when it is given. -/
theorem optionalField_eq_ok_iff (normalize : String → Except ValidationError String)
    (value text : Option String) :
    optionalField normalize value = .ok text ↔
      (value = none ∧ text = none) ∨
        ∃ given normalized, value = some given ∧ text = some normalized ∧
          normalize given = .ok normalized := by
  cases value with
  | none =>
    constructor
    · intro h
      cases h
      exact .inl ⟨rfl, rfl⟩
    · rintro (⟨-, rfl⟩ | ⟨given, normalized, hgiven, -⟩)
      · rfl
      · cases hgiven
  | some given =>
    rw [optionalField, bind_eq_ok_iff]
    constructor
    · rintro ⟨normalized, hnormalized, h⟩
      cases h
      exact .inr ⟨given, normalized, rfl, rfl, hnormalized⟩
    · rintro (⟨hgiven, -⟩ | ⟨_, normalized, hgiven, rfl, hnormalized⟩)
      · cases hgiven
      · cases hgiven
        exact ⟨normalized, hnormalized, rfl⟩

/-- A normalized optional field: what holds of normalized values holds of it, and it
normalizes to itself when the values do. -/
theorem optionalField_spec {normalize : String → Except ValidationError String}
    {P : String → Prop}
    (hspec : ∀ {given normalized}, normalize given = .ok normalized → P normalized)
    {value text : Option String} (h : optionalField normalize value = .ok text) :
    ∀ normalized ∈ text, P normalized := by
  rcases (optionalField_eq_ok_iff _ _ _).mp h with ⟨-, rfl⟩ | ⟨given, normalized, -, rfl, hok⟩
  · intro _ hmem
    cases hmem
  · intro _ hmem
    cases hmem
    exact hspec hok

/-- A field that is given normalizes to itself when each of its values does. -/
theorem optionalField_again {normalize : String → Except ValidationError String}
    {text : Option String} (h : ∀ normalized ∈ text, normalize normalized = .ok normalized) :
    optionalField normalize text = .ok text := by
  cases text with
  | none => rfl
  | some normalized => rw [optionalField, h normalized rfl, Outcome.ok_bind]

end PreInterest

end CanonicalApi
