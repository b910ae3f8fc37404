import Mathlib.Data.List.DropRight

/-!
# `CanonicalApi.Text`: Rust text as the validators read it

A Rust `&str` is modelled by a Lean `String`. The validators look at its UTF-8 bytes, so
`bytes` gives these and `len` counts them. `trim` removes Unicode white space at both ends,
as `str::trim` does. `bytes_injective` says that a text is known by its bytes.

The validators accept bytes of an ASCII alphabet. `not_mem_of_all_bytes` turns such a check
into a fact about characters: a one-byte character outside the alphabet does not occur.
`chars_of_all_bytes` gives the converse view for an alphabet of ASCII bytes: such a text has
one byte for each character. `trim_trim` says that trimming twice is trimming once.
-/

set_option autoImplicit false

namespace CanonicalApi

/-- The UTF-8 bytes of a text (`str::bytes`). -/
def bytes (value : String) : List UInt8 :=
  value.toList.flatMap String.utf8EncodeChar

/-- The length in bytes (`str::len`). -/
def len (value : String) : Nat :=
  (bytes value).length

/-- `u8::is_ascii_digit`. -/
def isAsciiDigit (byte : UInt8) : Bool :=
  48 ≤ byte && byte ≤ 57

/-- `u8::is_ascii_alphanumeric`. -/
def isAsciiAlphanumeric (byte : UInt8) : Bool :=
  isAsciiDigit byte || (65 ≤ byte && byte ≤ 90) || (97 ≤ byte && byte ≤ 122)

/-- `u8::is_ascii_alphabetic`. -/
def isAsciiAlphabetic (byte : UInt8) : Bool :=
  (65 ≤ byte && byte ≤ 90) || (97 ≤ byte && byte ≤ 122)

/-- `u8::is_ascii_control`. -/
def isAsciiControl (byte : UInt8) : Bool :=
  byte ≤ 31 || byte == 127

/-- `u8::is_ascii_graphic`. -/
def isAsciiGraphic (byte : UInt8) : Bool :=
  33 ≤ byte && byte ≤ 126

/-- `char::is_whitespace`, the Unicode property `White_Space`. -/
def isWhitespace (c : Char) : Bool :=
  let n := c.toNat
  (9 ≤ n && n ≤ 13) || n == 0x20 || n == 0x85 || n == 0xA0 || n == 0x1680 ||
    (0x2000 ≤ n && n ≤ 0x200A) || n == 0x2028 || n == 0x2029 || n == 0x202F ||
    n == 0x205F || n == 0x3000

/-- `char::is_control`: the Unicode category `Cc`. -/
def isControl (c : Char) : Bool :=
  c.toNat < 0x20 || (0x7F ≤ c.toNat && c.toNat ≤ 0x9F)

/-- `char::to_ascii_lowercase`. -/
def toAsciiLowercase (c : Char) : Char :=
  if 65 ≤ c.toNat ∧ c.toNat ≤ 90 then Char.ofNat (c.toNat + 32) else c

/-- `str::is_ascii`. -/
def isAscii (value : String) : Bool :=
  value.toList.all fun c => c.toNat < 128

/-- `str::to_ascii_lowercase`. -/
def lowercase (value : String) : String :=
  String.ofList (value.toList.map toAsciiLowercase)

/-- `str::trim`. -/
def trim (value : String) : String :=
  String.ofList ((value.toList.dropWhile isWhitespace).reverse.dropWhile isWhitespace).reverse

/-- `str::split_once` with a character. -/
def splitOnce (value : String) (separator : Char) : Option (String × String) :=
  match value.toList.span (· ≠ separator) with
  | (_, []) => none
  | (before, _ :: after) => some (String.ofList before, String.ofList after)

/-- `str::strip_prefix`. -/
def stripPrefix (value before : String) : Option String :=
  if before.toList.isPrefixOf value.toList then
    some (String.ofList (value.toList.drop before.toList.length))
  else none

/-- `strip_prefix` gives what comes after the prefix. -/
theorem stripPrefix_eq_some_iff (value before rest : String) :
    stripPrefix value before = some rest ↔ value.toList = before.toList ++ rest.toList := by
  unfold stripPrefix
  rw [Option.ite_none_right_eq_some, Option.some.injEq, List.isPrefixOf_iff_prefix]
  constructor
  · rintro ⟨⟨tail, htail⟩, rfl⟩
    rw [String.toList_ofList, ← htail, List.drop_left]
  · intro h
    rw [h, List.drop_left, String.ofList_toList]
    exact ⟨List.prefix_append _ _, rfl⟩

/-- The byte of a one-byte character of a text is a byte of the text. -/
theorem mem_bytes_of_mem {value : String} {c : Char} {b : UInt8}
    (hc : c ∈ value.toList) (hb : String.utf8EncodeChar c = [b]) : b ∈ bytes value := by
  apply List.mem_flatMap.mpr
  exact ⟨c, hc, by simp [hb]⟩

/-- A text whose bytes all pass `p` does not contain the one-byte character `c` when the
byte of `c` fails `p`. -/
theorem not_mem_of_all_bytes {value : String} {p : UInt8 → Bool}
    (h : (bytes value).all p = true) {c : Char} {b : UInt8}
    (hb : String.utf8EncodeChar c = [b]) (hp : p b = false) : c ∉ value.toList := by
  intro hc
  have := List.all_eq_true.mp h b (mem_bytes_of_mem hc hb)
  simp [hp] at this

/-- A text is known by its bytes. -/
theorem bytes_injective : Function.Injective bytes := by
  intro a b h
  rw [← String.toByteArray_inj, ← String.utf8Encode_toList, ← String.utf8Encode_toList]
  unfold List.utf8Encode
  exact congrArg _ h

/-- The bytes of a joined text. -/
theorem bytes_append (a b : String) : bytes (a ++ b) = bytes a ++ bytes b := by
  rw [bytes, String.toList_append, List.flatMap_append]
  rfl

/-- What stands before the first separator is determined, and so is the rest. -/
theorem append_separator_injective {α : Type} {sep : α} {rest rest' : List α} :
    ∀ {a b : List α}, sep ∉ a → sep ∉ b → a ++ sep :: rest = b ++ sep :: rest' →
      a = b ∧ rest = rest'
  | [], [], _, _, h => ⟨rfl, (List.cons.inj h).2⟩
  | [], _ :: _, _, hb, h => absurd ((List.cons.inj h).1 ▸ List.mem_cons_self) hb
  | _ :: _, [], ha, _, h => absurd ((List.cons.inj h).1 ▸ List.mem_cons_self) ha
  | x :: a, y :: b, ha, hb, h => by
    rw [List.mem_cons, not_or] at ha hb
    obtain ⟨rfl, htail⟩ := List.cons.inj h
    obtain ⟨rfl, hrest⟩ := append_separator_injective ha.2 hb.2 htail
    exact ⟨rfl, hrest⟩

/-! ### ASCII texts -/

/-- An ASCII character is its own byte. -/
theorem utf8EncodeChar_of_ascii {c : Char} (h : c.toNat < 128) :
    String.utf8EncodeChar c = [UInt8.ofNat c.toNat] := by
  have hv : c.val.toNat ≤ 127 := by
    show c.toNat ≤ 127
    omega
  unfold String.utf8EncodeChar
  dsimp only
  rw [if_pos hv]
  rfl

/-- A character outside ASCII has only bytes from 128 on. -/
theorem utf8EncodeChar_of_not_ascii {c : Char} (h : 128 ≤ c.toNat) :
    ∀ b ∈ String.utf8EncodeChar c, 128 ≤ b := by
  have hv : ¬ c.val.toNat ≤ 127 := by
    show ¬ c.toNat ≤ 127
    omega
  unfold String.utf8EncodeChar
  dsimp only
  rw [if_neg hv]
  have hbyte : ∀ n, 128 ≤ n → n < 256 → (128 : UInt8) ≤ UInt8.ofNat n := by
    intro n hn hlt
    rw [UInt8.le_iff_toNat_le, UInt8.toNat_ofNat_of_lt' (by simpa using hlt)]
    exact hn
  intro b hb
  -- The first byte of each form has its leading bits set, the others are continuation bytes.
  split at hb
  · simp only [List.mem_cons, List.not_mem_nil, or_false] at hb
    rcases hb with rfl | rfl <;> exact hbyte _ (by omega) (by omega)
  · split at hb
    · simp only [List.mem_cons, List.not_mem_nil, or_false] at hb
      rcases hb with rfl | rfl | rfl <;> exact hbyte _ (by omega) (by omega)
    · simp only [List.mem_cons, List.not_mem_nil, or_false] at hb
      rcases hb with rfl | rfl | rfl | rfl <;> exact hbyte _ (by omega) (by omega)

/-- The characters of a text whose bytes are all ASCII. -/
theorem ascii_of_bytes {value : String} (h : ∀ b ∈ bytes value, b < 128) :
    ∀ c ∈ value.toList, c.toNat < 128 := by
  intro c hc
  by_contra hge
  have hbytes := utf8EncodeChar_of_not_ascii (Nat.le_of_not_lt hge)
  obtain ⟨b, hb⟩ := List.exists_mem_of_ne_nil _ (String.utf8EncodeChar_ne_nil (c := c))
  have hlt := h b (List.mem_flatMap.mpr ⟨c, hc, hb⟩)
  exact absurd hlt (UInt8.not_lt.mpr (hbytes b hb))

/-- Such a text has one byte for each character. -/
theorem bytes_eq_map {value : String} (h : ∀ c ∈ value.toList, c.toNat < 128) :
    bytes value = value.toList.map fun c => UInt8.ofNat c.toNat := by
  have hflat : bytes value = value.toList.flatMap fun c => [UInt8.ofNat c.toNat] := by
    refine List.flatMap_congr fun c hc => ?_
    exact utf8EncodeChar_of_ascii (h c hc)
  rw [hflat, ← List.map_eq_flatMap]

/-- A text whose bytes all pass a predicate on ASCII bytes: each character passes it as a
byte, and the length in bytes is the number of characters. -/
theorem chars_of_all_bytes {value : String} {p : UInt8 → Bool}
    (h : (bytes value).all p = true) (hp : ∀ b, p b = true → b < 128) :
    (∀ c ∈ value.toList, c.toNat < 128 ∧ p (UInt8.ofNat c.toNat) = true) ∧
      len value = value.toList.length := by
  have hall := List.all_eq_true.mp h
  have hascii := ascii_of_bytes fun b hb => hp b (hall b hb)
  have hmap := bytes_eq_map hascii
  refine ⟨fun c hc => ⟨hascii c hc, hall _ ?_⟩, ?_⟩
  · rw [hmap]
    exact List.mem_map_of_mem hc
  · rw [len, hmap, List.length_map]

/-- A text of ASCII characters that all pass a predicate as bytes. -/
theorem all_bytes_of_chars {value : String} {p : UInt8 → Bool}
    (h : ∀ c ∈ value.toList, c.toNat < 128 ∧ p (UInt8.ofNat c.toNat) = true) :
    (bytes value).all p = true := by
  rw [bytes_eq_map fun c hc => (h c hc).1, List.all_map, List.all_eq_true]
  exact fun c hc => (h c hc).2

/-- The byte of an ASCII character occurs in a text exactly when the character does. -/
theorem mem_bytes_iff {value : String} {c : Char} (hc : c.toNat < 128) :
    UInt8.ofNat c.toNat ∈ bytes value ↔ c ∈ value.toList := by
  refine ⟨fun h => ?_, fun h => mem_bytes_of_mem h (utf8EncodeChar_of_ascii hc)⟩
  obtain ⟨d, hd, hbyte⟩ := List.mem_flatMap.mp h
  have hlt : UInt8.ofNat c.toNat < 128 := by
    rw [UInt8.lt_iff_toNat_lt, UInt8.toNat_ofNat_of_lt' (by simp only [UInt8.size]; omega)]
    exact hc
  by_cases hascii : d.toNat < 128
  · rw [utf8EncodeChar_of_ascii hascii, List.mem_singleton] at hbyte
    have hnat := congrArg UInt8.toNat hbyte
    rw [UInt8.toNat_ofNat_of_lt' (by simp only [UInt8.size]; omega),
      UInt8.toNat_ofNat_of_lt' (by simp only [UInt8.size]; omega)] at hnat
    rw [Char.toNat_inj.mp hnat]
    exact hd
  · have hge := utf8EncodeChar_of_not_ascii (Nat.le_of_not_lt hascii) _ hbyte
    exact absurd hlt (UInt8.not_lt.mpr hge)

/-! ### Trimmed text -/

/-- A text without white space is trimmed. -/
theorem trim_eq_self {value : String} (h : ∀ c ∈ value.toList, isWhitespace c = false) :
    trim value = value := by
  have hdrop : ∀ l : List Char, (∀ c ∈ l, isWhitespace c = false) →
      l.dropWhile isWhitespace = l := by
    intro l hl
    cases l with
    | nil => rfl
    | cons c l => rw [List.dropWhile_cons_of_neg (by simp [hl c List.mem_cons_self])]
  unfold trim
  rw [hdrop _ h, hdrop _ (fun c hc => h c (List.mem_reverse.mp hc)), List.reverse_reverse,
    String.ofList_toList]

/-- Trimming twice is trimming once. -/
theorem trim_trim (value : String) : trim (trim value) = trim value := by
  have htrim : ∀ text : String,
      (trim text).toList = (text.toList.dropWhile isWhitespace).rdropWhile isWhitespace :=
    fun text => String.toList_ofList
  -- What is left of the front-trimmed text is a prefix of it, so it starts as it does.
  have hfront : (trim value).toList.dropWhile isWhitespace = (trim value).toList := by
    have hprefix : (trim value).toList <+: value.toList.dropWhile isWhitespace := by
      rw [htrim]
      exact List.rdropWhile_prefix _ _
    cases hleft : (trim value).toList with
    | nil => rfl
    | cons c rest =>
      rw [hleft] at hprefix
      obtain ⟨tail, htail⟩ := hprefix
      have hc : isWhitespace c = false := by
        have hdrop := List.dropWhile_idempotent isWhitespace value.toList
        rw [← htail, List.cons_append, List.dropWhile_cons] at hdrop
        by_contra hspace
        rw [if_pos (by simpa using hspace)] at hdrop
        have hlength := congrArg List.length hdrop
        have hle := List.length_dropWhile_le (p := isWhitespace) (rest ++ tail)
        rw [List.length_cons] at hlength
        omega
      rw [List.dropWhile_cons_of_neg (by simp [hc])]
  apply String.toList_inj.mp
  rw [htrim, hfront, htrim, List.rdropWhile_idempotent]

end CanonicalApi
