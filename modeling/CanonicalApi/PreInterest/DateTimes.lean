import CanonicalApi.Lib.Calendar
import CanonicalApi.Lib.Decimal
import CanonicalApi.PreInterest.Validation

/-!
# `CanonicalApi.PreInterest.DateTimes`: what `is_rfc3339` accepts

`isRfc3339` reads the bytes of a text at fixed positions. A `DateTime` is what such a text says,
and `DateTime.text` writes it, in the profile of RFC 3339 with a large `T` and `Z`.
`isRfc3339_iff` says that the accepted texts are the written ones whose fields are in range: the
scanner is the inverse of the writer.

The range of a day is 1 to 31 in every month. RFC 3339 bounds it by the month and the year, so
`is_rfc3339_exact_when` names the texts with such a day as the only ones on which the two differ.
-/

set_option autoImplicit false

namespace CanonicalApi.PreInterest

open Calendar (daysInMonth)

/-! ### The texts -/

/-- A number in decimal digits, as bytes. -/
def number (width n : Nat) : List UInt8 :=
  (Decimal.fixed width n).map fun d => UInt8.ofNat (48 + d)

/-- The end of a date-time: `Z`, or a sign with hours and minutes. -/
inductive Zone where
  | utc
  | offset (negative : Bool) (hour minute : Nat)
deriving DecidableEq, Repr

/-- A date-time, with the digits of the fraction of a second. The fraction is a list, because
`is_rfc3339` puts no bound of its own on the number of digits. -/
structure DateTime where
  year : Nat
  month : Nat
  day : Nat
  hour : Nat
  minute : Nat
  second : Nat
  fraction : List Nat
  zone : Zone
deriving DecidableEq, Repr

/-- The bytes of a zone. -/
def Zone.text : Zone → List UInt8
  | utc => [90]
  | offset negative hour minute =>
      (if negative then 45 else 43) :: (number 2 hour ++ 58 :: number 2 minute)

/-- The bytes of a fraction: nothing, or a point and the digits. -/
def fractionText (fraction : List Nat) : List UInt8 :=
  if fraction = [] then [] else 46 :: fraction.map fun d => UInt8.ofNat (48 + d)

/-- The bytes of a date-time: `YYYY-MM-DDThh:mm:ss`, the fraction and the zone. -/
def DateTime.text (t : DateTime) : List UInt8 :=
  number 4 t.year ++ 45 :: (number 2 t.month ++ 45 :: (number 2 t.day ++ 84 ::
    (number 2 t.hour ++ 58 :: (number 2 t.minute ++ 58 :: (number 2 t.second ++
      (fractionText t.fraction ++ t.zone.text))))))

/-- An offset is less than a day. -/
def Zone.InRange : Zone → Prop
  | utc => True
  | offset _ hour minute => hour ≤ 23 ∧ minute ≤ 59

/-- The ranges of the fields, but for the days that a month lacks: `is_rfc3339` accepts the
thirty-first of every month, and a leap second in every minute. -/
structure DateTime.InRange (t : DateTime) : Prop where
  year : t.year < 10000
  month : 1 ≤ t.month ∧ t.month ≤ 12
  day : 1 ≤ t.day ∧ t.day ≤ 31
  hour : t.hour ≤ 23
  minute : t.minute ≤ 59
  second : t.second ≤ 60
  fraction : ∀ d ∈ t.fraction, d < 10
  zone : t.zone.InRange

/-- The bytes are the text of a date-time of RFC 3339, 20 to 35 of them. -/
def IsDateTime (bytes : List UInt8) : Prop :=
  ∃ t : DateTime, t.InRange ∧ t.day ≤ daysInMonth t.year t.month ∧ bytes = t.text ∧
    20 ≤ bytes.length ∧ bytes.length ≤ 35

/-- The bytes are such a text but for a day, up to 31, that its month lacks. -/
def IsImpossibleDate (bytes : List UInt8) : Prop :=
  ∃ t : DateTime, t.InRange ∧ daysInMonth t.year t.month < t.day ∧ bytes = t.text ∧
    20 ≤ bytes.length ∧ bytes.length ≤ 35

/-! ### Digits -/

section

variable {bs rest : List UInt8} {width n m i : Nat} {digits : List Nat}

/-- The byte of a digit. -/
theorem toNat_digit {d : Nat} (h : d < 10) : (UInt8.ofNat (48 + d)).toNat = 48 + d := by
  rw [UInt8.toNat_ofNat']
  omega

/-- The byte of a digit is a digit. -/
theorem isAsciiDigit_digit {d : Nat} (h : d < 10) : isAsciiDigit (UInt8.ofNat (48 + d)) = true := by
  have hbyte := toNat_digit h
  simp only [isAsciiDigit, Bool.and_eq_true, decide_eq_true_eq, UInt8.le_iff_toNat_le, hbyte]
  constructor
  · show 48 ≤ 48 + d
    omega
  · show 48 + d ≤ 57
    omega

/-- A digit byte is the byte of a digit. -/
theorem exists_digit {byte : UInt8} (h : isAsciiDigit byte = true) :
    byte.toNat - 48 < 10 ∧ byte = UInt8.ofNat (48 + (byte.toNat - 48)) := by
  simp only [isAsciiDigit, Bool.and_eq_true, decide_eq_true_eq, UInt8.le_iff_toNat_le] at h
  obtain ⟨hlow, hhigh⟩ := h
  have hlow : 48 ≤ byte.toNat := hlow
  have hhigh : byte.toNat ≤ 57 := hhigh
  refine ⟨by omega, UInt8.toNat_inj.mp ?_⟩
  rw [toNat_digit (by omega)]
  omega

/-- Lists of digit bytes are lists of digits. -/
theorem exists_digits (h : bs.all isAsciiDigit = true) :
    ∃ digits : List Nat, (∀ d ∈ digits, d < 10) ∧
      bs = digits.map fun d => UInt8.ofNat (48 + d) := by
  induction bs with
  | nil => exact ⟨[], nofun, rfl⟩
  | cons byte bs ih =>
    rw [List.all_cons, Bool.and_eq_true] at h
    obtain ⟨hlt, hbyte⟩ := exists_digit h.1
    obtain ⟨digits, hdigits, hbs⟩ := ih h.2
    refine ⟨(byte.toNat - 48) :: digits, List.forall_mem_cons.mpr ⟨hlt, hdigits⟩, ?_⟩
    rw [List.map_cons, ← hbyte, ← hbs]

/-- The bytes of digits are digits. -/
theorem all_isAsciiDigit_map (h : ∀ d ∈ digits, d < 10) :
    (digits.map fun d => UInt8.ofNat (48 + d)).all isAsciiDigit = true := by
  rw [List.all_map, List.all_eq_true]
  exact fun d hd => isAsciiDigit_digit (h d hd)

/-- A fixed number of digit bytes is a number. -/
theorem exists_number (h : bs.all isAsciiDigit = true) :
    ∃ n < 10 ^ bs.length, bs = number bs.length n := by
  obtain ⟨digits, hdigits, hbs⟩ := exists_digits h
  have hlength : bs.length = digits.length := by rw [hbs, List.length_map]
  refine ⟨Decimal.value digits, ?_, ?_⟩
  · rw [hlength]
    exact Decimal.value_lt hdigits
  · rw [number, hlength, Decimal.fixed_value hdigits]
    exact hbs

/-- A number is written in digits. -/
theorem all_isAsciiDigit_number (width n : Nat) : (number width n).all isAsciiDigit = true :=
  all_isAsciiDigit_map fun _ hd => Decimal.lt_ten_of_mem_fixed hd

/-- Numbers that fit the width are told apart by their digits. -/
theorem number_inj (hn : n < 10 ^ width) (hm : m < 10 ^ width)
    (h : number width n = number width m) : n = m := by
  have hdigits : ∀ k, (number width k).map (fun byte => byte.toNat - 48) =
      Decimal.fixed width k := by
    intro k
    rw [number, List.map_map]
    refine (List.map_congr_left fun d hd => ?_).trans (List.map_id _)
    rw [Function.comp_apply, toNat_digit (Decimal.lt_ten_of_mem_fixed hd), id_eq]
    omega
  refine Decimal.fixed_inj hn hm ?_
  rw [← hdigits n, ← hdigits m, h]

/-! ### Positions -/

/-- Reading at a position is reading at the front of what is left. -/
theorem parseTwo_drop (bs : List UInt8) (i j : Nat) :
    parseTwo bs (i + j) = parseTwo (bs.drop i) j := by
  simp only [parseTwo, List.getElem?_drop, Nat.add_assoc]

/-- The bytes from a position on start with the byte at this position. -/
theorem drop_eq_cons {byte : UInt8} (h : bs[i]? = some byte) :
    bs.drop i = byte :: bs.drop (i + 1) := by
  obtain ⟨hlt, rfl⟩ := List.getElem?_eq_some_iff.mp h
  exact List.drop_eq_getElem_cons hlt

/-- `parse_two` reads the numbers below 100. -/
theorem parseTwo_zero_iff : parseTwo bs 0 = some n ↔
    n < 100 ∧ bs = number 2 n ++ bs.drop 2 := by
  constructor
  · intro h
    obtain ⟨first, hfirst, h⟩ := Option.bind_eq_some_iff.mp h
    obtain ⟨second, hsecond, h⟩ := Option.bind_eq_some_iff.mp h
    have hbs : bs = [first, second] ++ bs.drop 2 := by
      have h0 := drop_eq_cons hfirst
      have h1 := drop_eq_cons hsecond
      rw [List.drop_zero] at h0
      rw [h0, h1]
      rfl
    by_cases hdigits : isAsciiDigit first = true ∧ isAsciiDigit second = true
    · obtain ⟨hlt, hbyte⟩ := exists_digit hdigits.1
      obtain ⟨hlt', hbyte'⟩ := exists_digit hdigits.2
      simp only [hdigits, Bool.not_true, Bool.or_self, Bool.false_eq_true, if_false,
        Option.some.injEq] at h
      have htens : n / 10 % 10 = first.toNat - 48 := by omega
      have hones : n % 10 = second.toNat - 48 := by omega
      refine ⟨by omega, ?_⟩
      have hnumber : number 2 n = [first, second] := by
        show [UInt8.ofNat (48 + n / 10 % 10), UInt8.ofNat (48 + n % 10)] = _
        rw [htens, hones, ← hbyte, ← hbyte']
      rw [hnumber]
      exact hbs
    · have hreject : (!isAsciiDigit first || !isAsciiDigit second) = true := by
        rw [Decidable.not_and_iff_not_or_not] at hdigits
        simpa using hdigits
      rw [if_pos hreject] at h
      cases h
  · rintro ⟨hlt, hbs⟩
    have htens : n / 10 % 10 < 10 := Nat.mod_lt _ (by decide)
    have hones : n % 10 < 10 := Nat.mod_lt _ (by decide)
    have hbs : bs = UInt8.ofNat (48 + n / 10 % 10) :: UInt8.ofNat (48 + n % 10) :: bs.drop 2 :=
      hbs
    rw [hbs]
    simp only [parseTwo, List.getElem?_cons_zero, List.getElem?_cons_succ, Nat.zero_add,
      Option.bind_eq_bind, Option.bind_some, isAsciiDigit_digit htens, isAsciiDigit_digit hones,
      toNat_digit htens, toNat_digit hones, Bool.not_true, Bool.or_self, Bool.false_eq_true,
      if_false, Option.some.injEq]
    omega

/-- `parse_two` reads the two digits at a position, and nothing else. -/
theorem parseTwo_iff : parseTwo bs i = some n ↔
    n < 100 ∧ bs.drop i = number 2 n ++ bs.drop (i + 2) := by
  have hdrop := parseTwo_drop bs i 0
  rw [Nat.add_zero] at hdrop
  rw [hdrop, parseTwo_zero_iff, List.drop_drop]

/-- It reads a number that is written there. -/
theorem parseTwo_of_drop (hn : n < 100) (h : bs.drop i = number 2 n ++ rest) :
    parseTwo bs i = some n := by
  refine parseTwo_iff.mpr ⟨hn, ?_⟩
  rw [← List.drop_drop, h]
  rfl

/-! ### The end of the text -/

/-- The zone is the rest of the text. -/
theorem isTimezone_iff : isTimezone bs i = true ↔
    ∃ zone : Zone, zone.InRange ∧ bs.drop i = zone.text := by
  constructor
  · intro h
    unfold isTimezone at h
    split at h
    · -- A `Z`, which is the last byte.
      next hbyte =>
      rw [beq_iff_eq] at h
      refine ⟨.utc, trivial, ?_⟩
      rw [drop_eq_cons hbyte, List.drop_eq_nil_of_le (by omega)]
      rfl
    · -- A sign with six bytes from there on.
      next sign _ hsign =>
      simp only [Bool.and_eq_true, Bool.or_eq_true, beq_iff_eq, Option.any_eq_true,
        decide_eq_true_eq] at h
      obtain ⟨hsigns, ⟨⟨hlength, hcolon⟩, hour, hhour, hhour23⟩, minute, hminute, hminute59⟩ := h
      obtain ⟨-, hhour⟩ := parseTwo_iff.mp hhour
      obtain ⟨-, hminute⟩ := parseTwo_iff.mp hminute
      have hend : bs.drop (i + 6) = [] := List.drop_eq_nil_of_le (by omega)
      have hrest : bs.drop i = sign :: (number 2 hour ++ 58 :: number 2 minute) := by
        rw [drop_eq_cons hsign, hhour, drop_eq_cons hcolon, hminute, hend, List.append_nil]
      rcases hsigns with rfl | rfl
      · exact ⟨.offset false hour minute, ⟨hhour23, hminute59⟩, hrest⟩
      · exact ⟨.offset true hour minute, ⟨hhour23, hminute59⟩, hrest⟩
    · cases h
  · rintro ⟨zone, hrange, hrest⟩
    have hlength : bs.length - i = zone.text.length := by rw [← hrest, List.length_drop]
    -- Each byte behind the index is that of the zone.
    have hget : ∀ k, bs[i + k]? = zone.text[k]? := by
      intro k
      rw [← hrest, List.getElem?_drop]
    cases zone with
    | utc =>
      have hbyte : bs[i]? = some 90 := hget 0
      have hone : bs.length - i = 1 := hlength
      simp only [isTimezone, hbyte, beq_iff_eq]
      omega
    | offset negative hour minute =>
      obtain ⟨hhour23, hminute59⟩ := hrange
      have hsix : bs.length - i = 6 := hlength
      have hbyte : bs[i]? = some (if negative then 45 else 43) := hget 0
      have hcolon : bs[i + 3]? = some 58 := hget 3
      have hafter : ∀ k, bs.drop (i + k) = (Zone.offset negative hour minute).text.drop k := by
        intro k
        rw [← List.drop_drop, hrest]
      have hhour : parseTwo bs (i + 1) = some hour := parseTwo_of_drop (by omega) (hafter 1)
      have hminute : parseTwo bs (i + 4) = some minute :=
        parseTwo_of_drop (by omega) ((hafter 4).trans (List.append_nil _).symm)
      have hlast : i + 6 = bs.length := by omega
      cases negative <;>
        simp [isTimezone, hbyte, hcolon, hhour, hminute, hhour23, hminute59, hlast]

/-- The leading digits, and what is left after them, are the whole text. -/
theorem takeWhile_append_drop (bs : List UInt8) :
    bs.takeWhile isAsciiDigit ++ bs.drop (bs.takeWhile isAsciiDigit).length = bs := by
  induction bs with
  | nil => rfl
  | cons byte bs ih =>
    by_cases hdigit : isAsciiDigit byte = true
    · rw [List.takeWhile_cons_of_pos hdigit, List.length_cons, List.drop_succ_cons,
        List.cons_append, ih]
    · rw [List.takeWhile_cons_of_neg hdigit]
      rfl

/-- A zone begins neither with a digit nor with a point. -/
theorem Zone.text_head (zone : Zone) :
    ∃ first rest, zone.text = first :: rest ∧ isAsciiDigit first = false ∧ first ≠ 46 := by
  cases zone with
  | utc => exact ⟨90, [], rfl, rfl, by decide⟩
  | offset negative hour minute =>
    cases negative
    · exact ⟨43, _, rfl, rfl, by decide⟩
    · exact ⟨45, _, rfl, rfl, by decide⟩

/-- The fraction, if there is one, ends where the zone begins. -/
theorem timezone_iff : (∃ index, timezoneIndex bs = some index ∧ isTimezone bs index = true) ↔
    ∃ (fraction : List Nat) (zone : Zone), (∀ d ∈ fraction, d < 10) ∧ zone.InRange ∧
      bs.drop 19 = fractionText fraction ++ zone.text := by
  constructor
  · rintro ⟨index, hindex, hzone⟩
    obtain ⟨zone, hrange, hrest⟩ := isTimezone_iff.mp hzone
    -- Byte 19 decides whether there is a fraction.
    unfold timezoneIndex at hindex
    split at hindex
    · next hpoint =>
      split at hindex
      · cases hindex
      · next hsome =>
        cases hindex
        -- The fraction is the longest run of digits after the point,
        have hall : ((bs.drop 20).takeWhile isAsciiDigit).all isAsciiDigit = true :=
          List.all_takeWhile
        obtain ⟨fraction, hfraction, htake⟩ := exists_digits hall
        have hsplit := takeWhile_append_drop (bs.drop 20)
        rw [List.drop_drop] at hsplit
        -- and it is not empty, since the index moved.
        have hne : fraction ≠ [] := by
          rintro rfl
          apply hsome
          rw [skipDigits, htake]
          rfl
        refine ⟨fraction, zone, hfraction, hrange, ?_⟩
        rw [drop_eq_cons hpoint, ← hsplit, htake, fractionText, if_neg hne]
        have hskip : bs.drop (20 + ((bs.drop 20).takeWhile isAsciiDigit).length) = zone.text :=
          hrest
        rw [htake] at hskip
        rw [hskip]
        rfl
    · cases hindex
      exact ⟨[], zone, nofun, hrange, hrest⟩
  · rintro ⟨fraction, zone, hfraction, hrange, hrest⟩
    -- A zone starts with no digit and no point, so the scan stops where the zone starts.
    obtain ⟨first, after, htext, hdigit, hpoint⟩ := zone.text_head
    have hbyte : bs[19]? = (bs.drop 19)[0]? := by rw [List.getElem?_drop]
    by_cases hnil : fraction = []
    · rw [fractionText, if_pos hnil, List.nil_append] at hrest
      have hzone : bs[19]? ≠ some 46 := by
        rw [hbyte, hrest, htext]
        simpa using hpoint
      refine ⟨19, ?_, isTimezone_iff.mpr ⟨zone, hrange, hrest⟩⟩
      rw [timezoneIndex, if_neg hzone]
    · rw [fractionText, if_neg hnil] at hrest
      have hpoint : bs[19]? = some 46 := by
        rw [hbyte, hrest]
        rfl
      have hafter : bs.drop 20 = (fraction.map fun d => UInt8.ofNat (48 + d)) ++ zone.text := by
        rw [← List.drop_drop (i := 1) (j := 19), hrest]
        rfl
      have htake : (bs.drop 20).takeWhile isAsciiDigit =
          fraction.map fun d => UInt8.ofNat (48 + d) := by
        rw [hafter, List.takeWhile_append_of_pos
          (List.all_eq_true.mp (all_isAsciiDigit_map hfraction)), htext,
          List.takeWhile_cons_of_neg (by rw [hdigit]; decide), List.append_nil]
      have hskip : skipDigits bs 20 = 20 + fraction.length := by
        rw [skipDigits, htake, List.length_map]
      have hpos := List.length_pos_iff.mpr hnil
      refine ⟨20 + fraction.length, ?_, isTimezone_iff.mpr ⟨zone, hrange, ?_⟩⟩
      · rw [timezoneIndex, if_pos hpoint, hskip, if_neg (by omega)]
      · rw [← List.drop_drop, hafter, List.drop_left' (List.length_map _)]

end

/-! ### The whole text -/

/-- The accepted texts are those of the date-times in range. -/
theorem isRfc3339_iff (value : String) : isRfc3339 value = true ↔
    ∃ t : DateTime, t.InRange ∧ bytes value = t.text ∧
      20 ≤ (bytes value).length ∧ (bytes value).length ≤ 35 := by
  unfold isRfc3339
  dsimp only
  generalize bytes value = bs
  constructor
  · intro h
    split at h
    · cases h
    · next hshape =>
      split at h
      · next month day hour minute second hmonth hday hhour hminute hsecond =>
        split at h
        · cases h
        · next hrange =>
          simp only [Bool.or_eq_true, not_or, decide_eq_true_iff, ne_eq, not_not,
            Bool.not_eq_true', Bool.not_eq_false, Bool.and_eq_true] at hshape hrange
          obtain ⟨⟨⟨⟨⟨⟨⟨hmin, hmax⟩, h4⟩, h7⟩, h10⟩, h13⟩, h16⟩, hyear⟩ := hshape
          obtain ⟨⟨⟨⟨hmonths, hdays⟩, hhours⟩, hminutes⟩, hseconds⟩ := hrange
          have htail : ∃ index, timezoneIndex bs = some index ∧ isTimezone bs index = true := by
            split at h
            · cases h
            · next index hindex => exact ⟨index, hindex, h⟩
          obtain ⟨fraction, zone, hfraction, hzone, h19⟩ := timezone_iff.mp htail
          obtain ⟨year, hlt, htake⟩ := exists_number hyear
          have hfour : (bs.take 4).length = 4 := by
            rw [List.length_take]
            omega
          rw [hfour] at hlt htake
          have hmonth := (parseTwo_iff.mp hmonth).2
          have hday := (parseTwo_iff.mp hday).2
          have hhour := (parseTwo_iff.mp hhour).2
          have hminute := (parseTwo_iff.mp hminute).2
          have hsecond := (parseTwo_iff.mp hsecond).2
          -- The text, from the left to the right.
          have htext : bs = DateTime.text ⟨year, month, day, hour, minute, second, fraction,
              zone⟩ := by
            calc bs = bs.take 4 ++ bs.drop 4 := (List.take_append_drop 4 bs).symm
              _ = _ := by
                rw [htake, drop_eq_cons h4, hmonth, drop_eq_cons h7, hday, drop_eq_cons h10, hhour,
                  drop_eq_cons h13, hminute, drop_eq_cons h16, hsecond, h19]
                rfl
          refine ⟨_, ?_, htext, hmin, hmax⟩
          exact { year := hlt, month := hmonths, day := hdays, hour := Nat.not_lt.mp hhours,
                  minute := Nat.not_lt.mp hminutes, second := Nat.not_lt.mp hseconds,
                  fraction := hfraction, zone := hzone }
      · cases h
  · rintro ⟨t, hrange, htext, hmin, hmax⟩
    have hget : ∀ k : Nat, bs[k]? = t.text[k]? := by
      intro k
      rw [htext]
    have hdrop : ∀ k, bs.drop k = t.text.drop k := by
      intro k
      rw [htext]
    have hmonth12 := hrange.month
    have hday31 := hrange.day
    have hhour23 := hrange.hour
    have hminute59 := hrange.minute
    have hsecond60 := hrange.second
    have h4 : bs[4]? = some 45 := hget 4
    have h7 : bs[7]? = some 45 := hget 7
    have h10 : bs[10]? = some 84 := hget 10
    have h13 : bs[13]? = some 58 := hget 13
    have h16 : bs[16]? = some 58 := hget 16
    have hyear : (bs.take 4).all isAsciiDigit = true := by
      have htake : bs.take 4 = number 4 t.year := by
        rw [htext]
        rfl
      rw [htake]
      exact all_isAsciiDigit_number 4 t.year
    have hmonth : parseTwo bs 5 = some t.month := parseTwo_of_drop (by omega) (hdrop 5)
    have hday : parseTwo bs 8 = some t.day := parseTwo_of_drop (by omega) (hdrop 8)
    have hhour : parseTwo bs 11 = some t.hour := parseTwo_of_drop (by omega) (hdrop 11)
    have hminute : parseTwo bs 14 = some t.minute := parseTwo_of_drop (by omega) (hdrop 14)
    have hsecond : parseTwo bs 17 = some t.second := parseTwo_of_drop (by omega) (hdrop 17)
    obtain ⟨index, hindex, hzone⟩ :=
      timezone_iff.mpr ⟨t.fraction, t.zone, hrange.fraction, hrange.zone, hdrop 19⟩
    simp [h4, h7, h10, h13, h16, hyear, hmin, hmax, hmonth, hday, hhour, hminute, hsecond, hindex,
      hzone, hmonth12, hday31, hhour23, hminute59, hsecond60]

/-- The year, the month and the day of a text are determined. -/
theorem DateTime.InRange.date_unique {t u : DateTime} (ht : t.InRange) (hu : u.InRange)
    (h : t.text = u.text) : t.year = u.year ∧ t.month = u.month ∧ t.day = u.day := by
  have hyear : number 4 t.year = number 4 u.year := congrArg (List.take 4) h
  have hmonth : number 2 t.month = number 2 u.month :=
    congrArg (fun bs => (bs.drop 5).take 2) h
  have hday : number 2 t.day = number 2 u.day := congrArg (fun bs => (bs.drop 8).take 2) h
  have hmonths := And.intro ht.month hu.month
  have hdays := And.intro ht.day hu.day
  exact ⟨number_inj ht.year hu.year hyear, number_inj (by omega) (by omega) hmonth,
    number_inj (by omega) (by omega) hday⟩

/-- The checks that stand before the slice `bytes[..4]`. -/
def reachesYear (bytes : List UInt8) : Bool :=
  !(!(20 ≤ bytes.length && bytes.length ≤ 35) || bytes[4]? ≠ some 45 || bytes[7]? ≠ some 45 ||
    bytes[10]? ≠ some 84 || bytes[13]? ≠ some 58 || bytes[16]? ≠ some 58)

/-- `is_rfc3339` and the date-times of RFC 3339. Every read but one is by `get`, which checks its
index, and the slice of the year is never reached with less than four bytes. The function decides
whether the text is a date-time of RFC 3339 exactly on the texts that do not name one of the
days 29 to 31 that their month lacks. -/
theorem is_rfc3339_exact_when (value : String) :
    ((isRfc3339 value = true ↔ IsDateTime (bytes value)) ∧
      (reachesYear (bytes value) = true → 4 ≤ (bytes value).length)) ↔
    ¬ IsImpossibleDate (bytes value) := by
  have hslice : reachesYear (bytes value) = true → 4 ≤ (bytes value).length := by
    intro h
    simp only [reachesYear, Bool.not_eq_true', Bool.or_eq_false_iff, Bool.not_eq_false',
      Bool.and_eq_true, decide_eq_true_eq] at h
    omega
  rw [isRfc3339_iff]
  constructor
  · rintro ⟨hexact, -⟩ ⟨t, hrange, hlacks, htext, hlength⟩
    obtain ⟨u, hrange', hday, htext', -⟩ := hexact.mp ⟨t, hrange, htext, hlength⟩
    -- The text determines its date, so that an impossible date is no other date as well.
    obtain ⟨hyear, hmonth, hsame⟩ := hrange.date_unique hrange' (htext.symm.trans htext')
    rw [hyear, hmonth, hsame] at hlacks
    omega
  · intro hpossible
    refine ⟨⟨?_, ?_⟩, hslice⟩
    · rintro ⟨t, hrange, htext, hlength⟩
      -- The reader accepts days up to 31 in every month; what is left is the length of the month.
      have hday : t.day ≤ daysInMonth t.year t.month := by
        by_contra hlacks
        exact hpossible ⟨t, hrange, Nat.not_le.mp hlacks, htext, hlength⟩
      exact ⟨t, hrange, hday, htext, hlength⟩
    · rintro ⟨t, hrange, -, htext, hlength⟩
      exact ⟨t, hrange, htext, hlength⟩

/-- The thirtieth of February. -/
def february30 : DateTime := ⟨2026, 2, 30, 0, 0, 0, [], .utc⟩

/-- The thirtieth of February is accepted. The reader compares the day with 31 in every month, and
the text is no date-time. -/
theorem is_rfc3339_accepts_february30 :
    isRfc3339 "2026-02-30T00:00:00Z" = true ∧
      ¬ IsDateTime (bytes "2026-02-30T00:00:00Z") := by
  have htext : bytes "2026-02-30T00:00:00Z" = february30.text := by decide
  refine ⟨by decide, ?_⟩
  rintro ⟨t, hrange, hday, hbytes, -⟩
  have hfebruary : february30.InRange :=
    { year := by decide, month := by decide, day := by decide, hour := by decide,
      minute := by decide, second := by decide, fraction := nofun, zone := trivial }
  obtain ⟨hyear, hmonth, hsame⟩ := hrange.date_unique hfebruary (hbytes.symm.trans htext)
  rw [hyear, hmonth, hsame] at hday
  exact absurd hday (by decide)

end CanonicalApi.PreInterest
