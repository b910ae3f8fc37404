import CanonicalApi.Lib.Calendar
import CanonicalApi.Lib.Decimal
import CanonicalApi.Listing
import CanonicalApi.Observation.Clock

/-!
# `CanonicalApi.Listing.NewestFirst`: times as texts

Without a database the quotes of an owner are sorted by the text of their time of creation, which
`now_rfc3339` writes. The text has the fields of the UTC date and time with a fixed width, and
then a fraction without the zeros at its end, and `Z`. The letter `Z` comes after the point and
after every digit, so `…00Z` is larger than `…00.5Z`, and `….1Z` than `….15Z`.

`text_lt_iff` compares two texts: the order is the order of the instants, except between instants
of one second when the fraction of one begins that of the other (`Truncates`). Then it is the
opposite order. `newest_first_when` is the consequence for lists.
-/

set_option autoImplicit false

namespace CanonicalApi

open Calendar (IsDate dayNumber daysInMonth)
open Decimal (fixed strip append_cons_lt_iff append_lt_iff)

/-! ### Instants -/

/-- An instant, as the crate `time` keeps it: a date and a time of day, in UTC, with
nanoseconds. Other years do not have a text in the format `Rfc3339`. -/
structure UtcDateTime where
  year : Nat
  month : Nat
  day : Nat
  hour : Nat
  minute : Nat
  second : Nat
  nanosecond : Nat
  year_lt : year < 10000
  isDate : IsDate year month day
  hour_lt : hour < 24
  minute_lt : minute < 60
  second_lt : second < 60
  nanosecond_lt : nanosecond < 10 ^ 9

namespace UtcDateTime

/-- The seconds since the first of January of the year 0. -/
def wholeSeconds (t : UtcDateTime) : Nat :=
  ((dayNumber t.year t.month t.day * 24 + t.hour) * 60 + t.minute) * 60 + t.second

/-- The nanoseconds since the Unix epoch. -/
def instant (t : UtcDateTime) : Instant :=
  ((t.wholeSeconds : Int) - 62167219200) * 1000000000 + t.nanosecond

/-- The text up to the seconds. -/
def civil (t : UtcDateTime) : List Char :=
  paddedDigits 4 t.year ++ '-' :: (paddedDigits 2 t.month ++ '-' :: (paddedDigits 2 t.day ++
    'T' :: (paddedDigits 2 t.hour ++ ':' :: (paddedDigits 2 t.minute ++
      ':' :: paddedDigits 2 t.second))))

/-- `OffsetDateTime::format` with `Rfc3339`, and so `now_rfc3339`. -/
def text (t : UtcDateTime) : String :=
  String.ofList (t.civil ++ (rfc3339Fraction t.nanosecond ++ ['Z']))

/-- The digits of the fraction of a second, without the zeros at their end. -/
def fractionDigits (t : UtcDateTime) : List Nat :=
  strip (fixed 9 t.nanosecond)

/-- `t` is earlier in the second of `u`, and the fraction of `u` begins with that of `t`. -/
def Truncates (t u : UtcDateTime) : Prop :=
  t.wholeSeconds = u.wholeSeconds ∧ t.nanosecond < u.nanosecond ∧
    t.fractionDigits <+: u.fractionDigits

end UtcDateTime

/-! ### Digits -/

/-- The character of a digit. -/
def digitChar (d : Nat) : Char := Char.ofNat (48 + d)

/-- The digits that the formatter writes are those of the numeral of fixed width. -/
theorem paddedDigits_eq (width n : Nat) :
    paddedDigits width n = (fixed width n).map digitChar := by
  induction width generalizing n with
  | zero => rfl
  | succ width ih =>
    rw [paddedDigits, fixed, List.map_append, ih]
    rfl

/-- Digits compare as their numbers, and none is zero but `0`. -/
theorem digitChar_lt_iff {d e : Nat} (hd : d < 10) (he : e < 10) :
    (digitChar d < digitChar e ↔ d < e) ∧ (digitChar d = digitChar e ↔ d = e) := by
  have hall : ∀ d e : Fin 10, (digitChar d < digitChar e ↔ d.val < e.val) ∧
      (digitChar d = digitChar e ↔ d.val = e.val) := by decide
  exact hall ⟨d, hd⟩ ⟨e, he⟩

/-- Every digit sorts before the letter that ends the text. So of two texts of which one has more
digits in its fraction, the longer one is the smaller one at the place where the other ends. -/
theorem digitChar_lt_terminator {d : Nat} (hd : d < 10) : digitChar d < 'Z' := by
  have hall : ∀ d : Fin 10, digitChar d < 'Z' := by decide
  exact hall ⟨d, hd⟩

/-- Numbers of the same width compare as their texts. -/
theorem paddedDigits_lt_iff (width : Nat) {n m : Nat} (hn : n < 10 ^ width) (hm : m < 10 ^ width) :
    (paddedDigits width n < paddedDigits width m ↔ n < m) ∧
      (paddedDigits width n = paddedDigits width m ↔ n = m) := by
  have hlt : ∀ {n m : Nat}, n < 10 ^ width → m < 10 ^ width →
      (paddedDigits width n < paddedDigits width m ↔ n < m) := by
    intro n m hn hm
    rw [paddedDigits_eq, paddedDigits_eq, Decimal.map_lt_iff, Decimal.fixed_lt_iff hn hm]
    intro d hd e he
    exact digitChar_lt_iff (Decimal.lt_ten_of_mem_fixed hd) (Decimal.lt_ten_of_mem_fixed he)
  refine ⟨hlt hn hm, fun heq => ?_, fun heq => by rw [heq]⟩
  rcases lt_trichotomy n m with h | h | h
  · exact absurd (heq ▸ (hlt hn hm).mpr h) (lt_irrefl _)
  · exact h
  · exact absurd (heq ▸ (hlt hm hn).mpr h) (lt_irrefl _)

namespace UtcDateTime

variable {t u : UtcDateTime}

/-! ### Whole seconds -/

/-- The order of the fields is the order of the seconds. -/
theorem wholeSeconds_lt_iff (t u : UtcDateTime) : t.wholeSeconds < u.wholeSeconds ↔
    t.year < u.year ∨ t.year = u.year ∧ (t.month < u.month ∨ t.month = u.month ∧
      (t.day < u.day ∨ t.day = u.day ∧ (t.hour < u.hour ∨ t.hour = u.hour ∧
        (t.minute < u.minute ∨ t.minute = u.minute ∧ t.second < u.second)))) := by
  have hdate := Calendar.dayNumber_lt_iff t.isDate u.isDate
  have hbounds := And.intro t.hour_lt (And.intro t.minute_lt t.second_lt)
  have hbounds' := And.intro u.hour_lt (And.intro u.minute_lt u.second_lt)
  -- The day number determines the date.
  have hsame : dayNumber t.year t.month t.day = dayNumber u.year u.month u.day ↔
      t.year = u.year ∧ t.month = u.month ∧ t.day = u.day := by
    refine ⟨Calendar.dayNumber_inj t.isDate u.isDate, ?_⟩
    rintro ⟨hyear, hmonth, hday⟩
    rw [hyear, hmonth, hday]
  have htime : t.wholeSeconds < u.wholeSeconds ↔
      dayNumber t.year t.month t.day < dayNumber u.year u.month u.day ∨
      dayNumber t.year t.month t.day = dayNumber u.year u.month u.day ∧
        (t.hour < u.hour ∨ t.hour = u.hour ∧
          (t.minute < u.minute ∨ t.minute = u.minute ∧ t.second < u.second)) := by
    unfold wholeSeconds
    omega
  rw [htime, hdate, hsame]
  omega

/-- The date and the time to the second have nineteen characters, since the years have four
digits. -/
theorem length_civil (t : UtcDateTime) : t.civil.length = 19 := by
  simp [civil, length_paddedDigits]

/-- The text up to the seconds is in the order of the seconds. -/
theorem civil_lt_iff (t u : UtcDateTime) : t.civil < u.civil ↔ t.wholeSeconds < u.wholeSeconds := by
  -- All fields have a fixed width, so the comparison of the texts is the one of the fields in turn.
  have hlength : ∀ width n m : Nat,
      (paddedDigits width n).length = (paddedDigits width m).length := by
    intro width n m
    rw [length_paddedDigits, length_paddedDigits]
  have hmonth := And.intro t.isDate.month_range u.isDate.month_range
  have hday : ∀ t : UtcDateTime, t.day < 10 ^ 2 := by
    intro t
    have hrange := t.isDate.day_range
    have hmax : daysInMonth t.year t.month ≤ 31 := by
      unfold daysInMonth
      split
      · split <;> omega
      · split <;> omega
    omega
  have hhour := And.intro t.hour_lt u.hour_lt
  have hminute := And.intro t.minute_lt u.minute_lt
  have hsecond := And.intro t.second_lt u.second_lt
  obtain ⟨hyears, hyears'⟩ := paddedDigits_lt_iff 4 t.year_lt u.year_lt
  obtain ⟨hmonths, hmonths'⟩ :=
    paddedDigits_lt_iff 2 (n := t.month) (m := u.month) (by omega) (by omega)
  obtain ⟨hdays, hdays'⟩ := paddedDigits_lt_iff 2 (hday t) (hday u)
  obtain ⟨hhours, hhours'⟩ :=
    paddedDigits_lt_iff 2 (n := t.hour) (m := u.hour) (by omega) (by omega)
  obtain ⟨hminutes, hminutes'⟩ :=
    paddedDigits_lt_iff 2 (n := t.minute) (m := u.minute) (by omega) (by omega)
  obtain ⟨hseconds, -⟩ :=
    paddedDigits_lt_iff 2 (n := t.second) (m := u.second) (by omega) (by omega)
  rw [wholeSeconds_lt_iff, civil, civil, append_cons_lt_iff (hlength _ _ _),
    append_cons_lt_iff (hlength _ _ _), append_cons_lt_iff (hlength _ _ _),
    append_cons_lt_iff (hlength _ _ _), append_cons_lt_iff (hlength _ _ _), hyears, hyears',
    hmonths, hmonths', hdays, hdays', hhours, hhours', hminutes, hminutes', hseconds]

/-- Two times have the same text to the second just when they are the same second. -/
theorem civil_eq_iff (t u : UtcDateTime) : t.civil = u.civil ↔ t.wholeSeconds = u.wholeSeconds := by
  have hlt := civil_lt_iff t u
  have hgt := civil_lt_iff u t
  constructor
  · intro heq
    rw [heq] at hlt hgt
    have hnot := mt hlt.mpr (lt_irrefl _)
    have hnot' := mt hgt.mpr (lt_irrefl _)
    omega
  · intro heq
    rcases lt_trichotomy t.civil u.civil with h | h | h
    · exact absurd (hlt.mp h) (by omega)
    · exact h
    · exact absurd (hgt.mp h) (by omega)

/-! ### Fractions -/

/-- A fraction, from its digits. -/
def fractionChars (digits : List Nat) : List Char :=
  if digits = [] then [] else '.' :: digits.map digitChar

/-- The digits of the fraction are decimal ones. -/
theorem fractionDigits_lt_ten {d : Nat} (h : d ∈ t.fractionDigits) : d < 10 :=
  Decimal.lt_ten_of_mem_fixed ((List.rdropWhile_prefix _ _).subset h)

/-- The zeros at the end of the text are those of the digits. -/
theorem rdropWhile_map_digitChar {digits : List Nat} (h : ∀ d ∈ digits, d < 10) :
    (digits.map digitChar).rdropWhile (· = '0') = (strip digits).map digitChar := by
  unfold strip
  induction digits using List.reverseRecOn with
  | nil => rfl
  | append_singleton digits d ih =>
    have hzero : digitChar d = '0' ↔ d = 0 :=
      (digitChar_lt_iff (h d (by simp)) (by decide : 0 < 10)).2
    have hrest := ih fun e he => h e (List.mem_append_left _ he)
    rw [List.map_append, List.map_singleton, List.rdropWhile_concat, List.rdropWhile_concat]
    by_cases hd : d = 0
    · rw [if_pos (decide_eq_true (hzero.mpr hd)), if_pos (decide_eq_true hd)]
      exact hrest
    · simp [hzero, hd]

/-- The fraction of an instant, without one for a whole second. -/
theorem rfc3339Fraction_eq (t : UtcDateTime) :
    rfc3339Fraction t.nanosecond = fractionChars t.fractionDigits := by
  -- No digits are left exactly when the fraction is zero, which is written as nothing.
  have hnil : t.fractionDigits = [] ↔ t.nanosecond = 0 := by
    have hzero : strip (fixed 9 0) = [] := by decide
    constructor
    · intro h
      refine Decimal.fixed_inj t.nanosecond_lt (by decide)
        (Decimal.strip_inj ?_ (h.trans hzero.symm))
      simp
    · intro h
      rw [fractionDigits, h, hzero]
  unfold rfc3339Fraction fractionChars
  simp only [hnil]
  rw [paddedDigits_eq,
    rdropWhile_map_digitChar fun d hd => Decimal.lt_ten_of_mem_fixed hd]
  rfl

/-- Fractions compare as their digits. -/
theorem fractionChars_lt_iff {ds es : List Nat} (hds : ∀ d ∈ ds, d < 10) (hes : ∀ d ∈ es, d < 10) :
    fractionChars ds < fractionChars es ↔ ds < es := by
  have hmap : ds.map digitChar < es.map digitChar ↔ ds < es :=
    Decimal.map_lt_iff fun d hd e he => digitChar_lt_iff (hds d hd) (hes e he)
  unfold fractionChars
  cases ds with
  | nil => cases es <;> simp
  | cons d ds =>
    cases es with
    | nil => simp
    | cons e es =>
      rw [if_neg (List.cons_ne_nil _ _), if_neg (List.cons_ne_nil _ _), List.cons_lt_cons_iff, hmap]
      simp

/-- One fraction begins another when its digits do. -/
theorem fractionChars_prefix_iff {ds es : List Nat} (hds : ∀ d ∈ ds, d < 10)
    (hes : ∀ d ∈ es, d < 10) : fractionChars ds <+: fractionChars es ↔ ds <+: es := by
  -- Digits and their characters correspond one to one, so prefixes of one are prefixes of the
  -- other.
  have hmap : ∀ ds es : List Nat, (∀ d ∈ ds, d < 10) → (∀ d ∈ es, d < 10) →
      (ds.map digitChar <+: es.map digitChar ↔ ds <+: es) := by
    intro ds
    induction ds with
    | nil => simp
    | cons d ds ih =>
      intro es hds hes
      cases es with
      | nil => simp
      | cons e es =>
        obtain ⟨hd, hds⟩ := List.forall_mem_cons.mp hds
        obtain ⟨he, hes⟩ := List.forall_mem_cons.mp hes
        rw [List.map_cons, List.map_cons, List.cons_prefix_cons, List.cons_prefix_cons,
          (digitChar_lt_iff hd he).2, ih es hds hes]
  unfold fractionChars
  cases ds with
  | nil => simp
  | cons d ds =>
    cases es with
    | nil => simp
    | cons e es =>
      rw [if_neg (List.cons_ne_nil _ _), if_neg (List.cons_ne_nil _ _), List.cons_prefix_cons,
        hmap _ _ hds hes]
      simp

/-- Every character of a fraction comes before `Z`. -/
theorem lt_terminator {digits : List Nat} (h : ∀ d ∈ digits, d < 10) :
    ∀ c ∈ fractionChars digits, c < 'Z' := by
  intro c hc
  unfold fractionChars at hc
  split at hc
  · cases hc
  · rcases List.mem_cons.mp hc with rfl | hc
    · decide
    · obtain ⟨d, hd, rfl⟩ := List.mem_map.mp hc
      exact digitChar_lt_terminator (h d hd)

/-- The end of a text, after the same second. -/
theorem fraction_lt_iff (hlt : t.nanosecond < u.nanosecond) :
    (rfc3339Fraction t.nanosecond ++ ['Z'] < rfc3339Fraction u.nanosecond ++ ['Z'] ↔
      ¬ t.fractionDigits <+: u.fractionDigits) ∧
    (rfc3339Fraction u.nanosecond ++ ['Z'] < rfc3339Fraction t.nanosecond ++ ['Z'] ↔
      t.fractionDigits <+: u.fractionDigits) := by
  have hlength : (fixed 9 t.nanosecond).length = (fixed 9 u.nanosecond).length := by simp
  have hdigits : t.fractionDigits < u.fractionDigits :=
    (Decimal.strip_lt_iff hlength).mpr (Decimal.fixed_lt hlt u.nanosecond_lt)
  have ht : ∀ d ∈ t.fractionDigits, d < 10 := fun d hd => fractionDigits_lt_ten hd
  have hu : ∀ d ∈ u.fractionDigits, d < 10 := fun d hd => fractionDigits_lt_ten hd
  have hchars := (fractionChars_lt_iff ht hu).mpr hdigits
  -- The terminator is greater than any digit, so that a prefix comes later.
  have hterminated : fractionChars t.fractionDigits ++ ['Z'] <
      fractionChars u.fractionDigits ++ ['Z'] ↔ ¬ t.fractionDigits <+: u.fractionDigits := by
    rw [Decimal.concat_lt_iff (lt_terminator hu) hchars, fractionChars_prefix_iff ht hu]
  have hne : fractionChars t.fractionDigits ++ ['Z'] ≠
      fractionChars u.fractionDigits ++ ['Z'] :=
    fun heq => hchars.ne (List.append_cancel_right heq)
  rw [rfc3339Fraction_eq, rfc3339Fraction_eq]
  refine ⟨hterminated, ?_⟩
  rw [← not_iff_not, not_lt, ← hterminated]
  exact ⟨fun h => lt_of_le_of_ne h hne, le_of_lt⟩

/-! ### Texts -/

/-- The texts are compared by the second first and then by the fraction with the `Z` after it. The
parts to the second have one length, so no comparison runs over into the fraction before. -/
theorem text_lt_iff_lists (t u : UtcDateTime) : t.text < u.text ↔
    t.wholeSeconds < u.wholeSeconds ∨ t.wholeSeconds = u.wholeSeconds ∧
      rfc3339Fraction t.nanosecond ++ ['Z'] < rfc3339Fraction u.nanosecond ++ ['Z'] := by
  rw [text, text, String.lt_iff_toList_lt, String.toList_ofList, String.toList_ofList,
    append_lt_iff (by rw [length_civil, length_civil]), civil_lt_iff, civil_eq_iff]

/-- The instants are compared by the second first and then by the nanosecond. -/
theorem instant_lt_iff (t u : UtcDateTime) : t.instant < u.instant ↔
    t.wholeSeconds < u.wholeSeconds ∨ t.wholeSeconds = u.wholeSeconds ∧
      t.nanosecond < u.nanosecond := by
  have ht : t.nanosecond < 1000000000 := t.nanosecond_lt
  have hu : u.nanosecond < 1000000000 := u.nanosecond_lt
  show ((t.wholeSeconds : Int) - 62167219200) * 1000000000 + t.nanosecond <
    ((u.wholeSeconds : Int) - 62167219200) * 1000000000 + u.nanosecond ↔ _
  omega

/-- The order of two texts: that of the instants, unless one is cut off where the other goes
on. -/
theorem text_lt_iff (hlt : t.instant < u.instant) :
    (t.text < u.text ↔ ¬ t.Truncates u) ∧ (u.text < t.text ↔ t.Truncates u) := by
  rw [text_lt_iff_lists, text_lt_iff_lists]
  rcases (instant_lt_iff t u).mp hlt with hseconds | ⟨hseconds, hnanos⟩
  · have hnot : ¬ t.Truncates u := fun h => absurd h.1 (by omega)
    have hgt : ¬ u.wholeSeconds < t.wholeSeconds := by omega
    have hne : ¬ u.wholeSeconds = t.wholeSeconds := by omega
    simp [hseconds, hnot, hgt, hne]
  · have htruncates : t.Truncates u ↔ t.fractionDigits <+: u.fractionDigits :=
      ⟨fun h => h.2.2, fun h => ⟨hseconds, hnanos, h⟩⟩
    obtain ⟨hfraction, hfraction'⟩ := fraction_lt_iff hnanos
    have hirrefl : ¬ t.wholeSeconds < t.wholeSeconds := Nat.lt_irrefl _
    rw [htruncates, ← hseconds]
    simp only [hirrefl, false_or, true_and]
    exact ⟨hfraction, hfraction'⟩

/-- The same instant has the same text. -/
theorem text_eq (h : t.instant = u.instant) : t.text = u.text := by
  have hlt : ¬ t.instant < u.instant := by rw [h]; exact lt_irrefl _
  have hgt : ¬ u.instant < t.instant := by rw [h]; exact lt_irrefl _
  rw [instant_lt_iff] at hlt hgt
  have hseconds : t.wholeSeconds = u.wholeSeconds := by omega
  have hnanos : t.nanosecond = u.nanosecond := by omega
  rw [text, text, (civil_eq_iff t u).mpr hseconds, hnanos]

end UtcDateTime

/-! ### Listings -/

section

variable [CanonicalLib] [UuidCrate]

/-- The key of a quote: the instant of its creation, then its id. -/
def instantKey (created : QuoteRecord → UtcDateTime) (record : QuoteRecord) : Int ×ₗ Uuid :=
  toLex ((created record).instant, record.quoteId)

/-- The rows that `list_quotes` cuts its pages from, without a cursor. -/
theorem listQuotesInMemory_sorted (values : List QuoteRecord) (subject : String)
    (query : QuoteListQuery) (hcursor : query.cursor = none) :
    listQuotesInMemory values subject query =
      quoteListResponse ((Pagination.descending memoryListing.key
        (memoryListing.own subject values)).take (query.pageLimit + 1)) query.pageLimit := by
  unfold listQuotesInMemory QuoteListQuery.parseCursor
  rw [hcursor]
  rfl

/-- Without a database the quotes of an owner are listed from the newest to the oldest exactly
when no two of them were created in one second such that the later fraction goes on after the
earlier one, without its zeros at the end. Two texts of `now_rfc3339` are in the order of their
instants on the same condition. -/
theorem newest_first_when {values : List QuoteRecord} {subject : String}
    {created : QuoteRecord → UtcDateTime}
    (hcreated : ∀ record ∈ memoryListing.own subject values,
      record.createdAt = (created record).text)
    (hids : ((memoryListing.own subject values).map QuoteRecord.quoteId).Nodup) :
    (Pagination.descending memoryListing.key (memoryListing.own subject values) =
        Pagination.descending (instantKey created) (memoryListing.own subject values) ↔
      ∀ record ∈ memoryListing.own subject values, ∀ record' ∈ memoryListing.own subject values,
        ¬ (created record).Truncates (created record')) ∧
    ∀ t u : UtcDateTime, t.instant < u.instant → (t.text < u.text ↔ ¬ t.Truncates u) := by
  refine ⟨?_, fun t u hlt => (UtcDateTime.text_lt_iff hlt).1⟩
  generalize memoryListing.own subject values = records at *
  have hkeys : (records.map memoryListing.key).Nodup :=
    List.Nodup.of_map (fun key => (ofLex key).2) (by rw [List.map_map]; exact hids)
  have hkeys' : (records.map (instantKey created)).Nodup :=
    List.Nodup.of_map (fun key => (ofLex key).2) (by rw [List.map_map]; exact hids)
  have hkey : ∀ record ∈ records, ∀ record' ∈ records,
      (memoryListing.key record' < memoryListing.key record ↔
        (created record').text < (created record).text ∨
          (created record').text = (created record).text ∧ record'.quoteId < record.quoteId) := by
    intro record hrecord record' hrecord'
    rw [← hcreated record hrecord, ← hcreated record' hrecord']
    exact Prod.Lex.toLex_lt_toLex
  have hkey' : ∀ record record' : QuoteRecord,
      (instantKey created record' < instantKey created record ↔
        (created record').instant < (created record).instant ∨
          (created record').instant = (created record).instant ∧
            record'.quoteId < record.quoteId) := fun _ _ => Prod.Lex.toLex_lt_toLex
  rw [Pagination.descending_eq_iff hkeys hkeys']
  constructor
  · intro hsame record hrecord record' hrecord' htruncates
    have hlt : (created record).instant < (created record').instant :=
      (UtcDateTime.instant_lt_iff _ _).mpr (.inr ⟨htruncates.1, htruncates.2.1⟩)
    -- The later quote has the smaller text.
    have htext := (UtcDateTime.text_lt_iff hlt).2.mpr htruncates
    have hagree := (hsame record' hrecord' record hrecord).mpr ((hkey' _ _).mpr (.inl hlt))
    rcases (hkey record' hrecord' record hrecord).mp hagree with h | ⟨h, -⟩
    · exact lt_asymm h htext
    · exact htext.ne' h
  · intro hnone record hrecord record' hrecord'
    rw [hkey record hrecord record' hrecord', hkey' record record']
    rcases lt_trichotomy (created record').instant (created record).instant with hlt | heq | hgt
    · have htext := (UtcDateTime.text_lt_iff hlt).1.mpr (hnone record' hrecord' record hrecord)
      exact ⟨fun _ => .inl hlt, fun _ => .inl htext⟩
    · simp [heq, UtcDateTime.text_eq heq]
    · have htext := (UtcDateTime.text_lt_iff hgt).1.mpr (hnone record hrecord record' hrecord')
      have hnot : ¬ (created record').instant < (created record).instant := lt_asymm hgt
      have hnot' : ¬ (created record').text < (created record).text := lt_asymm htext
      simp [hgt.ne', htext.ne', hnot, hnot']

end

/-! ### Two quotes of one second -/

section

attribute [local instance] fixtureLib hyphenatedUuids

/-- A time of the ninth of September 2026, five o'clock, with the given nanosecond. Two of them
differ in nothing but the fraction of the second. -/
def fiveOClock (nanosecond : Nat) (h : nanosecond < 10 ^ 9) : UtcDateTime where
  year := 2026
  month := 9
  day := 9
  hour := 5
  minute := 0
  second := 0
  nanosecond := nanosecond
  year_lt := by decide
  isDate := ⟨by decide, by decide⟩
  hour_lt := by decide
  minute_lt := by decide
  second_lt := by decide
  nanosecond_lt := h

/-- Two quotes, created at five o'clock and half a second later. -/
def halfSecondApart : List QuoteRecord :=
  [{ emptyRiskRecord with quoteId := ⟨1⟩, createdAt := "2026-09-09T05:00:00Z" },
    { emptyRiskRecord with quoteId := ⟨2⟩, createdAt := "2026-09-09T05:00:00.5Z" }]

/-- The instants of their creation. -/
def halfSecondInstant (record : QuoteRecord) : UtcDateTime :=
  if record.quoteId = ⟨1⟩ then fiveOClock 0 (by decide) else fiveOClock 500000000 (by decide)

/-- The records of the example were created at the instants that their texts say. -/
theorem halfSecondApart_created :
    ∀ record ∈ halfSecondApart, record.createdAt = (halfSecondInstant record).text := by
  decide

/-- Two quotes half a second apart, one at a whole second. Their texts are the ones that the code
writes for their instants, and the older one is listed first. -/
theorem newest_first_fails :
    (∀ record ∈ halfSecondApart, record.createdAt = (halfSecondInstant record).text) ∧
    Pagination.descending memoryListing.key halfSecondApart ≠
      Pagination.descending (instantKey halfSecondInstant) halfSecondApart := by
  refine ⟨halfSecondApart_created, fun hsame => ?_⟩
  have hkeys : (halfSecondApart.map memoryListing.key).Nodup := by decide
  have hkeys' : (halfSecondApart.map (instantKey halfSecondInstant)).Nodup := by decide
  have hagree := (Pagination.descending_eq_iff hkeys hkeys').mp hsame
  exact absurd hagree (by decide)

/-- The two quotes do not meet the condition, since the fraction of one is a prefix of that of the
other. So they are not listed with the newest first. -/
theorem newest_first_when_test :
    Pagination.descending memoryListing.key (memoryListing.own "customer-1" halfSecondApart) ≠
      Pagination.descending (instantKey halfSecondInstant)
        (memoryListing.own "customer-1" halfSecondApart) := by
  have hcreated : ∀ record ∈ memoryListing.own "customer-1" halfSecondApart,
      record.createdAt = (halfSecondInstant record).text := by decide
  have hids : ((memoryListing.own "customer-1" halfSecondApart).map QuoteRecord.quoteId).Nodup := by
    decide
  intro hsame
  have hnone := (newest_first_when hcreated hids).1.mp hsame
  refine hnone { emptyRiskRecord with quoteId := ⟨1⟩, createdAt := "2026-09-09T05:00:00Z" }
    (by decide)
    { emptyRiskRecord with quoteId := ⟨2⟩, createdAt := "2026-09-09T05:00:00.5Z" }
    (by decide) ⟨by decide, by decide, by decide⟩

end

end CanonicalApi
