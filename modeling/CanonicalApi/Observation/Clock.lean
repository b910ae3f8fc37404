import CanonicalApi.Text
import CanonicalApi.External
import Mathlib.Data.List.DropRight

/-!
# `CanonicalApi.Observation.Clock`: one instant in two formats

`format_timestamp` writes an instant with the well-known format `Rfc3339` of the crate `time`:
the fraction of the second has up to nine digits and no zero at its end. The statements of
`store_database` write a stored time with `to_char` and the pattern `US`: always six digits.
`ReceiptTimes` states both, and that a stored time has microseconds.

`reformatted_eq_iff` says for which instants the two texts are equal once the instant has gone
through the database: the fraction has exactly six digits in the first format.
-/

set_option autoImplicit false

namespace CanonicalApi

/-- A decimal digit. -/
def digit (n : Nat) : Char := Char.ofNat (48 + n % 10)

/-- The last `width` decimal digits of a number. -/
def paddedDigits : Nat → Nat → List Char
  | 0, _ => []
  | width + 1, n => paddedDigits width (n / 10) ++ [digit n]

/-- The fraction of a second in the format `Rfc3339`, with its point. -/
def rfc3339Fraction (nanoseconds : Nat) : List Char :=
  if nanoseconds = 0 then []
  else '.' :: (paddedDigits 9 nanoseconds).rdropWhile (· = '0')

/-- The fraction of the instant, written without zeros at its end, has six digits: the instant
is a number of microseconds that does not end in a zero. -/
def SixDigits (now : Int) : Prop := 1000 ∣ now ∧ ¬ 10000 ∣ now

instance (now : Int) : Decidable (SixDigits now) :=
  inferInstanceAs (Decidable (_ ∧ ¬ _))

/-! ### Digits -/

/-- The last digit of a number is 0 just when ten divides it. The formatter drops such digits at
the end of a fraction. -/
theorem digit_eq_zero_iff (n : Nat) : digit n = '0' ↔ n % 10 = 0 := by
  have hdigit : ∀ k : Fin 10, Char.ofNat (48 + k) = '0' ↔ k = 0 := by decide
  have h := hdigit ⟨n % 10, by omega⟩
  rw [Fin.ext_iff] at h
  exact h

/-- A padded number has its width, whatever the number. -/
theorem length_paddedDigits (width n : Nat) : (paddedDigits width n).length = width := by
  induction width generalizing n with
  | zero => rfl
  | succ width ih => rw [paddedDigits, List.length_append, ih, List.length_singleton]

/-- The digits without the zeros at their end, one digit at a time. -/
theorem rdropWhile_paddedDigits (width n : Nat) :
    (paddedDigits (width + 1) n).rdropWhile (· = '0') =
      if n % 10 = 0 then (paddedDigits width (n / 10)).rdropWhile (· = '0')
      else paddedDigits (width + 1) n := by
  rw [paddedDigits, List.rdropWhile_concat]
  simp only [decide_eq_true_eq, digit_eq_zero_iff]

/-- Without the zeros at their end the nine digits of a number have six digits exactly when
the number ends in three zeros and no fourth one. -/
theorem length_rdropWhile_iff (n : Nat) :
    ((paddedDigits 9 n).rdropWhile (· = '0')).length = 6 ↔ 1000 ∣ n ∧ ¬ 10000 ∣ n := by
  -- Dropping zeros never makes the digits longer; so six are left after exactly three drops.
  have hle : ∀ width m, ((paddedDigits width m).rdropWhile (· = '0')).length ≤ width := by
    intro width m
    have := (List.rdropWhile_prefix (· = '0') (l := paddedDigits width m)).length_le
    rwa [length_paddedDigits] at this
  rw [rdropWhile_paddedDigits]
  split
  · rw [rdropWhile_paddedDigits]
    split
    · rw [rdropWhile_paddedDigits]
      split
      · rw [rdropWhile_paddedDigits]
        split
        · have := hle 5 (n / 10 / 10 / 10 / 10)
          omega
        · rw [length_paddedDigits]
          omega
      · rw [length_paddedDigits]
        omega
    · rw [length_paddedDigits]
      omega
  · rw [length_paddedDigits]
    omega

/-- Three zeros at the end of nine digits. -/
theorem rdropWhile_of_sixDigits {n : Nat} (h : 1000 ∣ n) (h' : ¬ 10000 ∣ n) :
    (paddedDigits 9 n).rdropWhile (· = '0') = paddedDigits 6 (n / 1000) := by
  rw [rdropWhile_paddedDigits, if_pos (by omega), rdropWhile_paddedDigits, if_pos (by omega),
    rdropWhile_paddedDigits, if_pos (by omega), rdropWhile_paddedDigits, if_neg (by omega),
    show n / 10 / 10 / 10 = n / 1000 by omega]

/-! ### The two formats -/

/-- What is documented of the two formats, where `civil` is the text of a whole second in UTC
up to the seconds. -/
structure ReceiptTimes [TimeCrate] [Postgres] (civil : Int → String) : Prop where
  /-- The point stands only in front of a fraction. -/
  point : ∀ seconds, '.' ∉ (civil seconds).toList
  /-- `Rfc3339` with a UTC instant. -/
  format : ∀ (now : Int) text, TimeCrate.format now = some text →
    text = civil (now / 1000000000) ++
      String.ofList (rfc3339Fraction (now % 1000000000).toNat) ++ "Z"
  /-- `timestamptz` keeps an instant of whole microseconds as it is. -/
  cast : ∀ (now : Int) text micros, TimeCrate.format now = some text →
    Postgres.timestamptz text = some micros → 1000 ∣ now → micros = now / 1000
  /-- `to_char` with the pattern of the statements. -/
  toChar : ∀ (now : Int) text micros, TimeCrate.format now = some text →
    Postgres.timestamptz text = some micros →
      Postgres.toChar micros = civil (micros / 1000000) ++ "." ++
        String.ofList (paddedDigits 6 (micros % 1000000).toNat) ++ "Z"

/-- The text of an instant and the text of what the database stored of it are equal exactly
when the fraction has six digits. -/
theorem ReceiptTimes.reformatted_eq_iff [TimeCrate] [Postgres] {civil : Int → String}
    (h : ReceiptTimes civil) {now : Int} {text : String} {micros : Int}
    (hformat : TimeCrate.format now = some text)
    (hcast : Postgres.timestamptz text = some micros) :
    Postgres.toChar micros = text ↔ SixDigits now := by
  obtain ⟨n, hn⟩ : ∃ n : Nat, now % 1000000000 = n := ⟨(now % 1000000000).toNat, by omega⟩
  have htext := h.format now text hformat
  rw [hn, Int.toNat_natCast] at htext
  have hchar := h.toChar now text micros hformat hcast
  have hsix : SixDigits now ↔ 1000 ∣ n ∧ ¬ 10000 ∣ n := by
    unfold SixDigits
    omega
  rw [hsix]
  refine ⟨fun heq => ?_, fun hdigits => ?_⟩
  · -- Both texts have at most one point, so the fractions agree.
    rw [hchar, htext, ← String.toList_inj] at heq
    simp only [String.toList_append, String.toList_ofList, List.append_assoc] at heq
    unfold rfc3339Fraction at heq
    split at heq
    · exfalso
      have hpoint : '.' ∈ (civil (now / 1000000000)).toList ++ ([] ++ "Z".toList) := by
        rw [← heq]
        simp
      rcases List.mem_append.mp hpoint with hmem | hmem
      · exact h.point _ hmem
      · exact absurd hmem (by decide)
    · have hfraction : paddedDigits 6 (micros % 1000000).toNat ++ "Z".toList =
          (paddedDigits 9 n).rdropWhile (· = '0') ++ "Z".toList :=
        (append_separator_injective (h.point _) (h.point _) heq).2
      rw [← length_rdropWhile_iff, ← List.append_cancel_right hfraction, length_paddedDigits]
  · have hmicros : micros = now / 1000 := h.cast now text micros hformat hcast (by omega)
    have hne : n ≠ 0 := by omega
    have hfraction : (micros % 1000000).toNat = n / 1000 := by omega
    have hseconds : micros / 1000000 = now / 1000000000 := by omega
    rw [hchar, htext, hfraction, hseconds, rfc3339Fraction, if_neg hne,
      rdropWhile_of_sixDigits hdigits.1 hdigits.2, ← String.toList_inj]
    simp only [String.toList_append, String.toList_ofList, List.append_assoc]
    rfl

end CanonicalApi
