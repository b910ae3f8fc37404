import Mathlib.Algebra.Group.Nat.Defs
import Mathlib.Data.List.DropRight
import Mathlib.Data.List.Induction
import Mathlib.Data.List.Lex
import Mathlib.Order.Lattice

/-!
# `CanonicalApi.Lib.Decimal`: decimals of a fixed width

`fixed width n` is the list of the last `width` decimal digits of `n`, the most significant
first. The numbers below `10 ^ width` and the lists of `width` digits correspond
(`value_fixed`, `fixed_value`), and their orders agree: `fixed_lt_iff` says that the list of the
smaller number comes first in the order of a dictionary.

A fraction is a list of digits without a fixed length, and it is written without the zeros at its
end. `strip_lt_iff` says that this keeps the order. A terminator that is larger than every digit
does not: `concat_lt_iff` shows that it turns the order around exactly when one list is the
beginning of the other.
-/

set_option autoImplicit false

namespace Decimal

/-- The last `width` decimal digits of `n`. -/
def fixed : Nat → Nat → List Nat
  | 0, _ => []
  | width + 1, n => fixed width (n / 10) ++ [n % 10]

/-- The number with the given digits. -/
def value (digits : List Nat) : Nat :=
  digits.foldl (fun n d => n * 10 + d) 0

variable {width n m : Nat} {digits : List Nat}

/-- A numeral of fixed width has this width, whatever the number. -/
@[simp] theorem length_fixed (width n : Nat) : (fixed width n).length = width := by
  induction width generalizing n with
  | zero => rfl
  | succ width ih => rw [fixed, List.length_append, ih, List.length_singleton]

/-- The digits of a numeral are decimal ones. -/
theorem lt_ten_of_mem_fixed {d : Nat} (h : d ∈ fixed width n) : d < 10 := by
  induction width generalizing n with
  | zero => cases h
  | succ width ih =>
    rcases List.mem_append.mp h with h | h
    · exact ih h
    · rw [List.mem_singleton.mp h]
      exact Nat.mod_lt n (by decide)

/-- One more digit multiplies the value by ten and adds itself. The induction over a numeral from
its end uses this equation. -/
theorem value_append (digits : List Nat) (d : Nat) :
    value (digits ++ [d]) = value digits * 10 + d := by
  rw [value, List.foldl_append]
  rfl

/-- A numeral that is wide enough has the value that was written. Without the bound the high digits
are lost. -/
theorem value_fixed (h : n < 10 ^ width) : value (fixed width n) = n := by
  induction width generalizing n with
  | zero =>
    have hzero : n = 0 := by simpa using h
    rw [hzero]
    rfl
  | succ width ih =>
    rw [Nat.pow_succ] at h
    rw [fixed, value_append, ih (by omega)]
    omega

/-- A numeral is less than the power of ten that has its width. -/
theorem value_lt (h : ∀ d ∈ digits, d < 10) : value digits < 10 ^ digits.length := by
  induction digits using List.reverseRecOn with
  | nil => exact Nat.one_pos
  | append_singleton digits d ih =>
    have hdigits := ih fun d' hd' => h d' (List.mem_append_left _ hd')
    have hd := h d (by simp)
    rw [value_append, List.length_append, List.length_singleton, Nat.pow_succ]
    omega

/-- Every list of decimal digits is the numeral of its value, so reading and writing are inverse in
this order too. -/
theorem fixed_value (h : ∀ d ∈ digits, d < 10) : fixed digits.length (value digits) = digits := by
  induction digits using List.reverseRecOn with
  | nil => rfl
  | append_singleton digits d ih =>
    have hdigits := ih fun d' hd' => h d' (List.mem_append_left _ hd')
    have hd := h d (by simp)
    have hquotient : (value digits * 10 + d) / 10 = value digits := by omega
    have hrest : (value digits * 10 + d) % 10 = d := by omega
    rw [List.length_append, List.length_singleton, value_append, fixed, hquotient, hrest, hdigits]

/-- A number is determined by its digits. -/
theorem fixed_inj (hn : n < 10 ^ width) (hm : m < 10 ^ width)
    (h : fixed width n = fixed width m) : n = m := by
  rw [← value_fixed hn, h, value_fixed hm]

/-! ### The order of a dictionary -/

section

variable {α β : Type} [LinearOrder α] [LinearOrder β] {a b x y : List α}

/-- Lists whose beginnings have the same length. -/
theorem append_lt_iff (h : a.length = b.length) :
    a ++ x < b ++ y ↔ a < b ∨ a = b ∧ x < y := by
  induction a generalizing b with
  | nil =>
    have hnil : b = [] := List.eq_nil_of_length_eq_zero h.symm
    subst hnil
    simp
  | cons d a ih =>
    cases b with
    | nil => cases h
    | cons e b =>
      have hlength : a.length = b.length := Nat.succ.inj h
      rw [List.cons_append, List.cons_append, List.cons_lt_cons_iff, List.cons_lt_cons_iff,
        ih hlength, List.cons.injEq, and_or_left, or_assoc, and_assoc]

/-- The same with a character between the beginnings and the rest. -/
theorem append_cons_lt_iff (h : a.length = b.length) (c : α) :
    a ++ c :: x < b ++ c :: y ↔ a < b ∨ a = b ∧ x < y := by
  rw [append_lt_iff h, List.cons_lt_cons_iff]
  simp

/-- A strictly monotone change of the digits. -/
theorem map_lt_iff {f : α → β} (hf : ∀ d ∈ a, ∀ e ∈ b, (f d < f e ↔ d < e) ∧ (f d = f e ↔ d = e)) :
    a.map f < b.map f ↔ a < b := by
  induction a generalizing b with
  | nil => cases b <;> simp
  | cons d a ih =>
    cases b with
    | nil => simp
    | cons e b =>
      have hhead := hf d List.mem_cons_self e List.mem_cons_self
      have htail := ih fun d' hd' e' he' =>
        hf d' (List.mem_cons_of_mem _ hd') e' (List.mem_cons_of_mem _ he')
      rw [List.map_cons, List.map_cons, List.cons_lt_cons_iff, List.cons_lt_cons_iff, hhead.1,
        hhead.2, htail]

/-- A terminator beyond all letters turns the order around when one list begins the other. -/
theorem concat_lt_iff {z : α} (hz : ∀ d ∈ b, d < z) (hlt : a < b) :
    a ++ [z] < b ++ [z] ↔ ¬ a <+: b := by
  induction a generalizing b with
  | nil =>
    cases b with
    | nil => exact absurd hlt (List.not_lt_nil _)
    | cons e b =>
      have he := hz e List.mem_cons_self
      have hne : ¬ z < e := not_lt_of_gt he
      simp [List.cons_lt_cons_iff, hne, he.ne']
  | cons d a ih =>
    cases b with
    | nil => exact absurd hlt (List.not_lt_nil _)
    | cons e b =>
      rw [List.cons_append, List.cons_append, List.cons_lt_cons_iff, List.cons_prefix_cons]
      -- Where the words differ the end does not matter; where they agree the tails decide.
      rcases List.cons_lt_cons_iff.mp hlt with hde | ⟨rfl, htail⟩
      · simp [hde, hde.ne]
      · rw [ih (fun e he => hz e (List.mem_cons_of_mem _ he)) htail]
        simp

end

/-- For numerals of one width, the order of the lists is the order of the numbers. The texts of
time stamps compare this way. -/
theorem fixed_lt (h : n < m) (hm : m < 10 ^ width) : fixed width n < fixed width m := by
  induction width generalizing n m with
  | zero =>
    have hzero : m = 0 := by simpa using hm
    omega
  | succ width ih =>
    rw [Nat.pow_succ] at hm
    have hlength : (fixed width (n / 10)).length = (fixed width (m / 10)).length := by simp
    rw [fixed, fixed, append_lt_iff hlength]
    by_cases hquotient : n / 10 < m / 10
    · exact .inl (ih hquotient (by omega))
    · have hsame : n / 10 = m / 10 := by omega
      refine .inr ⟨by rw [hsame], List.cons_lt_cons_iff.mpr (.inl ?_)⟩
      omega

/-- The order of the numbers is the order of their digits. -/
theorem fixed_lt_iff (hn : n < 10 ^ width) (hm : m < 10 ^ width) :
    fixed width n < fixed width m ↔ n < m := by
  refine ⟨fun h => ?_, fun h => fixed_lt h hm⟩
  by_contra hnot
  rcases Nat.lt_or_eq_of_le (Nat.not_lt.mp hnot) with hgt | heq
  · exact lt_asymm h (fixed_lt hgt hn)
  · exact lt_irrefl _ (heq ▸ h)

/-! ### Fractions -/

/-- The digits without the zeros at their end. -/
def strip (digits : List Nat) : List Nat :=
  digits.rdropWhile (· = 0)

/-- How `strip` goes over a digit: it drops a zero when nothing is left after it. -/
theorem strip_cons (d : Nat) (digits : List Nat) :
    strip (d :: digits) = if strip digits = [] ∧ d = 0 then [] else d :: strip digits := by
  unfold strip
  induction digits using List.reverseRecOn with
  | nil => by_cases hd : d = 0 <;> simp [List.rdropWhile_singleton, hd]
  | append_singleton digits e ih =>
    rw [← List.cons_append, List.rdropWhile_concat, List.rdropWhile_concat]
    by_cases he : e = 0
    · simp only [he, decide_true, if_true]
      exact ih
    · simp [he]

/-- Stripping keeps the order of fractions with the same number of digits. -/
theorem strip_lt_iff {digits' : List Nat} (h : digits.length = digits'.length) :
    strip digits < strip digits' ↔ digits < digits' := by
  induction digits generalizing digits' with
  | nil =>
    have hnil : digits' = [] := List.eq_nil_of_length_eq_zero h.symm
    subst hnil
    exact Iff.rfl
  | cons d digits ih =>
    cases digits' with
    | nil => cases h
    | cons d' digits' =>
      have htail := ih (Nat.succ.inj h)
      rw [strip_cons, strip_cons, List.cons_lt_cons_iff]
      by_cases hnil : strip digits = [] ∧ d = 0
      · obtain ⟨hstrip, rfl⟩ := hnil
        rw [if_pos ⟨hstrip, rfl⟩, ← htail, hstrip]
        by_cases hnil' : strip digits' = [] ∧ d' = 0
        · rw [if_pos hnil', hnil'.1, hnil'.2]
          simp
        · rw [if_neg hnil']
          -- A list without zeros at its end is not empty, or its first digit is not zero.
          have hpos : 0 < d' ∨ 0 = d' ∧ [] < strip digits' := by
            by_cases hd' : d' = 0
            · have hne : strip digits' ≠ [] := fun hstrip => hnil' ⟨hstrip, hd'⟩
              obtain ⟨e, rest, hcons⟩ := List.exists_cons_of_ne_nil hne
              rw [hcons]
              exact .inr ⟨hd'.symm, List.nil_lt_cons e rest⟩
            · exact .inl (Nat.pos_of_ne_zero hd')
          exact ⟨fun _ => hpos, fun _ => List.nil_lt_cons _ _⟩
      · rw [if_neg hnil]
        by_cases hnil' : strip digits' = [] ∧ d' = 0
        · rw [if_pos hnil', ← htail, hnil'.1, hnil'.2]
          simp
        · rw [if_neg hnil', List.cons_lt_cons_iff, htail]

/-- Of numerals of one length, no two have the same stripped form. -/
theorem strip_inj {digits' : List Nat} (h : digits.length = digits'.length)
    (heq : strip digits = strip digits') : digits = digits' := by
  rcases lt_trichotomy digits digits' with hlt | hsame | hgt
  · have hstrip := (strip_lt_iff h).mpr hlt
    rw [heq] at hstrip
    exact absurd hstrip (lt_irrefl _)
  · exact hsame
  · have hstrip := (strip_lt_iff h.symm).mpr hgt
    rw [heq] at hstrip
    exact absurd hstrip (lt_irrefl _)

end Decimal
