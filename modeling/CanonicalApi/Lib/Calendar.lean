import Mathlib.Order.Monotone.Basic

/-!
# `CanonicalApi.Lib.Calendar`: the Gregorian calendar

Days are numbered from the first of January of the year 0. `dayNumber_lt_iff` says that the
order of the numbers is the order of year, month and day.
-/

set_option autoImplicit false

namespace Calendar

/-- Leap years. -/
def isLeapYear (year : Nat) : Bool :=
  year % 4 = 0 && (year % 100 ≠ 0 || year % 400 = 0)

/-- The number of days of a month. -/
def daysInMonth (year month : Nat) : Nat :=
  if month = 2 then if isLeapYear year then 29 else 28
  else if month = 4 ∨ month = 6 ∨ month = 9 ∨ month = 11 then 30
  else 31

/-- The days of a year. -/
def daysInYear (year : Nat) : Nat :=
  if isLeapYear year then 366 else 365

/-- The days before a year: 365 in each, and the leap days. -/
def daysBeforeYear (year : Nat) : Nat :=
  365 * year + (year + 3) / 4 - (year + 99) / 100 + (year + 399) / 400

/-- The days of a year before a month. -/
def daysBeforeMonth (year : Nat) : Nat → Nat
  | 0 => 0
  | 1 => 0
  | month + 2 => daysBeforeMonth year (month + 1) + daysInMonth year (month + 1)

/-- The number of a day. -/
def dayNumber (year month day : Nat) : Nat :=
  daysBeforeYear year + daysBeforeMonth year month + (day - 1)

/-- A date that the calendar has. -/
structure IsDate (year month day : Nat) : Prop where
  month_range : 1 ≤ month ∧ month ≤ 12
  day_range : 1 ≤ day ∧ day ≤ daysInMonth year month

variable {year year' month month' day day' : Nat}

/-- A year starts where the year before it ends. -/
theorem daysBeforeYear_succ (year : Nat) :
    daysBeforeYear (year + 1) = daysBeforeYear year + daysInYear year := by
  have h4 : (year + 1 + 3) / 4 = (year + 3) / 4 + if year % 4 = 0 then 1 else 0 := by
    split <;> omega
  have h100 : (year + 1 + 99) / 100 = (year + 99) / 100 + if year % 100 = 0 then 1 else 0 := by
    split <;> omega
  have h400 : (year + 1 + 399) / 400 = (year + 399) / 400 + if year % 400 = 0 then 1 else 0 := by
    split <;> omega
  have hle : (year + 99) / 100 ≤ 365 * year + (year + 3) / 4 := by omega
  unfold daysBeforeYear daysInYear
  rw [h4, h100, h400]
  -- A multiple of 400 is one of 100, and a multiple of 100 is one of 4.
  by_cases hfour : year % 4 = 0
  · by_cases hhundred : year % 100 = 0
    · by_cases hlast : year % 400 = 0
      · simp only [isLeapYear, hfour, hhundred, hlast, decide_true, ne_eq, not_true_eq_false,
          decide_false, Bool.or_true, Bool.and_true, if_true]
        omega
      · simp only [isLeapYear, hfour, hhundred, hlast, decide_true, ne_eq, not_true_eq_false,
          decide_false, Bool.or_false, Bool.and_false, if_true, if_false, Bool.false_eq_true]
        omega
    · have hlast : year % 400 ≠ 0 := by omega
      simp only [isLeapYear, hfour, hhundred, hlast, decide_true, ne_eq, not_false_eq_true,
        decide_false, Bool.or_false, Bool.and_true, if_true, if_false]
      omega
  · have hhundred : year % 100 ≠ 0 := by omega
    have hlast : year % 400 ≠ 0 := by omega
    simp only [isLeapYear, hfour, hhundred, hlast, decide_false, Bool.false_and, if_false,
      Bool.false_eq_true]
    omega

/-- A later year starts after the last day of an earlier one. Dates of different years therefore
never share a day number. -/
theorem daysBeforeYear_add_le (h : year < year') :
    daysBeforeYear year + daysInYear year ≤ daysBeforeYear year' := by
  have hmono : Monotone daysBeforeYear := by
    refine monotone_nat_of_le_succ fun n => ?_
    rw [daysBeforeYear_succ]
    exact Nat.le_add_right _ _
  rw [← daysBeforeYear_succ]
  exact hmono h

/-- A month starts where the month before it ends. There is no month 0, so `month` is at least 1. -/
theorem daysBeforeMonth_succ (hpos : 1 ≤ month) :
    daysBeforeMonth year (month + 1) = daysBeforeMonth year month + daysInMonth year month := by
  cases month with
  | zero => cases hpos
  | succ month => rfl

/-- A later month of a year starts after the last day of an earlier one. -/
theorem daysBeforeMonth_add_le (hpos : 1 ≤ month) (h : month < month') :
    daysBeforeMonth year month + daysInMonth year month ≤ daysBeforeMonth year month' := by
  induction month' with
  | zero => cases h
  | succ month' ih =>
    rcases Nat.lt_succ_iff_lt_or_eq.mp h with hlt | rfl
    · have hstep := ih hlt
      rw [daysBeforeMonth_succ (by omega)]
      omega
    · rw [daysBeforeMonth_succ hpos]

/-- The months of a year make up its days. -/
theorem daysBeforeMonth_last (year : Nat) : daysBeforeMonth year 13 = daysInYear year := by
  cases hleap : isLeapYear year <;> simp [daysBeforeMonth, daysInMonth, daysInYear, hleap]

/-- A date lies in its year. -/
theorem IsDate.in_year (h : IsDate year month day) :
    daysBeforeMonth year month + day ≤ daysInYear year := by
  obtain ⟨hpos, hmonth⟩ := h.month_range
  have hlast : daysBeforeMonth year month + daysInMonth year month ≤ daysBeforeMonth year 13 :=
    daysBeforeMonth_add_le hpos (by omega)
  have hday := h.day_range
  rw [daysBeforeMonth_last] at hlast
  omega

/-- A date with a smaller year, month or day has the smaller number. -/
theorem dayNumber_lt (h : IsDate year month day) (h' : IsDate year' month' day')
    (hlt : year < year' ∨ year = year' ∧ (month < month' ∨ month = month' ∧ day < day')) :
    dayNumber year month day < dayNumber year' month' day' := by
  have hday := h.day_range
  have hday' := h'.day_range
  unfold dayNumber
  rcases hlt with hyear | ⟨rfl, hmonth | ⟨rfl, hlt⟩⟩
  · have hbefore := daysBeforeYear_add_le hyear
    have hin := h.in_year
    omega
  · have hbefore : daysBeforeMonth year month + daysInMonth year month ≤
        daysBeforeMonth year month' := daysBeforeMonth_add_le h.month_range.1 hmonth
    omega
  · omega

/-- The order of the days is the order of year, month and day. -/
theorem dayNumber_lt_iff (h : IsDate year month day) (h' : IsDate year' month' day') :
    dayNumber year month day < dayNumber year' month' day' ↔
      year < year' ∨ year = year' ∧ (month < month' ∨ month = month' ∧ day < day') := by
  refine ⟨fun hlt => ?_, dayNumber_lt h h'⟩
  by_contra hnot
  have hcases : (year' < year ∨ year' = year ∧ (month' < month ∨ month' = month ∧ day' < day)) ∨
      year = year' ∧ month = month' ∧ day = day' := by omega
  rcases hcases with hgt | ⟨rfl, rfl, rfl⟩
  · exact Nat.lt_asymm hlt (dayNumber_lt h' h hgt)
  · exact Nat.lt_irrefl _ hlt

/-- Different dates have different numbers. -/
theorem dayNumber_inj (h : IsDate year month day) (h' : IsDate year' month' day')
    (heq : dayNumber year month day = dayNumber year' month' day') :
    year = year' ∧ month = month' ∧ day = day' := by
  have hlt := mt (dayNumber_lt_iff h h').mpr (by omega)
  have hgt := mt (dayNumber_lt_iff h' h).mpr (by omega)
  omega

end Calendar
