import Mathlib.Data.List.Basic

/-!
# `CanonicalApi.Lib.Retry`: a loop with a bounded number of attempts

`attempts verdict exhausted replies first n` makes up to `n` attempts, and numbers them from `first`
on. Attempt `i` gets the reply `replies i`, and `verdict i` either ends the loop with a result or
leaves it to the next attempt. The result comes with the number of attempts that were made.

`attempts_eq_iff` characterizes the loop: it ends at the first attempt that decides, or it runs out
of attempts. So what comes after the attempt that decides does not matter.
-/

set_option autoImplicit false

namespace Retry

variable {α β : Type} {verdict : Nat → α → Option β} {exhausted : β} {replies : Nat → α}

/-- The loop: its result, and the attempts that it made. `verdict` gives the result of an attempt,
or `none` to go on, and `exhausted` is the result of a loop that runs out of attempts. -/
def attempts (verdict : Nat → α → Option β) (exhausted : β) (replies : Nat → α) :
    (first n : Nat) → β × Nat
  | _, 0 => (exhausted, 0)
  | first, n + 1 =>
      match verdict first (replies first) with
      | some result => (result, 1)
      | none =>
          let (result, made) := attempts verdict exhausted replies (first + 1) n
          (result, made + 1)

/-- An attempt that decides ends the loop. -/
theorem attempts_of_some {first : Nat} {result : β} (n : Nat)
    (h : verdict first (replies first) = some result) :
    attempts verdict exhausted replies first (n + 1) = (result, 1) := by
  simp only [attempts, h]

/-- An attempt that does not decide leaves the result to the rest. -/
theorem attempts_of_none {first : Nat} (n : Nat) (h : verdict first (replies first) = none) :
    attempts verdict exhausted replies first (n + 1) =
      ((attempts verdict exhausted replies (first + 1) n).1,
        (attempts verdict exhausted replies (first + 1) n).2 + 1) := by
  simp only [attempts, h]

/-- The loop makes `made` attempts and ends with `result`: all but the last of them decide nothing,
and the last one decides this, or there are no more attempts. -/
theorem attempts_eq_iff {first n made : Nat} {result : β} :
    attempts verdict exhausted replies first n = (result, made) ↔
      (∃ before, made = before + 1 ∧ before < n ∧
        verdict (first + before) (replies (first + before)) = some result ∧
        ∀ i, i < before → verdict (first + i) (replies (first + i)) = none) ∨
      made = n ∧ result = exhausted ∧
        ∀ i, i < n → verdict (first + i) (replies (first + i)) = none := by
  induction n generalizing first made with
  | zero =>
    rw [attempts, Prod.mk.injEq]
    constructor
    · rintro ⟨rfl, rfl⟩
      exact .inr ⟨rfl, rfl, fun i hi => absurd hi (Nat.not_lt_zero i)⟩
    · rintro (⟨before, -, hlt, -⟩ | ⟨rfl, rfl, -⟩)
      · exact absurd hlt (Nat.not_lt_zero before)
      · exact ⟨rfl, rfl⟩
  | succ n ih =>
    cases hfirst : verdict first (replies first) with
    | some result' =>
      rw [attempts_of_some n hfirst, Prod.mk.injEq]
      constructor
      · rintro ⟨rfl, rfl⟩
        exact .inl ⟨0, rfl, n.succ_pos, hfirst, fun i hi => absurd hi (Nat.not_lt_zero i)⟩
      · -- Neither a later attempt nor the end of the loop is reached.
        rintro (⟨before, rfl, -, hdecides, hnone⟩ | ⟨-, -, hnone⟩)
        · cases before with
          | zero =>
            rw [Nat.add_zero, hfirst] at hdecides
            exact ⟨Option.some.inj hdecides, rfl⟩
          | succ before =>
            have hzero := hnone 0 before.succ_pos
            rw [Nat.add_zero, hfirst] at hzero
            cases hzero
        · have hzero := hnone 0 n.succ_pos
          rw [Nat.add_zero, hfirst] at hzero
          cases hzero
    | none =>
      -- The attempts after the first one are those of the rest, with their numbers shifted.
      have hshift : ∀ k, (∀ i, i < k + 1 → verdict (first + i) (replies (first + i)) = none) ↔
          ∀ i, i < k → verdict (first + 1 + i) (replies (first + 1 + i)) = none := by
        intro k
        constructor
        · intro h i hi
          have hi' := h (i + 1) (by omega)
          rwa [show first + (i + 1) = first + 1 + i by omega] at hi'
        · intro h i hi
          cases i with
          | zero => exact hfirst
          | succ i =>
            have hi' := h i (by omega)
            rwa [show first + 1 + i = first + (i + 1) by omega] at hi'
      rw [attempts_of_none n hfirst, Prod.mk.injEq]
      constructor
      · rintro ⟨hresult, rfl⟩
        have hrest : attempts verdict exhausted replies (first + 1) n =
            (result, (attempts verdict exhausted replies (first + 1) n).2) := by rw [← hresult]
        rcases ih.mp hrest with
          ⟨before, hmade, hlt, hdecides, hnone⟩ | ⟨hmade, hexhausted, hnone⟩
        · refine .inl ⟨before + 1, by omega, by omega, ?_, (hshift before).mpr hnone⟩
          rwa [show first + (before + 1) = first + 1 + before by omega]
        · exact .inr ⟨by omega, hexhausted, (hshift n).mpr hnone⟩
      · rintro (⟨before, rfl, hlt, hdecides, hnone⟩ | ⟨rfl, hexhausted, hnone⟩)
        · cases before with
          | zero =>
            rw [Nat.add_zero, hfirst] at hdecides
            cases hdecides
          | succ before =>
            rw [show first + (before + 1) = first + 1 + before by omega] at hdecides
            have hrest := ih.mpr
              (.inl ⟨before, rfl, by omega, hdecides, (hshift before).mp hnone⟩)
            rw [hrest]
            exact ⟨rfl, rfl⟩
        · have hrest := ih.mpr (.inr ⟨rfl, hexhausted, (hshift n).mp hnone⟩)
          rw [hrest]
          exact ⟨rfl, rfl⟩

/-- The two ways in which the loop can end. -/
theorem attempts_cases (verdict : Nat → α → Option β) (exhausted : β) (replies : Nat → α)
    (first n : Nat) :
    (∃ before, (attempts verdict exhausted replies first n).2 = before + 1 ∧ before < n ∧
      verdict (first + before) (replies (first + before)) =
        some (attempts verdict exhausted replies first n).1 ∧
      ∀ i, i < before → verdict (first + i) (replies (first + i)) = none) ∨
    (attempts verdict exhausted replies first n).2 = n ∧
      (attempts verdict exhausted replies first n).1 = exhausted ∧
      ∀ i, i < n → verdict (first + i) (replies (first + i)) = none :=
  attempts_eq_iff.mp rfl

/-- The loop reads only the replies of the attempts that it makes. -/
theorem attempts_congr {replies' : Nat → α} {first n : Nat}
    (h : ∀ i, i < (attempts verdict exhausted replies first n).2 →
      replies' (first + i) = replies (first + i)) :
    attempts verdict exhausted replies' first n = attempts verdict exhausted replies first n := by
  have hmade := attempts_cases verdict exhausted replies first n
  refine attempts_eq_iff.mpr ?_
  rcases hmade with ⟨before, hlast, hlt, hdecides, hnone⟩ | ⟨hall, hexhausted, hnone⟩
  · refine .inl ⟨before, hlast, hlt, ?_, fun i hi => ?_⟩
    · rwa [h before (by omega)]
    · rw [h i (by omega)]
      exact hnone i hi
  · refine .inr ⟨hall, hexhausted, fun i hi => ?_⟩
    rw [h i (by omega)]
    exact hnone i hi

end Retry
