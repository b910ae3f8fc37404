import Mathlib.Data.List.Basic

/-!
# `CanonicalApi.Lib.Outcome`: when a fallible computation succeeds

`Succeeds x` says that the `Except` value `x` is a value and not an error. The rules follow
the ways such computations are built: a bind, a lookup with `okOr`, a list traversal.
-/

set_option autoImplicit false

namespace Outcome

variable {ε α β : Type}

/-- The value of an option, or the error (`Option::ok_or_else`). -/
def okOr (error : ε) : Option α → Except ε α
  | some a => .ok a
  | none => .error error

/-- `x` is a value. -/
def Succeeds (x : Except ε α) : Prop := ∃ a, x = .ok a

/-- A result is a success. -/
@[simp] theorem succeeds_ok (a : α) : Succeeds (.ok a : Except ε α) := ⟨a, rfl⟩

/-- A pure program succeeds. -/
@[simp] theorem succeeds_pure (a : α) : Succeeds (pure a : Except ε α) := ⟨a, rfl⟩

/-- An error is no success. -/
@[simp] theorem not_succeeds_error (e : ε) : ¬ Succeeds (.error e : Except ε α) :=
  fun ⟨_, h⟩ => nomatch h

/-- A program goes on with the result of its first part. -/
@[simp] theorem ok_bind (a : α) (f : α → Except ε β) :
    (Except.ok a >>= f) = f a := rfl

/-- A program ends with the first error of its parts. -/
@[simp] theorem error_bind (e : ε) (f : α → Except ε β) :
    ((Except.error e : Except ε α) >>= f) = .error e := rfl

/-- A bind gives the value that the rest computes from the value of its first part. -/
theorem bind_eq_ok_iff (x : Except ε α) (f : α → Except ε β) (b : β) :
    (x >>= f) = .ok b ↔ ∃ a, x = .ok a ∧ f a = .ok b := by
  cases x with
  | ok a => simp
  | error e => simp

/-- A check in front of a computation. -/
theorem unit_bind_eq_ok_iff (x : Except ε Unit) (f : Unit → Except ε β) (b : β) :
    (x >>= f) = .ok b ↔ x = .ok () ∧ f () = .ok b := by
  cases x with
  | ok u => simp
  | error e => simp

/-- A guard in front of `x` leaves only the values of `x`. -/
theorem ite_error_eq_ok_iff (p : Prop) [Decidable p] (e : ε) (x : Except ε α) (a : α) :
    (if p then .error e else x) = .ok a ↔ ¬ p ∧ x = .ok a := by
  split
  · next h => simp [h]
  · next h => simp [h]

/-- A bind succeeds when its first part does and the rest does on that value. -/
theorem succeeds_bind_iff (x : Except ε α) (f : α → Except ε β) :
    Succeeds (x >>= f) ↔ ∃ a, x = .ok a ∧ Succeeds (f a) := by
  cases x with
  | ok a => simp
  | error e => simp

/-- `simp` writes every claim that there is a result as `Succeeds`. -/
theorem exists_eq_ok_iff (x : Except ε α) : (∃ a, x = .ok a) ↔ Succeeds x := Iff.rfl

/-- A check without a value succeeds when it gives `()`. -/
theorem succeeds_unit_iff (x : Except ε Unit) : Succeeds x ↔ x = .ok () := by
  constructor
  · rintro ⟨⟨⟩, h⟩
    exact h
  · intro h
    exact ⟨(), h⟩

/-- A guarded computation succeeds when the guard does not fire. -/
theorem succeeds_ite_error_iff (p : Prop) [Decidable p] (e : ε) (x : Except ε α) :
    Succeeds (if p then .error e else x) ↔ ¬ p ∧ Succeeds x := by
  simp only [Succeeds, ite_error_eq_ok_iff, exists_and_left]

/-- A value that is there is the result. -/
@[simp] theorem okOr_some (error : ε) (a : α) : okOr error (some a) = .ok a := rfl

/-- `okOr` gives a value exactly when the option does. -/
@[simp] theorem okOr_eq_ok_iff (error : ε) (x : Option α) (a : α) :
    okOr error x = .ok a ↔ x = some a := by
  cases x <;> simp [okOr]

/-- A traversal succeeds exactly when the function succeeds on every item. -/
theorem succeeds_mapM_iff (f : α → Except ε β) (l : List α) :
    Succeeds (l.mapM f) ↔ ∀ a ∈ l, Succeeds (f a) := by
  induction l with
  | nil =>
    constructor
    · intro _ a ha
      cases ha
    · intro _
      exact ⟨[], rfl⟩
  | cons a l ih =>
    rw [List.mapM_cons, succeeds_bind_iff, List.forall_mem_cons, ← ih]
    constructor
    · rintro ⟨b, hb, hrest⟩
      obtain ⟨bs, hbs, -⟩ := (succeeds_bind_iff _ _).mp hrest
      exact ⟨⟨b, hb⟩, bs, hbs⟩
    · rintro ⟨⟨b, hb⟩, bs, hbs⟩
      exact ⟨b, hb, (succeeds_bind_iff _ _).mpr ⟨bs, hbs, succeeds_pure _⟩⟩

/-- A bind fails where its first part does, or where the rest does on its value. -/
theorem bind_eq_error_iff (x : Except ε α) (f : α → Except ε β) (e : ε) :
    (x >>= f) = .error e ↔ x = .error e ∨ ∃ a, x = .ok a ∧ f a = .error e := by
  cases x with
  | ok a => simp
  | error e' => simp

/-- `okOr` fails exactly without a value. -/
@[simp] theorem okOr_eq_error_iff (error : ε) (x : Option α) (e : ε) :
    okOr error x = .error e ↔ x = none ∧ error = e := by
  cases x <;> simp [okOr]

/-- A guarded computation fails when the guard fires, or later. -/
theorem ite_error_eq_error_iff (p : Prop) [Decidable p] (e e' : ε) (x : Except ε α) :
    (if p then .error e else x) = .error e' ↔ p ∧ e = e' ∨ ¬ p ∧ x = .error e' := by
  split
  · next h => simp [h]
  · next h => simp [h]

/-- Another error in place of an error leaves the values alone. -/
theorem mapError_eq_ok_iff {ε' : Type} (x : Except ε α) (f : ε → ε') (a : α) :
    x.mapError f = .ok a ↔ x = .ok a := by
  cases x <;> simp [Except.mapError]

end Outcome
