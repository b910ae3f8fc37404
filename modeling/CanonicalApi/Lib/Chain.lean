import Mathlib.Data.List.Induction

/-!
# `CanonicalApi.Lib.Chain`: logs whose entries refer to the entry before

A log of entries of type `ρ`, where `digest` is the digest of an entry and `prior` is the
digest of the entry before it, as the entry states it. `Linked zero rows` says that the first
entry refers to `zero` and every other one to its predecessor. `tip` is what the next entry
has to refer to.

`Linked.map_eq_of_tip_eq` says that the tip commits to the whole log: where no two entries
with different contents share a digest, two logs with one tip have the same contents.
-/

set_option autoImplicit false

namespace Chain

variable {ρ δ : Type} (prior digest : ρ → δ)

/-- Each entry refers to the one before, and the first one to `zero`. -/
def Linked : δ → List ρ → Prop
  | _, [] => True
  | zero, row :: rows => prior row = zero ∧ Linked (digest row) rows

/-- The digest of the last entry, or `zero` in an empty log. -/
def tip (zero : δ) (rows : List ρ) : δ :=
  (rows.getLast?.map digest).getD zero

/-- The tip of a log with a first entry is the tip of the rest from that entry on. -/
theorem tip_cons (zero : δ) (row : ρ) (rows : List ρ) :
    tip digest zero (row :: rows) = tip digest (digest row) rows := by
  cases h : rows.getLast? with
  | none =>
    rw [List.getLast?_eq_none_iff.mp h]
    rfl
  | some last => simp [tip, List.getLast?_cons, h]

/-- Appending an entry keeps a log linked exactly when the entry refers to the tip. -/
theorem linked_concat (zero : δ) (rows : List ρ) (row : ρ) :
    Linked prior digest zero (rows ++ [row]) ↔
      Linked prior digest zero rows ∧ prior row = tip digest zero rows := by
  induction rows generalizing zero with
  | nil => simp [Linked, tip]
  | cons first rows ih => rw [List.cons_append, Linked, Linked, ih, tip_cons, and_assoc]

/-- A log is linked when the log of what its entries stand for is. -/
theorem linked_map {σ : Type} {prior digest : ρ → δ} {f : σ → ρ} {zero : δ} {rows : List σ} :
    Linked prior digest zero (rows.map f) ↔
      Linked (fun row => prior (f row)) (fun row => digest (f row)) zero rows := by
  induction rows generalizing zero with
  | nil => exact Iff.rfl
  | cons row rows ih => rw [List.map_cons, Linked, Linked, ih]

/-- In a linked log the first entry refers to `zero`. -/
theorem Linked.head {zero : δ} {rows : List ρ} (h : Linked prior digest zero rows) {row : ρ}
    (hrow : rows.head? = some row) : prior row = zero := by
  cases rows with
  | nil => cases hrow
  | cons first rows =>
    cases hrow
    exact h.1

/-- In a linked log every later entry refers to its predecessor. -/
theorem Linked.succ {zero : δ} {rows : List ρ} (h : Linked prior digest zero rows) {k : Nat}
    (hk : k + 1 < rows.length) : prior rows[k + 1] = digest rows[k] := by
  induction rows generalizing zero k with
  | nil => simp at hk
  | cons first rows ih =>
    cases k with
    | zero =>
      cases rows with
      | nil => simp at hk
      | cons second rows => exact h.2.1
    | succ k =>
      simp only [List.getElem_cons_succ]
      exact ih h.2 (by simpa using hk)

/-- In a linked log every entry refers to `zero` or to an entry of the log. -/
theorem Linked.prior_cases {zero : δ} {rows : List ρ} (h : Linked prior digest zero rows)
    {row : ρ} (hrow : row ∈ rows) : prior row = zero ∨ ∃ r ∈ rows, prior row = digest r := by
  obtain ⟨k, hk, rfl⟩ := List.getElem_of_mem hrow
  cases k with
  | zero =>
    refine .inl (h.head prior digest ?_)
    rw [List.head?_eq_getElem?, List.getElem?_eq_getElem]
  | succ k => exact .inr ⟨rows[k], List.getElem_mem _, h.succ prior digest hk⟩

/-- The tip of a log that ends in `row` is the digest of `row`. -/
theorem tip_concat (zero : δ) (rows : List ρ) (row : ρ) :
    tip digest zero (rows ++ [row]) = digest row := by
  rw [tip, List.getLast?_concat]
  rfl

/-- Two logs with the same tip have the same contents, when no digest is `zero` and equal
digests mean equal contents and equal references. -/
theorem Linked.map_eq_of_tip_eq {γ : Type} {content : ρ → γ} {zero : δ} {xs ys : List ρ}
    (hx : Linked prior digest zero xs) (hy : Linked prior digest zero ys)
    (hzerox : ∀ r ∈ xs, digest r ≠ zero) (hzeroy : ∀ r ∈ ys, digest r ≠ zero)
    (hinj : ∀ r ∈ xs, ∀ r' ∈ ys, digest r = digest r' →
      content r = content r' ∧ prior r = prior r')
    (htip : tip digest zero xs = tip digest zero ys) : xs.map content = ys.map content := by
  -- Backwards along the first log: the last entries agree, so the logs before them have the
  -- same tip.
  induction xs using List.reverseRecOn generalizing ys with
  | nil =>
    rcases List.eq_nil_or_concat ys with rfl | ⟨ys, y, rfl⟩
    · rfl
    · rw [List.concat_eq_append, tip_concat] at htip
      exact absurd htip.symm (hzeroy y (by simp))
  | append_singleton xs x ih =>
    rw [tip_concat] at htip
    rcases List.eq_nil_or_concat ys with rfl | ⟨ys, y, rfl⟩
    · exact absurd htip (hzerox x (by simp))
    · rw [List.concat_eq_append] at hy hzeroy hinj htip ⊢
      rw [tip_concat] at htip
      obtain ⟨hx, hpriorx⟩ := (linked_concat _ _ _ _ _).mp hx
      obtain ⟨hy, hpriory⟩ := (linked_concat _ _ _ _ _).mp hy
      obtain ⟨hcontent, hprior⟩ := hinj x (by simp) y (by simp) htip
      have hrest : xs.map content = ys.map content := by
        refine ih hx hy (fun r hr => hzerox r (by simp [hr])) (fun r hr => hzeroy r (by simp [hr]))
          (fun r hr r' hr' => hinj r (by simp [hr]) r' (by simp [hr'])) ?_
        rw [← hpriorx, ← hpriory, hprior]
      rw [List.map_append, List.map_append, hrest, List.map_singleton, List.map_singleton,
        hcontent]

end Chain
