import Mathlib.Algebra.GroupWithZero.Nat
import Mathlib.Data.List.Infix

/-!
# `CanonicalApi.Lib.Occurrences`: where a pattern occurs in a text

`occurrences pattern text` counts the places of `text` where `pattern` begins. A letter that is
not in the pattern separates: no occurrence runs over it, so the counts of both sides add up.
`occurrences_fill` says this of a template whose holes stand between separators.

A pattern that occurs once cuts a text in one way only (`cut_unique`), which is what makes
delimiters of it.
-/

set_option autoImplicit false

namespace CanonicalApi.Occurrences

variable {α : Type} [DecidableEq α] {pattern : List α}

/-- The number of places where the pattern begins. -/
def occurrences (pattern : List α) : List α → Nat
  | [] => 0
  | x :: xs => (if pattern <+: x :: xs then 1 else 0) + occurrences pattern xs

/-- Letters that are not in the pattern. -/
def Apart (pattern letters : List α) : Prop :=
  ∀ x ∈ letters, x ∉ pattern

instance (letters : List α) : Decidable (Apart pattern letters) :=
  inferInstanceAs (Decidable (∀ x ∈ letters, x ∉ pattern))

omit [DecidableEq α] in
/-- A pattern cannot begin before a separator and end after it. -/
theorem prefix_append_separator_iff {s : α} (hs : s ∉ pattern) (a b : List α) :
    pattern <+: a ++ s :: b ↔ pattern <+: a := by
  induction pattern generalizing a with
  | nil => simp
  | cons x pattern ih =>
    rw [List.mem_cons, not_or] at hs
    cases a with
    | nil => simp [Ne.symm hs.1]
    | cons y a =>
      rw [List.cons_append, List.cons_prefix_cons, List.cons_prefix_cons, ih hs.2]

/-- A text that lacks a letter of the pattern has no occurrence. -/
theorem occurrences_eq_zero_of_not_mem {x : α} (hx : x ∈ pattern) {l : List α} (hl : x ∉ l) :
    occurrences pattern l = 0 := by
  induction l with
  | nil => rfl
  | cons y l ih =>
    have hnot : ¬ pattern <+: y :: l := fun h => hl (h.subset hx)
    rw [List.mem_cons, not_or] at hl
    simp [occurrences, hnot, ih hl.2]

/-- Letters in front of a text do not matter when the pattern does not begin in them. -/
theorem occurrences_append_of_head_not_mem {x : α} {m : List α} (hx : x ∉ m) (rest b : List α) :
    occurrences (x :: rest) (m ++ b) = occurrences (x :: rest) b := by
  induction m with
  | nil => rfl
  | cons y m ih =>
    rw [List.mem_cons, not_or] at hx
    have hnot : ¬ (x :: rest) <+: y :: (m ++ b) := fun h => hx.1 (List.cons_prefix_cons.mp h).1
    rw [List.cons_append, occurrences, if_neg hnot, ih hx.2, Nat.zero_add]

/-- The end of a text has no more occurrences than the text. -/
theorem occurrences_le_append (a b : List α) :
    occurrences pattern b ≤ occurrences pattern (a ++ b) := by
  induction a with
  | nil => exact le_refl _
  | cons x a ih =>
    rw [List.cons_append, occurrences]
    omega

section

variable (hne : pattern ≠ [])

include hne

/-- Across a separator the occurrences add up. -/
theorem occurrences_append_separator {s : α} (hs : s ∉ pattern) (a b : List α) :
    occurrences pattern (a ++ s :: b) = occurrences pattern a + occurrences pattern b := by
  induction a with
  | nil =>
    have hnot : ¬ pattern <+: s :: b := by
      rw [← List.nil_append (s :: b), prefix_append_separator_iff hs, List.prefix_nil]
      exact hne
    simp [occurrences, hnot]
  | cons x a ih =>
    have hbegins := prefix_append_separator_iff hs (x :: a) b
    rw [List.cons_append] at hbegins
    rw [List.cons_append, occurrences, occurrences, ih]
    simp only [hbegins]
    omega

/-- Letters apart from the pattern in front of a text do not matter. -/
theorem occurrences_apart_append {m : List α} (hm : Apart pattern m) (b : List α) :
    occurrences pattern (m ++ b) = occurrences pattern b := by
  induction m with
  | nil => rfl
  | cons s m ih =>
    obtain ⟨hs, hm⟩ := List.forall_mem_cons.mp hm
    have hstep := occurrences_append_separator hne hs [] (m ++ b)
    rw [List.nil_append] at hstep
    rw [List.cons_append, hstep, ih hm]
    simp [occurrences]

/-- Across letters apart from the pattern the occurrences add up. -/
theorem occurrences_append_apart {s : α} {m : List α} (hm : Apart pattern (s :: m))
    (a b : List α) :
    occurrences pattern (a ++ s :: (m ++ b)) = occurrences pattern a + occurrences pattern b := by
  obtain ⟨hs, hm⟩ := List.forall_mem_cons.mp hm
  rw [occurrences_append_separator hne hs, occurrences_apart_append hne hm]

/-- Letters apart from the pattern at the end of a text do not matter. -/
theorem occurrences_append_apart_end {m : List α} (hm : Apart pattern m) (a : List α) :
    occurrences pattern (a ++ m) = occurrences pattern a := by
  cases m with
  | nil => rw [List.append_nil]
  | cons s m =>
    have hcross := occurrences_append_apart hne hm a []
    rw [List.append_nil] at hcross
    rw [hcross]
    rfl

/-- No occurrence means that the pattern is not a part of the text. -/
theorem occurrences_eq_zero_iff (l : List α) : occurrences pattern l = 0 ↔ ¬ pattern <:+: l := by
  induction l with
  | nil => simp [occurrences, hne]
  | cons x l ih =>
    rw [occurrences, List.infix_cons_iff, not_or, ← ih]
    by_cases h : pattern <+: x :: l <;> simp [h]

/-- A text around the pattern has an occurrence. -/
theorem occurrences_pos (pre post : List α) :
    1 ≤ occurrences pattern (pre ++ (pattern ++ post)) := by
  rw [Nat.one_le_iff_ne_zero, Ne, occurrences_eq_zero_iff hne, not_not]
  exact ⟨pre, post, by rw [List.append_assoc]⟩

/-- A pattern that occurs once cuts a text in one way. -/
theorem cut_unique {pre post pre' post' : List α}
    (hone : occurrences pattern (pre ++ (pattern ++ post)) ≤ 1)
    (h : pre ++ (pattern ++ post) = pre' ++ (pattern ++ post')) : pre = pre' ∧ post = post' := by
  -- Two cuts at different places would be two occurrences.
  have htwo : ∀ (x : α) (p q q' : List α), pattern ++ q = x :: (p ++ (pattern ++ q')) →
      2 ≤ occurrences pattern (pattern ++ q) := by
    intro x p q q' heq
    have hbegins : pattern <+: x :: (p ++ (pattern ++ q')) := heq ▸ List.prefix_append _ _
    have hpos := occurrences_pos hne p q'
    rw [heq, occurrences, if_pos hbegins]
    omega
  induction pre generalizing pre' with
  | nil =>
    cases pre' with
    | nil => exact ⟨rfl, List.append_cancel_left h⟩
    | cons x p =>
      have := htwo x p post post' h
      rw [List.nil_append] at hone
      omega
  | cons x p ih =>
    cases pre' with
    | nil =>
      have := htwo x p post' post h.symm
      rw [h, List.nil_append] at hone
      omega
    | cons y p' =>
      rw [List.cons_append, List.cons_append, List.cons.injEq] at h
      have hrest : occurrences pattern (p ++ (pattern ++ post)) ≤ 1 := by
        rw [List.cons_append, occurrences] at hone
        omega
      obtain ⟨hp, hpost⟩ := ih hrest h.2
      exact ⟨by rw [h.1, hp], hpost⟩

/-- What stands before a text with a pattern that occurs once is determined, and so is what
follows. -/
theorem cut_before {m r x x' rest rest' : List α}
    (hone : occurrences pattern (x ++ (m ++ (pattern ++ r) ++ rest)) ≤ 1)
    (h : x ++ (m ++ (pattern ++ r) ++ rest) = x' ++ (m ++ (pattern ++ r) ++ rest')) :
    x = x' ∧ rest = rest' := by
  have hassoc : ∀ y t : List α,
      y ++ (m ++ (pattern ++ r) ++ t) = (y ++ m) ++ (pattern ++ (r ++ t)) := by simp
  rw [hassoc, hassoc] at h
  rw [hassoc] at hone
  obtain ⟨hpre, hpost⟩ := cut_unique hne hone h
  exact ⟨List.append_cancel_right hpre, List.append_cancel_left hpost⟩

end

/-! ### Templates -/

/-- A template: a text, and parts that are each followed by a further text. -/
def fill (first : List α) : List (List α × List α) → List α
  | [] => first
  | (part, next) :: parts => first ++ (part ++ fill next parts)

/-- The texts of a template close off the parts: each text in front of a part ends with a
separator, and each text after a part begins with one. -/
def closedOff (pattern first : List α) : List (List α) → Bool
  | [] => true
  | next :: texts =>
      (first.getLast?.any fun x => x ∉ pattern) && (next.head?.any fun x => x ∉ pattern) &&
        closedOff pattern next texts

/-- In a template with closed off parts, the pattern occurs in the parts and in the texts. -/
theorem occurrences_fill (hne : pattern ≠ []) {first : List α} {parts : List (List α × List α)}
    (h : closedOff pattern first (parts.map Prod.snd) = true) :
    occurrences pattern (fill first parts) =
      (parts.map fun p => occurrences pattern p.1).sum +
        ((first :: parts.map Prod.snd).map (occurrences pattern)).sum := by
  induction parts generalizing first with
  | nil => simp [fill]
  | cons p parts ih =>
    obtain ⟨part, next⟩ := p
    rw [List.map_cons, closedOff, Bool.and_eq_true, Bool.and_eq_true] at h
    obtain ⟨⟨hfirst, hnext⟩, hrest⟩ := h
    -- A separator stands before the part and another one after it, and no occurrence goes across
    -- them.
    obtain ⟨s, hs, hsep⟩ := (Option.any_eq_true _ _).mp hfirst
    obtain ⟨before, rfl⟩ := List.getLast?_eq_some_iff.mp hs
    obtain ⟨s', hs', hsep'⟩ := (Option.any_eq_true _ _).mp hnext
    obtain ⟨after, hafter⟩ : ∃ after, fill next parts = s' :: after := by
      obtain ⟨tail, rfl⟩ := List.head?_eq_some_iff.mp hs'
      cases parts with
      | nil => exact ⟨tail, rfl⟩
      | cons p parts => exact ⟨tail ++ (p.1 ++ fill p.2 parts), rfl⟩
    have hsep := of_decide_eq_true hsep
    have hsep' := of_decide_eq_true hsep'
    have hend : occurrences pattern (before ++ [s]) = occurrences pattern before := by
      rw [occurrences_append_separator hne hsep]
      rfl
    have hbegin : occurrences pattern (s' :: after) = occurrences pattern after := by
      have hstep := occurrences_append_separator hne hsep' [] after
      rw [List.nil_append] at hstep
      rw [hstep]
      exact Nat.zero_add _
    have hfill : occurrences pattern (fill (before ++ [s]) ((part, next) :: parts)) =
        occurrences pattern (before ++ [s]) + (occurrences pattern part +
          occurrences pattern (fill next parts)) := by
      rw [fill, hafter, List.append_assoc, List.cons_append, List.nil_append,
        occurrences_append_separator hne hsep, occurrences_append_separator hne hsep', hend, hbegin]
    rw [hfill, ih hrest]
    simp only [List.map_cons, List.sum_cons]
    omega

end CanonicalApi.Occurrences
