import Mathlib.Data.List.Basic

/-!
# `CanonicalApi.Lib.Fields`: fields written one after the other

A record is written as a flat sequence, one field after the other, with no length in front of
a field. `Decodable P encode` says that a field can be read off the front again: two values
that satisfy `P` and are written at the front of one sequence are equal, and so is what comes
after them. It is the step that a proof about the whole record repeats, field by field.

Fields end in a separator that they do not contain (`terminated`), may be absent (`optional`),
or come in a list without a count (`terminatedList`). Such a list is not decodable on its own.
`terminatedList_marked` reads it when the field after it is known by a mark that no item of
the list bears.
-/

set_option autoImplicit false

namespace Fields

variable {α β γ : Type}

/-- A value that satisfies `P` is determined by what `encode` wrote at the front of a
sequence, and so is the rest of the sequence. -/
def Decodable (P : β → Prop) (encode : β → List α) : Prop :=
  ∀ ⦃a b : β⦄ ⦃s t : List α⦄, P a → P b → encode a ++ s = encode b ++ t → a = b ∧ s = t

/-- Reading through an injective function. -/
theorem Decodable.comp {P : β → Prop} {encode : β → List α} (h : Decodable P encode)
    {f : γ → β} {Q : γ → Prop} (hf : Function.Injective f) (hPQ : ∀ c, Q c → P (f c)) :
    Decodable Q fun c => encode (f c) := by
  intro a b s t ha hb heq
  obtain ⟨hab, hst⟩ := h (hPQ a ha) (hPQ b hb) heq
  exact ⟨hf hab, hst⟩

/-- A field and the separator that ends it. -/
def terminated (separator : α) (field : List α) : List α :=
  field ++ [separator]

/-- A field without the separator is read up to the first separator. -/
theorem decodable_terminated (separator : α) :
    Decodable (separator ∉ ·) (terminated separator) := by
  intro a b s t ha hb heq
  unfold terminated at heq
  rw [List.append_assoc, List.append_assoc] at heq
  -- The induction is on the first field: as long as it has an item, the other one has it too.
  induction a generalizing b with
  | nil =>
    cases b with
    | nil => exact ⟨rfl, (List.cons.inj heq).2⟩
    | cons y b =>
      have hy := (List.cons.inj heq).1
      exact absurd (hy ▸ List.mem_cons_self) hb
  | cons x a ih =>
    rw [List.mem_cons, not_or] at ha
    cases b with
    | nil =>
      have hx := (List.cons.inj heq).1
      exact absurd hx.symm ha.1
    | cons y b =>
      rw [List.mem_cons, not_or] at hb
      have hhead := (List.cons.inj heq).1
      have htail := ih ha.2 hb.2 (List.cons.inj heq).2
      exact ⟨by rw [hhead, htail.1], htail.2⟩

/-- A field that may be absent: a mark and the field, or two separators. -/
def optional (mark separator : α) : Option (List α) → List α
  | some field => mark :: terminated separator field
  | none => [separator, separator]

/-- An optional field is read by its first item. -/
theorem decodable_optional {mark separator : α} (hne : mark ≠ separator) :
    Decodable (fun field : Option (List α) => ∀ value ∈ field, separator ∉ value)
      (optional mark separator) := by
  intro a b s t ha hb heq
  cases a with
  | none =>
    cases b with
    | none => exact ⟨rfl, List.append_cancel_left heq⟩
    | some b => exact absurd (List.cons.inj heq).1.symm hne
  | some a =>
    cases b with
    | none => exact absurd (List.cons.inj heq).1 hne
    | some b =>
      have htail := decodable_terminated separator (ha a rfl) (hb b rfl) (List.cons.inj heq).2
      exact ⟨by rw [htail.1], htail.2⟩

/-- Fields one after the other, with no count. -/
def terminatedList (separator : α) (fields : List (List α)) : List α :=
  fields.flatMap (terminated separator)

/-- The first field is written first. -/
theorem terminatedList_cons (separator : α) (field : List α) (fields : List (List α)) :
    terminatedList separator (field :: fields)
      = terminated separator field ++ terminatedList separator fields :=
  List.flatMap_cons

/-- Two lists of fields one after the other are written one after the other. -/
theorem terminatedList_append (separator : α) (fields fields' : List (List α)) :
    terminatedList separator (fields ++ fields')
      = terminatedList separator fields ++ terminatedList separator fields' :=
  List.flatMap_append

/-- The field after a list joins it. -/
theorem terminatedList_concat (separator : α) (fields : List (List α)) (field s : List α) :
    terminatedList separator fields ++ (terminated separator field ++ s)
      = terminatedList separator (fields ++ [field]) ++ s := by
  rw [terminatedList_append, terminatedList_cons, List.append_assoc, List.append_assoc]
  rfl

/-- A list without a count is read up to the first field that bears a mark, when none of its
items does. -/
theorem terminatedList_marked {separator : α} (Mark : List α → Prop)
    {items items' : List (List α)} {field field' s t : List α}
    (hsep : ∀ x ∈ items, separator ∉ x) (hsep' : ∀ x ∈ items', separator ∉ x)
    (hmark : ∀ x ∈ items, ¬ Mark x) (hmark' : ∀ x ∈ items', ¬ Mark x)
    (hfield : separator ∉ field) (hfield' : separator ∉ field')
    (hm : Mark field) (hm' : Mark field')
    (heq : terminatedList separator items ++ (terminated separator field ++ s)
      = terminatedList separator items' ++ (terminated separator field' ++ t)) :
    items = items' ∧ field = field' ∧ s = t := by
  induction items generalizing items' with
  | nil =>
    -- One side has another item where the other one has the marked field: the field would have to
    -- be both.
    cases items' with
    | nil =>
      have hread := decodable_terminated separator hfield hfield' heq
      exact ⟨rfl, hread⟩
    | cons y items' =>
      rw [terminatedList_cons, List.append_assoc] at heq
      have hread := decodable_terminated separator hfield (hsep' y List.mem_cons_self) heq
      exact absurd (hread.1 ▸ hm) (hmark' y List.mem_cons_self)
  | cons x items ih =>
    rw [terminatedList_cons, List.append_assoc] at heq
    cases items' with
    | nil =>
      have hread := decodable_terminated separator (hsep x List.mem_cons_self) hfield' heq
      exact absurd (hread.1 ▸ hm') (hmark x List.mem_cons_self)
    | cons y items' =>
      rw [terminatedList_cons, List.append_assoc] at heq
      rw [List.forall_mem_cons] at hsep hsep' hmark hmark'
      obtain ⟨hxy, hrest⟩ := decodable_terminated separator hsep.1 hsep'.1 heq
      obtain ⟨hitems, hread⟩ := ih hsep.2 hsep'.2 hmark.2 hmark'.2 hrest
      exact ⟨by rw [hxy, hitems], hread⟩

end Fields
