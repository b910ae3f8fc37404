import Mathlib.Logic.Function.Basic
import Mathlib.Data.List.Basic

/-!
# `CanonicalApi.Lib.Replay`: receivers that answer a repeated message from their store

A receiver keeps for each key the content that it accepted and a receipt. A message with a new
key is accepted and answered with a fresh receipt. A message that repeats a key with the
accepted content is answered with the stored receipt.

The store may not keep a receipt as it was given. `kept r r'` says that the receipt `r` is
stored in such a way that a repetition is answered with `r'`. A store that keeps receipts
exactly is the case where `kept` is equality.

`Consistent.replayed` is the result: in every run, of two answers for one key the later one is
a repetition, and its receipt is the one that the store kept of the first.
-/

set_option autoImplicit false

namespace Replay

variable {κ γ ρ : Type}

/-- An answered message. `duplicate` tells a repetition from an acceptance. -/
structure Entry (κ γ ρ : Type) where
  key : κ
  content : γ
  receipt : ρ
  duplicate : Bool

/-- What a receiver knows of each key: the accepted content and the receipt that answers a
repetition. -/
abbrev View (κ γ ρ : Type) : Type := κ → Option (γ × ρ)

/-- One answered message. -/
inductive Step [DecidableEq κ] (kept : ρ → ρ → Prop) (view : View κ γ ρ) :
    Entry κ γ ρ → View κ γ ρ → Prop
  | accept {k : κ} {c : γ} {r r' : ρ} : view k = none → kept r r' →
      Step kept view ⟨k, c, r, false⟩ (Function.update view k (some (c, r')))
  | replay {k : κ} {c : γ} {r' : ρ} : view k = some (c, r') →
      Step kept view ⟨k, c, r', true⟩ view

/-- The store and the answers so far agree. `kept` relates a first receipt to the one that the store
keeps: a store may round what it was given. -/
structure Consistent (kept : ρ → ρ → Prop) (view : View κ γ ρ) (log : List (Entry κ γ ρ)) :
    Prop where
  /-- Every answered message is in the store. -/
  stored : ∀ e ∈ log, ∃ r', view e.key = some (e.content, r') ∧
    (if e.duplicate then e.receipt = r' else kept e.receipt r')
  /-- Everything in the store was accepted. -/
  accepted : ∀ k c r', view k = some (c, r') →
    ∃ e ∈ log, e.duplicate = false ∧ e.key = k ∧ e.content = c ∧ kept e.receipt r'
  /-- After the first answer for a key all others are repetitions. -/
  once : log.Pairwise fun x y => x.key = y.key → y.duplicate = true

variable {kept : ρ → ρ → Prop} {view view' : View κ γ ρ} {log : List (Entry κ γ ρ)}

/-- Before the first request nothing is kept and nothing was answered. -/
theorem Consistent.nil : Consistent kept (fun _ : κ => (none : Option (γ × ρ))) [] where
  stored _ he := nomatch he
  accepted _ _ _ h := nomatch h
  once := .nil

/-- One more answer keeps the store and the answers in agreement. -/
theorem Step.consistent [DecidableEq κ] {e : Entry κ γ ρ} (hs : Step kept view e view')
    (h : Consistent kept view log) : Consistent kept view' (log ++ [e]) := by
  cases hs with
  | @accept k c r r' hnew hkept =>
    -- A key that is not in the store was never answered.
    have hother : ∀ e ∈ log, e.key ≠ k := by
      rintro e he rfl
      obtain ⟨_, hview, -⟩ := h.stored e he
      rw [hnew] at hview
      cases hview
    refine ⟨?_, ?_, ?_⟩
    · intro e he
      rcases List.mem_append.mp he with he | he
      · rw [Function.update_of_ne (hother e he)]
        exact h.stored e he
      · rw [List.mem_singleton.mp he]
        exact ⟨r', Function.update_self .., hkept⟩
    · intro k' c' r'' hview
      by_cases hk : k' = k
      · subst hk
        rw [Function.update_self] at hview
        cases hview
        exact ⟨_, List.mem_append_right _ (List.mem_singleton_self _), rfl, rfl, rfl, hkept⟩
      · rw [Function.update_of_ne hk] at hview
        obtain ⟨e, he, hrest⟩ := h.accepted k' c' r'' hview
        exact ⟨e, List.mem_append_left _ he, hrest⟩
    · refine List.pairwise_append.mpr ⟨h.once, List.pairwise_singleton _ _, ?_⟩
      intro x hx y hy hkey
      rw [List.mem_singleton.mp hy] at hkey
      exact absurd hkey (hother x hx)
  | @replay k c r' hview =>
    refine ⟨?_, ?_, ?_⟩
    · intro e he
      rcases List.mem_append.mp he with he | he
      · exact h.stored e he
      · rw [List.mem_singleton.mp he]
        exact ⟨r', hview, rfl⟩
    · intro k' c' r'' hview'
      obtain ⟨e, he, hrest⟩ := h.accepted k' c' r'' hview'
      exact ⟨e, List.mem_append_left _ he, hrest⟩
    · refine List.pairwise_append.mpr ⟨h.once, List.pairwise_singleton _ _, ?_⟩
      intro x _ y hy _
      rw [List.mem_singleton.mp hy]

/-- Of two answers for one key the later one is a repetition of the same content. When the
first one was an acceptance, the store kept its receipt as that of the later one. -/
theorem Consistent.replayed (h : Consistent kept view log) {i j : Nat} (hij : i < j)
    (hj : j < log.length) (hkey : log[i].key = log[j].key) :
    log[j].duplicate = true ∧ log[j].content = log[i].content ∧
      (log[i].duplicate = false → kept log[i].receipt log[j].receipt) := by
  have hdup := List.pairwise_iff_getElem.mp h.once i j (by omega) hj hij hkey
  obtain ⟨r₁, hview₁, hr₁⟩ := h.stored log[i] (List.getElem_mem _)
  obtain ⟨r₂, hview₂, hr₂⟩ := h.stored log[j] (List.getElem_mem _)
  rw [← hkey, hview₁, Option.some.injEq, Prod.mk.injEq] at hview₂
  obtain ⟨hcontent, hr⟩ := hview₂
  refine ⟨hdup, hcontent.symm, fun hfresh => ?_⟩
  rw [if_pos hdup, ← hr] at hr₂
  rw [if_neg (by rw [hfresh]; decide)] at hr₁
  rw [hr₂]
  exact hr₁

/-- A repetition is answered with what the store kept of an earlier acceptance. -/
theorem Consistent.origin (h : Consistent kept view log) {e : Entry κ γ ρ} (he : e ∈ log)
    (hdup : e.duplicate = true) :
    ∃ x ∈ log, x.duplicate = false ∧ x.key = e.key ∧ x.content = e.content ∧
      kept x.receipt e.receipt := by
  obtain ⟨r', hview, hr⟩ := h.stored e he
  rw [if_pos hdup] at hr
  rw [hr]
  exact h.accepted _ _ _ hview

end Replay
