import Mathlib.Logic.Relation

/-!
# `CanonicalApi.Lib.Transition`: labelled transition systems

A `System` has initial states and a labelled step relation. A model whose step is a
function to `Option` enters through `System.ofFun`; `run` then replays a list of labels,
so a run on fixed inputs can be evaluated.

`ReachableWith G` collects the states of the runs in which every step, taken in the state
`s` with the label `a`, meets `G s a`. `Reachable` puts no condition on the steps. An
invariant is proved once through `ReachableWith.induct`. `Refines` is a label-preserving
abstraction: it carries reachable states, and with them every invariant, from the concrete
system to the abstract one.

`recording` adds a record that each step extends, for statements about the past of a run. The
record does not influence the steps. `Steps` relates a state to the states after it.
-/

set_option autoImplicit false

namespace Transition

/-- A labelled transition system. -/
structure System (σ α : Type) where
  init : σ → Prop
  step : σ → α → σ → Prop

namespace System

variable {σ τ α β : Type}

/-- The system of an executable step function: `none` means that the label is not enabled. -/
def ofFun (start : σ) (next : σ → α → Option σ) : System σ α where
  init s := s = start
  step s a s' := next s a = some s'

/-- The states of the runs whose steps all meet `G`. -/
inductive ReachableWith (M : System σ α) (G : σ → α → Prop) : σ → Prop where
  | init {s : σ} : M.init s → ReachableWith M G s
  | step {s s' : σ} {a : α} : ReachableWith M G s → G s a → M.step s a s' →
      ReachableWith M G s'

/-- The states of all runs. -/
def Reachable (M : System σ α) (s : σ) : Prop :=
  M.ReachableWith (fun _ _ => True) s

/-- An invariant holds in every reachable state when it holds initially and every step
that meets `G` keeps it. The step may assume that its first state is reachable. -/
theorem ReachableWith.induct {M : System σ α} {G : σ → α → Prop} {I : σ → Prop}
    (hinit : ∀ s, M.init s → I s)
    (hstep : ∀ s a s', M.ReachableWith G s → I s → G s a → M.step s a s' → I s')
    {s : σ} (h : M.ReachableWith G s) : I s := by
  induction h with
  | init h0 => exact hinit _ h0
  | step hr hg hs ih => exact hstep _ _ _ hr ih hg hs

/-- A condition on the steps only removes runs. -/
theorem ReachableWith.reachable {M : System σ α} {G : σ → α → Prop} {s : σ}
    (h : M.ReachableWith G s) : M.Reachable s := by
  induction h with
  | init h0 => exact .init h0
  | step _ _ hs ih => exact .step ih trivial hs

/-- A stronger condition on the steps leaves fewer states. It has to be stronger only in
reachable states. -/
theorem ReachableWith.mono {M : System σ α} {G G' : σ → α → Prop} {s : σ}
    (h : M.ReachableWith G s) (hG : ∀ s a, M.Reachable s → G s a → G' s a) :
    M.ReachableWith G' s := by
  induction h with
  | init h0 => exact .init h0
  | step hr hg hs ih => exact .step ih (hG _ _ hr.reachable hg) hs

/-- `s'` comes after `s` in a run. -/
def Steps (M : System σ α) : σ → σ → Prop :=
  Relation.ReflTransGen fun s s' => ∃ a, M.step s a s'

/-- States after a reachable state are reachable. -/
theorem Steps.reachable {M : System σ α} {s s' : σ} (h : M.Steps s s') (hs : M.Reachable s) :
    M.Reachable s' := by
  induction h with
  | refl => exact hs
  | tail _ hstep ih =>
    obtain ⟨a, ha⟩ := hstep
    exact .step ih trivial ha

/-- A reflexive and transitive relation that holds across each step from a reachable state
holds between a state and every state after it. -/
theorem Steps.rel {M : System σ α} {R : σ → σ → Prop} (hrefl : ∀ s, R s s)
    (htrans : ∀ s₁ s₂ s₃, R s₁ s₂ → R s₂ s₃ → R s₁ s₃)
    (hstep : ∀ s a s', M.Reachable s → M.step s a s' → R s s') {s s' : σ}
    (h : M.Steps s s') (hs : M.Reachable s) : R s s' := by
  induction h with
  | refl => exact hrefl s
  | tail hsteps hlast ih =>
    obtain ⟨a, ha⟩ := hlast
    exact htrans _ _ _ ih (hstep _ a _ (Steps.reachable hsteps hs) ha)

/-- The system with a record that starts as `start` and that each step extends by `note`. -/
def recording (M : System σ α) {ρ : Type} (start : ρ) (note : ρ → σ → α → σ → ρ) :
    System (σ × ρ) α where
  init p := M.init p.1 ∧ p.2 = start
  step p a p' := M.step p.1 a p'.1 ∧ p'.2 = note p.2 p.1 a p'.1

/-- The record does not influence the steps. -/
theorem reachableWith_of_recording {M : System σ α} {ρ : Type} {start : ρ}
    {note : ρ → σ → α → σ → ρ} {G : σ → α → Prop} {p : σ × ρ}
    (h : (M.recording start note).ReachableWith (fun p a => G p.1 a) p) :
    M.ReachableWith G p.1 := by
  induction h with
  | init h0 => exact .init h0.1
  | step _ hg hs ih => exact .step ih hg hs.1

/-- A record beside the states does not influence the runs. -/
theorem reachable_of_recording {M : System σ α} {ρ : Type} {start : ρ}
    {note : ρ → σ → α → σ → ρ} {p : σ × ρ} (h : (M.recording start note).Reachable p) :
    M.Reachable p.1 :=
  reachableWith_of_recording h

/-- Every run has a record. -/
theorem ReachableWith.recording {M : System σ α} {ρ : Type} {start : ρ}
    {note : ρ → σ → α → σ → ρ} {G : σ → α → Prop} {s : σ} (h : M.ReachableWith G s) :
    ∃ r, (M.recording start note).ReachableWith (fun p a => G p.1 a) (s, r) := by
  induction h with
  | init h0 => exact ⟨start, .init ⟨h0, rfl⟩⟩
  | @step s s' a _ hg hs ih =>
    obtain ⟨r, hr⟩ := ih
    exact ⟨note r s a s', .step hr hg ⟨hs, rfl⟩⟩

/-- The executable step function with a record. -/
def record {ρ : Type} (next : σ → α → Option σ) (note : ρ → σ → α → σ → ρ) (p : σ × ρ) (a : α) :
    Option (σ × ρ) :=
  (next p.1 a).map fun s' => (s', note p.2 p.1 a s')

/-- Its runs are runs of the system with the record. -/
theorem ReachableWith.of_record {start : σ} {next : σ → α → Option σ} {ρ : Type} {r : ρ}
    {note : ρ → σ → α → σ → ρ} {G : σ × ρ → α → Prop} {p : σ × ρ}
    (h : (ofFun (start, r) (record next note)).ReachableWith G p) :
    ((ofFun start next).recording r note).ReachableWith G p := by
  induction h with
  | init h0 =>
    obtain rfl := h0
    exact .init ⟨rfl, rfl⟩
  | step _ hg hs ih =>
    obtain ⟨s', hnext, rfl⟩ := Option.map_eq_some_iff.mp hs
    exact .step ih hg ⟨hnext, rfl⟩

/-- The executable step function without the steps that do not meet `G`. -/
def guarded (G : σ → α → Prop) [∀ s a, Decidable (G s a)] (next : σ → α → Option σ) (s : σ)
    (a : α) : Option σ :=
  if G s a then next s a else none

/-- All steps of its runs meet `G`. -/
theorem ReachableWith.of_guarded {start : σ} {next : σ → α → Option σ} {G : σ → α → Prop}
    [∀ s a, Decidable (G s a)] {s : σ} (h : (ofFun start (guarded G next)).Reachable s) :
    (ofFun start next).ReachableWith G s := by
  induction h with
  | init h0 => exact .init h0
  | @step s s' a _ _ hs ih =>
    have hs : guarded G next s a = some s' := hs
    unfold guarded at hs
    split at hs
    · next hg => exact .step ih hg hs
    · cases hs

/-- Replay a list of labels with an executable step function. -/
def run (next : σ → α → Option σ) : σ → List α → Option σ
  | s, [] => some s
  | s, a :: as => (next s a).bind fun s' => run next s' as

/-- A replay from a reachable state ends in a reachable state. -/
theorem reachable_of_run_from {start : σ} {next : σ → α → Option σ} :
    ∀ (as : List α) {s s' : σ}, (ofFun start next).Reachable s →
      run next s as = some s' → (ofFun start next).Reachable s' := by
  intro as
  induction as with
  | nil =>
    intro s s' hs h
    cases h
    exact hs
  | cons a as ih =>
    intro s s' hs h
    simp only [run, Option.bind_eq_some_iff] at h
    obtain ⟨s₁, h₁, h₂⟩ := h
    exact ih (.step hs trivial h₁) h₂

/-- A replay from the start ends in a reachable state. -/
theorem reachable_of_run {start : σ} {next : σ → α → Option σ} {as : List α} {s : σ}
    (h : run next start as = some s) : (ofFun start next).Reachable s :=
  reachable_of_run_from as (.init rfl) h

/-- A replay that ends in a state with the decidable property `p` shows that such a state
is reachable. -/
theorem exists_reachable_of_run {start : σ} {next : σ → α → Option σ} (as : List α)
    (p : σ → Bool) (h : (run next start as).map p = some true) :
    ∃ s, (ofFun start next).Reachable s ∧ p s = true := by
  cases hr : run next start as with
  | none => simp [hr] at h
  | some s =>
    simp only [hr, Option.map_some, Option.some.injEq] at h
    exact ⟨s, reachable_of_run hr, h⟩

/-- What holds of the labels so far and of the state, and is kept by every step, holds at the end
of a replay. -/
theorem run_induct {next : σ → α → Option σ} {I : List α → σ → Prop}
    (hstep : ∀ past s a s', I past s → next s a = some s' → I (past ++ [a]) s') {as : List α} :
    ∀ {past : List α} {s s' : σ}, I past s → run next s as = some s' → I (past ++ as) s' := by
  induction as with
  | nil =>
    intro past s s' hs h
    cases h
    rwa [List.append_nil]
  | cons a as ih =>
    intro past s s' hs h
    obtain ⟨s₁, h₁, h₂⟩ := Option.bind_eq_some_iff.mp h
    have hrest := ih (hstep past s a s₁ hs h₁) h₂
    rwa [List.append_assoc, List.singleton_append] at hrest

/-- `abs` maps every step of `M` from a reachable state to the same-labelled step of `N`. -/
structure Refines (M : System σ α) (N : System τ α) (abs : σ → τ) : Prop where
  init : ∀ s, M.init s → N.init (abs s)
  step : ∀ s a s', M.Reachable s → M.step s a s' → N.step (abs s) a (abs s')

/-- Reachable states refine to reachable states. The condition on the abstract steps must
follow from the condition on the concrete ones. -/
theorem Refines.reachableWith {M : System σ α} {N : System τ α} {abs : σ → τ}
    (r : M.Refines N abs) {G : σ → α → Prop} {H : τ → α → Prop}
    (hG : ∀ s a, G s a → H (abs s) a) {s : σ} (h : M.ReachableWith G s) :
    N.ReachableWith H (abs s) := by
  induction h with
  | init h0 => exact .init (r.init _ h0)
  | step hr hg hs ih => exact .step ih (hG _ _ hg) (r.step _ _ _ hr.reachable hs)

/-- A refinement carries over to records that it does not change. -/
theorem Refines.recording {M : System σ α} {N : System τ α} {abs : σ → τ}
    (r : M.Refines N abs) {ρ : Type} {start : ρ} {note : ρ → σ → α → σ → ρ}
    {note' : ρ → τ → α → τ → ρ}
    (h : ∀ x s a s', note x s a s' = note' x (abs s) a (abs s')) :
    (M.recording start note).Refines (N.recording start note') (Prod.map abs id) where
  init p hp := ⟨r.init _ hp.1, hp.2⟩
  step p a p' hp hs := by
    refine ⟨r.step _ a _ (reachable_of_recording hp) hs.1, ?_⟩
    rw [Prod.map_snd, id, hs.2, h]
    rfl

/-- Reachable states refine to reachable states. -/
theorem Refines.reachable {M : System σ α} {N : System τ α} {abs : σ → τ}
    (r : M.Refines N abs) {s : σ} (h : M.Reachable s) : N.Reachable (abs s) :=
  r.reachableWith (fun _ _ _ => trivial) h

end System

end Transition
