import Mathlib.Logic.Function.Basic

/-!
# `CanonicalApi.Lib.SingleWriter`: objects that one process at a time may write

Processes write the status of shared objects, and no write looks at the current status. A
process may still have writes ahead of it. Its `claim` is then the object that it writes next
and the status that it relies on until then.

`Exclusive` says that every claim is right and that no object has two claims. It survives the
two kinds of steps: a process moves on, or hands its claim to an heir (`Succession`), or it
writes an object (`Write`). A write without a claim is allowed only on objects that are new or
idle, which nobody claims. With `Exclusive`, every write moves the status of its object along
an edge of the protocol (`Write.move`). An object that is not idle and has lost its claim is
`Settled`: its status does not change any more.
-/

set_option autoImplicit false

namespace SingleWriter

/-- The statuses of an object: the edges that a process with a claim may take, the statuses
that nobody relies on, and the status with which a process without a claim starts. -/
structure Protocol (σ : Type) where
  edge : σ → σ → Prop
  idle : σ → Prop
  entry : σ

/-- A coarser protocol: `f` keeps the edges, the entry and which statuses are idle. -/
structure Protocol.Map {σ τ : Type} (P : Protocol σ) (Q : Protocol τ) (f : σ → τ) : Prop where
  edge : ∀ x y, P.edge x y → Q.edge (f x) (f y)
  idle : ∀ x, Q.idle (f x) ↔ P.idle x
  entry : f P.entry = Q.entry

/-- The moves of the status of one object. -/
inductive Move {σ : Type} (P : Protocol σ) : Option σ → Option σ → Prop where
  | same {x : Option σ} : Move P x x
  | create : Move P none (some P.entry)
  | restart {old : σ} : P.idle old → Move P (some old) (some P.entry)
  | edge {old new : σ} : P.edge old new → Move P (some old) (some new)

variable {ι σ Proc : Type}

/-- Every claim is right, concerns an object that is not idle, and is the only one for its
object. -/
structure Exclusive (P : Protocol σ) (status : ι → Option σ) (claims : Nat → Option (ι × σ)) :
    Prop where
  expected : ∀ pid id x, claims pid = some (id, x) → status id = some x
  busy : ∀ pid id x, claims pid = some (id, x) → ¬ P.idle x
  single : ∀ pid pid' id x x', claims pid = some (id, x) → claims pid' = some (id, x') →
    pid = pid'

/-- After the step of `pid`, at most `heir` has a claim in its place, namely `claim`. Every
other claim was there before. -/
def Succession (claims claims' : Nat → Option (ι × σ)) (pid heir : Nat)
    (claim : Option (ι × σ)) : Prop :=
  ∀ pid' x, claims' pid' = some x →
    pid' = heir ∧ claim = some x ∨ pid' ≠ pid ∧ claims pid' = some x

/-- The write of the status `new` into the object `id` by a process with the claim `claim`. -/
structure Write (P : Protocol σ) (status status' : ι → Option σ) (claim : Option (ι × σ))
    (id : ι) (new : σ) : Prop where
  written : status' id = some new
  others : ∀ id', id' ≠ id → status' id' = status id'
  before : (status id = none ∨ ∃ old, status id = some old ∧ P.idle old) ∧ new = P.entry ∨
    ∃ old, claim = some (id, old) ∧ P.edge old new

section

variable {P : Protocol σ} {status status' : ι → Option σ} {claims claims' : Nat → Option (ι × σ)}
  {pid heir : Nat} {claim : Option (ι × σ)}

/-- Without a claim no two processes claim the same. -/
theorem exclusive_of_no_claims (h : ∀ pid, claims pid = none) : Exclusive P status claims where
  expected pid id x hx := by
    rw [h] at hx
    cases hx
  busy pid id x hx := by
    rw [h] at hx
    cases hx
  single pid pid' id x x' hx := by
    rw [h] at hx
    cases hx

/-- A step without a write keeps the claims exclusive. -/
theorem Exclusive.succeed (h : Exclusive P status claims)
    (hs : Succession claims claims' pid heir (claims pid)) : Exclusive P status claims' where
  expected pid' id x hx := by
    rcases hs pid' (id, x) hx with ⟨-, hclaim⟩ | ⟨-, hsame⟩
    · exact h.expected pid id x hclaim
    · exact h.expected pid' id x hsame
  busy pid' id x hx := by
    rcases hs pid' (id, x) hx with ⟨-, hclaim⟩ | ⟨-, hsame⟩
    · exact h.busy pid id x hclaim
    · exact h.busy pid' id x hsame
  single pid₁ pid₂ id x₁ x₂ h₁ h₂ := by
    -- Each of the two claims is inherited or old. Only two different owners are excluded.
    rcases hs pid₁ (id, x₁) h₁ with ⟨rfl, hclaim₁⟩ | ⟨hne₁, hsame₁⟩ <;>
      rcases hs pid₂ (id, x₂) h₂ with ⟨rfl, hclaim₂⟩ | ⟨hne₂, hsame₂⟩
    · rfl
    · exact absurd (h.single pid₂ pid id x₂ x₁ hsame₂ hclaim₁) hne₂
    · exact absurd (h.single pid₁ pid id x₁ x₂ hsame₁ hclaim₂) hne₁
    · exact h.single pid₁ pid₂ id x₁ x₂ hsame₁ hsame₂

/-- Nobody else claims an object that is written. -/
theorem Write.alone {id : ι} {new : σ} (hw : Write P status status' (claims pid) id new)
    (h : Exclusive P status claims) {pid' : Nat} {x : σ} (hne : pid' ≠ pid) :
    claims pid' ≠ some (id, x) := by
  intro hx
  rcases hw.before with ⟨hnone | ⟨old, hold, hidle⟩, -⟩ | ⟨old, hclaim, -⟩
  · rw [h.expected pid' id x hx] at hnone
    cases hnone
  · rw [h.expected pid' id x hx] at hold
    cases hold
    exact h.busy pid' id x hx hidle
  · exact hne (h.single pid' pid id x old hx hclaim)

/-- A write keeps the claims exclusive, when at most the claim to the written object with its
new status succeeds the claim of the writer. -/
theorem Exclusive.write {id : ι} {new : σ} (h : Exclusive P status claims)
    (hw : Write P status status' (claims pid) id new)
    (hs : Succession claims claims' pid heir claim)
    (hclaim : claim = none ∨ claim = some (id, new) ∧ ¬ P.idle new) :
    Exclusive P status' claims' := by
  -- A claim afterwards is the new one, or an old one on another object.
  have hcases : ∀ pid' id' x, claims' pid' = some (id', x) →
      (pid' = heir ∧ id' = id ∧ x = new ∧ ¬ P.idle new) ∨
        pid' ≠ pid ∧ id' ≠ id ∧ claims pid' = some (id', x) := by
    intro pid' id' x hx
    rcases hs pid' (id', x) hx with ⟨rfl, hnew⟩ | ⟨hne, hold⟩
    · rcases hclaim with hnone | ⟨hsome, hidle⟩
      · rw [hnone] at hnew
        cases hnew
      · rw [hsome] at hnew
        cases hnew
        exact .inl ⟨rfl, rfl, rfl, hidle⟩
    · refine .inr ⟨hne, ?_, hold⟩
      rintro rfl
      exact hw.alone h hne hold
  constructor
  · intro pid' id' x hx
    rcases hcases pid' id' x hx with ⟨-, rfl, rfl, -⟩ | ⟨-, hid, hold⟩
    · exact hw.written
    · rw [hw.others id' hid]
      exact h.expected pid' id' x hold
  · intro pid' id' x hx
    rcases hcases pid' id' x hx with ⟨-, -, rfl, hidle⟩ | ⟨-, -, hold⟩
    · exact hidle
    · exact h.busy pid' id' x hold
  · intro pid₁ pid₂ id' x₁ x₂ h₁ h₂
    rcases hcases pid₁ id' x₁ h₁ with ⟨rfl, rfl, -, -⟩ | ⟨-, hid₁, hold₁⟩ <;>
      rcases hcases pid₂ id' x₂ h₂ with ⟨rfl, hid₂, -, -⟩ | ⟨-, hid₂, hold₂⟩
    · rfl
    · exact absurd rfl hid₂
    · exact absurd hid₂ hid₁
    · exact h.single pid₁ pid₂ id' x₁ x₂ hold₁ hold₂

/-- A write moves the status of every object along the protocol. -/
theorem Write.move {id : ι} {new : σ} (hw : Write P status status' (claims pid) id new)
    (h : Exclusive P status claims) (id' : ι) : Move P (status id') (status' id') := by
  by_cases hid : id' = id
  · subst hid
    rw [hw.written]
    rcases hw.before with ⟨hnone | ⟨old, hold, hidle⟩, rfl⟩ | ⟨old, hclaim, hedge⟩
    · rw [hnone]
      exact .create
    · rw [hold]
      exact .restart hidle
    · rw [h.expected pid id' old hclaim]
      exact .edge hedge
  · rw [hw.others id' hid]
    exact .same

/-- A write changes the status of its object, when no edge leads back to where it starts and the
entry is not idle. -/
theorem Write.changes {id : ι} {new : σ} (hw : Write P status status' (claims pid) id new)
    (h : Exclusive P status claims) (hedge : ∀ x, ¬ P.edge x x) (hentry : ¬ P.idle P.entry) :
    status id ≠ some new := by
  intro hsame
  rcases hw.before with ⟨hnone | ⟨old, hold, hidle⟩, rfl⟩ | ⟨old, hclaim, hstep⟩
  · rw [hnone] at hsame
    cases hsame
  · rw [hold] at hsame
    cases hsame
    exact hentry hidle
  · rw [h.expected pid id old hclaim] at hsame
    cases hsame
    exact hedge _ hstep

/-- Nobody will write the object any more: it has a status that is not idle, and no claim. -/
structure Settled (P : Protocol σ) (status : ι → Option σ) (claims : Nat → Option (ι × σ))
    (id : ι) (x : σ) : Prop where
  current : status id = some x
  busy : ¬ P.idle x
  unclaimed : ∀ pid y, claims pid ≠ some (id, y)

/-- A step without a write keeps an object settled. -/
theorem Settled.succeed {id : ι} {x : σ} (h : Settled P status claims id x)
    (hs : Succession claims claims' pid heir (claims pid)) : Settled P status claims' id x where
  current := h.current
  busy := h.busy
  unclaimed pid' y hy := by
    rcases hs pid' (id, y) hy with ⟨-, hclaim⟩ | ⟨-, hsame⟩
    · exact h.unclaimed pid y hclaim
    · exact h.unclaimed pid' y hsame

/-- A settled object is not the one that is written. -/
theorem Settled.ne_of_write {id id' : ι} {x new : σ} (h : Settled P status claims id x)
    (hw : Write P status status' (claims pid) id' new) : id ≠ id' := by
  intro hid
  subst hid
  rcases hw.before with ⟨hnone | ⟨old, hold, hidle⟩, -⟩ | ⟨old, hclaim, -⟩
  · rw [h.current] at hnone
    cases hnone
  · rw [h.current] at hold
    cases hold
    exact h.busy hidle
  · exact h.unclaimed pid old hclaim

/-- A write keeps an object settled, and its status. -/
theorem Settled.write {id id' : ι} {x new : σ} (h : Settled P status claims id x)
    (hw : Write P status status' (claims pid) id' new)
    (hs : Succession claims claims' pid heir claim)
    (hclaim : ∀ y, claim = some y → y.1 = id') : Settled P status' claims' id x where
  current := (hw.others id (h.ne_of_write hw)).trans h.current
  busy := h.busy
  unclaimed pid' y hy := by
    rcases hs pid' (id, y) hy with ⟨-, hnew⟩ | ⟨-, hsame⟩
    · exact h.ne_of_write hw (hclaim _ hnew)
    · exact h.unclaimed pid' y hsame

end

/-! ### Claims of a pool of processes -/

/-- The claims of the processes, where `claim` gives the claim of one process. -/
def claimsOf (claim : Proc → Option (ι × σ)) (procs : Nat → Option Proc) (pid : Nat) :
    Option (ι × σ) :=
  (procs pid).bind claim

section

variable {claim : Proc → Option (ι × σ)} {procs : Nat → Option Proc} {pid : Nat} {p p' : Proc}

/-- Without processes there is no claim. -/
@[simp] theorem claimsOf_none : claimsOf claim (fun _ => none) pid = none := rfl

/-- The claim of a process is read off its state. -/
theorem claimsOf_eq (h : procs pid = some p) : claimsOf claim procs pid = claim p := by
  rw [claimsOf, h]
  rfl

/-- The process `pid` goes on as `p'`, with the claim `x` or without one. -/
theorem succession_put {x : Option (ι × σ)} (h : claim p' = none ∨ claim p' = x) :
    Succession (claimsOf claim procs) (claimsOf claim (Function.update procs pid (some p')))
      pid pid x := by
  intro pid' y hy
  by_cases hne : pid' = pid
  · subst hne
    rw [claimsOf_eq (Function.update_self ..)] at hy
    rcases h with hnone | rfl
    · rw [hnone] at hy
      cases hy
    · exact .inl ⟨rfl, hy⟩
  · rw [claimsOf, Function.update_of_ne hne] at hy
    exact .inr ⟨hne, hy⟩

/-- The process `pid` goes on as `p'` without a claim, and starts the process `q` with the
claim `x` or without one. -/
theorem succession_spawn {x : Option (ι × σ)} {child : Nat} {q : Proc} (hp : claim p' = none)
    (hq : claim q = none ∨ claim q = x) :
    Succession (claimsOf claim procs)
      (claimsOf claim (Function.update (Function.update procs pid (some p')) child (some q)))
      pid child x := by
  intro pid' y hy
  -- The child takes over the claim of its parent, which has none afterwards.
  by_cases hchild : pid' = child
  · subst hchild
    rw [claimsOf_eq (Function.update_self ..)] at hy
    rcases hq with hnone | rfl
    · rw [hnone] at hy
      cases hy
    · exact .inl ⟨rfl, hy⟩
  · rw [claimsOf, Function.update_of_ne hchild] at hy
    by_cases hne : pid' = pid
    · subst hne
      rw [Function.update_self] at hy
      have hy : claim p' = some y := hy
      rw [hp] at hy
      cases hy
    · rw [Function.update_of_ne hne] at hy
      exact .inr ⟨hne, hy⟩

/-- The process `pid` disappears. -/
theorem succession_remove {x : Option (ι × σ)} :
    Succession (claimsOf claim procs) (claimsOf claim (Function.update procs pid none))
      pid pid x := by
  intro pid' y hy
  by_cases hne : pid' = pid
  · subst hne
    rw [claimsOf, Function.update_self] at hy
    cases hy
  · rw [claimsOf, Function.update_of_ne hne] at hy
    exact .inr ⟨hne, hy⟩

end

end SingleWriter
