import CanonicalApi.Lib.Tasks
import Mathlib.Algebra.BigOperators.Group.Finset.Piecewise
import Mathlib.Algebra.Order.BigOperators.Group.Finset

/-!
# `CanonicalApi.Lib.Semaphore`: permits among tasks

A counting semaphore in the shared memory of a family of tasks. A task owns a number of permits.
When a poll takes, returns or hands over permits only by moving them between the semaphore, the
task and the task that it starts, the semaphore is `Sound`, and then no permit is lost or made:
`conserved_of_reachable`.

The tasks are a function on all numbers, and only finitely many of them own a permit. `Conserved`
therefore sums over a finite set outside of which no task owns one. `exists_owners` reads the sum
as a number of tasks when a task owns at most one permit.
-/

set_option autoImplicit false

open Transition (System)

/-- A semaphore with `capacity` permits. -/
structure Semaphore (T : Tasks) where
  capacity : Nat
  available : T.Shared → Nat
  owned : T.Task → Nat

namespace Semaphore

variable {T : Tasks} (S : Semaphore T)

/-- The permits of the task `pid`. -/
def ownedAt (tasks : Nat → Option T.Task) (pid : Nat) : Nat :=
  (tasks pid).elim 0 S.owned

/-- The permits that are left and those of the tasks are all the permits there are. -/
def Conserved (s : T.State) : Prop :=
  ∃ live : Finset Nat, (∀ pid, pid ∉ live → S.ownedAt s.tasks pid = 0) ∧
    S.available s.shared + ∑ pid ∈ live, S.ownedAt s.tasks pid = S.capacity

/-- Every step moves permits and makes or loses none. A task that gives its permits away in its poll
may hand them to the task that it starts. -/
structure Sound : Prop where
  start : S.available T.start = S.capacity
  arrives : ∀ {shared shared' : T.Shared} {p : T.Task}, T.arrives shared p = some shared' →
    S.available shared' + S.owned p = S.available shared
  poll : ∀ {shared shared' : T.Shared} {p p' : T.Task} {q? : Option T.Task} {input : T.Input},
    T.poll shared p input = some (shared', p', q?) →
      S.available shared' + (S.owned p' + q?.elim 0 S.owned) = S.available shared + S.owned p
  drop : ∀ {p : T.Task}, T.droppable p = true → S.owned p = 0

/-! ### Sums over an update -/

/-- The sum of an updated function, over a set that covers both functions. -/
theorem exists_sum_update {f : Nat → Nat} {live : Finset Nat}
    (hlive : ∀ pid, pid ∉ live → f pid = 0) (pid x : Nat) :
    ∃ live' : Finset Nat, (∀ i, i ∉ live' → Function.update f pid x i = 0) ∧
      ∑ i ∈ live', Function.update f pid x i + f pid = ∑ i ∈ live, f i + x := by
  refine ⟨insert pid live, ?_, ?_⟩
  · intro i hi
    rw [Finset.mem_insert, not_or] at hi
    rw [Function.update_of_ne hi.1]
    exact hlive i hi.2
  · have hmem : pid ∈ insert pid live := Finset.mem_insert_self pid live
    have hbefore : ∑ i ∈ insert pid live, f i = ∑ i ∈ live, f i :=
      Finset.sum_insert_of_eq_zero_if_notMem (hlive pid)
    -- The sum is split at the position that changes.
    have hsplit := Finset.sum_update_of_mem hmem f (f pid)
    rw [Function.update_eq_self] at hsplit
    rw [Finset.sum_update_of_mem hmem, ← hbefore, hsplit]
    omega

variable {S}

/-- An update of the tasks is an update of the permits. -/
theorem ownedAt_update (tasks : Nat → Option T.Task) (pid : Nat) (x : Option T.Task) :
    S.ownedAt (Function.update tasks pid x) =
      Function.update (S.ownedAt tasks) pid (x.elim 0 S.owned) := by
  funext i
  by_cases hi : i = pid
  · subst hi
    simp only [ownedAt, Function.update_self]
  · simp only [ownedAt, Function.update_of_ne hi]

/-- The permits are conserved when the task `pid` gives back what it owned and takes what it
owns now. -/
theorem Conserved.update {s : T.State} (h : S.Conserved s) {shared : T.Shared} {pid : Nat}
    {x : Option T.Task}
    (hmove : S.available shared + x.elim 0 S.owned = S.available s.shared + S.ownedAt s.tasks pid) :
    S.Conserved ⟨shared, Function.update s.tasks pid x⟩ := by
  obtain ⟨live, hlive, hsum⟩ := h
  obtain ⟨live', hlive', hsum'⟩ := exists_sum_update hlive pid (x.elim 0 S.owned)
  refine ⟨live', ?_, ?_⟩
  · rwa [ownedAt_update]
  · show S.available shared + ∑ i ∈ live', S.ownedAt (Function.update s.tasks pid x) i = _
    rw [ownedAt_update]
    omega

/-- A step of a sound semaphore conserves the permits. -/
theorem Conserved.step (hsound : S.Sound) {s s' : T.State} {a : T.Action}
    (h : S.Conserved s) (hstep : Tasks.Step s a s') : S.Conserved s' := by
  cases hstep with
  | @arrive pid p shared harrives hnone =>
    have hmove := hsound.arrives harrives
    refine h.update ?_
    simp only [ownedAt, hnone, Option.elim_none, Option.elim_some]
    exact hmove
  | @poll pid child input p p' q? shared hp hchild hpoll =>
    have hmove := hsound.poll hpoll
    have howned : S.ownedAt s.tasks pid = S.owned p := by simp only [ownedAt, hp, Option.elim_some]
    cases q? with
    | none =>
      refine h.update ?_
      rw [howned]
      exact hmove
    | some q =>
      -- First the task moves, and what it hands over counts as available.
      have hne : child ≠ pid := by
        intro heq
        rw [heq, hp] at hchild
        cases hchild
      obtain ⟨live, hlive, hsum⟩ := h
      obtain ⟨live₁, hlive₁, hsum₁⟩ := exists_sum_update hlive pid (S.owned p')
      obtain ⟨live₂, hlive₂, hsum₂⟩ := exists_sum_update hlive₁ child (S.owned q)
      have hnew : Function.update (S.ownedAt s.tasks) pid (S.owned p') child = 0 := by
        rw [Function.update_of_ne hne]
        simp only [ownedAt, hchild, Option.elim_none]
      have hafter : S.ownedAt (T.spawn (Function.update s.tasks pid (some p')) child (some q)) =
          Function.update (Function.update (S.ownedAt s.tasks) pid (S.owned p')) child
            (S.owned q) := by
        rw [Tasks.spawn, ownedAt_update, ownedAt_update]
        rfl
      refine ⟨live₂, ?_, ?_⟩
      · show ∀ i, i ∉ live₂ → S.ownedAt (T.spawn _ child (some q)) i = 0
        rwa [hafter]
      · show S.available shared + ∑ i ∈ live₂, S.ownedAt (T.spawn _ child (some q)) i = _
        rw [hafter]
        simp only [Option.elim_some] at hmove
        omega
  | @drop pid p hp hdrop =>
    have hnone := hsound.drop hdrop
    refine h.update ?_
    simp only [ownedAt, hp, Option.elim_none, Option.elim_some, hnone]

/-- In every run of a sound semaphore the permits are conserved. -/
theorem conserved_of_reachable (hsound : S.Sound) {s : T.State} (h : T.system.Reachable s) :
    S.Conserved s := by
  refine System.ReachableWith.induct ?_ ?_ h
  · intro s hs
    obtain rfl := hs
    refine ⟨∅, fun _ _ => rfl, ?_⟩
    rw [Finset.sum_empty, Nat.add_zero]
    exact hsound.start
  · intro s a s' _ hs _ hnext
    exact hs.step hsound (Tasks.step_of_next hnext)

/-- When a task owns at most one permit, the permits that are not left are those of as many
tasks. -/
theorem Conserved.exists_owners {s : T.State} (h : S.Conserved s)
    (hone : ∀ p, S.owned p ≤ 1) :
    ∃ owners : Finset Nat, (∀ pid, pid ∈ owners ↔ ∃ p, s.tasks pid = some p ∧ S.owned p = 1) ∧
      S.available s.shared + owners.card = S.capacity := by
  obtain ⟨live, hlive, hsum⟩ := h
  -- The owners are the tasks that own one permit, and the sum counts them.
  have howned : ∀ pid, S.ownedAt s.tasks pid = 1 ↔
      ∃ p, s.tasks pid = some p ∧ S.owned p = 1 := by
    intro pid
    cases hp : s.tasks pid with
    | none => simp [ownedAt, hp]
    | some p => simp [ownedAt, hp]
  have hle : ∀ pid, S.ownedAt s.tasks pid ≤ 1 := by
    intro pid
    cases hp : s.tasks pid with
    | none => simp [ownedAt, hp]
    | some p => simpa [ownedAt, hp] using hone p
  refine ⟨live.filter fun pid => S.ownedAt s.tasks pid = 1, ?_, ?_⟩
  · intro pid
    rw [Finset.mem_filter, howned]
    refine and_iff_right_of_imp fun hpid => ?_
    by_contra hnot
    have hzero := hlive pid hnot
    rw [(howned pid).mpr hpid] at hzero
    cases hzero
  · rw [Finset.card_filter, ← hsum]
    refine congrArg _ (Finset.sum_congr rfl fun pid _ => ?_)
    have hpid := hle pid
    split <;> omega

end Semaphore
