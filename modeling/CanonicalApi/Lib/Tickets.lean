import CanonicalApi.Lib.Tasks
import Mathlib.Data.List.Basic

/-!
# `CanonicalApi.Lib.Tickets`: numbers from a shared counter

Tasks draw numbers from a counter in their shared memory. A task holds a number from the poll that
draws it to the poll that uses it, and other tasks may draw and use theirs in between. So numbers
are not used in the order in which they were drawn, and some are never used. `used_nodup` says that
no number is used twice, and `used_ge` that none is below the one that the counter started with.
-/

set_option autoImplicit false

open Transition (System)

/-- A counter with the numbers that were used, and the number that a task holds. -/
structure Tickets (T : Tasks) where
  counter : T.Shared → Nat
  used : T.Shared → List Nat
  held : T.Task → Option Nat

namespace Tickets

/-- What a poll does with the counter, the used numbers and the number of its task. A number is
drawn from the counter and used at most once. -/
inductive Moves (counter : Nat) (used : List Nat) (held : Option Nat) :
    Nat → List Nat → Option Nat → Prop where
  | keeps : Moves counter used held counter used held
  | discards : Moves counter used held counter used none
  | draws : Moves counter used held (counter + 1) used (some counter)
  | uses {n : Nat} : held = some n → Moves counter used held counter (used ++ [n]) none
  | exchanges {n : Nat} : held = some n →
      Moves counter used held (counter + 1) (used ++ [n]) (some counter)

variable {T : Tasks} (K : Tickets T)

/-- Tasks get numbers only from the counter, and hand none over: a task that is started has none. -/
structure Sound : Prop where
  start : K.used T.start = []
  arrives : ∀ {shared shared' : T.Shared} {p : T.Task}, T.arrives shared p = some shared' →
    K.counter shared' = K.counter shared ∧ K.used shared' = K.used shared ∧ K.held p = none
  poll : ∀ {shared shared' : T.Shared} {p p' : T.Task} {q? : Option T.Task} {input : T.Input},
    T.poll shared p input = some (shared', p', q?) →
      Moves (K.counter shared) (K.used shared) (K.held p)
        (K.counter shared') (K.used shared') (K.held p') ∧ q?.bind K.held = none

/-- The number that the task `pid` holds. -/
def heldAt (tasks : Nat → Option T.Task) (pid : Nat) : Option Nat :=
  (tasks pid).bind K.held

/-- The numbers in use and the numbers that are held were drawn from `first` on, and all of them
differ. -/
structure Distinct (first counter : Nat) (used : List Nat) (held : Nat → Option Nat) : Prop where
  first_le : first ≤ counter
  used_drawn : ∀ n ∈ used, first ≤ n ∧ n < counter
  nodup : used.Nodup
  held_drawn : ∀ pid n, held pid = some n → first ≤ n ∧ n < counter
  unused : ∀ pid n, held pid = some n → n ∉ used
  apart : ∀ pid pid' n, held pid = some n → held pid' = some n → pid = pid'

namespace Distinct

variable {first counter : Nat} {used : List Nat} {held held' : Nat → Option Nat}

/-- Numbers may be discarded. -/
theorem discard (h : Distinct first counter used held)
    (hsub : ∀ pid n, held' pid = some n → held pid = some n) :
    Distinct first counter used held' where
  first_le := h.first_le
  used_drawn := h.used_drawn
  nodup := h.nodup
  held_drawn pid n hn := h.held_drawn pid n (hsub pid n hn)
  unused pid n hn := h.unused pid n (hsub pid n hn)
  apart pid pid' n hn hn' := h.apart pid pid' n (hsub pid n hn) (hsub pid' n hn')

/-- The task `pid` draws the next number. -/
theorem draw (h : Distinct first counter used held) (pid : Nat) :
    Distinct first (counter + 1) used (Function.update held pid (some counter)) := by
  -- A held ticket is the new one or was held before, and the new one is larger than all others.
  have hcases : ∀ i n, Function.update held pid (some counter) i = some n →
      i = pid ∧ n = counter ∨ i ≠ pid ∧ held i = some n := by
    intro i n hn
    by_cases hi : i = pid
    · subst hi
      rw [Function.update_self] at hn
      exact .inl ⟨rfl, (Option.some.inj hn).symm⟩
    · rw [Function.update_of_ne hi] at hn
      exact .inr ⟨hi, hn⟩
  have hfirst := h.first_le
  constructor
  · exact Nat.le_succ_of_le hfirst
  · intro n hn
    have hdrawn := h.used_drawn n hn
    omega
  · exact h.nodup
  · intro i n hn
    rcases hcases i n hn with ⟨-, rfl⟩ | ⟨-, hn⟩
    · omega
    · have hdrawn := h.held_drawn i n hn
      omega
  · intro i n hn hmem
    rcases hcases i n hn with ⟨-, rfl⟩ | ⟨-, hn⟩
    · have hdrawn := h.used_drawn n hmem
      omega
    · exact h.unused i n hn hmem
  · intro i j n hi hj
    rcases hcases i n hi with ⟨hpid, hcounter⟩ | ⟨-, hi⟩
    · rcases hcases j n hj with ⟨hpid', -⟩ | ⟨-, hj⟩
      · rw [hpid, hpid']
      · have hdrawn := h.held_drawn j n hj
        omega
    · rcases hcases j n hj with ⟨-, hcounter⟩ | ⟨-, hj⟩
      · have hdrawn := h.held_drawn i n hi
        omega
      · exact h.apart i j n hi hj

/-- The task `pid` uses its number. -/
theorem use (h : Distinct first counter used held) {pid n : Nat} (hn : held pid = some n) :
    Distinct first counter (used ++ [n]) (Function.update held pid none) := by
  -- After the use only the other tasks hold numbers, and they hold what they held.
  have hcases : ∀ i m, Function.update held pid none i = some m →
      i ≠ pid ∧ held i = some m := by
    intro i m hm
    by_cases hi : i = pid
    · subst hi
      rw [Function.update_self] at hm
      cases hm
    · rw [Function.update_of_ne hi] at hm
      exact ⟨hi, hm⟩
  constructor
  · exact h.first_le
  · intro m hm
    rcases List.mem_append.mp hm with hm | hm
    · exact h.used_drawn m hm
    · rw [List.mem_singleton.mp hm]
      exact h.held_drawn pid n hn
  · rw [List.nodup_append]
    refine ⟨h.nodup, List.pairwise_singleton _ n, fun m hm k hk => ?_⟩
    rw [List.mem_singleton.mp hk]
    intro heq
    rw [heq] at hm
    exact h.unused pid n hn hm
  · intro i m hm
    exact h.held_drawn i m (hcases i m hm).2
  · intro i m hm hmem
    obtain ⟨hne, hm⟩ := hcases i m hm
    rcases List.mem_append.mp hmem with hmem | hmem
    · exact h.unused i m hm hmem
    · rw [List.mem_singleton.mp hmem] at hm
      exact hne (h.apart i pid n hm hn)
  · intro i j m hi hj
    exact h.apart i j m (hcases i m hi).2 (hcases j m hj).2

/-- What a poll of the task `pid` does with its number keeps the numbers distinct. -/
theorem moves (h : Distinct first counter used held) {pid counter' : Nat} {used' : List Nat}
    {x : Option Nat} (hmove : Moves counter used (held pid) counter' used' x) :
    Distinct first counter' used' (Function.update held pid x) := by
  cases hmove with
  | keeps =>
    rw [Function.update_eq_self]
    exact h
  | discards =>
    refine h.discard fun i n hn => ?_
    by_cases hi : i = pid
    · subst hi
      rw [Function.update_self] at hn
      cases hn
    · rwa [Function.update_of_ne hi] at hn
  | draws => exact h.draw pid
  | uses hn => exact h.use hn
  -- A ticket is used and the next one drawn in the same step.
  | exchanges hn =>
    have hdrawn := (h.use hn).draw pid
    rwa [Function.update_idem] at hdrawn

end Distinct

variable {K}

/-- An update of the tasks is an update of the numbers. -/
theorem heldAt_update (tasks : Nat → Option T.Task) (pid : Nat) (x : Option T.Task) :
    K.heldAt (Function.update tasks pid x) =
      Function.update (K.heldAt tasks) pid (x.bind K.held) := by
  funext i
  by_cases hi : i = pid
  · subst hi
    simp only [heldAt, Function.update_self]
  · simp only [heldAt, Function.update_of_ne hi]

/-- A step keeps the numbers distinct. -/
theorem Distinct.step (hsound : K.Sound) {first : Nat} {s s' : T.State} {a : T.Action}
    (h : Distinct first (K.counter s.shared) (K.used s.shared) (K.heldAt s.tasks))
    (hstep : Tasks.Step s a s') :
    Distinct first (K.counter s'.shared) (K.used s'.shared) (K.heldAt s'.tasks) := by
  cases hstep with
  | @arrive pid p shared harrives hnone =>
    obtain ⟨hcounter, hused, hheld⟩ := hsound.arrives harrives
    show Distinct first (K.counter shared) (K.used shared) _
    rw [hcounter, hused, heldAt_update, Option.bind_some, hheld]
    exact h.moves .discards
  | @poll pid child input p p' q? shared hp hchild hpoll =>
    obtain ⟨hmove, hnone⟩ := hsound.poll hpoll
    have hheld : K.heldAt s.tasks pid = K.held p := by rw [heldAt, hp, Option.bind_some]
    rw [← hheld] at hmove
    have hmoved := h.moves hmove
    show Distinct first (K.counter shared) (K.used shared) _
    cases q? with
    | none => rwa [Tasks.spawn, heldAt_update, Option.bind_some]
    | some q =>
      -- The task that starts holds no number.
      have hstarted : K.heldAt (T.spawn (Function.update s.tasks pid (some p')) child (some q)) =
          Function.update (Function.update (K.heldAt s.tasks) pid (K.held p')) child none := by
        rw [Tasks.spawn, heldAt_update, heldAt_update, hnone, Option.bind_some]
      rw [hstarted]
      exact hmoved.moves .discards
  | @drop pid p hp hdrop =>
    show Distinct first (K.counter s.shared) (K.used s.shared) _
    rw [heldAt_update, Option.bind_none]
    exact h.moves .discards

/-- In every run the numbers are distinct. -/
theorem distinct_of_reachable (hsound : K.Sound) {s : T.State} (h : T.system.Reachable s) :
    Distinct (K.counter T.start) (K.counter s.shared) (K.used s.shared)
      (K.heldAt s.tasks) := by
  refine System.ReachableWith.induct (I := fun s => Distinct (K.counter T.start)
    (K.counter s.shared) (K.used s.shared) (K.heldAt s.tasks)) ?_ ?_ h
  · intro s hs
    obtain rfl := hs
    show Distinct _ (K.counter T.start) (K.used T.start) _
    rw [hsound.start]
    exact {
      first_le := Nat.le_refl _
      used_drawn := fun n hn => absurd hn List.not_mem_nil
      nodup := .nil
      held_drawn := fun pid n hn => by cases hn
      unused := fun pid n hn => by cases hn
      apart := fun pid pid' n hn => by cases hn }
  · intro s a s' _ hs _ hnext
    exact hs.step hsound (Tasks.step_of_next hnext)

/-- In every run no number is used twice. -/
theorem used_nodup (hsound : K.Sound) {s : T.State} (h : T.system.Reachable s) :
    (K.used s.shared).Nodup :=
  (distinct_of_reachable hsound h).nodup

/-- In every run all numbers come from the counter as it was at the start. -/
theorem used_ge (hsound : K.Sound) {s : T.State} (h : T.system.Reachable s) :
    ∀ n ∈ K.used s.shared, K.counter T.start ≤ n :=
  fun n hn => ((distinct_of_reachable hsound h).used_drawn n hn).1

end Tickets
