import Mathlib.Algebra.GroupWithZero.Nat
import Mathlib.Tactic.Common

/-!
# `CanonicalApi.Lib.Locks`: locks of a list of threads

A mutex and a reader-writer lock as the values that they keep: whether the mutex is taken, how
many readers the lock has and whether it has a writer. Each is `Guarded` when it agrees with
the threads, of which a predicate says who holds a guard. A thread that acquires or releases a
guard keeps this, and so does a thread that moves on with the guards it has. What follows is
exclusion: one holder of the mutex (`Mutex.Guarded.unique`), and no reader beside a writer
(`RwLock.Guarded.excludes`).
-/

set_option autoImplicit false

namespace Locks

section

variable {θ : Type} {p : θ → Bool} {threads : List θ} {i j : Nat} {t u t' : θ}

/-- How a count changes when one thread moves. -/
theorem countP_set_add (t' : θ) (h : threads[i]? = some t) :
    (threads.set i t').countP p + (p t).toNat = threads.countP p + (p t').toNat := by
  obtain ⟨hlt, rfl⟩ := List.getElem?_eq_some_iff.mp h
  have hle := List.boole_getElem_le_countP (p := p) hlt
  rw [List.countP_set hlt]
  generalize threads.countP p = n at hle ⊢
  cases ht : p threads[i] <;> cases ht' : p t' <;> simp [ht] at hle ⊢ <;> omega

/-- How a sum over the threads changes when one thread moves and each other one gains at most
`k`. -/
theorem sum_set_add_le (w w' : θ → Nat) {k : Nat} (t' : θ) (h : threads[i]? = some t)
    (hw : ∀ u ∈ threads, w' u ≤ w u + k) :
    ((threads.set i t').map w').sum + w t ≤
      (threads.map w).sum + w' t' + k * threads.length := by
  -- The bound for a list that nothing is set in, applied to the rest behind the place.
  have hsum : ∀ l : List θ, (∀ u ∈ l, w' u ≤ w u + k) →
      (l.map w').sum ≤ (l.map w).sum + k * l.length := by
    intro l hl
    induction l with
    | nil => simp
    | cons v rest ih =>
      rw [List.forall_mem_cons] at hl
      have hrest := ih hl.2
      simp only [List.map_cons, List.sum_cons, List.length_cons, Nat.mul_add_one]
      omega
  induction threads generalizing i with
  | nil => simp at h
  | cons v rest ih =>
    rw [List.forall_mem_cons] at hw
    cases i with
    | zero =>
      simp only [List.getElem?_cons_zero, Option.some.injEq] at h
      have hrest := hsum rest hw.2
      simp only [List.set_cons_zero, List.map_cons, List.sum_cons, List.length_cons,
        Nat.mul_add_one, h]
      omega
    | succ i =>
      have hrest := ih (List.getElem?_cons_succ ▸ h) hw.2
      simp only [List.set_cons_succ, List.map_cons, List.sum_cons, List.length_cons,
        Nat.mul_add_one]
      omega

/-- A thread that is counted. -/
theorem countP_pos_of (h : threads[i]? = some t) (hp : p t = true) : 0 < threads.countP p :=
  List.countP_pos_iff.mpr ⟨t, List.mem_of_getElem? h, hp⟩

/-- Where at most one thread is counted, two counted threads are the same. -/
theorem eq_of_countP_le_one (hone : threads.countP p ≤ 1) (hi : threads[i]? = some t)
    (hj : threads[j]? = some u) (ht : p t = true) (hu : p u = true) : i = j := by
  induction threads generalizing i j with
  | nil => simp at hi
  | cons v rest ih =>
    rw [List.countP_cons] at hone
    cases i with
    -- The first thread counts already, so that no later one does.
    | zero =>
      cases j with
      | zero => rfl
      | succ j =>
        simp only [List.getElem?_cons_zero, Option.some.injEq] at hi
        have hpos := countP_pos_of (p := p) (List.getElem?_cons_succ ▸ hj) hu
        rw [hi, if_pos ht] at hone
        omega
    | succ i =>
      have hpos := countP_pos_of (p := p) (List.getElem?_cons_succ ▸ hi) ht
      cases j with
      | zero =>
        simp only [List.getElem?_cons_zero, Option.some.injEq] at hj
        rw [hj, if_pos hu] at hone
        omega
      | succ j =>
        simp only [List.getElem?_cons_succ] at hi hj
        rw [ih (by omega) hi hj]

/-- After a thread has moved, each thread is this one or was there before. -/
theorem getElem?_set_cases (h : (threads.set i t')[j]? = some u) :
    i = j ∧ u = t' ∨ i ≠ j ∧ threads[j]? = some u := by
  by_cases hij : i = j
  · subst hij
    rw [List.getElem?_set_self'] at h
    obtain ⟨v, -, rfl⟩ := Option.map_eq_some_iff.mp h
    exact .inl ⟨rfl, rfl⟩
  · rw [List.getElem?_set_ne hij] at h
    exact .inr ⟨hij, h⟩

end

/-! ## A mutex -/

/-- A mutex: whether some thread holds its guard. -/
structure Mutex where
  locked : Bool
deriving DecidableEq, Repr

namespace Mutex

variable {θ : Type} {holds : θ → Bool} {m m' : Mutex} {threads : List θ} {i j : Nat} {t u t' : θ}

/-- Take the guard. `none` means that the thread waits. -/
def lock? (m : Mutex) : Option Mutex :=
  if m.locked = true then none else some ⟨true⟩

/-- Drop the guard. -/
def unlock (_ : Mutex) : Mutex := ⟨false⟩

/-- The mutex agrees with the threads. -/
def Guarded (m : Mutex) (holds : θ → Bool) (threads : List θ) : Prop :=
  threads.countP holds = m.locked.toNat

/-- At most one thread holds the guard. -/
theorem Guarded.unique (h : m.Guarded holds threads) (hi : threads[i]? = some t)
    (hj : threads[j]? = some u) (ht : holds t = true) (hu : holds u = true) : i = j := by
  have hle := Bool.toNat_le m.locked
  exact eq_of_countP_le_one (by rw [h]; exact hle) hi hj ht hu

/-- The mutex of a holder is taken. -/
theorem Guarded.locked_of (h : m.Guarded holds threads) (hi : threads[i]? = some t)
    (ht : holds t = true) : m.locked = true := by
  have hpos := countP_pos_of hi ht
  rw [h] at hpos
  cases hm : m.locked with
  | true => rfl
  | false => simp [hm] at hpos

/-- A taken mutex has a holder. -/
theorem Guarded.holder (h : m.Guarded holds threads) (hm : m.locked = true) :
    ∃ t ∈ threads, holds t = true := by
  have hpos : 0 < threads.countP holds := by
    rw [h, hm]
    decide
  exact List.countP_pos_iff.mp hpos

/-- A thread that takes the free lock becomes the one that holds it. -/
theorem Guarded.lock (h : m.Guarded holds threads) (hi : threads[i]? = some t)
    (ht : holds t = false) (ht' : holds t' = true) (hm : m.lock? = some m') :
    m'.Guarded holds (threads.set i t') := by
  have hcount := countP_set_add (p := holds) t' hi
  unfold lock? at hm
  split at hm
  · cases hm
  · next hfree =>
    cases hm
    simp only [Bool.not_eq_true] at hfree
    simp only [Guarded, hfree, Bool.toNat_false] at h
    simp only [ht, ht', h, Bool.toNat_false, Bool.toNat_true] at hcount
    simpa [Guarded] using hcount

/-- When its holder gives the lock back, no thread holds it. -/
theorem Guarded.unlock (h : m.Guarded holds threads) (hi : threads[i]? = some t)
    (ht : holds t = true) (ht' : holds t' = false) :
    m.unlock.Guarded holds (threads.set i t') := by
  have hcount := countP_set_add (p := holds) t' hi
  have hm := h.locked_of hi ht
  simp only [Guarded, hm, Bool.toNat_true] at h
  simp only [ht, ht', h, Bool.toNat_false, Bool.toNat_true] at hcount
  simpa [Guarded, Mutex.unlock] using hcount

/-- A thread that changes without taking or giving back the lock leaves it guarded. -/
theorem Guarded.keep (h : m.Guarded holds threads) (hi : threads[i]? = some t)
    (ht : holds t' = holds t) : m.Guarded holds (threads.set i t') := by
  have hcount := countP_set_add (p := holds) t' hi
  rw [ht] at hcount
  exact (Nat.add_right_cancel hcount).trans h

/-- A new thread that does not hold the lock leaves it guarded. -/
theorem Guarded.append (h : m.Guarded holds threads) (ht : holds t = false) :
    m.Guarded holds (threads ++ [t]) := by
  simpa [Guarded, ht] using h

end Mutex

/-! ## A reader-writer lock -/

/-- A reader-writer lock: how many threads hold a read guard, and whether one holds the write
guard. -/
structure RwLock where
  readers : Nat
  writer : Bool
deriving DecidableEq, Repr

namespace RwLock

/-- Take a read guard. `none` means that the thread waits. -/
def read? (l : RwLock) : Option RwLock :=
  if l.writer = true then none else some { l with readers := l.readers + 1 }

/-- Drop a read guard. -/
def unread (l : RwLock) : RwLock := { l with readers := l.readers - 1 }

/-- Take the write guard. `none` means that the thread waits. -/
def write? (l : RwLock) : Option RwLock :=
  if l.writer = true ∨ l.readers ≠ 0 then none else some { l with writer := true }

/-- Drop the write guard. -/
def unwrite (l : RwLock) : RwLock := { l with writer := false }

variable {θ : Type}

/-- The lock agrees with the threads, and a writer is alone. -/
structure Guarded (l : RwLock) (reads writes : θ → Bool) (threads : List θ) : Prop where
  readers : threads.countP reads = l.readers
  writers : threads.countP writes = l.writer.toNat
  exclusive : l.writer = true → l.readers = 0

variable {reads writes : θ → Bool} {l l' : RwLock} {threads : List θ} {i j : Nat} {t u t' : θ}

/-- The lock of a writer has one. -/
theorem Guarded.writer_of (h : l.Guarded reads writes threads) (hi : threads[i]? = some t)
    (ht : writes t = true) : l.writer = true := by
  have hpos := countP_pos_of hi ht
  rw [h.writers] at hpos
  cases hl : l.writer with
  | true => rfl
  | false => simp [hl] at hpos

/-- Beside a writer no thread reads. -/
theorem Guarded.excludes (h : l.Guarded reads writes threads) (hi : threads[i]? = some t)
    (ht : writes t = true) (hu : u ∈ threads) : reads u = false := by
  have hnone := h.exclusive (h.writer_of hi ht)
  have hzero := h.readers.trans hnone
  rw [List.countP_eq_zero] at hzero
  exact Bool.not_eq_true _ ▸ hzero u hu

/-- A lock with a writer has a thread that writes. -/
theorem Guarded.exists_writer (h : l.Guarded reads writes threads) (hl : l.writer = true) :
    ∃ t ∈ threads, writes t = true := by
  have hpos : 0 < threads.countP writes := by
    rw [h.writers, hl]
    decide
  exact List.countP_pos_iff.mp hpos

/-- A lock with readers has a thread that reads. -/
theorem Guarded.exists_reader (h : l.Guarded reads writes threads) (hl : l.readers ≠ 0) :
    ∃ t ∈ threads, reads t = true := by
  have hpos : 0 < threads.countP reads := by
    rw [h.readers]
    omega
  exact List.countP_pos_iff.mp hpos

/-- A thread that gets the lock for reading is one reader more. -/
theorem Guarded.read (h : l.Guarded reads writes threads) (hi : threads[i]? = some t)
    (ht : reads t = false) (ht' : reads t' = true) (hw : writes t' = writes t)
    (hl : l.read? = some l') : l'.Guarded reads writes (threads.set i t') := by
  have hreads := countP_set_add (p := reads) t' hi
  have hwrites := countP_set_add (p := writes) t' hi
  rw [ht, ht', h.readers, Bool.toNat_false, Bool.toNat_true] at hreads
  rw [hw, h.writers] at hwrites
  unfold read? at hl
  split at hl
  · cases hl
  · next hfree =>
    cases hl
    exact ⟨by simpa using hreads, Nat.add_right_cancel hwrites, fun hwriter =>
      absurd hwriter hfree⟩

/-- A reader that gives the lock back is one reader less. -/
theorem Guarded.unread (h : l.Guarded reads writes threads) (hi : threads[i]? = some t)
    (ht : reads t = true) (ht' : reads t' = false) (hw : writes t' = writes t) :
    l.unread.Guarded reads writes (threads.set i t') := by
  have hreads := countP_set_add (p := reads) t' hi
  have hwrites := countP_set_add (p := writes) t' hi
  rw [ht, ht', h.readers, Bool.toNat_false, Bool.toNat_true] at hreads
  rw [hw, h.writers] at hwrites
  refine ⟨?_, Nat.add_right_cancel hwrites, fun hwriter => ?_⟩
  · show _ = l.readers - 1
    omega
  · show l.readers - 1 = 0
    rw [h.exclusive hwriter]

/-- A thread that gets the lock for writing is the only one that holds it. -/
theorem Guarded.write (h : l.Guarded reads writes threads) (hi : threads[i]? = some t)
    (ht : writes t = false) (ht' : writes t' = true) (hr : reads t' = reads t)
    (hl : l.write? = some l') : l'.Guarded reads writes (threads.set i t') := by
  have hreads := countP_set_add (p := reads) t' hi
  have hwrites := countP_set_add (p := writes) t' hi
  rw [ht, ht', h.writers, Bool.toNat_false, Bool.toNat_true] at hwrites
  rw [hr, h.readers] at hreads
  unfold write? at hl
  split at hl
  · cases hl
  · next hfree =>
    cases hl
    simp only [not_or, Bool.not_eq_true, ne_eq, not_not] at hfree
    rw [hfree.1, Bool.toNat_false] at hwrites
    exact ⟨Nat.add_right_cancel hreads, by simpa using hwrites, fun _ => hfree.2⟩

/-- When the writer gives the lock back, no thread holds it. -/
theorem Guarded.unwrite (h : l.Guarded reads writes threads) (hi : threads[i]? = some t)
    (ht : writes t = true) (ht' : writes t' = false) (hr : reads t' = reads t) :
    l.unwrite.Guarded reads writes (threads.set i t') := by
  have hreads := countP_set_add (p := reads) t' hi
  have hwrites := countP_set_add (p := writes) t' hi
  rw [ht, ht', h.writers, h.writer_of hi ht, Bool.toNat_false, Bool.toNat_true] at hwrites
  rw [hr, h.readers] at hreads
  refine ⟨Nat.add_right_cancel hreads, ?_, nofun⟩
  show _ = 0
  omega

/-- A thread that changes but holds what it held before leaves the lock guarded. -/
theorem Guarded.keep (h : l.Guarded reads writes threads) (hi : threads[i]? = some t)
    (hr : reads t' = reads t) (hw : writes t' = writes t) :
    l.Guarded reads writes (threads.set i t') := by
  have hreads := countP_set_add (p := reads) t' hi
  have hwrites := countP_set_add (p := writes) t' hi
  rw [hr] at hreads
  rw [hw] at hwrites
  exact ⟨(Nat.add_right_cancel hreads).trans h.readers,
    (Nat.add_right_cancel hwrites).trans h.writers, h.exclusive⟩

/-- A new thread that holds nothing leaves the lock guarded. -/
theorem Guarded.append (h : l.Guarded reads writes threads) (hr : reads t = false)
    (hw : writes t = false) : l.Guarded reads writes (threads ++ [t]) :=
  ⟨by simpa [hr] using h.readers, by simpa [hw] using h.writers, h.exclusive⟩

end RwLock

end Locks
