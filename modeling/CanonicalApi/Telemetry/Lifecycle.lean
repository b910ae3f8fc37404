import CanonicalApi.Telemetry.Invariants
import Mathlib.Algebra.GroupWithZero.Nat

/-!
# `CanonicalApi.Telemetry.Lifecycle`: the logger while guards are live

`telemetry_lifecycle` is the lifecycle of the logger over all runs. No emission writes to a
closed logger. While a guard is live the logger in the slot stays there open, and at most one
logger is built. The count never underflows.

A closure runs at most once, and exactly once in an emission that is over. An emission goes
round its loop again only after a retirement. It cannot wait forever either: `remaining`
bounds the moves that the threads have left without new calls and drops, and as long as a
thread is not `settled`, some thread can move.
-/

set_option autoImplicit false

namespace CanonicalApi

open Transition (System)
open Locks (Mutex RwLock)

namespace Telemetry

variable {usizeMax : Nat}

/-- Some guard is live. -/
def Live (s : Process) : Prop := ∃ t ∈ s.threads, t.stage.live = true

/-- `s'` comes after `s` with a live guard in every state from `s` on. -/
def StepsLive (usizeMax : Nat) : Process → Process → Prop :=
  Relation.ReflTransGen fun s s' => Live s ∧ Live s' ∧ ∃ a, next usizeMax s a = some s'

/-- The stages in which a thread is done or keeps its guard. -/
def Stage.settled : Stage → Bool
  | .overflow | .logged | .guard | .ended => true
  | _ => false

/-- A guard is live exactly while the count is not zero. -/
theorem Sound.live_iff {s : Process} (hs : Sound s) : Live s ↔ s.telemetry.active ≠ 0 := by
  rw [← hs.active, ← Nat.pos_iff_ne_zero, List.countP_pos_iff]
  rfl

/-! ## The logger while a guard is live -/

/-- A step with a live guard before or after it leaves the slot as it is or fills it. -/
theorem Sound.logger_step {s s' : Process} {a : Action} (hs : Sound s)
    (h : Step usizeMax s a s') (hlive : Live s ∨ Live s') :
    s'.telemetry.logger = s.telemetry.logger ∧ s'.telemetry.builds = s.telemetry.builds ∨
      s.telemetry.logger = none ∧ s'.telemetry.logger = some s.telemetry.builds ∧
        s'.telemetry.builds = s.telemetry.builds + 1 := by
  have hs' := hs.step h
  cases h with
  | init | logRpcError | dropGuard => exact .inl ⟨rfl, rfl⟩
  | @advance i t t' telemetry ht hmove =>
    cases hmove with
    | insert hstage =>
      rcases getOrInsert_logger (s := s.telemetry) with ⟨hsame, hbuilds, -⟩ | hnew
      · exact .inl ⟨hsame, hbuilds⟩
      · exact .inr hnew
    | take hstage =>
      -- The thread holds the mutex with the count at zero.
      have hzero : s.telemetry.active = 0 := (hs.threads ht).retiring (by rw [hstage]; rfl)
      rcases hlive with hlive | hlive
      · exact absurd hzero (hs.live_iff.mp hlive)
      · exact absurd hzero (hs'.live_iff.mp hlive)
    | _ => exact .inl ⟨rfl, rfl⟩

/-- With a live guard in every state at most one logger is built, and the slot must be empty
for it. -/
theorem Sound.logger_steps {s s' : Process} (hs : Sound s) (h : StepsLive usizeMax s s') :
    Sound s' ∧
      (s'.telemetry.logger = s.telemetry.logger ∧ s'.telemetry.builds = s.telemetry.builds ∨
        s.telemetry.logger = none ∧ s'.telemetry.logger ≠ none ∧
          s'.telemetry.builds = s.telemetry.builds + 1) := by
  induction h with
  | refl => exact ⟨hs, .inl ⟨rfl, rfl⟩⟩
  | @tail s₁ s₂ _ hlast ih =>
    obtain ⟨hs₁, ih⟩ := ih
    obtain ⟨hlive, -, a, ha⟩ := hlast
    have hstep := step_of_next ha
    refine ⟨hs₁.step hstep, ?_⟩
    rcases hs₁.logger_step hstep (.inl hlive) with ⟨hlogger, hbuilds⟩ | ⟨hnone, hnew, hbuilds⟩
    · rw [hlogger, hbuilds]
      exact ih
    · rcases ih with ⟨hlogger, hsame⟩ | ⟨-, hsome, -⟩
      · rw [hnew, hbuilds, ← hlogger, hsame]
        exact .inr ⟨hnone, nofun, rfl⟩
      · exact absurd hnone hsome

/-! ## Every emission comes to its end -/

/-- A bound on the moves that a thread has left while no other thread empties the slot. `n` is
the number of threads: a thread that empties the slot makes each of them go round once more. -/
def Stage.remaining (n : Nat) (empty : Bool) : Stage → Nat
  | .lock => 9
  | .register => 8
  | .logging _ .read => if empty = true then 7 else 3
  | .logging _ .found => if empty = true then 6 else 2
  | .logging _ .build => 5
  | .logging _ .insert => 4
  | .logging _ (.emitting _) => 1
  | .drop => 5 + 4 * n
  | .release => 4 + 4 * n
  | .retire => 3 + 4 * n
  | .take => 2 + 4 * n
  | .close _ => 1
  | .overflow | .logged | .guard | .underflow | .ended | .logging _ .broken => 0

/-- A bound on the moves that all threads have left. -/
def remaining (s : Process) : Nat :=
  (s.threads.map fun t =>
    t.stage.remaining s.threads.length s.telemetry.logger.isNone).sum

/-- A full slot leaves a thread no more to do. -/
theorem remaining_full_le (n : Nat) (empty : Bool) (stage : Stage) :
    stage.remaining n false ≤ stage.remaining n empty := by
  unfold Stage.remaining
  cases empty <;> split <;> simp

/-- An emptied slot leaves a thread at most four moves more. -/
theorem remaining_le_add (n : Nat) (empty empty' : Bool) (stage : Stage) :
    stage.remaining n empty ≤ stage.remaining n empty' + 4 := by
  unfold Stage.remaining
  cases empty <;> cases empty' <;> split <;> simp

/-- A move of a thread leaves less to do, also when the slot is emptied. -/
theorem Advance.remaining_lt {s s' : Telemetry} {t t' : Thread} (n : Nat)
    (h : Advance usizeMax s t s' t') :
    ∃ k, (∀ stage : Stage,
        stage.remaining n s'.logger.isNone ≤ stage.remaining n s.logger.isNone + k) ∧
      t'.stage.remaining n s'.logger.isNone + k * n < t.stage.remaining n s.logger.isNone := by
  cases h with
  -- The slot is full afterwards, which costs no thread more.
  | insert hstage =>
    have hsome : s.getOrInsert.logger.isNone = false := by
      rw [← Option.not_isSome, getOrInsert_isSome]
      rfl
    refine ⟨0, fun stage => ?_, ?_⟩
    · show stage.remaining n s.getOrInsert.logger.isNone ≤ _
      rw [hsome]
      exact remaining_full_le n _ stage
    · show (Stage.remaining n s.getOrInsert.logger.isNone _) + 0 * n < _
      rw [hsome, hstage]
      simp [Stage.remaining]
  -- An empty slot costs every thread up to four more steps, which the steps of the taker outweigh.
  | take hstage =>
    refine ⟨4, fun stage => remaining_le_add n _ _ stage, ?_⟩
    rw [hstage]
    simp only [Stage.remaining]
    omega
  | @emitted caller logger hstage =>
    refine ⟨0, fun stage => Nat.le_add_right _ _, ?_⟩
    rw [hstage]
    cases caller <;> simp [Stage.remaining, Caller.resume]
  | register hstage | read hstage =>
    refine ⟨0, fun stage => Nat.le_add_right _ _, ?_⟩
    cases s.logger.isNone <;> simp [hstage, Stage.remaining]
  | emit hstage hlogger | broken hstage hlogger | empty hstage hlogger =>
    refine ⟨0, fun stage => Nat.le_add_right _ _, ?_⟩
    simp [hstage, hlogger, Stage.remaining]
  | close hstage =>
    refine ⟨0, fun stage => Nat.le_add_right _ _, ?_⟩
    simp [hstage, Stage.remaining]
  | lock hstage | overflow hstage | build hstage | drop hstage | underflow hstage | last hstage
  | shared hstage | retire hstage =>
    refine ⟨0, fun stage => Nat.le_add_right _ _, ?_⟩
    rw [hstage]
    simp only [Stage.remaining]
    omega

/-- A move leaves less to do. -/
theorem remaining_lt {s s' : Process} {i : Nat} (h : next usizeMax s (.advance i) = some s') :
    remaining s' < remaining s ∧ s'.threads.length = s.threads.length := by
  cases step_of_next h with
  | @advance _ t t' telemetry ht hmove =>
    obtain ⟨k, hothers, hlt⟩ := hmove.remaining_lt s.threads.length
    have hsum := Locks.sum_set_add_le
      (fun u : Thread => u.stage.remaining s.threads.length s.telemetry.logger.isNone)
      (fun u : Thread => u.stage.remaining s.threads.length telemetry.logger.isNone)
      t' ht fun u _ => hothers u.stage
    refine ⟨?_, List.length_set⟩
    simp only [remaining, List.length_set]
    omega

/-- The threads can make at most `remaining` moves without new calls and drops. -/
theorem length_add_remaining_le {s s' : Process} {is : List Nat}
    (h : System.run (next usizeMax) s (is.map .advance) = some s') :
    is.length + remaining s' ≤ remaining s := by
  induction is generalizing s with
  | nil =>
    cases h
    exact Nat.le_of_eq (Nat.zero_add _)
  | cons i is ih =>
    rw [List.map_cons, System.run, Option.bind_eq_some_iff] at h
    obtain ⟨s₁, hfirst, hrest⟩ := h
    have hlt := (remaining_lt hfirst).1
    have hle := ih hrest
    rw [List.length_cons]
    omega

/-- A thread with a guard of the slot can move. -/
theorem advance_of_slot {s : Telemetry} {t : Thread}
    (h : t.stage.reads = true ∨ t.stage.writes = true) :
    (s.advance usizeMax t).isSome = true := by
  unfold advance
  cases hstage : t.stage with
  | logging caller place =>
    cases place with
    | found =>
      simp only [withOresLogger]
      split
      · split <;> rfl
      · rfl
    | emitting | insert => rfl
    | read | broken | build => simp [hstage, Stage.reads, Stage.writes] at h
  | take => rfl
  | lock | register | overflow | logged | guard | drop | release | underflow | retire | close
  | ended => simp [hstage, Stage.reads, Stage.writes] at h

/-- With the slot free, a thread with the guard of the mutex can move. -/
theorem advance_of_lifecycle {s : Telemetry} {t : Thread} (hslot : s.slot = ⟨0, false⟩)
    (h : t.stage.holds = true) : (s.advance usizeMax t).isSome = true := by
  unfold advance
  cases hstage : t.stage with
  | retire => simp [hslot, RwLock.write?]
  | register | release | take | close => rfl
  | lock | overflow | logging | logged | guard | drop | underflow | ended =>
    simp [hstage, Stage.holds] at h

/-- With both locks free, a thread that is not settled can move. -/
theorem advance_of_free {s : Telemetry} {t : Thread} (ht : Fits s t)
    (hslot : s.slot = ⟨0, false⟩) (hlifecycle : s.lifecycle = ⟨false⟩)
    (h : t.stage.settled = false) : (s.advance usizeMax t).isSome = true := by
  unfold advance
  cases hstage : t.stage with
  | logging caller place =>
    cases place with
    | read => simp [withOresLogger, hslot, RwLock.read?]
    | build => simp [withOresLogger, hslot, RwLock.write?]
    | broken => exact absurd hstage ht.unbroken
    | found | emitting | insert =>
      have hmoves : (s.advance usizeMax t).isSome = true :=
        advance_of_slot (by simp [hstage, Stage.reads, Stage.writes])
      simpa [advance, hstage] using hmoves
  | lock | drop => simp [hlifecycle, Mutex.lock?]
  | retire => simp [hslot, RwLock.write?]
  | register | release | take | close => rfl
  | underflow => exact absurd hstage ht.counted
  | overflow | logged | guard | ended => simp [hstage, Stage.settled] at h

/-- As long as a thread is not settled, some thread can move. -/
theorem Sound.exists_step {s : Process} (hs : Sound s) {t : Thread} (ht : t ∈ s.threads)
    (hunsettled : t.stage.settled = false) :
    ∃ i s', next usizeMax s (.advance i) = some s' := by
  have hmoves : ∀ u ∈ s.threads, (s.telemetry.advance usizeMax u).isSome = true →
      ∃ i s', next usizeMax s (.advance i) = some s' := by
    intro u hu hsome
    obtain ⟨i, hi⟩ := List.mem_iff_getElem?.mp hu
    obtain ⟨p, hp⟩ := Option.isSome_iff_exists.mp hsome
    exact ⟨i, ⟨p.1, s.threads.set i p.2⟩, by simp [next, hi, hp]⟩
  cases hwriter : s.telemetry.slot.writer with
  -- Who holds a lock can always move on.
  | true =>
    obtain ⟨u, hu, hwrites⟩ := hs.slot.exists_writer hwriter
    exact hmoves u hu (advance_of_slot (.inr hwrites))
  | false =>
    by_cases hreaders : s.telemetry.slot.readers = 0
    · -- No thread reads or writes the slot.
      have hslot : s.telemetry.slot = ⟨0, false⟩ := by
        rw [← hreaders, ← hwriter]
      cases hlocked : s.telemetry.lifecycle.locked with
      | true =>
        obtain ⟨u, hu, hholds⟩ := hs.lifecycle.holder hlocked
        exact hmoves u hu (advance_of_lifecycle hslot hholds)
      | false =>
        have hlifecycle : s.telemetry.lifecycle = ⟨false⟩ := by
          rw [← hlocked]
        obtain ⟨i, hi⟩ := List.mem_iff_getElem?.mp ht
        exact hmoves t ht (advance_of_free (hs.threads hi) hslot hlifecycle hunsettled)
    · obtain ⟨u, hu, hreads⟩ := hs.slot.exists_reader hreaders
      exact hmoves u hu (advance_of_slot (.inl hreads))

/-- A closure that is called at most once, and exactly once in an emission that is over. -/
theorem Fits.once {s : Telemetry} {t : Thread} (ht : Fits s t) :
    t.runs ≤ 1 ∧ (t.stage.ran = true → t.runs = 1) := by
  rw [ht.runs]
  refine ⟨Bool.toNat_le _, fun hran => ?_⟩
  rw [hran]
  rfl

end Telemetry

open Telemetry in
/-- The lifecycle of the telemetry, in every state of every run and whatever `usize::MAX` is.
No emission writes to a closed logger. A step with a live guard before or after it takes no
logger out of the slot and closes none in it, and along steps with a live guard in every state
at most one logger is built. No drop of a guard finds the count at zero. A closure runs at
most once, exactly once in an emission that is over, and each further round of an emission has
its own retirement. The threads come to an end: without new calls and drops they make at most
`remaining` moves, and then each has returned or keeps its guard. -/
theorem telemetry_lifecycle (usizeMax : Nat) {s : Process}
    (hs : (system usizeMax).Reachable s) :
    (∀ t ∈ s.threads, ∀ caller logger, t.stage = .logging caller (.emitting logger) →
      logger ∉ s.telemetry.closed) ∧
    (∀ a s', next usizeMax s a = some s' → Live s ∨ Live s' →
      ∀ logger, s.telemetry.logger = some logger →
        s'.telemetry.logger = some logger ∧ logger ∉ s'.telemetry.closed) ∧
    (∀ s', StepsLive usizeMax s s' → s'.telemetry.builds ≤ s.telemetry.builds + 1) ∧
    (∀ t ∈ s.threads, t.stage ≠ .underflow) ∧
    (∀ t ∈ s.threads, (∀ caller, t.stage ≠ .logging caller .broken) ∧ t.runs ≤ 1 ∧
      (t.stage.ran = true → t.runs = 1) ∧ t.rounds ≤ s.telemetry.retirements + 1) ∧
    ∀ (is : List Nat) s', System.run (next usizeMax) s (is.map .advance) = some s' →
      is.length ≤ remaining s ∧
        ((∀ i, next usizeMax s' (.advance i) = none) →
          ∀ t ∈ s'.threads, t.stage.settled = true) := by
  have hsound := sound_of_reachable hs
  -- What the invariant says of a thread, by membership in place of its index.
  have hfits : ∀ t ∈ s.threads, Fits s.telemetry t := by
    intro t ht
    obtain ⟨i, hi⟩ := List.mem_iff_getElem?.mp ht
    exact hsound.threads hi
  refine ⟨fun t ht caller logger hstage => ?_, fun a s' ha hlive logger hlogger => ?_,
    fun s' hsteps => ?_, fun t ht => (hfits t ht).counted, fun t ht => ?_,
    fun is s' hrun => ⟨?_, fun hstuck t ht => ?_⟩⟩
  · exact (hsound.logger ((hfits t ht).emitting hstage)).2
  · have hstep := step_of_next ha
    rcases hsound.logger_step hstep hlive with ⟨hsame, -⟩ | ⟨hnone, -⟩
    · have hlogger' := hsame.trans hlogger
      exact ⟨hlogger', ((hsound.step hstep).logger hlogger').2⟩
    · rw [hlogger] at hnone
      cases hnone
  · rcases (hsound.logger_steps hsteps).2 with ⟨-, hbuilds⟩ | ⟨-, -, hbuilds⟩ <;> omega
  · have hrounds := (hfits t ht).rounds
    have hle := Bool.toNat_le s.telemetry.logger.isSome
    exact ⟨fun _ => (hfits t ht).unbroken, (hfits t ht).once.1, (hfits t ht).once.2, by omega⟩
  · have hle := length_add_remaining_le hrun
    omega
  · have hs' : (system usizeMax).Reachable s' := System.reachable_of_run_from _ hs hrun
    by_contra hunsettled
    -- A thread that has not settled, or one that it waits for, can move.
    obtain ⟨i, s'', hi⟩ : ∃ i s'', next usizeMax s' (.advance i) = some s'' :=
      (sound_of_reachable hs').exists_step ht (Bool.not_eq_true _ ▸ hunsettled)
    rw [hstuck i] at hi
    cases hi

open Telemetry in
/-- One `init`, an RPC error, and the drop of the guard while the error is being written. -/
def testRetirement : List Action :=
  [.init, .advance 0, .advance 0, .logRpcError, .advance 0, .advance 0, .advance 0, .advance 0,
    .advance 0, .advance 0, .advance 0, .advance 1, .advance 1, .dropGuard 0, .advance 0,
    .advance 0]

/-- While the last guard is being dropped, an emission that holds the read guard is not over:
the drop waits for it. -/
theorem telemetry_lifecycle_test :
    ∃ s, (Telemetry.system (2 ^ 64 - 1)).Reachable s ∧
      (∀ t ∈ s.threads, ∀ caller logger,
        t.stage = .logging caller (.emitting logger) → logger ∉ s.telemetry.closed) ∧
      s.threads.map (·.stage) = [.retire, .logging .logRpcError (.emitting 0)] := by
  have hrun : ∃ s, (Telemetry.system (2 ^ 64 - 1)).Reachable s ∧
      decide (s.threads.map (·.stage) =
        [.retire, .logging .logRpcError (.emitting 0)]) = true :=
    System.exists_reachable_of_run testRetirement
      (fun (s : Telemetry.Process) => decide (s.threads.map (·.stage) =
        [.retire, .logging .logRpcError (.emitting 0)])) (by decide)
  obtain ⟨s, hs, hstages⟩ := hrun
  exact ⟨s, hs, (telemetry_lifecycle _ hs).1, of_decide_eq_true hstages⟩

end CanonicalApi
