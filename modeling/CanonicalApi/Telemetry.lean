import CanonicalApi.Lib.Locks
import CanonicalApi.Lib.Transition

/-!
# `CanonicalApi.Telemetry`: the lifecycle of the logger

The logger of the process sits in a slot behind a reader-writer lock. An emission holds the
read guard while it writes; it builds a logger under the write guard when the slot is empty.
The live telemetry guards are counted under the lifecycle mutex, and the last guard that is
dropped empties the slot and closes the logger with the mutex still held.

A thread calls `init` and keeps the guard until it drops it, or it calls `log_rpc_error`. It
moves from one acquisition or release of a lock to the next, and any thread may move in
between. A thread whose lock is taken does not move. A lock is released when its guard is
dropped, also by a panic, and a poisoned lock is recovered. So a panic of the closure moves
a thread like its return, after which the guard of `init` may be dropped.

The loggers are numbered in the order in which they are built. Beside the state of the source,
`retirements` counts the loggers that were taken out, and a thread counts how often it has run
its closure and how often it has gone round the loop.
-/

set_option autoImplicit false

namespace CanonicalApi

open Transition (System)
open Locks (Mutex RwLock)

/-- `ORES_LOGGER`, `ACTIVE_TELEMETRY_GUARDS` and `LOGGER_BUILDS`, each with its lock, and the
loggers that are closed. -/
structure Telemetry where
  slot : RwLock := ⟨0, false⟩
  logger : Option Nat := none
  lifecycle : Mutex := ⟨false⟩
  active : Nat := 0
  builds : Nat := 0
  closed : List Nat := []
  retirements : Nat := 0
deriving DecidableEq, Repr

namespace Telemetry

/-- Where a thread is in `with_ores_logger`. It looks for a logger under the read lock, and without
one it builds one under the write lock and looks again. -/
inductive Lookup where
  | read
  | found
  | emitting (logger : Nat)
  | broken
  | build
  | insert
deriving DecidableEq, Repr

/-- Who has called `with_ores_logger`. -/
inductive Caller where
  | init
  | logRpcError
deriving DecidableEq, Repr

/-- Where a thread is. `init` goes from `lock` to `guard`, and the drop of its guard from
`drop` to `ended`. -/
inductive Stage where
  | lock
  | register
  | overflow
  | logging (caller : Caller) (place : Lookup)
  | logged
  | guard
  | drop
  | release
  | underflow
  | retire
  | take
  | close (retired : Option Nat)
  | ended
deriving DecidableEq, Repr

/-- A thread. `emit` says that the closure is still in the `Option` of `with_ores_logger`. -/
structure Thread where
  stage : Stage
  emit : Bool := true
  runs : Nat := 0
  rounds : Nat := 0
deriving DecidableEq, Repr

/-- Where a caller goes on after its emission. -/
def Caller.resume : Caller → Stage
  | .init => .guard
  | .logRpcError => .logged

/-- `get_or_insert_with(|| Arc::new(build_logger()))`. -/
def getOrInsert (s : Telemetry) : Telemetry :=
  match s.logger with
  | some _ => s
  | none => { s with logger := some s.builds, builds := s.builds + 1 }

/-- `with_ores_logger`. The closure is run at most once: it is taken out of its option, and a second
attempt would end at the `expect`. Building goes around the loop once more. -/
def withOresLogger (s : Telemetry) (t : Thread) (caller : Caller) :
    Lookup → Option (Telemetry × Thread)
  | .read => s.slot.read?.map fun slot =>
      ({ s with slot }, { t with stage := .logging caller .found })
  | .found =>
      match s.logger with
      | some logger =>
          if t.emit = true then
            some (s, { t with
              stage := .logging caller (.emitting logger), emit := false, runs := t.runs + 1 })
          else
            -- `expect("emit runs exactly once")`
            some ({ s with slot := s.slot.unread },
              { t with stage := .logging caller .broken })
      | none =>
          some ({ s with slot := s.slot.unread }, { t with stage := .logging caller .build })
  | .emitting _ => some ({ s with slot := s.slot.unread }, { t with stage := caller.resume })
  | .broken => none
  | .build => s.slot.write?.map fun slot =>
      ({ s with slot }, { t with stage := .logging caller .insert })
  | .insert =>
      some ({ s.getOrInsert with slot := s.slot.unwrite },
        { t with stage := .logging caller .read, rounds := t.rounds + 1 })

/-- `begin_telemetry_lifetime` under the mutex, with `checked_add`. -/
def register (usizeMax : Nat) (s : Telemetry) (t : Thread) : Telemetry × Thread :=
  if s.active < usizeMax then
    ({ s with active := s.active + 1, lifecycle := s.lifecycle.unlock },
      { t with stage := .logging .init .read })
  else
    ({ s with lifecycle := s.lifecycle.unlock }, { t with stage := .overflow })

/-- `end_telemetry_lifetime` under the mutex. Only the last guard keeps the mutex, until it has
taken the logger out of its slot. -/
def release (s : Telemetry) (t : Thread) : Telemetry × Thread :=
  if s.active = 0 then
    ({ s with lifecycle := s.lifecycle.unlock }, { t with stage := .underflow })
  else if s.active - 1 = 0 then
    ({ s with active := s.active - 1 }, { t with stage := .retire })
  else
    ({ s with active := s.active - 1, lifecycle := s.lifecycle.unlock },
      { t with stage := .ended })

/-- `retire_logger` under the write guard: take the logger out. -/
def take (s : Telemetry) (t : Thread) : Telemetry × Thread :=
  ({ s with
      logger := none, slot := s.slot.unwrite,
      retirements := s.retirements + s.logger.isSome.toNat },
    { t with stage := .close s.logger })

/-- The end of `retire_logger` after the write guard: close the logger that was taken out. The
mutex is released after it. -/
def close (s : Telemetry) (t : Thread) (retired : Option Nat) : Telemetry × Thread :=
  ({ s with closed := retired.toList ++ s.closed, lifecycle := s.lifecycle.unlock },
    { t with stage := .ended })

/-- A thread moves on. `none` means that it waits for a lock, keeps its guard or is done. Between
two moves any other thread may move. -/
def advance (usizeMax : Nat) (s : Telemetry) (t : Thread) : Option (Telemetry × Thread) :=
  match t.stage with
  | .lock => s.lifecycle.lock?.map fun lifecycle =>
      ({ s with lifecycle }, { t with stage := .register })
  | .register => some (s.register usizeMax t)
  | .logging caller place => s.withOresLogger t caller place
  | .drop => s.lifecycle.lock?.map fun lifecycle =>
      ({ s with lifecycle }, { t with stage := .release })
  | .release => some (s.release t)
  | .retire => s.slot.write?.map fun slot => ({ s with slot }, { t with stage := .take })
  | .take => some (s.take t)
  | .close retired => some (s.close t retired)
  | .overflow | .logged | .guard | .underflow | .ended => none

/-- The telemetry and its threads. -/
structure Process where
  telemetry : Telemetry := {}
  threads : List Thread := []
deriving DecidableEq, Repr

/-- A call of `init` or of `log_rpc_error`, the drop of the guard that the thread `i` keeps,
or a move of the thread `i`. -/
inductive Action where
  | init
  | logRpcError
  | dropGuard (i : Nat)
  | advance (i : Nat)
deriving DecidableEq, Repr

/-- The step function: a thread starts, drops its guard or moves on. -/
def next (usizeMax : Nat) (s : Process) : Action → Option Process
  | .init => some { s with threads := s.threads ++ [{ stage := .lock }] }
  | .logRpcError =>
      some { s with threads := s.threads ++ [{ stage := .logging .logRpcError .read }] }
  | .dropGuard i =>
      match s.threads[i]? with
      | some t =>
          if t.stage = .guard then
            some { s with threads := s.threads.set i { t with stage := .drop } }
          else none
      | none => none
  | .advance i =>
      match s.threads[i]? with
      | some t =>
          (s.telemetry.advance usizeMax t).map fun p => ⟨p.1, s.threads.set i p.2⟩
      | none => none

/-- The transition system of the process. -/
def system (usizeMax : Nat) : System Process Action := System.ofFun {} (next usizeMax)

/-! ## What a step does -/

/-- What the move of a thread does, with one constructor for each way on. Every move is one of
these, by `advance_cases`. -/
inductive Advance (usizeMax : Nat) (s : Telemetry) (t : Thread) : Telemetry → Thread → Prop where
  | lock {m : Mutex} : t.stage = .lock → s.lifecycle.lock? = some m →
      Advance usizeMax s t { s with lifecycle := m } { t with stage := .register }
  | register : t.stage = .register → s.active < usizeMax →
      Advance usizeMax s t
        { s with active := s.active + 1, lifecycle := s.lifecycle.unlock }
        { t with stage := .logging .init .read }
  | overflow : t.stage = .register → usizeMax ≤ s.active →
      Advance usizeMax s t { s with lifecycle := s.lifecycle.unlock }
        { t with stage := .overflow }
  | read {caller : Caller} {l : RwLock} : t.stage = .logging caller .read →
      s.slot.read? = some l →
      Advance usizeMax s t { s with slot := l } { t with stage := .logging caller .found }
  | emit {caller : Caller} {logger : Nat} : t.stage = .logging caller .found →
      s.logger = some logger → t.emit = true →
      Advance usizeMax s t s
        { t with stage := .logging caller (.emitting logger), emit := false, runs := t.runs + 1 }
  | broken {caller : Caller} {logger : Nat} : t.stage = .logging caller .found →
      s.logger = some logger → t.emit = false →
      Advance usizeMax s t { s with slot := s.slot.unread }
        { t with stage := .logging caller .broken }
  | empty {caller : Caller} : t.stage = .logging caller .found → s.logger = none →
      Advance usizeMax s t { s with slot := s.slot.unread }
        { t with stage := .logging caller .build }
  | emitted {caller : Caller} {logger : Nat} : t.stage = .logging caller (.emitting logger) →
      Advance usizeMax s t { s with slot := s.slot.unread } { t with stage := caller.resume }
  | build {caller : Caller} {l : RwLock} : t.stage = .logging caller .build →
      s.slot.write? = some l →
      Advance usizeMax s t { s with slot := l } { t with stage := .logging caller .insert }
  | insert {caller : Caller} : t.stage = .logging caller .insert →
      Advance usizeMax s t { s.getOrInsert with slot := s.slot.unwrite }
        { t with stage := .logging caller .read, rounds := t.rounds + 1 }
  | drop {m : Mutex} : t.stage = .drop → s.lifecycle.lock? = some m →
      Advance usizeMax s t { s with lifecycle := m } { t with stage := .release }
  | underflow : t.stage = .release → s.active = 0 →
      Advance usizeMax s t { s with lifecycle := s.lifecycle.unlock }
        { t with stage := .underflow }
  | last : t.stage = .release → s.active = 1 →
      Advance usizeMax s t { s with active := 0 } { t with stage := .retire }
  | shared : t.stage = .release → 1 < s.active →
      Advance usizeMax s t
        { s with active := s.active - 1, lifecycle := s.lifecycle.unlock }
        { t with stage := .ended }
  | retire {l : RwLock} : t.stage = .retire → s.slot.write? = some l →
      Advance usizeMax s t { s with slot := l } { t with stage := .take }
  | take : t.stage = .take →
      Advance usizeMax s t (s.take t).1 { t with stage := .close s.logger }
  | close {retired : Option Nat} : t.stage = .close retired →
      Advance usizeMax s t (s.close t retired).1 { t with stage := .ended }

section

variable {usizeMax : Nat}

/-- `with_ores_logger` makes these moves. -/
theorem withOresLogger_cases {s s' : Telemetry} {t t' : Thread} {caller : Caller}
    {place : Lookup} (hstage : t.stage = .logging caller place)
    (h : s.withOresLogger t caller place = some (s', t')) : Advance usizeMax s t s' t' := by
  cases place with
  | read =>
    obtain ⟨l, hl, heq⟩ := Option.map_eq_some_iff.mp h
    cases heq
    exact .read hstage hl
  | found =>
    simp only [withOresLogger] at h
    split at h
    · next logger hlogger =>
      split at h
      · next hemit =>
        cases h
        exact .emit hstage hlogger hemit
      · next hemit =>
        cases h
        exact .broken hstage hlogger (Bool.not_eq_true _ ▸ hemit)
    · next hlogger =>
      cases h
      exact .empty hstage hlogger
  | emitting logger =>
    cases h
    exact .emitted hstage
  | broken => cases h
  | build =>
    obtain ⟨l, hl, heq⟩ := Option.map_eq_some_iff.mp h
    cases heq
    exact .build hstage hl
  | insert =>
    cases h
    exact .insert hstage

/-- A thread makes these moves. -/
theorem advance_cases {s s' : Telemetry} {t t' : Thread}
    (h : s.advance usizeMax t = some (s', t')) : Advance usizeMax s t s' t' := by
  unfold advance at h
  cases hstage : t.stage with
  -- The stages in the order in which a thread goes through them.
  | lock =>
    rw [hstage] at h
    obtain ⟨m, hm, heq⟩ := Option.map_eq_some_iff.mp h
    cases heq
    exact .lock hstage hm
  | register =>
    simp only [hstage, register, Option.some.injEq] at h
    split at h
    · next hlt =>
      cases h
      exact .register hstage hlt
    · next hge =>
      cases h
      exact .overflow hstage (Nat.le_of_not_lt hge)
  | logging caller place =>
    rw [hstage] at h
    exact withOresLogger_cases hstage h
  | drop =>
    rw [hstage] at h
    obtain ⟨m, hm, heq⟩ := Option.map_eq_some_iff.mp h
    cases heq
    exact .drop hstage hm
  -- The count is checked before it is decremented, and the last guard retires the logger.
  | release =>
    simp only [hstage, release, Option.some.injEq] at h
    split at h
    · next hzero =>
      cases h
      exact .underflow hstage hzero
    · next hpos =>
      split at h
      · next hone =>
        rw [hone] at h
        cases h
        exact .last hstage (by omega)
      · next hmore =>
        cases h
        exact .shared hstage (by omega)
  | retire =>
    rw [hstage] at h
    obtain ⟨l, hl, heq⟩ := Option.map_eq_some_iff.mp h
    cases heq
    exact .retire hstage hl
  | take =>
    rw [hstage] at h
    cases h
    exact .take hstage
  | close retired =>
    rw [hstage] at h
    cases h
    exact .close hstage
  | overflow | logged | guard | underflow | ended => simp [hstage] at h

/-- What a step does. It is the inversion of the step function. -/
inductive Step (usizeMax : Nat) (s : Process) : Action → Process → Prop where
  | init : Step usizeMax s .init { s with threads := s.threads ++ [{ stage := .lock }] }
  | logRpcError :
      Step usizeMax s .logRpcError
        { s with threads := s.threads ++ [{ stage := .logging .logRpcError .read }] }
  | dropGuard {i : Nat} {t : Thread} : s.threads[i]? = some t → t.stage = .guard →
      Step usizeMax s (.dropGuard i)
        { s with threads := s.threads.set i { t with stage := .drop } }
  | advance {i : Nat} {t t' : Thread} {telemetry : Telemetry} : s.threads[i]? = some t →
      Advance usizeMax s.telemetry t telemetry t' →
      Step usizeMax s (.advance i) ⟨telemetry, s.threads.set i t'⟩

/-- The step function makes these steps. -/
theorem step_of_next {s s' : Process} {a : Action} (h : next usizeMax s a = some s') :
    Step usizeMax s a s' := by
  cases a with
  | init =>
    cases h
    exact .init
  | logRpcError =>
    cases h
    exact .logRpcError
  | dropGuard i =>
    simp only [next] at h
    split at h
    · next t ht =>
      split at h
      · next hguard =>
        cases h
        exact .dropGuard ht hguard
      · cases h
    · cases h
  | advance i =>
    simp only [next] at h
    split at h
    · next t ht =>
      obtain ⟨p, hp, heq⟩ := Option.map_eq_some_iff.mp h
      cases heq
      exact .advance ht (advance_cases hp)
    · cases h

end

end Telemetry

end CanonicalApi
