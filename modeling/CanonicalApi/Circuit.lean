import CanonicalApi.Gemini
import CanonicalApi.Lib.Tasks

/-!
# `CanonicalApi.Circuit`: the circuit breaker in front of the model

The calls of `GeminiClient::analyze` as tasks on one `CircuitState`. Each of `before_request`,
`record_success` and `record_failure` reads the clock and changes the state under one lock and
without an await point, so a poll runs one of them. Between two polls of a call any other call
may move, and a call can be dropped. Times are readings of the monotonic clock in nanoseconds.

A run records each operation with the state that it found. `failuresSince` reads the failures
after the last reset off this history, and `Records` says that the two fields of the state are
functions of it. `circuit_open_iff` is the characterization over all runs.
-/

set_option autoImplicit false

namespace CanonicalApi

open Transition (System)

/-- `CIRCUIT_FAILURE_THRESHOLD`. -/
def circuitFailureThreshold : Nat := 5

/-- `CIRCUIT_OPEN_FOR`: 30 seconds. -/
def circuitOpenFor : Nat := 30 * 1000000000

/-- `u32::MAX`. -/
def u32Max : Nat := 4294967295

/-- `CircuitState`. -/
structure CircuitState where
  failures : Nat
  openUntil : Option Nat
deriving DecidableEq, Repr

/-- `CircuitState::default`. -/
def CircuitState.closed : CircuitState := ⟨0, none⟩

/-- `before_request`, at the time `now`, with the circuit after it. The circuit closes by itself at
the end of the open time, and its count of failures starts again then. -/
def beforeRequest (circuit : CircuitState) (now : Nat) :
    Except GeminiError Unit × CircuitState :=
  match circuit.openUntil with
  | some openUntil =>
      if now < openUntil then (.error .circuitOpen, circuit)
      else (.ok (), { circuit with failures := 0, openUntil := none })
  | none => (.ok (), circuit)

/-- `record_success`. -/
def recordSuccess (circuit : CircuitState) : CircuitState :=
  { circuit with failures := 0, openUntil := none }

/-- `record_failure`, at the time `now`. The counter saturates. -/
def recordFailure (circuit : CircuitState) (now : Nat) : CircuitState :=
  let failures := min (circuit.failures + 1) u32Max
  if failures ≥ circuitFailureThreshold then
    { circuit with failures := failures, openUntil := some (now + circuitOpenFor) }
  else { circuit with failures := failures }

/-! ### The calls -/

/-- A call of `analyze` at an await point: called with the result of `build_prompt`, waiting for
`execute_with_retries`, back from it, or returned. -/
inductive AnalyzeCall where
  | called (prompt : Except GeminiError String)
  | executing (prompt : String)
  | executed (result : Except GeminiError JsonValue)
  | returned (result : Except GeminiError JsonValue)

/-- What a poll gets from outside: a reading of the clock, or the end of
`execute_with_retries`. -/
inductive AnalyzeInput where
  | clock (now : Nat)
  | result (result : Except GeminiError JsonValue)

/-- `analyze`, from one await point to the next. The circuit is locked twice, before the request and
after it, and not in between, so other calls can change it while this one waits. Only an operational
failure is recorded. -/
def pollAnalyze (circuit : CircuitState) :
    AnalyzeCall → AnalyzeInput → Option (CircuitState × AnalyzeCall)
  | .called (.error error), .clock _ => some (circuit, .returned (.error error))
  | .called (.ok prompt), .clock now =>
      match beforeRequest circuit now with
      | (.error error, circuit) => some (circuit, .returned (.error error))
      | (.ok (), circuit) => some (circuit, .executing prompt)
  | .executing _, .result result => some (circuit, .executed result)
  | .executed (.ok analysis), .clock _ =>
      some (recordSuccess circuit, .returned (.ok analysis))
  | .executed (.error error), .clock now =>
      if error.isOperationalFailure then
        some (recordFailure circuit now, .returned (.error error))
      else some (circuit, .returned (.error error))
  | _, _ => none

/-- Any number of calls on one circuit. A call arrives with its prompt built, or with the error of
the prompt, and can be dropped at every await point. -/
abbrev analyzeCalls : Tasks where
  Shared := CircuitState
  Task := AnalyzeCall
  Input := AnalyzeInput
  start := .closed
  arrives circuit
    | .called _ => some circuit
    | _ => none
  poll circuit call input := (pollAnalyze circuit call input).map fun r => (r.1, r.2, none)
  droppable _ := true

/-! ### The history -/

/-- An operation on the circuit. -/
inductive CircuitOperation where
  | beforeRequest (now : Nat)
  | recordSuccess
  | recordFailure (now : Nat)
deriving DecidableEq, Repr

/-- The state that an operation leaves. -/
def CircuitOperation.apply (circuit : CircuitState) : CircuitOperation → CircuitState
  | beforeRequest now => (CanonicalApi.beforeRequest circuit now).2
  | recordSuccess => CanonicalApi.recordSuccess circuit
  | recordFailure now => CanonicalApi.recordFailure circuit now

/-- The operation that a poll runs. -/
def AnalyzeCall.operation : AnalyzeCall → AnalyzeInput → Option CircuitOperation
  | .called (.ok _), .clock now => some (.beforeRequest now)
  | .executed (.ok _), .clock _ => some .recordSuccess
  | .executed (.error error), .clock now =>
      if error.isOperationalFailure then some (.recordFailure now) else none
  | _, _ => none

/-- An operation with the state that it found. -/
abbrev CircuitEvent := CircuitState × CircuitOperation

/-- The event of a step. -/
def circuitEvent (s : analyzeCalls.State) : analyzeCalls.Action → Option CircuitEvent
  | .poll pid input _ =>
      ((s.tasks pid).bind fun call => AnalyzeCall.operation call input).map fun operation =>
        (s.shared, operation)
  | _ => none

/-- The calls with the history of the circuit, the latest event first. -/
def circuitHistory : System (analyzeCalls.State × List CircuitEvent) analyzeCalls.Action :=
  analyzeCalls.system.recording [] fun history s a _ => (circuitEvent s a).toList ++ history

/-- A reset: a success, or a request that found a deadline that had passed. -/
def isReset : CircuitEvent → Bool
  | (found, .beforeRequest now) => found.openUntil.any fun openUntil => openUntil ≤ now
  | (_, .recordSuccess) => true
  | (_, .recordFailure _) => false

/-- The time of a failure. -/
def failureTime : CircuitEvent → Option Nat
  | (_, .recordFailure now) => some now
  | _ => none

/-- The times of the failures after the last reset, the latest first. -/
def failuresSince : List CircuitEvent → List Nat
  | [] => []
  | event :: history =>
      if isReset event then [] else (failureTime event).toList ++ failuresSince history

/-! ### The invariant -/

/-- The fields of the circuit are functions of the failures after the last reset. -/
structure Records (times : List Nat) (circuit : CircuitState) : Prop where
  failures : circuit.failures = min times.length u32Max
  openUntil : circuit.openUntil =
    if circuitFailureThreshold ≤ times.length then times.head?.map (· + circuitOpenFor)
    else none

section

variable {times : List Nat} {circuit : CircuitState} {history : List CircuitEvent}

/-- A closed circuit has recorded no failure. -/
theorem Records.nil : Records [] .closed where
  failures := rfl
  openUntil := rfl

/-- A request is refused exactly in the 30 seconds after a failure that is at least the fifth. -/
theorem Records.refused_iff (h : Records times circuit) (now : Nat) :
    (beforeRequest circuit now).1 = .error .circuitOpen ↔
      5 ≤ times.length ∧ ∃ t, times.head? = some t ∧ now < t + 30000000000 := by
  have hopen := h.openUntil
  -- Only from five failures on the circuit has a time until which it is open.
  by_cases hmany : circuitFailureThreshold ≤ times.length
  · have hfive : 5 ≤ times.length := hmany
    rw [if_pos hmany] at hopen
    cases hhead : times.head? with
    | none =>
      rw [List.head?_eq_none_iff.mp hhead] at hfive
      cases hfive
    | some t =>
      rw [hhead, Option.map_some] at hopen
      have hthirty : t + circuitOpenFor = t + 30000000000 := rfl
      by_cases hnow : now < t + circuitOpenFor
      · simp [beforeRequest, hopen, hnow, hfive, ← hthirty]
      · simp [beforeRequest, hopen, hnow, ← hthirty]
  · have hfew : ¬ 5 ≤ times.length := hmany
    rw [if_neg hmany] at hopen
    simp [beforeRequest, hopen, hfew]

/-- The circuit refuses a request with one error only. -/
theorem beforeRequest_error {circuit circuit' : CircuitState} {now : Nat} {error : GeminiError}
    (h : beforeRequest circuit now = (.error error, circuit')) : error = .circuitOpen := by
  unfold beforeRequest at h
  split at h
  · split at h
    · cases h
      rfl
    · cases h
  · cases h

/-- A refused request changes nothing. -/
theorem beforeRequest_refused {now : Nat}
    (h : (beforeRequest circuit now).1 = .error .circuitOpen) :
    (beforeRequest circuit now).2 = circuit := by
  unfold beforeRequest at h ⊢
  split
  · split
    · rfl
    · next hopen hnow => simp [hopen, hnow] at h
  · rfl

/-- The request that finds a passed deadline closes the circuit, and any other one leaves it. -/
theorem beforeRequest_circuit (circuit : CircuitState) (now : Nat) :
    (beforeRequest circuit now).2 =
      if isReset (circuit, .beforeRequest now) then .closed else circuit := by
  unfold beforeRequest isReset
  split
  · next openUntil hopen =>
    by_cases hnow : now < openUntil
    · have hlater : ¬ openUntil ≤ now := Nat.not_le.mpr hnow
      simp [hnow, hlater, hopen]
    · have hpassed : openUntil ≤ now := Nat.not_lt.mp hnow
      simp [hnow, hpassed, hopen, CircuitState.closed]
  · next hopen => simp [hopen]

/-- A failure is counted, and moves the deadline from the fifth on. -/
theorem Records.recordFailure (h : Records times circuit) (now : Nat) :
    Records (now :: times) (recordFailure circuit now) := by
  have hcount : min (circuit.failures + 1) u32Max = min (times.length + 1) u32Max := by
    rw [h.failures]
    unfold u32Max
    omega
  -- Saturation is far beyond the threshold.
  have hthreshold : circuitFailureThreshold ≤ min (times.length + 1) u32Max ↔
      circuitFailureThreshold ≤ times.length + 1 := by
    unfold circuitFailureThreshold u32Max
    omega
  unfold CanonicalApi.recordFailure
  simp only [hcount]
  by_cases hmany : circuitFailureThreshold ≤ times.length + 1
  · rw [if_pos (hthreshold.mpr hmany)]
    refine ⟨rfl, ?_⟩
    rw [List.length_cons, if_pos hmany]
    rfl
  · rw [if_neg fun h => hmany (hthreshold.mp h)]
    refine ⟨rfl, ?_⟩
    have hfew : ¬ circuitFailureThreshold ≤ times.length := by omega
    have hclosed := h.openUntil
    rw [if_neg hfew] at hclosed
    rw [List.length_cons, if_neg hmany]
    exact hclosed

/-- One operation, with the event that it adds to the history. -/
theorem Records.apply (h : Records (failuresSince history) circuit)
    (operation : CircuitOperation) :
    Records (failuresSince ((circuit, operation) :: history)) (operation.apply circuit) := by
  cases operation with
  | beforeRequest now =>
    rw [CircuitOperation.apply, beforeRequest_circuit, failuresSince]
    by_cases hreset : isReset (circuit, .beforeRequest now) = true
    · rw [if_pos hreset, if_pos hreset]
      exact .nil
    · rw [if_neg hreset, if_neg hreset]
      exact h
  | recordSuccess => exact .nil
  | recordFailure now => exact h.recordFailure now

/-- A poll changes the circuit by its operation only. -/
theorem pollAnalyze_shared {call call' : AnalyzeCall} {input : AnalyzeInput}
    {circuit' : CircuitState} (h : pollAnalyze circuit call input = some (circuit', call')) :
    circuit' = match call.operation input with
      | some operation => operation.apply circuit
      | none => circuit := by
  -- One case for each branch of the poll. Only the checks and the recordings touch the circuit.
  unfold pollAnalyze at h
  split at h
  · cases h
    rfl
  · split at h
    · next hbefore =>
      cases h
      simp [AnalyzeCall.operation, CircuitOperation.apply, hbefore]
    · next hbefore =>
      cases h
      simp [AnalyzeCall.operation, CircuitOperation.apply, hbefore]
  · cases h
    rfl
  · cases h
    rfl
  · split at h
    · next hfailure =>
      cases h
      simp [AnalyzeCall.operation, CircuitOperation.apply, hfailure]
    · next hfailure =>
      cases h
      simp [AnalyzeCall.operation, hfailure]
  · cases h

/-- The next poll of a call whose request is refused. -/
theorem pollAnalyze_refused {now : Nat} (prompt : String)
    (h : (beforeRequest circuit now).1 = .error .circuitOpen) :
    pollAnalyze circuit (.called (.ok prompt)) (.clock now) =
      some (circuit, .returned (.error .circuitOpen)) := by
  have hbefore : beforeRequest circuit now = (.error .circuitOpen, circuit) :=
    Prod.ext h (beforeRequest_refused h)
  simp only [pollAnalyze, hbefore]

end

/-! ### Runs -/

/-- In every run the circuit records its history. -/
theorem records_reachable {s : analyzeCalls.State} {history : List CircuitEvent}
    (hs : circuitHistory.Reachable (s, history)) :
    Records (failuresSince history) s.shared := by
  refine System.ReachableWith.induct
    (I := fun q : analyzeCalls.State × List CircuitEvent =>
      Records (failuresSince q.2) q.1.shared) ?_ ?_ hs
  · rintro ⟨s, history⟩ ⟨hinit, hhistory⟩
    cases hinit
    cases hhistory
    exact .nil
  · rintro ⟨s, history⟩ a ⟨s', history'⟩ - h - ⟨hstep, hhistory⟩
    cases hhistory
    cases Tasks.step_of_next hstep with
    | @arrive pid call shared harrives hnone =>
      -- An arrival does not touch the circuit.
      have hsame : shared = s.shared := by
        cases call <;> cases harrives
        rfl
      rw [hsame]
      exact h
    | @poll pid child input call call' q? shared hcall hchild hpoll =>
      obtain ⟨⟨circuit, next⟩, hanalyze, heq⟩ := Option.map_eq_some_iff.mp hpoll
      simp only [Prod.mk.injEq] at heq
      obtain ⟨rfl, rfl, rfl⟩ := heq
      -- A poll applies the operation of its call, if any, and the history notes it.
      have hshared := pollAnalyze_shared hanalyze
      have hcall : s.tasks pid = some call := hcall
      have hevent : circuitEvent s (.poll pid input child) =
          (AnalyzeCall.operation call input).map fun operation => (s.shared, operation) := by
        simp only [circuitEvent, hcall, Option.bind_some]
      show Records (failuresSince ((circuitEvent s (.poll pid input child)).toList ++ history))
        circuit
      rw [hevent, hshared]
      cases hoperation : AnalyzeCall.operation call input with
      | none => exact h
      | some operation => exact h.apply operation
    | drop _ _ => exact h

/-- The circuit breaker. In every run of any number of calls, a request at the time `now` is
refused with `CircuitOpen` exactly when at least five failures were recorded after the last reset
and the latest of them is less than 30 seconds old. A refused request leaves the circuit and the
failures as they are, and its call returns without recording anything. -/
theorem circuit_open_iff {s : analyzeCalls.State} {history : List CircuitEvent}
    (hs : circuitHistory.Reachable (s, history)) (now : Nat) :
    ((beforeRequest s.shared now).1 = .error .circuitOpen ↔
      5 ≤ (failuresSince history).length ∧
        ∃ t, (failuresSince history).head? = some t ∧ now < t + 30000000000) ∧
    ((beforeRequest s.shared now).1 = .error .circuitOpen →
      (beforeRequest s.shared now).2 = s.shared ∧
      failuresSince ((s.shared, .beforeRequest now) :: history) = failuresSince history ∧
      ∀ prompt, pollAnalyze s.shared (.called (.ok prompt)) (.clock now) =
        some (s.shared, .returned (.error .circuitOpen))) := by
  have hrecords := records_reachable hs
  refine ⟨hrecords.refused_iff now, fun hrefused => ⟨beforeRequest_refused hrefused, ?_, ?_⟩⟩
  · -- A check that is refused resets nothing, because it leaves an open circuit.
    have hreset : ¬ isReset (s.shared, .beforeRequest now) = true := by
      intro hreset
      have hsame := beforeRequest_refused hrefused
      rw [beforeRequest_circuit, if_pos hreset] at hsame
      rw [← hsame] at hrefused
      cases hrefused
    rw [failuresSince, if_neg hreset]
    rfl
  · intro prompt
    exact pollAnalyze_refused prompt hrefused

/-- Five calls that fail, one after the other. -/
def fiveFailures : List analyzeCalls.Action :=
  (List.range 5).flatMap fun pid =>
    [.arrive pid (.called (.ok "")), .poll pid (.clock pid) 5,
      .poll pid (.result (.error .transport)) 5, .poll pid (.clock pid) 5]

/-- A run with five failures, at the times 0 to 4. The circuit refuses at the last nanosecond of its
thirty seconds, and not at the next one. -/
theorem circuit_open_iff_test : ∃ s history, circuitHistory.Reachable (s, history) ∧
    (beforeRequest s.shared 30000000003).1 = .error .circuitOpen ∧
    (beforeRequest s.shared 30000000004).1 ≠ .error .circuitOpen := by
  obtain ⟨⟨s, history⟩, hs, hfailures⟩ :
      ∃ q, circuitHistory.Reachable q ∧ failuresSince q.2 = [4, 3, 2, 1, 0] := by
    obtain ⟨q, hq, hfailures⟩ := System.exists_reachable_of_run fiveFailures
      (fun (q : analyzeCalls.State × List CircuitEvent) => failuresSince q.2 = [4, 3, 2, 1, 0])
      (show (System.run (System.record analyzeCalls.next fun history s a _ =>
        (circuitEvent s a).toList ++ history) (analyzeCalls.initial, []) fiveFailures).map
          (fun q => decide (failuresSince q.2 = [4, 3, 2, 1, 0])) = some true by decide)
    exact ⟨q, System.ReachableWith.of_record hq, of_decide_eq_true hfailures⟩
  refine ⟨s, history, hs, (circuit_open_iff hs _).1.mpr ?_, fun hopen => ?_⟩
  · rw [hfailures]
    exact ⟨Nat.le_refl 5, 4, rfl, by decide⟩
  · obtain ⟨-, t, ht, hlt⟩ := (circuit_open_iff hs _).1.mp hopen
    rw [hfailures] at ht
    cases ht
    exact absurd hlt (by decide)

end CanonicalApi
