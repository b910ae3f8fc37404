import CanonicalApi.Circuit
import CanonicalApi.Lib.Retry

/-!
# `CanonicalApi.Gemini.Attempts`: the attempts of a call of the model

`execute_with_retries` as a bounded loop (`executeWithRetries_eq`): it goes on after a reply that
is worth another attempt, and any other reply decides. What the reply that decides gives is its
`HttpReply.result` (`executeWithRetries_decided`).

The call of `analyze` around the loop reports to the circuit. `clientCalls` are the calls of
`Circuit` with a record of the operations of each, and `CallRecord.Fits` says what this record is at
each await point: a call that was refused, or had no prompt, reports nothing, and one that got its
replies reports their result once. `attempts_decide` puts the two together, for a call in any run of
any number of calls.
-/

set_option autoImplicit false

namespace CanonicalApi

open Outcome
open Transition (System)

/-- The reply is worth another attempt. -/
def HttpReply.retryable : HttpReply → Bool
  | response status _ _ => !(200 ≤ status && status ≤ 299) && shouldRetryStatus status
  | failure connectOrTimeout => connectOrTimeout

section

variable [ModelDecoder]

/-- One turn of the loop of `execute_with_retries`: its result, unless the loop goes on. Only a
status that is worth a retry and a failed connection let it go on, and the last attempt never
does. -/
def HttpReply.decides (attempt : Nat) : HttpReply → Option (Except GeminiError JsonValue)
  | response status contentLength body =>
      if 200 ≤ status ∧ status ≤ 299 then some (acceptResponse contentLength body)
      else if shouldRetryStatus status ∧ attempt + 1 < maxAttempts then none
      else some (.error (.rejected status))
  | failure connectOrTimeout =>
      if connectOrTimeout ∧ attempt + 1 < maxAttempts then none else some (.error .transport)

/-- The loop from any attempt on. -/
theorem attemptFrom_eq (replies : Nat → HttpReply) (attempt remaining : Nat) :
    attemptFrom replies attempt remaining =
      (Retry.attempts HttpReply.decides (.error .transport) replies attempt remaining).1 := by
  induction remaining generalizing attempt with
  | zero => rfl
  | succ remaining ih =>
    rw [attemptFrom]
    -- The branches of the loop are those of `decides`: it ends where that gives a result.
    cases hreply : replies attempt with
    | response status contentLength body =>
      simp only
      by_cases hsuccess : 200 ≤ status ∧ status ≤ 299
      · rw [if_pos hsuccess, Retry.attempts_of_some remaining]
        rw [hreply, HttpReply.decides, if_pos hsuccess]
      · rw [if_neg hsuccess]
        by_cases hretry : shouldRetryStatus status ∧ attempt + 1 < maxAttempts
        · rw [if_pos hretry, Retry.attempts_of_none remaining, ih]
          rw [hreply, HttpReply.decides, if_neg hsuccess, if_pos hretry]
        · rw [if_neg hretry, Retry.attempts_of_some remaining]
          rw [hreply, HttpReply.decides, if_neg hsuccess, if_neg hretry]
    | failure connectOrTimeout =>
      simp only
      by_cases hretry : connectOrTimeout ∧ attempt + 1 < maxAttempts
      · rw [if_pos hretry, Retry.attempts_of_none remaining, ih]
        rw [hreply, HttpReply.decides, if_pos hretry]
      · rw [if_neg hretry, Retry.attempts_of_some remaining]
        rw [hreply, HttpReply.decides, if_neg hretry]

/-- The loop is one of `Lib.Retry`: `HttpReply.decides` says which replies end it, and when none of
them does the call fails as a transport error. -/
theorem executeWithRetries_eq (replies : Nat → HttpReply) :
    executeWithRetries replies =
      (Retry.attempts HttpReply.decides (.error .transport) replies 0 maxAttempts).1 :=
  attemptFrom_eq replies 0 maxAttempts

/-- The loop goes on exactly after a retryable reply to an attempt that is not the last one. -/
theorem HttpReply.decides_eq_none_iff {attempt : Nat} {reply : HttpReply} :
    reply.decides attempt = none ↔ reply.retryable = true ∧ attempt + 1 < maxAttempts := by
  cases reply with
  | response status contentLength body =>
    rw [decides, retryable, Bool.and_eq_true, Bool.not_eq_true', Bool.and_eq_false_iff,
      decide_eq_false_iff_not, decide_eq_false_iff_not, ← not_and_or]
    by_cases hsuccess : 200 ≤ status ∧ status ≤ 299
    · rw [if_pos hsuccess]
      simp [hsuccess]
    · rw [if_neg hsuccess]
      simp [hsuccess]
  | failure connectOrTimeout =>
    rw [decides, retryable]
    simp

omit [ModelDecoder] in
/-- The only error of the checks on fields is an invalid analysis. -/
theorem requireFields_error {α : Type} {read : String → Option α} {fields : List String}
    {error : GeminiError} (h : requireFields read fields = .error error) :
    error = .invalidAnalysis := by
  induction fields with
  | nil => cases h
  | cons field fields ih =>
    rw [requireFields, ite_error_eq_error_iff] at h
    rcases h with ⟨-, rfl⟩ | ⟨-, h⟩
    · rfl
    · exact ih h

omit [ModelDecoder] in
/-- An analysis that is refused has one error, whatever is wrong with it. -/
theorem validateAnalysis_error {analysis : JsonValue} {error : GeminiError}
    (h : validateAnalysis analysis = .error error) : error = .invalidAnalysis := by
  simp only [validateAnalysis, bind_eq_error_iff, okOr_eq_error_iff, ite_error_eq_error_iff] at h
  rcases h with ⟨-, rfl⟩ | ⟨object, -, h | ⟨-, -, h | ⟨-, -, h | ⟨-, -, ⟨-, rfl⟩ | ⟨_, -, ⟨-, rfl⟩ |
    ⟨_, -, ⟨-, rfl⟩ | ⟨_, -, ⟨-, rfl⟩ | ⟨_, -, ⟨-, rfl⟩ | ⟨-, ⟨⟩⟩⟩⟩⟩⟩⟩⟩⟩⟩
  · rfl
  · exact requireFields_error h
  · exact requireFields_error h
  · exact requireFields_error h
  · rfl
  · rfl
  · rfl
  · rfl
  · rfl

/-- The only failure of an accepted response that the circuit counts is a body that cannot be
read. -/
theorem acceptResponse_operational {contentLength : Option Nat} {body : Option (List UInt8)}
    {error : GeminiError} (h : acceptResponse contentLength body = .error error) :
    error.isOperationalFailure = true ↔
      contentLength.any (· > maxResponseBytes) = false ∧ body = none := by
  rw [acceptResponse, ite_error_eq_error_iff] at h
  rcases h with ⟨hlarge, rfl⟩ | ⟨hlength, h⟩
  · rw [hlarge]
    simp [GeminiError.isOperationalFailure]
  · have hlength : contentLength.any (· > maxResponseBytes) = false := by simpa using hlength
    rcases (bind_eq_error_iff _ _ _).mp h with hbody | ⟨bytes, hbody, hrest⟩
    · obtain ⟨rfl, rfl⟩ := (okOr_eq_error_iff _ _ _).mp hbody
      simp [hlength, GeminiError.isOperationalFailure]
    · -- Whatever else is wrong, the circuit does not count it.
      obtain rfl := (okOr_eq_ok_iff _ _ _).mp hbody
      refine iff_of_false ?_ fun hnone => by cases hnone.2
      rw [ite_error_eq_error_iff] at hrest
      rcases hrest with ⟨-, rfl⟩ | ⟨-, hrest⟩
      · exact Bool.noConfusion
      · simp only [bind_eq_error_iff, okOr_eq_error_iff] at hrest
        rcases hrest with ⟨-, rfl⟩ | ⟨_, -, ⟨-, rfl⟩ | ⟨_, -, ⟨-, rfl⟩ | ⟨_, -, h | ⟨_, -, h⟩⟩⟩⟩
        · exact Bool.noConfusion
        · exact Bool.noConfusion
        · exact Bool.noConfusion
        · rw [validateAnalysis_error h]
          exact Bool.noConfusion
        · cases h

/-- A reply that ends the loop with a failure that the circuit counts. -/
theorem HttpReply.decides_operational {attempt : Nat} {reply : HttpReply} {error : GeminiError}
    (h : reply.decides attempt = some (.error error)) :
    error.isOperationalFailure = true ↔
      reply.retryable = true ∨ reply = .failure false ∨
        ∃ status contentLength, reply = .response status contentLength none ∧
          (200 ≤ status ∧ status ≤ 299) ∧ contentLength.any (· > maxResponseBytes) = false := by
  cases reply with
  | response status contentLength body =>
    rw [decides] at h
    -- A success is decided by its body, any other status by whether it is retried.
    by_cases hsuccess : 200 ≤ status ∧ status ≤ 299
    · rw [if_pos hsuccess] at h
      have hnot : (HttpReply.response status contentLength body).retryable = false := by
        simp [retryable, hsuccess]
      rw [acceptResponse_operational (Option.some.inj h), hnot]
      constructor
      · rintro ⟨hlength, rfl⟩
        exact .inr (.inr ⟨status, contentLength, rfl, hsuccess, hlength⟩)
      · rintro (hfalse | hfailure | ⟨_, _, ⟨⟩, -, hlength⟩)
        · cases hfalse
        · cases hfailure
        · exact ⟨hlength, rfl⟩
    · rw [if_neg hsuccess] at h
      split at h
      · cases h
      · cases h
        have hretryable : (HttpReply.response status contentLength body).retryable =
            shouldRetryStatus status := by
          rw [not_and_or] at hsuccess
          simp only [retryable]
          rcases hsuccess with hlow | hhigh
          · simp [hlow]
          · simp [hhigh]
        rw [hretryable]
        constructor
        · exact .inl
        · rintro (hretry | hfailure | ⟨_, _, ⟨⟩, hok, -⟩)
          · exact hretry
          · cases hfailure
          · exact absurd hok hsuccess
  | failure connectOrTimeout =>
    rw [decides] at h
    split at h
    · cases h
    · cases h
      -- A failure that ends the call is operational, whether it was the last attempt or not
      -- retried.
      refine iff_of_true rfl ?_
      cases connectOrTimeout with
      | true => exact .inl rfl
      | false => exact .inr (.inl rfl)

/-- What the reply gives when the loop ends with it. -/
def HttpReply.result : HttpReply → Except GeminiError JsonValue
  | response status contentLength body =>
      if 200 ≤ status ∧ status ≤ 299 then acceptResponse contentLength body
      else .error (.rejected status)
  | failure _ => .error .transport

/-- A reply that decides gives its result, whatever the number of the attempt. -/
theorem HttpReply.decides_eq_some {attempt : Nat} {reply : HttpReply}
    {result : Except GeminiError JsonValue} (h : reply.decides attempt = some result) :
    reply.result = result := by
  cases reply with
  | response status contentLength body =>
    rw [decides] at h
    rw [HttpReply.result]
    by_cases hsuccess : 200 ≤ status ∧ status ≤ 299
    · rw [if_pos hsuccess] at h ⊢
      exact Option.some.inj h
    · -- A status that is tried again decides nothing before the last attempt.
      rw [if_neg hsuccess] at h ⊢
      split at h
      · cases h
      · exact Option.some.inj h
  | failure connectOrTimeout =>
    rw [decides] at h
    split at h
    · cases h
    · exact Option.some.inj h

/-- The loop ends with one of its attempts. The replies before are worth another one, and this reply
is not, unless it is the last. What comes later is not read. -/
theorem executeWithRetries_decided (replies : Nat → HttpReply) :
    ∃ last, last < maxAttempts ∧ (∀ i, i < last → (replies i).retryable = true) ∧
      ((replies last).retryable = true → last + 1 = maxAttempts) ∧
      (replies last).decides last = some (executeWithRetries replies) ∧
      ∀ replies', (∀ i, i ≤ last → replies' i = replies i) →
        executeWithRetries replies' = executeWithRetries replies := by
  have hrun := Retry.attempts_cases HttpReply.decides (.error .transport) replies 0 maxAttempts
  simp only [Nat.zero_add, ← executeWithRetries_eq] at hrun
  rcases hrun with ⟨last, hmade, hlt, hdecides, hnone⟩ | ⟨-, -, hnone⟩
  · refine ⟨last, hlt, ?_, ?_, hdecides, ?_⟩
    · intro i hi
      exact (HttpReply.decides_eq_none_iff.mp (hnone i hi)).1
    · intro hretryable
      by_contra hne
      rw [HttpReply.decides_eq_none_iff.mpr ⟨hretryable, by omega⟩] at hdecides
      cases hdecides
    · intro replies' hsame
      rw [executeWithRetries_eq, executeWithRetries_eq]
      refine congrArg Prod.fst (Retry.attempts_congr fun i hi => ?_)
      rw [hmade] at hi
      rw [Nat.zero_add]
      exact hsame i (by omega)
  · -- The third attempt always decides.
    have hlast := HttpReply.decides_eq_none_iff.mp (hnone 2 (by decide))
    exact absurd hlast.2 (by decide)

/-! ### What a call reports -/

/-- What a call has done so far: the result of `build_prompt` that it came with, and its operations
on the circuit, the first one first. -/
structure CallRecord where
  prompt : Except GeminiError String
  operations : List CircuitOperation

omit [ModelDecoder] in
/-- The records after a step. A call that arrives has a new one, and a poll adds its operation on
the circuit, if it makes one. -/
def noteCall (records : Nat → CallRecord) (s : analyzeCalls.State) :
    analyzeCalls.Action → Nat → CallRecord
  | .arrive pid (.called prompt) => Function.update records pid ⟨prompt, []⟩
  | .poll pid input _ =>
      let operation? := (s.tasks pid).bind fun call => AnalyzeCall.operation call input
      Function.update records pid
        { records pid with operations := (records pid).operations ++ operation?.toList }
  | _ => records

/-- The calls of `analyze`, with what each of them has done. -/
def clientCalls : System (analyzeCalls.State × (Nat → CallRecord)) analyzeCalls.Action :=
  analyzeCalls.system.recording (fun _ => ⟨.ok "", []⟩) fun records s a _ => noteCall records s a

/-- `execute_with_retries` of the call `pid` gets the replies `replies pid`. -/
def Replied (replies : Nat → Nat → HttpReply) : analyzeCalls.Action → Prop
  | .poll pid (.result result) _ => result = executeWithRetries (replies pid)
  | _ => True

instance (replies : Nat → Nat → HttpReply) (a : analyzeCalls.Action) :
    Decidable (Replied replies a) :=
  match a with
  | .poll pid (.result result) _ =>
      inferInstanceAs (Decidable (result = executeWithRetries (replies pid)))
  | .poll _ (.clock _) _ => inferInstanceAs (Decidable True)
  | .arrive _ _ => inferInstanceAs (Decidable True)
  | .drop _ => inferInstanceAs (Decidable True)

/-- The record of a call at an await point, when its replies are `replies`. There is one constructor
for each way through `analyze`: at most one check and at most one recording, in that order. -/
inductive CallRecord.Fits (replies : Nat → HttpReply) : AnalyzeCall → CallRecord → Prop where
  | called (prompt : Except GeminiError String) : Fits replies (.called prompt) ⟨prompt, []⟩
  | executing (prompt : String) (t : Nat) :
      Fits replies (.executing prompt) ⟨.ok prompt, [.beforeRequest t]⟩
  | executed (prompt : String) (t : Nat) :
      Fits replies (.executed (executeWithRetries replies)) ⟨.ok prompt, [.beforeRequest t]⟩
  | unprompted (error : GeminiError) :
      Fits replies (.returned (.error error)) ⟨.error error, []⟩
  | refused (prompt : String) (t : Nat) :
      Fits replies (.returned (.error .circuitOpen)) ⟨.ok prompt, [.beforeRequest t]⟩
  | answered (prompt : String) (t : Nat) (analysis : JsonValue) :
      executeWithRetries replies = .ok analysis →
      Fits replies (.returned (.ok analysis)) ⟨.ok prompt, [.beforeRequest t, .recordSuccess]⟩
  | failed (prompt : String) (t now : Nat) (error : GeminiError) :
      executeWithRetries replies = .error error → error.isOperationalFailure = true →
      Fits replies (.returned (.error error))
        ⟨.ok prompt, [.beforeRequest t, .recordFailure now]⟩
  | disregarded (prompt : String) (t : Nat) (error : GeminiError) :
      executeWithRetries replies = .error error → error.isOperationalFailure = false →
      Fits replies (.returned (.error error)) ⟨.ok prompt, [.beforeRequest t]⟩

/-- A poll keeps the record of its call. -/
theorem CallRecord.Fits.poll {replies : Nat → HttpReply} {record : CallRecord}
    {circuit circuit' : CircuitState} {call call' : AnalyzeCall} {input : AnalyzeInput}
    (h : record.Fits replies call) (hpoll : pollAnalyze circuit call input = some (circuit', call'))
    (hreplied : ∀ result, input = .result result → result = executeWithRetries replies) :
    ({ record with operations := record.operations ++ (call.operation input).toList } :
      CallRecord).Fits replies call' := by
  cases h with
  | called prompt =>
    cases prompt with
    | error error =>
      cases input with
      | result _ => cases hpoll
      | clock now =>
        cases hpoll
        exact .unprompted error
    | ok prompt =>
      cases input with
      | result _ => cases hpoll
      | clock now =>
        -- The circuit refuses the request or lets it through.
        simp only [pollAnalyze] at hpoll
        split at hpoll
        · next error circuit₁ hbefore =>
          cases hpoll
          rw [beforeRequest_error hbefore]
          exact .refused prompt now
        · cases hpoll
          exact .executing prompt now
  | executing prompt t =>
    cases input with
    | clock _ => cases hpoll
    | result result =>
      cases hpoll
      rw [hreplied result rfl]
      exact .executed prompt t
  | executed prompt t =>
    cases hresult : executeWithRetries replies with
    | ok analysis =>
      rw [hresult] at hpoll
      cases input with
      | result _ => cases hpoll
      | clock now =>
        cases hpoll
        exact .answered prompt t analysis hresult
    | error error =>
      rw [hresult] at hpoll
      cases input with
      | result _ => cases hpoll
      | clock now =>
        simp only [pollAnalyze] at hpoll
        cases hoperational : error.isOperationalFailure with
        | true =>
          rw [hoperational, if_pos rfl] at hpoll
          cases hpoll
          simp only [AnalyzeCall.operation, hoperational, if_true]
          exact .failed prompt t now error hresult hoperational
        | false =>
          rw [hoperational, if_neg Bool.false_ne_true] at hpoll
          cases hpoll
          simp only [AnalyzeCall.operation, hoperational, Bool.false_eq_true, if_false]
          exact .disregarded prompt t error hresult hoperational
  | unprompted error => cases input <;> cases hpoll
  | refused prompt t => cases input <;> cases hpoll
  | answered prompt t analysis _ => cases input <;> cases hpoll
  | failed prompt t now error _ _ => cases input <;> cases hpoll
  | disregarded prompt t error _ _ => cases input <;> cases hpoll

/-- In every run the records of all calls fit. -/
theorem fits_reachable {replies : Nat → Nat → HttpReply} {s : analyzeCalls.State}
    {records : Nat → CallRecord}
    (hs : clientCalls.ReachableWith (fun _ a => Replied replies a) (s, records)) {pid : Nat}
    {call : AnalyzeCall} (hcall : s.tasks pid = some call) :
    (records pid).Fits (replies pid) call := by
  refine System.ReachableWith.induct
    (I := fun q : analyzeCalls.State × (Nat → CallRecord) => ∀ pid call,
      q.1.tasks pid = some call → (q.2 pid).Fits (replies pid) call) ?_ ?_ hs pid call hcall
  · rintro ⟨s, records⟩ ⟨hinit, -⟩ pid call hcall
    cases hinit
    cases hcall
  · rintro ⟨s, records⟩ a ⟨s', records'⟩ - ih hreplied ⟨hstep, hrecords⟩ pid call hcall
    cases hrecords
    show (noteCall records s a pid).Fits (replies pid) call
    have hstep := Tasks.step_of_next hstep
    cases hstep.origin hcall with
    | same hsame hpoll hdrop =>
      have hkept : noteCall records s a pid = records pid := by
        cases a with
        | arrive pid' call' =>
          have hne : pid ≠ pid' := by
            rintro rfl
            cases hstep with
            | arrive _ hnone => cases hnone.symm.trans hsame
          cases call' with
          | called prompt => exact Function.update_of_ne hne ..
          | executing | executed | returned => rfl
        | poll pid' input child =>
          have hne : pid ≠ pid' := by
            rintro rfl
            exact hpoll input child rfl
          exact Function.update_of_ne hne ..
        | drop pid' => rfl
      rw [hkept]
      exact ih pid call hsame
    | arrived ha hnone harrives =>
      subst ha
      cases call with
      | called prompt =>
        simp only [noteCall, Function.update_self]
        exact .called prompt
      | executing | executed | returned => cases harrives
    | @polled before input child q? ha hbefore hpoll =>
      subst ha
      obtain ⟨⟨circuit, next⟩, hanalyze, heq⟩ := Option.map_eq_some_iff.mp hpoll
      obtain rfl : next = call := (Prod.mk.inj (Prod.mk.inj heq).2).1
      have hbefore : s.tasks pid = some before := hbefore
      simp only [noteCall, hbefore, Option.bind_some, Function.update_self]
      refine (ih pid before hbefore).poll hanalyze ?_
      intro result hresult
      subst hresult
      exact hreplied
    | started ha _ _ hpoll =>
      -- A poll starts no call.
      obtain ⟨_, _, heq⟩ := Option.map_eq_some_iff.mp hpoll
      simp only [Prod.mk.injEq, reduceCtorEq, and_false] at heq

/-- The loop never gives the error of a request that the circuit refused. -/
theorem executeWithRetries_ne_circuitOpen (replies : Nat → HttpReply) :
    executeWithRetries replies ≠ .error .circuitOpen := by
  intro hopen
  -- The result is that of the deciding reply, and no reply has this error.
  obtain ⟨last, -, -, -, hdecides, -⟩ := executeWithRetries_decided replies
  have hresult := HttpReply.decides_eq_some hdecides
  rw [hopen] at hresult
  cases hreply : replies last with
  | failure connectOrTimeout =>
    rw [hreply] at hresult
    cases hresult
  | response status contentLength body =>
    rw [hreply, HttpReply.result] at hresult
    split at hresult
    · have hcounted := (acceptResponse_operational hresult).mp rfl
      obtain ⟨hlength, rfl⟩ := hcounted
      rw [acceptResponse, if_neg (by simp [hlength])] at hresult
      cases hresult
    · cases hresult

/-- What the record of a call that has returned says. Without a prompt nothing was asked of the
circuit; otherwise the first operation is its check, and what was recorded after it follows from the
result. -/
theorem CallRecord.Fits.report {replies : Nat → HttpReply} {record : CallRecord}
    {result : Except GeminiError JsonValue} (h : record.Fits replies (.returned result)) :
    (∀ error, record.prompt = .error error → result = .error error ∧ record.operations = []) ∧
    ∀ prompt, record.prompt = .ok prompt →
      ∃ t report, record.operations = .beforeRequest t :: report ∧
        (result = .error .circuitOpen → report = []) ∧
        (result ≠ .error .circuitOpen → result = executeWithRetries replies ∧
          ((∃ analysis, result = .ok analysis) ↔ report = [.recordSuccess]) ∧
          ((∃ error, result = .error error ∧ error.isOperationalFailure = true) ↔
            ∃ now, report = [.recordFailure now]) ∧
          ((∃ error, result = .error error ∧ error.isOperationalFailure = false) ↔
            report = [])) := by
  have hopen := executeWithRetries_ne_circuitOpen replies
  -- The record of a call that has returned is one of five kinds.
  cases h with
  | unprompted error =>
    constructor
    · intro error' hprompt
      cases hprompt
      exact ⟨rfl, rfl⟩
    · intro prompt hprompt
      cases hprompt
  | refused prompt t =>
    constructor
    · intro error hprompt
      cases hprompt
    · intro prompt' _
      exact ⟨t, [], rfl, fun _ => rfl, fun hne => absurd rfl hne⟩
  | answered prompt t analysis hresult =>
    constructor
    · intro error hprompt
      cases hprompt
    · intro prompt' _
      refine ⟨t, _, rfl, ?_, ?_⟩
      · intro heq
        cases heq
      · intro _
        simp [hresult]
  | failed prompt t now error hresult hoperational =>
    constructor
    · intro error hprompt
      cases hprompt
    · intro prompt' _
      refine ⟨t, _, rfl, ?_, ?_⟩
      · intro heq
        exact absurd (hresult.trans heq) hopen
      · intro _
        simp [hresult, hoperational]
  | disregarded prompt t error hresult hoperational =>
    constructor
    · intro error hprompt
      cases hprompt
    · intro prompt' _
      refine ⟨t, _, rfl, fun _ => rfl, ?_⟩
      intro _
      simp [hresult, hoperational]

/-- A call of the model, in any run of any number of calls on one circuit, whatever replies it gets.

The attempts. There are one to three. The replies before the last one are worth another attempt, and
the last one is not, unless it is the third. It alone gives the result: a success gives what
`acceptResponse` makes of its body, any other response is rejected with its status, and no response
is a transport error. Later replies do not matter.

The report. When a call has returned, it has returned the error of its prompt, without an operation
on the circuit; or it was refused, and has changed nothing since; or its request was let through,
and it returns the result of the attempts. Then it has recorded one success exactly for an analysis,
one failure exactly for an operational failure, and nothing otherwise. The failure is operational
exactly when the third reply is still worth another attempt, when there is no response for another
reason than the connection or a timeout, or when the body of a success cannot be read. -/
theorem attempts_decide {replies : Nat → Nat → HttpReply} {s : analyzeCalls.State}
    {records : Nat → CallRecord}
    (hs : clientCalls.ReachableWith (fun _ a => Replied replies a) (s, records)) (pid : Nat) :
    ∃ last, last < maxAttempts ∧ (∀ i, i < last → (replies pid i).retryable = true) ∧
      ((replies pid last).retryable = true → last + 1 = maxAttempts) ∧
      executeWithRetries (replies pid) = (replies pid last).result ∧
      (∀ replies', (∀ i, i ≤ last → replies' i = replies pid i) →
        executeWithRetries replies' = executeWithRetries (replies pid)) ∧
      (∀ error, executeWithRetries (replies pid) = .error error →
        (error.isOperationalFailure = true ↔
          (replies pid last).retryable = true ∨ replies pid last = .failure false ∨
            ∃ status contentLength, replies pid last = .response status contentLength none ∧
              (200 ≤ status ∧ status ≤ 299) ∧
              contentLength.any (· > maxResponseBytes) = false)) ∧
      ∀ result, s.tasks pid = some (.returned result) →
        (∀ error, (records pid).prompt = .error error →
          result = .error error ∧ (records pid).operations = []) ∧
        ∀ prompt, (records pid).prompt = .ok prompt →
          ∃ t report, (records pid).operations = .beforeRequest t :: report ∧
            (result = .error .circuitOpen → report = []) ∧
            (result ≠ .error .circuitOpen → result = executeWithRetries (replies pid) ∧
              ((∃ analysis, result = .ok analysis) ↔ report = [.recordSuccess]) ∧
              ((∃ error, result = .error error ∧ error.isOperationalFailure = true) ↔
                ∃ now, report = [.recordFailure now]) ∧
              ((∃ error, result = .error error ∧ error.isOperationalFailure = false) ↔
                report = [])) := by
  obtain ⟨last, hlt, hbefore, hretryable, hdecides, hlater⟩ :=
    executeWithRetries_decided (replies pid)
  refine ⟨last, hlt, hbefore, hretryable, (HttpReply.decides_eq_some hdecides).symm, hlater, ?_, ?_⟩
  · intro error herror
    rw [herror] at hdecides
    exact HttpReply.decides_operational hdecides
  · intro result hreturned
    exact (fits_reachable hs hreturned).report

end

section

/-- A decoder that reads nothing. No reply of the run below has a body to read. -/
@[reducible] def noDecoder : ModelDecoder where
  envelope _ := none
  value _ := none

attribute [local instance] noDecoder

/-- The model is unavailable to the call 0, and rejects the call 1. -/
def testReplies (pid _ : Nat) : HttpReply :=
  .response (if pid = 0 then 503 else 400) none none

/-- The two calls, one between the polls of the other. -/
def testCalls : List analyzeCalls.Action :=
  [.arrive 0 (.called (.ok "")), .poll 0 (.clock 0) 2, .arrive 1 (.called (.ok "")),
    .poll 1 (.clock 1) 2, .poll 0 (.result (.error (.rejected 503))) 2,
    .poll 1 (.result (.error (.rejected 400))) 2, .poll 1 (.clock 2) 2, .poll 0 (.clock 3) 2]

/-- The call has returned that the model rejected it. -/
def AnalyzeCall.wasRejected (status : Nat) : AnalyzeCall → Bool
  | .returned (.error (.rejected status')) => status == status'
  | _ => false

/-- The check recognizes the calls that were rejected with this status. -/
theorem AnalyzeCall.wasRejected_iff {status : Nat} {call : AnalyzeCall} :
    call.wasRejected status = true ↔ call = .returned (.error (.rejected status)) := by
  unfold wasRejected
  constructor
  · intro h
    split at h
    · rw [beq_iff_eq.mp h]
    · cases h
  · rintro rfl
    exact beq_self_eq_true status

/-- Two calls of the client. The first fails and is recorded as one failure of the circuit. The
second ends without a record beyond its check. -/
theorem attempts_decide_test :
    ∃ s records, clientCalls.ReachableWith (fun _ a => Replied testReplies a) (s, records) ∧
      (∃ t now, (records 0).operations = [.beforeRequest t, .recordFailure now]) ∧
      ∃ t, (records 1).operations = [.beforeRequest t] := by
  have hrun : ((System.run (System.guarded (fun _ a => Replied testReplies a)
      (System.record analyzeCalls.next fun records s a _ => noteCall records s a))
      (analyzeCalls.initial, fun _ => ⟨.ok "", []⟩) testCalls).map fun q =>
        (q.1.tasks 0).any (AnalyzeCall.wasRejected 503) &&
          (q.1.tasks 1).any (AnalyzeCall.wasRejected 400) &&
          ((q.2 0).prompt == .ok "" && (q.2 1).prompt == .ok "")) = some true := by
    decide
  obtain ⟨⟨s, records⟩, hq, hview⟩ := System.exists_reachable_of_run testCalls _ hrun
  have hq : clientCalls.ReachableWith (fun _ a => Replied testReplies a) (s, records) :=
    .of_record (.of_guarded hq)
  simp only [Bool.and_eq_true, beq_iff_eq, Option.any_eq_true, AnalyzeCall.wasRejected_iff,
    exists_eq_right] at hview
  obtain ⟨⟨hfirst, hsecond⟩, hprompt, hprompt'⟩ := hview
  refine ⟨s, records, hq, ?_, ?_⟩
  · obtain ⟨last, -, -, -, -, -, -, hreturned⟩ := attempts_decide hq 0
    obtain ⟨t, report, hoperations, -, hreport⟩ := (hreturned _ hfirst).2 "" hprompt
    obtain ⟨-, -, hfailure, -⟩ := hreport (by decide)
    obtain ⟨now, rfl⟩ := hfailure.mp ⟨_, rfl, rfl⟩
    exact ⟨t, now, hoperations⟩
  · obtain ⟨last, -, -, -, -, -, -, hreturned⟩ := attempts_decide hq 1
    obtain ⟨t, report, hoperations, -, hreport⟩ := (hreturned _ hsecond).2 "" hprompt'
    obtain ⟨-, -, -, hnothing⟩ := hreport (by decide)
    obtain rfl := hnothing.mp ⟨_, rfl, rfl⟩
    exact ⟨t, hoperations⟩

end

end CanonicalApi
