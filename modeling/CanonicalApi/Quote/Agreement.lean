import CanonicalApi.Quote.Service

/-!
# `CanonicalApi.Quote.Agreement`: the quote and the attempt after a worker

A worker writes its outcome twice: `update_quote` writes the row of the quote, and
`finish_model_attempt` the row of the attempt, in a transaction of its own. The result of the
first is discarded, and the second takes the outcome from the record in memory.

An `Execution` is one worker between its transactions, together with the rows as its own
commits left them. Some of its transactions fail without effect, as `WorkerInputs` tells, and
the tables change in any way while the worker does something else.

`outcome_agreement_iff` says when the two rows agree: unless the last `update_quote` fails
and `finish_model_attempt` does not.
-/

set_option autoImplicit false

namespace CanonicalApi

open Transaction Transition

/-- The transactions of a worker. -/
inductive WorkerTransaction where
  | markAnalyzing
  | startAttempt
  | recordOutcome
  | finishAttempt
deriving DecidableEq

/-- The transaction of a stage. -/
def WorkerStage.transaction : WorkerStage → Option WorkerTransaction
  | marking _ _ => some .markAnalyzing
  | starting _ => some .startAttempt
  | recording _ => some .recordOutcome
  | finishing _ => some .finishAttempt
  | calling _ | done => none

/-- What an execution depends on: whether a model is configured, what the call gives, and
which transactions fail without effect. -/
structure WorkerInputs where
  configured : Bool
  outcome : CallOutcome
  fails : WorkerTransaction → Bool

/-- The rows as the last commits of this worker left them. -/
structure Deeds where
  quote : Option QuoteRow
  attempt : Option AttemptRow

section

variable [CanonicalLib]

/-- A worker between its transactions. -/
structure Execution where
  db : QuoteDb
  stage : WorkerStage
  job : AnalysisJob
  deeds : Deeds

namespace Execution

/-- The rows after a commit of the worker at `stage` that left the tables `db`. -/
def note (e : Execution) (db : QuoteDb) : Deeds :=
  match e.stage with
  | .marking _ _ | .recording _ => { e.deeds with quote := db (.quote e.job.record.quoteId) }
  | .starting attemptId | .finishing attemptId =>
      { e.deeds with attempt := db (.attempt attemptId) }
  | .calling _ | .done => e.deeds

/-- The worker after a transaction with the result `res`, on the tables `db`. -/
def after (e : Execution) (res : Except StoreError QuoteResult) (db : QuoteDb) (deeds : Deeds) :
    Execution where
  db
  stage := (e.stage.resume e.job res).1
  job := (e.stage.resume e.job res).2
  deeds

variable [Postgres]

/-- The steps of a worker: a transaction commits, or it fails without effect, or the call of
the model returns, or the tables change in between. -/
inductive Step (inputs : WorkerInputs) (e : Execution) : Execution → Prop where
  | commits {transaction : WorkerTransaction} {prog : QuoteTx QuoteResult} {x : QuoteResult}
      {db : QuoteDb} : e.stage.transaction = some transaction →
      inputs.fails transaction = false → e.stage.body e.job = some prog →
      quoteEngine.Runs e.db prog (.ok x) db → Step inputs e (e.after (.ok x) db (e.note db))
  | fails {transaction : WorkerTransaction} (error : StoreError) :
      e.stage.transaction = some transaction → inputs.fails transaction = true →
      Step inputs e (e.after (.error error) e.db e.deeds)
  | called {attemptId : Option Uuid} : e.stage = .calling attemptId →
      Step inputs e { e with
        stage := .recording attemptId
        job := { e.job with record := concludeAnalysis e.job.record inputs.outcome } }
  | elsewhere (db : QuoteDb) : Step inputs e { e with db }

/-- The executions of a worker that is started with `job`. -/
def system (inputs : WorkerInputs) (job : AnalysisJob) (attemptId : Uuid) :
    System Execution Unit where
  init e := e.stage = .marking attemptId inputs.configured ∧
    e.job = { job with record := startAnalysis job.record } ∧ e.deeds = ⟨none, none⟩
  step e _ e' := Step inputs e e'

/-! ### What a worker knows at each stage -/

omit [CanonicalLib] [Postgres] in
/-- The state of a record or row after the call of the model. -/
def Concluded (inputs : WorkerInputs) (status : String) (analysis : Option JsonValue) : Prop :=
  (∃ value, inputs.outcome.result = .ok value ∧ status = "completed" ∧ analysis = some value) ∨
    ∃ error, inputs.outcome.result = .error error ∧ status = "failed"

omit [CanonicalLib] [Postgres] in
/-- The worker has set its quote to `analyzing`. -/
def Analyzing (deeds : Deeds) : Prop :=
  ∃ row, deeds.quote = some row ∧ row.status = "analyzing"

omit [CanonicalLib] [Postgres] in
/-- The worker has not started an attempt, or it has. -/
def Attempted (inputs : WorkerInputs) (deeds : Deeds) : Option Uuid → Prop
  | none => deeds.attempt = none ∧
      (inputs.configured = false ∨ inputs.fails .startAttempt = true)
  | some _ => inputs.configured = true ∧ inputs.fails .markAnalyzing = false ∧
      inputs.fails .startAttempt = false ∧
      ∃ attempt, deeds.attempt = some attempt ∧ attempt.status = "started"

omit [CanonicalLib] [Postgres] in
/-- The row of the quote after its last update: the outcome, or still `analyzing`. -/
def Recorded (inputs : WorkerInputs) (deeds : Deeds) : Prop :=
  ∃ row, deeds.quote = some row ∧
    (inputs.fails .recordOutcome = true ∧ row.status = "analyzing" ∨
      inputs.fails .recordOutcome = false ∧ Concluded inputs row.status row.analysisJson)

omit [CanonicalLib] [Postgres] in
/-- The last update fails and the attempt is finished all the same. -/
def Strands (inputs : WorkerInputs) : Prop :=
  inputs.configured = true ∧ inputs.fails .markAnalyzing = false ∧
    inputs.fails .startAttempt = false ∧ inputs.fails .recordOutcome = true ∧
    inputs.fails .finishAttempt = false

omit [CanonicalLib] [Postgres] in
/-- The rows of a worker that has finished its attempt: the quote and the attempt tell one outcome,
that of the call. -/
structure Finished (inputs : WorkerInputs) (deeds : Deeds) : Prop where
  configured : inputs.configured = true
  marked : inputs.fails .markAnalyzing = false
  started : inputs.fails .startAttempt = false
  finished : inputs.fails .finishAttempt = false
  quote : Recorded inputs deeds
  attempt : ∃ attempt, deeds.attempt = some attempt ∧
    ((∃ value, inputs.outcome.result = .ok value ∧ attempt.status = "completed") ∨
      ∃ error, inputs.outcome.result = .error error ∧ attempt.status = "failed")

omit [CanonicalLib] [Postgres] in
/-- The rows of a worker that has not finished an attempt. -/
structure Unfinished (inputs : WorkerInputs) (deeds : Deeds) : Prop where
  attempt : ∀ attempt, deeds.attempt = some attempt → attempt.status = "started"
  strands : ¬ Strands inputs

omit [Postgres] in
/-- What a worker knows at its stage, about the rows that it has written and about its own record.
The attempt is missing when its insert failed; the worker goes on without one. -/
def Invariant (inputs : WorkerInputs) (e : Execution) : Prop :=
  match e.stage with
  | .marking _ configured => configured = inputs.configured ∧ e.deeds.attempt = none ∧
      e.job.record.status = "analyzing"
  | .starting _ => inputs.configured = true ∧ inputs.fails .markAnalyzing = false ∧
      Analyzing e.deeds ∧ e.deeds.attempt = none
  | .calling attemptId => Analyzing e.deeds ∧ Attempted inputs e.deeds attemptId
  | .recording attemptId => Attempted inputs e.deeds attemptId ∧ (attemptId = none ∨
      Analyzing e.deeds ∧ Concluded inputs e.job.record.status e.job.record.analysis)
  | .finishing attemptId => Attempted inputs e.deeds (some attemptId) ∧
      Recorded inputs e.deeds ∧ Concluded inputs e.job.record.status e.job.record.analysis
  | .done => Unfinished inputs e.deeds ∨ Finished inputs e.deeds

omit [CanonicalLib] [Postgres] in
/-- A worker without an attempt has not finished one. -/
theorem Attempted.unfinished {inputs : WorkerInputs} {deeds : Deeds}
    (h : Attempted inputs deeds none) : Unfinished inputs deeds where
  attempt attempt hsome := by
    rw [h.1] at hsome
    cases hsome
  strands := by
    rintro ⟨hconfigured, -, hstarted, -, -⟩
    rcases h.2 with hnot | hfails
    · rw [hconfigured] at hnot
      cases hnot
    · rw [hstarted] at hfails
      cases hfails

/-- The quote row after a committed update of the worker. -/
theorem updated_quote {e : Execution} {db : QuoteDb} {x : QuoteResult}
    (h : quoteEngine.Runs e.db (do
      let (event, record) ← updateQuote e.job.record
      return QuoteResult.updated event record) (.ok x) db) :
    ∃ event found row, x = .updated event found ∧ db (.quote e.job.record.quoteId) = some row ∧
      found.status = e.job.record.status ∧ found.analysis = e.job.record.analysis ∧
      row.status = e.job.record.status ∧ row.analysisJson = e.job.record.analysis := by
  obtain ⟨event, found, old, row, hx, hupdate⟩ := worker_update_cases h
  obtain ⟨eventRow, rfl⟩ := hupdate.tables
  refine ⟨event, found, row, hx, ?_, hupdate.foundStatus, hupdate.foundAnalysis, hupdate.status,
    hupdate.analysis⟩
  rw [← hupdate.id]
  exact QuoteTables.progress_quote_self _ _ _

/-- A committed transaction keeps the invariant. -/
theorem invariant_commits {inputs : WorkerInputs} {e : Execution}
    {transaction : WorkerTransaction} {prog : QuoteTx QuoteResult} {x : QuoteResult}
    {db : QuoteDb} (he : Invariant inputs e) (htransaction : e.stage.transaction = some transaction)
    (hfails : inputs.fails transaction = false) (hbody : e.stage.body e.job = some prog)
    (hruns : quoteEngine.Runs e.db prog (.ok x) db) :
    Invariant inputs (e.after (.ok x) db (e.note db)) := by
  obtain ⟨edb, stage, job, deeds⟩ := e
  cases stage with
  -- The quote is marked as analyzing, and a configured analysis goes on to its attempt.
  | marking attemptId configured =>
    obtain ⟨rfl, hattempt, hanalyzing⟩ := he
    cases htransaction
    cases hbody
    obtain ⟨event, found, row, rfl, hrow, -, -, hstatus, -⟩ := updated_quote hruns
    cases hconfigured : inputs.configured with
    | true => exact ⟨hconfigured, hfails, ⟨row, hrow, hstatus.trans hanalyzing⟩, hattempt⟩
    | false => exact ⟨⟨hattempt, .inl hconfigured⟩, .inl rfl⟩
  -- The attempt is inserted as started.
  | starting attemptId =>
    obtain ⟨hconfigured, hmarked, hquote, -⟩ := he
    cases htransaction
    cases hbody
    obtain ⟨rfl, attempt, hstarted, rfl⟩ := worker_start_cases hruns
    refine ⟨hquote, hconfigured, hmarked, hfails, attempt, ?_, hstarted⟩
    exact Function.update_self _ _ _
  -- The outcome is stored on the quote, whether or not an attempt waits for it.
  | recording attemptId =>
    obtain ⟨hattempt, hconcluded⟩ := he
    cases htransaction
    cases hbody
    obtain ⟨event, found, row, rfl, hrow, hstatus, hanalysis, hrowS, hrowA⟩ := updated_quote hruns
    cases attemptId with
    | none =>
      have hattempt' : Attempted inputs
          { deeds with quote := db (.quote job.record.quoteId) } none := hattempt
      exact .inl hattempt'.unfinished
    | some attemptId =>
      rcases hconcluded with hnone | ⟨-, hconcluded⟩
      · cases hnone
      refine ⟨hattempt, ⟨row, hrow, .inr ⟨hfails, ?_⟩⟩, ?_⟩
      · rw [hrowS, hrowA]
        exact hconcluded
      · show Concluded inputs found.status found.analysis
        rw [hstatus, hanalysis]
        exact hconcluded
  -- The attempt gets the status that belongs to the outcome stored before.
  | finishing attemptId =>
    obtain ⟨⟨hconfigured, hmarked, hstarted, -⟩, hrecorded, hconcluded⟩ := he
    cases htransaction
    cases hbody
    obtain ⟨rfl, attempt, hattempt, rfl⟩ := worker_finish_cases hruns
    refine .inr ⟨hconfigured, hmarked, hstarted, hfails, hrecorded, attempt, ?_, ?_⟩
    · exact Function.update_self _ _ _
    · rcases hconcluded with ⟨value, hresult, hstatus, -⟩ | ⟨error, hresult, hstatus⟩
      · refine .inl ⟨value, hresult, ?_⟩
        rw [hattempt, hstatus, if_pos rfl]
      · refine .inr ⟨error, hresult, ?_⟩
        rw [hattempt, hstatus, if_neg (by decide)]
  | calling attemptId => cases htransaction
  | done => cases htransaction

omit [Postgres] in
/-- A failed transaction keeps the invariant. -/
theorem invariant_fails {inputs : WorkerInputs} {e : Execution}
    {transaction : WorkerTransaction} (he : Invariant inputs e)
    (htransaction : e.stage.transaction = some transaction)
    (hfails : inputs.fails transaction = true) (error : StoreError) :
    Invariant inputs (e.after (.error error) e.db e.deeds) := by
  obtain ⟨db, stage, job, deeds⟩ := e
  cases stage with
  | marking attemptId configured =>
    obtain ⟨-, hattempt, -⟩ := he
    cases htransaction
    refine .inl ⟨fun attempt hsome => ?_, fun hstrands => ?_⟩
    · cases hattempt.symm.trans hsome
    · rw [hstrands.2.1] at hfails
      cases hfails
  -- Without an attempt the worker makes the call all the same.
  | starting attemptId =>
    obtain ⟨-, -, hquote, hattempt⟩ := he
    cases htransaction
    exact ⟨hquote, hattempt, .inr hfails⟩
  -- The quote stays in analysis, while the attempt is ended by the next transaction.
  | recording attemptId =>
    obtain ⟨hattempt, hconcluded⟩ := he
    cases htransaction
    cases attemptId with
    | none => exact .inl hattempt.unfinished
    | some attemptId =>
      rcases hconcluded with hnone | ⟨⟨row, hrow, hanalyzing⟩, hconcluded⟩
      · cases hnone
      exact ⟨hattempt, ⟨row, hrow, .inl ⟨hfails, hanalyzing⟩⟩, hconcluded⟩
  | finishing attemptId =>
    obtain ⟨⟨-, -, -, attempt, hattempt, hstarted⟩, -, -⟩ := he
    cases htransaction
    refine .inl ⟨fun attempt' hsome => ?_, fun hstrands => ?_⟩
    · cases hattempt.symm.trans hsome
      exact hstarted
    · rw [hstrands.2.2.2.2] at hfails
      cases hfails
  | calling attemptId => cases htransaction
  | done => cases htransaction

omit [Postgres] in
/-- What the call of the model leaves in the record. -/
theorem concluded_concludeAnalysis (inputs : WorkerInputs)
    (record : QuoteRecord) :
    Concluded inputs (concludeAnalysis record inputs.outcome).status
      (concludeAnalysis record inputs.outcome).analysis := by
  unfold concludeAnalysis
  cases hresult : inputs.outcome.result with
  | ok value => exact .inl ⟨value, hresult, rfl, rfl⟩
  | error error => exact .inr ⟨error, hresult, rfl⟩

/-- A step keeps the invariant. -/
theorem invariant_step {inputs : WorkerInputs} {e e' : Execution} (he : Invariant inputs e)
    (h : Step inputs e e') : Invariant inputs e' := by
  cases h with
  | commits htransaction hfails hbody hruns =>
    exact invariant_commits he htransaction hfails hbody hruns
  | fails error htransaction hfails => exact invariant_fails he htransaction hfails error
  | @called attemptId hstage =>
    rw [Invariant, hstage] at he
    obtain ⟨hquote, hattempt⟩ := he
    exact ⟨hattempt, .inr ⟨hquote, concluded_concludeAnalysis inputs e.job.record⟩⟩
  | elsewhere db => exact he

/-- The run lemma of the invariant: every execution of the worker, whatever fails in it. -/
theorem invariant_reachable {inputs : WorkerInputs} {job : AnalysisJob} {attemptId : Uuid}
    {e : Execution} (he : (system inputs job attemptId).Reachable e) : Invariant inputs e := by
  refine he.induct (I := Invariant inputs) ?_ ?_
  · intro e he
    obtain ⟨db, stage, job', deeds⟩ := e
    obtain ⟨hstage, hjob, hdeeds⟩ := he
    cases hstage
    cases hjob
    cases hdeeds
    exact ⟨rfl, rfl, rfl⟩
  · exact fun _ _ _ _ ih _ hs => invariant_step ih hs

omit [CanonicalLib] [Postgres] in
/-- The two rows agree: a completed attempt comes with a completed quote that has the analysis
of this worker, and a failed attempt with a failed quote. -/
def Agree (inputs : WorkerInputs) (deeds : Deeds) : Prop :=
  ∀ attempt, deeds.attempt = some attempt →
    (attempt.status = "completed" → ∃ row value, deeds.quote = some row ∧
      row.status = "completed" ∧ inputs.outcome.result = .ok value ∧
      row.analysisJson = some value) ∧
    (attempt.status = "failed" → ∃ row, deeds.quote = some row ∧ row.status = "failed")

omit [CanonicalLib] [Postgres] in
/-- The rows agree when the attempt is not finished. -/
theorem Unfinished.agree {inputs : WorkerInputs} {deeds : Deeds} (h : Unfinished inputs deeds) :
    Agree inputs deeds := by
  intro attempt hattempt
  rw [h.attempt attempt hattempt]
  exact ⟨fun heq => absurd heq (by decide), fun heq => absurd heq (by decide)⟩

omit [CanonicalLib] [Postgres] in
/-- The rows of a finished attempt agree when the last update did not fail. -/
theorem Finished.agree_iff {inputs : WorkerInputs} {deeds : Deeds} (h : Finished inputs deeds) :
    Agree inputs deeds ↔ inputs.fails .recordOutcome = false := by
  obtain ⟨attempt, hattempt, hstatus⟩ := h.attempt
  obtain ⟨row, hrow, ⟨hfails, hanalyzing⟩ | ⟨hfails, hconcluded⟩⟩ := h.quote
  · -- The outcome was not stored: the quote is still in analysis, which agrees with no attempt that
    -- ended.
    rw [hfails]
    refine ⟨fun hagree => ?_, fun heq => nomatch heq⟩
    obtain ⟨hcompleted, hfailed⟩ := hagree attempt hattempt
    rcases hstatus with ⟨value, -, hstatus⟩ | ⟨error, -, hstatus⟩
    · obtain ⟨row', _, hrow', hrowS, -⟩ := hcompleted hstatus
      rw [hrow] at hrow'
      cases hrow'
      rw [hanalyzing] at hrowS
      exact absurd hrowS (by decide)
    · obtain ⟨row', hrow', hrowS⟩ := hfailed hstatus
      rw [hrow] at hrow'
      cases hrow'
      rw [hanalyzing] at hrowS
      exact absurd hrowS (by decide)
  · -- Quote and attempt both tell the outcome of the call.
    refine ⟨fun _ => hfails, fun _ attempt' hattempt' => ?_⟩
    rw [hattempt] at hattempt'
    cases hattempt'
    rcases hstatus with ⟨value, hresult, hstatus⟩ | ⟨error, hresult, hstatus⟩
    · rcases hconcluded with ⟨value', hresult', hrowS, hrowA⟩ | ⟨error, hresult', -⟩
      · refine ⟨fun _ => ⟨row, value', hrow, hrowS, hresult', hrowA⟩, fun heq => ?_⟩
        rw [hstatus] at heq
        exact absurd heq (by decide)
      · rw [hresult] at hresult'
        cases hresult'
    · rcases hconcluded with ⟨value, hresult', -⟩ | ⟨error', -, hrowS⟩
      · rw [hresult] at hresult'
        cases hresult'
      · refine ⟨fun heq => ?_, fun _ => ⟨row, hrow, hrowS⟩⟩
        rw [hstatus] at heq
        exact absurd heq (by decide)

/-! ### Executable steps -/

/-- The next step of a worker that runs alone, with the same input for all statements. The inputs
say which of its transactions fail; the others run as they are written. -/
def next (inputs : WorkerInputs) (i : QuoteInput) (e : Execution) (_ : Unit) :
    Option Execution :=
  match e.stage with
  | .calling attemptId => some { e with
      stage := .recording attemptId
      job := { e.job with record := concludeAnalysis e.job.record inputs.outcome } }
  | _ =>
      match e.stage.transaction, e.stage.body e.job with
      | some transaction, some prog =>
          if inputs.fails transaction = true then
            some (e.after (.error .database) e.db e.deeds)
          else
            match quoteEngine.evaluate i e.db prog with
            | some (.ok x, db) => some (e.after (.ok x) db (e.note db))
            | _ => none
      | _, _ => none

/-- The worker at its start, on the tables `db`. -/
def initial (inputs : WorkerInputs) (job : AnalysisJob) (attemptId : Uuid) (db : QuoteDb) :
    Execution where
  db
  stage := .marking attemptId inputs.configured
  job := { job with record := startAnalysis job.record }
  deeds := ⟨none, none⟩

/-- The executable steps are steps. -/
theorem next_refines (inputs : WorkerInputs) (job : AnalysisJob) (attemptId : Uuid)
    (db : QuoteDb) (i : QuoteInput) :
    (System.ofFun (initial inputs job attemptId db) (next inputs i)).Refines
      (system inputs job attemptId) id where
  init := by
    rintro e rfl
    exact ⟨rfl, rfl, rfl⟩
  step := by
    intro e u e' _ h
    have h : next inputs i e u = some e' := h
    show Step inputs e e'
    unfold next at h
    split at h
    · next attemptId hstage =>
      cases h
      exact .called hstage
    · split at h
      · -- A transaction fails where the inputs say so, and otherwise commits what it evaluates to.
        next transaction prog htransaction hbody =>
        by_cases hfails : inputs.fails transaction = true
        · rw [if_pos hfails] at h
          cases h
          exact .fails _ htransaction hfails
        · rw [if_neg hfails] at h
          split at h
          · next x db' heval =>
            cases h
            exact .commits htransaction (Bool.not_eq_true _ ▸ hfails) hbody
              (quoteEngine.runs_of_evaluate heval)
          · cases h
      · cases h

end Execution

variable [Postgres]

/-- When a worker runs to its end, the rows of its quote and its attempt agree unless its last
update of the quote fails, the attempt was started, and its end is recorded. -/
theorem outcome_agreement_iff (inputs : WorkerInputs) (job : AnalysisJob) (attemptId : Uuid)
    (e : Execution) (he : (Execution.system inputs job attemptId).Reachable e)
    (hend : e.stage = .done) :
    Execution.Agree inputs e.deeds ↔
      ¬ (inputs.configured = true ∧ inputs.fails .markAnalyzing = false ∧
        inputs.fails .startAttempt = false ∧ inputs.fails .recordOutcome = true ∧
        inputs.fails .finishAttempt = false) := by
  have hinvariant := Execution.invariant_reachable he
  rw [Execution.Invariant, hend] at hinvariant
  -- A worker that ended without both outcomes strands its quote or records it.
  rcases hinvariant with hunfinished | hfinished
  · exact ⟨fun _ => hunfinished.strands, fun _ => hunfinished.agree⟩
  · rw [hfinished.agree_iff]
    constructor
    · rintro hrecorded ⟨-, -, -, hfails, -⟩
      rw [hrecorded] at hfails
      cases hfails
    · intro hnot
      rw [← Bool.not_eq_true]
      intro hfails
      exact hnot ⟨hfinished.configured, hfinished.marked, hfinished.started, hfails,
        hfinished.finished⟩

end

/-! ### A paid analysis that is lost -/

section

attribute [local instance] fixtureLib openServer

/-- The model answers, and the transactions in `fails` fail. -/
def testInputs (fails : List WorkerTransaction) : WorkerInputs where
  configured := true
  outcome := testAnswer
  fails transaction := transaction ∈ fails

/-- The job of the create `testCreate`. -/
def testJob : AnalysisJob where
  record := newRecord testSettings "customer-1" fixtureRequest "2026-09-09T05:00:00Z" testQuote
  request := { applicationMarkdown := "Canonical Plus", wire := fixtureRequest }
  context := CanonicalContext.requestOnly

/-- The tables before the worker starts: one queued quote, and nothing else. -/
def testTables : QuoteDb :=
  Function.update emptyTables (.quote testQuote) (some {
    id := testQuote
    ownerSubject := "customer-1"
    contextRecordId := Uuid.nil
    requestJson := fixtureJson
    applicationContextMarkdown := "Canonical Plus"
    contextSnapshotMarkdown := ""
    contextSnapshotJson := .object []
    geminiModel := testSettings.geminiModel
    status := "queued"
    analysisJson := none
    errorCode := none
    createdAt := 0
    updatedAt := 0 })

/-- The five steps of the worker when nothing else moves. -/
def testWorker (fails : List WorkerTransaction) : Option Execution :=
  System.run (Execution.next (testInputs fails) ⟨none, 0, 1⟩)
    (Execution.initial (testInputs fails) testJob ⟨9⟩ testTables) (List.replicate 5 ())

/-- These steps are an execution. -/
theorem testWorker_reachable {fails : List WorkerTransaction} {e : Execution}
    (h : testWorker fails = some e) :
    (Execution.system (testInputs fails) testJob ⟨9⟩).Reachable e :=
  (Execution.next_refines (testInputs fails) testJob ⟨9⟩ testTables ⟨none, 0, 1⟩).reachable
    (System.reachable_of_run h)

/-- When only the last update fails, the worker ends with a completed attempt and a quote that
is still analyzing. -/
theorem lost_analysis :
    ∃ e, (Execution.system (testInputs [.recordOutcome]) testJob ⟨9⟩).Reachable e ∧
      e.stage = .done ∧
      (∃ attempt, e.deeds.attempt = some attempt ∧ attempt.status = "completed") ∧
      (∃ row, e.deeds.quote = some row ∧ row.status = "analyzing") ∧
      ¬ Execution.Agree (testInputs [.recordOutcome]) e.deeds := by
  -- The worker is run with the failure, and its deeds are compared.
  have hrun : ((testWorker [.recordOutcome]).map fun e =>
      (e.stage, e.deeds.attempt.map AttemptRow.status, e.deeds.quote.map QuoteRow.status)) =
      some (.done, some "completed", some "analyzing") := by
    decide
  obtain ⟨e, he, hstate⟩ := Option.map_eq_some_iff.mp hrun
  simp only [Prod.mk.injEq, Option.map_eq_some_iff] at hstate
  obtain ⟨hend, ⟨attempt, hattempt, hcompleted⟩, ⟨row, hrow, hanalyzing⟩⟩ := hstate
  refine ⟨e, testWorker_reachable he, hend, ⟨attempt, hattempt, hcompleted⟩,
    ⟨row, hrow, hanalyzing⟩, fun hagree => ?_⟩
  obtain ⟨row', _, hrow', hstatus, -⟩ := (hagree attempt hattempt).1 hcompleted
  rw [hrow] at hrow'
  cases hrow'
  rw [hanalyzing] at hstatus
  exact absurd hstatus (by decide)

/-- The worker of the fixture, when none of its transactions fails: it ends, and the rows of the
quote and of the attempt agree. -/
theorem outcome_agreement_iff_test :
    ∃ e, (Execution.system (testInputs []) testJob ⟨9⟩).Reachable e ∧ e.stage = .done ∧
      Execution.Agree (testInputs []) e.deeds := by
  have hrun : ((testWorker []).map fun e => e.stage) = some .done := by
    decide
  obtain ⟨e, he, hend⟩ := Option.map_eq_some_iff.mp hrun
  have hreachable := testWorker_reachable he
  refine ⟨e, hreachable, hend, ?_⟩
  apply (outcome_agreement_iff (testInputs []) testJob ⟨9⟩ e hreachable hend).mpr
  rintro ⟨-, -, -, hfails, -⟩
  exact absurd hfails (by decide)

end

end CanonicalApi
