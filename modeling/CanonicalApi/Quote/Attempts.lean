import CanonicalApi.Lib.Writers
import CanonicalApi.Quote.EventLog

/-!
# `CanonicalApi.Quote.Attempts`: the attempts of the model and their quotes

`run_quote_analysis` writes a row of `canonical_model_attempt` before it calls the model, and
marks it after the call. Both writes are transactions of their own, beside the ones that write
the quote. Each can fail, and the worker goes on without it.

The attempts are objects with a single writer again (`Writers`): the worker that inserted a row
is the only one that can still finish it. `AttemptCommit` says what a commit does to them.

`WorkerCommit` says what the commit of a worker does, and `Placement` what the worker relies on
in between. A quote is analysed again only after a retry, so each attempt of a quote has its own
`analyzing` event (`Counted`).
-/

set_option autoImplicit false

namespace CanonicalApi

open Transaction Transition
open SingleWriter (Protocol Exclusive Settled Write claimsOf claimsOf_eq)

/-! ### Attempts -/

/-- The status of an attempt in the tables. -/
def attemptStatusOf (db : QuoteDb) (id : Uuid) : Option String :=
  (db (.attempt id)).map AttemptRow.status

/-- The status of an attempt is the one of its row. -/
theorem attemptStatusOf_eq {db : QuoteDb} {id : Uuid} {row : AttemptRow}
    (h : db (.attempt id) = some row) : attemptStatusOf db id = some row.status := by
  rw [attemptStatusOf, h]
  rfl

/-- An attempt is started, and then it is completed or fails. -/
def attemptProtocol : Protocol String where
  edge old new := old = "started" ∧ new ∈ ["completed", "failed"]
  idle _ := False
  entry := "started"

/-- An attempt has an end exactly when it is not started any more, and an error exactly when it
failed. The first two fields are what `canonical_model_attempt_status_finished_check` demands. -/
structure AttemptRow.Consistent (row : AttemptRow) : Prop where
  known : row.status ∈ ["started", "completed", "failed"]
  finished : row.status = "started" ↔ row.finishedAt = none
  errorCode : row.status = "failed" ↔ row.errorCode ≠ none

/-- The row of an attempt before and after a step: it stays, it is inserted as started, or a
started one is marked. -/
inductive AttemptMove : Option AttemptRow → Option AttemptRow → Prop where
  | same {row : Option AttemptRow} : AttemptMove row row
  | start {row : AttemptRow} : row.status = "started" → AttemptMove none (some row)
  | finish {row : AttemptRow} {status : String} {errorCode : Option String} {now : Int} :
      row.status = "started" → status ∈ ["completed", "failed"] →
      AttemptMove (some row) (some { row with status, errorCode, finishedAt := some now })

/-- A row keeps its id, its quote and its owner. -/
theorem AttemptMove.kept {row : AttemptRow} {row' : Option AttemptRow}
    (h : AttemptMove (some row) row') : ∃ new, row' = some new ∧ new.id = row.id ∧
      new.quoteId = row.quoteId ∧ new.ownerSubject = row.ownerSubject := by
  cases h with
  | same => exact ⟨row, rfl, rfl, rfl, rfl⟩
  | finish _ _ => exact ⟨_, rfl, rfl, rfl, rfl⟩

/-- The quote exists and belongs to the subject, as in `canonical_model_attempt_quote_owner_fk`. -/
def HasOwner (db : QuoteDb) (quoteId : Uuid) (subject : String) : Prop :=
  ∃ row, db (.quote quoteId) = some row ∧ row.ownerSubject = subject

/-- How often the quote went into analysis. -/
def analyses (db : QuoteDb) (quoteId : Uuid) : Nat :=
  (db (.events quoteId)).countP fun event => event.status = "analyzing"

/-- An event with the status `analyzing` is one more analysis of its quote. -/
theorem analyses_progress {db : QuoteDb} {row : QuoteRow} {event : EventRow} {quoteId : Uuid}
    (hid : row.id = quoteId) (hstatus : event.status = "analyzing") :
    analyses (QuoteTables.progress db row event) quoteId = analyses db quoteId + 1 := by
  subst hid
  simp [analyses, QuoteTables.progress, hstatus]

/-- The attempt whose row the worker will still mark. -/
def WorkerStage.attempt? : WorkerStage → Option Uuid
  | calling attemptId | recording attemptId => attemptId
  | finishing attemptId => some attemptId
  | marking _ _ | starting _ | done => none

section

variable [CanonicalLib]

/-- The quote of the record exists and has the owner of the record. -/
def QuoteRecord.Owned (record : QuoteRecord) (db : QuoteDb) : Prop :=
  HasOwner db record.quoteId record.ownerSubject

/-- The claim of a process on an attempt. -/
def QuoteProc.attempt : QuoteProc → Option (Uuid × String)
  | worker stage _ => stage.attempt?.map fun attemptId => (attemptId, "started")
  | _ => none

/-- A worker that has an attempt claims it as started. -/
theorem QuoteProc.attempt_worker {stage : WorkerStage} {job : AnalysisJob} {id : Uuid}
    (h : stage.attempt? = some id) : (worker stage job).attempt = some (id, "started") := by
  rw [attempt, h]
  rfl

/-- What a commit that takes the process `p` to `p'` does to the attempts. One attempt starts, one
that was started ends, or nothing happens to them. -/
inductive AttemptCommit (db db' : QuoteDb) (p p' : QuoteProc) : Prop where
  | quiet : (∀ id, db' (.attempt id) = db (.attempt id)) →
      p'.attempt = none ∨ p'.attempt = p.attempt → AttemptCommit db db' p p'
  | start {id : Uuid} {job : AnalysisJob} : p = .worker (.starting id) job →
      p' = .worker (.calling (some id)) job → db (.attempt id) = none →
      db' = Function.update db (.attempt id) (some {
        id, quoteId := job.record.quoteId, ownerSubject := job.record.ownerSubject
        model := job.record.geminiModel, status := "started", errorCode := none
        finishedAt := none }) → AttemptCommit db db' p p'
  | finish {id : Uuid} {job : AnalysisJob} {row : AttemptRow} {now : Int} :
      p = .worker (.finishing id) job → p' = .worker .done job →
      db (.attempt id) = some row → row.status = "started" →
      db' = Function.update db (.attempt id) (some { row with
        status := if job.record.status = "completed" then "completed" else "failed"
        errorCode := job.record.errorCode, finishedAt := some now }) → AttemptCommit db db' p p'

variable [Postgres]

/-- `finish_model_attempt` marks an attempt only while it is started. -/
theorem worker_finish_started {job : AnalysisJob} {attemptId : Uuid} {db db' : QuoteDb}
    {x : QuoteResult}
    (h : quoteEngine.Runs db (do
      finishModelAttempt job.record attemptId
      return QuoteResult.finished) (.ok x) db') :
    x = .finished ∧ ∃ row now, db (.attempt attemptId) = some row ∧ row.status = "started" ∧
      db' = Function.update db (.attempt attemptId) (some { row with
        status := if job.record.status = "completed" then "completed" else "failed"
        errorCode := job.record.errorCode, finishedAt := some now }) := by
  rcases (quoteEngine.runs_bind_iff _ _ _ _ _).mp h with
    ⟨e, -, he⟩ | ⟨finished, db₁, hfinish, hx, hdb⟩
  · cases he
  cases hx
  subst hdb
  rcases runs_finishAttempt (runs_setSubject hfinish) with h | ⟨row, now, hrow, -, -, -, hstatus, h⟩
  · cases h.1
  · obtain ⟨-, hdb⟩ := h
    exact ⟨rfl, row, now, hrow, hstatus, hdb⟩

/-- `start_model_attempt` inserts the row of a new attempt. -/
theorem worker_start_new {job : AnalysisJob} {attemptId : Uuid} {db db' : QuoteDb}
    {x : QuoteResult}
    (h : quoteEngine.Runs db (do
      let attemptId ← startModelAttempt job.record attemptId
      return QuoteResult.started attemptId) (.ok x) db') :
    x = .started attemptId ∧ db (.attempt attemptId) = none ∧
      db' = Function.update db (.attempt attemptId) (some {
        id := attemptId, quoteId := job.record.quoteId, ownerSubject := job.record.ownerSubject
        model := job.record.geminiModel, status := "started", errorCode := none
        finishedAt := none }) := by
  rcases (quoteEngine.runs_bind_iff _ _ _ _ _).mp h with
    ⟨e, -, he⟩ | ⟨started, db₁, hstart, hx, hdb⟩
  · cases he
  cases hx
  subst hdb
  rcases startModelAttempt_cases hstart with ⟨e, he⟩ | ⟨hres, hnone, hdb⟩
  · cases he
  · cases hres
    exact ⟨rfl, hnone, hdb⟩

/-- An update by a worker that returns the record `found`. It leaves the attempts alone, and counts
as an analysis of the quote when it sets it to `analyzing`. -/
structure WorkerUpdated (db db' : QuoteDb) (record found : QuoteRecord) : Prop where
  attempts : ∀ id, db' (.attempt id) = db (.attempt id)
  owned : found.Owned db'
  quoteId : found.quoteId = record.quoteId
  ownerSubject : found.ownerSubject = record.ownerSubject
  status : found.status = record.status
  valid : record.Valid → found.Valid
  analysis : record.status = "analyzing" →
    analyses db' record.quoteId = analyses db record.quoteId + 1

/-- What the commit of a worker does, stage by stage, with the stage and the job afterwards. -/
inductive WorkerCommit (db db' : QuoteDb) :
    WorkerStage → AnalysisJob → WorkerStage → AnalysisJob → Prop where
  | marked {id : Uuid} {job : AnalysisJob} {found : QuoteRecord} :
      WorkerUpdated db db' job.record found →
      WorkerCommit db db' (.marking id true) job (.starting id) { job with record := found }
  | unconfigured {id : Uuid} {job : AnalysisJob} {found : QuoteRecord} :
      WorkerUpdated db db' job.record found →
      WorkerCommit db db' (.marking id false) job (.recording none)
        { job with record := notConfigured found }
  | started {id : Uuid} {job : AnalysisJob} : db (.attempt id) = none →
      db' = Function.update db (.attempt id) (some {
        id, quoteId := job.record.quoteId, ownerSubject := job.record.ownerSubject
        model := job.record.geminiModel, status := "started", errorCode := none
        finishedAt := none }) →
      WorkerCommit db db' (.starting id) job (.calling (some id)) job
  | unattempted {job : AnalysisJob} {found : QuoteRecord} :
      WorkerUpdated db db' job.record found →
      WorkerCommit db db' (.recording none) job .done job
  | recorded {id : Uuid} {job : AnalysisJob} {found : QuoteRecord} :
      WorkerUpdated db db' job.record found →
      WorkerCommit db db' (.recording (some id)) job (.finishing id) { job with record := found }
  | finished {id : Uuid} {job : AnalysisJob} {row : AttemptRow} {now : Int} :
      db (.attempt id) = some row → row.status = "started" →
      db' = Function.update db (.attempt id) (some { row with
        status := if job.record.status = "completed" then "completed" else "failed"
        errorCode := job.record.errorCode, finishedAt := some now }) →
      WorkerCommit db db' (.finishing id) job .done job

/-- The transaction of an update, when it commits: it found the quote and stored the record with
one event. -/
theorem worker_updated {job : AnalysisJob} {db db' : QuoteDb} {x : QuoteResult}
    (h : quoteEngine.Runs db (do
      let (event, record) ← updateQuote job.record
      return QuoteResult.updated event record) (.ok x) db') :
    ∃ event found, x = .updated event found ∧ WorkerUpdated db db' job.record found := by
  rcases (quoteEngine.runs_bind_iff _ _ _ _ _).mp h with
    ⟨e, -, he⟩ | ⟨⟨event, found⟩, db₁, hupdate, hx, rfl⟩
  · cases he
  cases hx
  rcases updateQuote_cases hupdate with ⟨e, he⟩ | ⟨event', found', old, now, eventRow, hres, hid,
    howner, hstatus, hanalysis, herror, hquote, hevent, rfl⟩
  · cases he
  cases hres
  obtain ⟨-, hrowid, hrowowner⟩ := quoteOf_eq_some hquote
  -- The row as the update leaves it.
  let row := QuoteTables.updated job.record.status job.record.analysis job.record.errorCode old
  refine ⟨event, found, rfl, ?_⟩
  exact {
    attempts := fun id => by simp
    owned := by
      refine ⟨{ row with updatedAt := now }, ?_, hrowowner.trans howner.symm⟩
      rw [hid, ← hrowid]
      exact QuoteTables.progress_quote_self _ _ _
    quoteId := hid
    ownerSubject := howner
    status := hstatus
    valid := by
      intro hvalid
      rw [QuoteRecord.Valid, hstatus, hanalysis, herror]
      exact hvalid
    analysis := fun hanalyzing => analyses_progress hrowid (hevent.status.trans hanalyzing) }

/-- Every commit of a worker is one of these. -/
theorem worker_commit {stage : WorkerStage} {job : AnalysisJob} {prog : QuoteTx QuoteResult}
    {db db' : QuoteDb} {x : QuoteResult} (hbody : stage.body job = some prog)
    (h : quoteEngine.Runs db prog (.ok x) db') :
    ∃ stage' job', quoteService.resume (.worker stage job) (.ok x) = .worker stage' job' ∧
      WorkerCommit db db' stage job stage' job' := by
  cases stage with
  -- Without a client the worker concludes at once, and no attempt follows.
  | marking id configured =>
    cases hbody
    obtain ⟨event, found, rfl, hupdated⟩ := worker_updated h
    cases configured with
    | true => exact ⟨_, _, rfl, .marked hupdated⟩
    | false => exact ⟨_, _, rfl, .unconfigured hupdated⟩
  | starting id =>
    cases hbody
    obtain ⟨rfl, hnone, hdb⟩ := worker_start_new h
    exact ⟨_, _, rfl, .started hnone hdb⟩
  -- An attempt is closed only if one was opened.
  | recording id? =>
    cases hbody
    obtain ⟨event, found, rfl, hupdated⟩ := worker_updated h
    cases id? with
    | none => exact ⟨_, _, rfl, .unattempted hupdated⟩
    | some id => exact ⟨_, _, rfl, .recorded hupdated⟩
  | finishing id =>
    cases hbody
    obtain ⟨rfl, row, now, hrow, hstarted, hdb⟩ := worker_finish_started h
    exact ⟨_, _, rfl, .finished hrow hstarted hdb⟩
  | calling id? => cases hbody
  | done => cases hbody

/-- A request that commits leaves the attempts alone, and has none. -/
theorem request_attempts {request : MutationRequest} {db db' : QuoteDb} {x : QuoteResult}
    (h : quoteEngine.Runs db request.body (.ok x) db') :
    (∀ id, db' (.attempt id) = db (.attempt id)) ∧
      ∀ stage job, request.resume (.ok x) ≠ .worker stage job := by
  rcases request.body_cases h with ⟨_, found, -, -, -, rfl, hresume⟩ |
    ⟨row, _, job, event, haccept, hresume⟩
  · refine ⟨fun _ => rfl, ?_⟩
    intro stage job
    rw [hresume]
    intro heq
    cases heq
  · -- An accepted request writes quote, event and operation, but no attempt.
    obtain ⟨eventRow, rfl⟩ := haccept.tables
    refine ⟨fun id => by simp, ?_⟩
    intro stage job
    rw [hresume]
    intro heq
    cases heq

omit [Postgres] in
/-- Only workers have an attempt. -/
theorem QuoteProc.attempt_eq_none {p : QuoteProc} (h : ∀ stage job, p ≠ .worker stage job) :
    p.attempt = none := by
  cases p with
  | worker stage job => exact absurd rfl (h stage job)
  | requested _ => rfl
  | accepted _ _ _ => rfl
  | replayed _ _ => rfl
  | answered _ _ => rfl

/-- What every commit does to the attempts. -/
theorem commit_attempts {p : QuoteProc} {prog : QuoteTx QuoteResult} {db db' : QuoteDb}
    {x : QuoteResult} (hbody : quoteService.body p = some prog)
    (h : quoteEngine.Runs db prog (.ok x) db') :
    AttemptCommit db db' p (quoteService.resume p (.ok x)) := by
  cases p with
  | requested request =>
    cases hbody
    obtain ⟨hsame, hresume⟩ := request_attempts h
    exact .quiet hsame (.inl (QuoteProc.attempt_eq_none hresume))
  | worker stage job =>
    obtain ⟨stage', job', hresume, hcommit⟩ := worker_commit hbody h
    rw [hresume]
    cases hcommit with
    | marked hupdated => exact .quiet hupdated.attempts (.inl rfl)
    | unconfigured hupdated => exact .quiet hupdated.attempts (.inl rfl)
    | started hnone hdb => exact .start rfl rfl hnone hdb
    | unattempted hupdated => exact .quiet hupdated.attempts (.inl rfl)
    | recorded hupdated => exact .quiet hupdated.attempts (.inr rfl)
    | finished hrow hstarted hdb => exact .finish rfl rfl hrow hstarted hdb
  | accepted _ _ _ => cases hbody
  | replayed _ _ => cases hbody
  | answered _ _ => cases hbody

/-- A step leaves an attempt or moves it. -/
theorem attempt_step {c c' : quoteService.Core} {a : quoteService.Action}
    (h : quoteService.AtomicStep c a c') (id : Uuid) :
    AttemptMove (c.db (.attempt id)) (c'.db (.attempt id)) := by
  -- Only a commit changes the tables.
  rcases h.commits with hsame | ⟨pid, p, prog, x, -, hbody, hruns, -⟩
  · rw [hsame]
    exact .same
  cases commit_attempts hbody hruns with
  | quiet hrows _ =>
    rw [hrows]
    exact .same
  | @start new job _ _ hnone hdb =>
    rw [hdb]
    by_cases hid : id = new
    · subst hid
      rw [Function.update_self, hnone]
      exact .start rfl
    · rw [Function.update_of_ne (by simpa using hid)]
      exact .same
  | @finish old job row now _ _ hrow hstarted hdb =>
    rw [hdb]
    by_cases hid : id = old
    · subst hid
      rw [Function.update_self, hrow]
      refine .finish hstarted ?_
      split <;> simp
    · rw [Function.update_of_ne (by simpa using hid)]
      exact .same

/-! ### A single writer for each attempt -/

/-- A process after a failed transaction has its claim of before, or none. -/
theorem resume_error_attempt {p : QuoteProc} {prog : QuoteTx QuoteResult} (e : StoreError)
    (hbody : quoteService.body p = some prog) :
    (quoteService.resume p (.error e)).attempt = none ∨
      (quoteService.resume p (.error e)).attempt = p.attempt := by
  cases p with
  | requested request => exact .inl rfl
  | worker stage job =>
    cases stage with
    | marking attemptId configured => exact .inl rfl
    | starting attemptId => exact .inl rfl
    -- A failed recording still closes its attempt, with the outcome it has.
    | recording attemptId =>
      cases attemptId with
      | none => exact .inl rfl
      | some id => exact .inr rfl
    | finishing attemptId => exact .inl rfl
    | calling attemptId => cases hbody
    | done => cases hbody
  | accepted _ _ _ => cases hbody
  | replayed _ _ => cases hbody
  | answered _ _ => cases hbody

/-- Only the worker that inserted an attempt will write it. -/
theorem attempt_writers :
    Service.Writers quoteService attemptProtocol attemptStatusOf QuoteProc.attempt where
  absent _ := rfl
  arrives p h := by
    obtain ⟨request, rfl⟩ := quote_arrives h
    rfl
  error p prog e hbody := resume_error_attempt e hbody
  advance p e p' child? h := by
    -- The only worker that an advance starts is that of an accepted request, which claims no
    -- attempt yet.
    rcases quote_advance_cases h with ⟨request, job, event, attemptId, rfl, rfl, rfl⟩ |
      ⟨request, record, rfl, rfl, rfl⟩ | ⟨attemptId, job, outcome, rfl, rfl, rfl⟩
    · refine ⟨.inl rfl, ?_⟩
      intro q hq
      cases hq
      rfl
    · exact ⟨.inl rfl, fun q hq => nomatch hq⟩
    · exact ⟨.inr rfl, fun q hq => nomatch hq⟩
  commit p prog x db db' hbody hruns := by
    -- A write to one attempt leaves the status of the others.
    have hothers : ∀ {id : Uuid} {row : AttemptRow} (id' : Uuid), id' ≠ id →
        attemptStatusOf (Function.update db (.attempt id) (some row)) id' =
          attemptStatusOf db id' := by
      intro id row id' hne
      rw [attemptStatusOf, Function.update_of_ne (by simpa using hne), attemptStatusOf]
    -- A commit inserts an attempt, ends one that was started, or touches none.
    cases commit_attempts hbody hruns with
    | quiet hrows hclaim =>
      refine .inl ⟨?_, hclaim⟩
      funext id
      rw [attemptStatusOf, hrows, attemptStatusOf]
    | @start id job hp hp' hnone hdb =>
      subst hp hdb
      refine .inr ⟨id, "started", ⟨?_, hothers, .inl ⟨.inl ?_, rfl⟩⟩, .inr ⟨?_, not_false⟩, ?_⟩
      · rw [attemptStatusOf_eq (Function.update_self ..)]
      · rw [attemptStatusOf, hnone]
        rfl
      · rw [hp']
        rfl
      · exact fun _ => rfl
    | @finish id job row now hp hp' hrow hstarted hdb =>
      subst hp hdb
      refine .inr ⟨id, _, ⟨attemptStatusOf_eq (Function.update_self ..), hothers, .inr ?_⟩,
        .inl ?_, ?_⟩
      · refine ⟨"started", rfl, rfl, ?_⟩
        show (if job.record.status = "completed" then "completed" else "failed") ∈ _
        split <;> simp
      · rw [hp']
        rfl
      · exact fun _ => rfl

/-! ### Attempts and their quotes -/

/-- A quote keeps its owner. -/
theorem hasOwner_step {c c' : quoteService.Core} {a : quoteService.Action} (hc : Lifecycle c)
    (h : quoteService.AtomicStep c a c') {quoteId : Uuid} {subject : String}
    (howned : HasOwner c.db quoteId subject) : HasOwner c'.db quoteId subject := by
  obtain ⟨row, hrow, howner⟩ := howned
  rcases step_logged hc h with hsame | ⟨written, event, hlogged⟩
  · exact ⟨row, (hsame _).1.trans hrow, howner⟩
  · by_cases hid : quoteId = written.id
    · subst hid
      exact ⟨written, hlogged.written, (hlogged.kept row hrow).symm.trans howner⟩
    · exact ⟨row, (hlogged.others _ hid).1.trans hrow, howner⟩

/-- The row of the attempt belongs to the quote of the record. -/
def QuoteRecord.Attempted (record : QuoteRecord) (db : QuoteDb) (id : Uuid) : Prop :=
  ∃ row, db (.attempt id) = some row ∧ row.quoteId = record.quoteId ∧
    row.ownerSubject = record.ownerSubject

/-- The worker has called the model: its record is completed or failed. -/
def QuoteRecord.Concluded (record : QuoteRecord) : Prop :=
  record.Valid ∧ StatusEdge "analyzing" record.status

/-- What a worker relies on: its quote has the owner of its record, and so has its attempt. -/
structure Placement (db : QuoteDb) (stage : WorkerStage) (job : AnalysisJob) : Prop where
  quote : job.record.Owned db
  attempt : ∀ id, stage.attempt? = some id → job.record.Attempted db id
  ended : ∀ id, stage = .finishing id → job.record.Concluded

omit [Postgres] in
/-- A worker without an attempt is placed when the owner of its quote has the quote. -/
theorem Placement.of_quote {db : QuoteDb} {stage : WorkerStage} {job : AnalysisJob}
    (hstage : stage.attempt? = none) (hquote : job.record.Owned db) : Placement db stage job where
  quote := hquote
  attempt id hid := by
    rw [hstage] at hid
    cases hid
  ended id hid := by
    rw [hid] at hstage
    cases hstage

/-- What a process relies on. -/
def QuoteProc.Placed (db : QuoteDb) : QuoteProc → Prop
  | accepted _ job _ => job.record.Owned db
  | worker stage job => Placement db stage job
  | _ => True

/-- A request that is accepted has the owner of its quote. -/
theorem MutationRequest.body_owned {request : MutationRequest} {db db' : QuoteDb}
    {x : QuoteResult} (h : quoteEngine.Runs db request.body (.ok x) db') :
    (request.resume (.ok x)).Placed db' := by
  obtain ⟨subject, key, mutation, settings⟩ := request
  cases mutation with
  | create accepted timestamp fresh =>
    rcases (quoteEngine.runs_bind_iff _ _ _ _ _).mp h with
      ⟨e, -, he⟩ | ⟨outcome, db₁, hcreate, hx, rfl⟩
    · cases he
    cases hx
    -- An accepted create has stored its quote under its subject.
    rcases createQuote_cases hcreate with ⟨e, he, -⟩ | ⟨_, _, -, -, -, -, hres, -⟩ |
      ⟨context, event, found, row, eventRow, -, hres, hid, howner, -, -, hrow, -, rfl⟩
    · cases he
    · cases hres
      trivial
    · cases hres
      refine ⟨row, ?_, hrow.ownerSubject.trans howner.symm⟩
      show QuoteTables.accept _ _ _ _ _ _ (.quote found.quoteId) = some row
      rw [hid, ← hrow.id, QuoteTables.accept_quote, QuoteTables.progress_quote_self]
  | retry quoteId =>
    rcases (quoteEngine.runs_bind_iff _ _ _ _ _).mp h with
      ⟨e, -, he⟩ | ⟨outcome, db₁, hretry, hx, rfl⟩
    · cases he
    cases hx
    -- An accepted retry has found its quote under its subject.
    rcases retryQuote_cases hretry with ⟨e, he, -⟩ | ⟨_, _, -, -, -, -, hres, -⟩ |
      ⟨context, event, found, row, now, eventRow, -, hres, hid, howner, -, hquote, -, -, -, rfl⟩
    · cases he
    · cases hres
      trivial
    · cases hres
      obtain ⟨hrow, hrowid, hsubject⟩ := quoteOf_eq_some hquote
      refine ⟨{ QuoteTables.requeued row with updatedAt := now }, ?_, hsubject.trans howner.symm⟩
      show QuoteTables.accept _ _ _ _ _ _ (.quote found.quoteId) = _
      rw [hid, ← hrowid, QuoteTables.accept_quote]
      exact QuoteTables.progress_quote_self _ _ _

/-- A worker after a committed transaction is placed. -/
theorem worker_ok_placed {stage : WorkerStage} {job : AnalysisJob} {prog : QuoteTx QuoteResult}
    {db db' : QuoteDb} {x : QuoteResult} (hsound : (QuoteProc.worker stage job).Sound)
    (hplaced : Placement db stage job) (hbody : stage.body job = some prog)
    (h : quoteEngine.Runs db prog (.ok x) db') :
    (quoteService.resume (.worker stage job) (.ok x)).Placed db' := by
  -- Neither write of an attempt touches the quotes.
  have hquote : ∀ {id : Uuid} {row : AttemptRow},
      job.record.Owned (Function.update db (.attempt id) (some row)) := by
    intro id row
    obtain ⟨old, hold, howner⟩ := hplaced.quote
    refine ⟨old, ?_, howner⟩
    rw [Function.update_of_ne (by simp), hold]
  obtain ⟨stage', job', hresume, hcommit⟩ := worker_commit hbody h
  rw [hresume]
  cases hcommit with
  | marked hupdated => exact .of_quote rfl hupdated.owned
  | unconfigured hupdated => exact .of_quote rfl hupdated.owned
  | started hnone hdb =>
    subst hdb
    refine ⟨hquote, ?_, fun _ hstage => nomatch hstage⟩
    intro id hattempt
    cases hattempt
    exact ⟨_, Function.update_self .., rfl, rfl⟩
  | unattempted hupdated =>
    refine .of_quote rfl ?_
    show job.record.Owned db'
    rw [QuoteRecord.Owned, ← hupdated.quoteId, ← hupdated.ownerSubject]
    exact hupdated.owned
  | @recorded id job found hupdated =>
    refine ⟨hupdated.owned, ?_, ?_⟩
    · intro id hattempt
      show found.Attempted db' id
      rw [QuoteRecord.Attempted, hupdated.attempts, hupdated.quoteId, hupdated.ownerSubject]
      exact hplaced.attempt id hattempt
    · intro id _
      obtain ⟨hvalid, hedge⟩ := hsound
      refine ⟨hupdated.valid hvalid, ?_⟩
      show StatusEdge "analyzing" found.status
      rw [hupdated.status]
      exact hedge
  | finished hrow hstarted hdb =>
    subst hdb
    exact .of_quote rfl hquote

/-- So is a worker after a failed one. -/
theorem worker_error_placed {stage : WorkerStage} {job : AnalysisJob} {db : QuoteDb}
    (e : StoreError) (hsound : (QuoteProc.worker stage job).Sound)
    (hplaced : Placement db stage job) :
    (quoteService.resume (.worker stage job) (.error e)).Placed db := by
  cases stage with
  | recording attemptId =>
    cases attemptId with
    | none => exact .of_quote rfl hplaced.quote
    | some attemptId => exact ⟨hplaced.quote, hplaced.attempt, fun _ _ => hsound⟩
  | marking _ _ => exact .of_quote rfl hplaced.quote
  | starting _ => exact .of_quote rfl hplaced.quote
  | calling _ => exact .of_quote rfl hplaced.quote
  | finishing _ => exact .of_quote rfl hplaced.quote
  | done => exact .of_quote rfl hplaced.quote

/-- A step keeps the processes placed. -/
theorem placed_step {c c' : quoteService.Core} {a : quoteService.Action} (hc : Lifecycle c)
    (hplaced : ∀ pid p, c.procs pid = some p → p.Placed c.db)
    (h : quoteService.AtomicStep c a c') :
    ∀ pid p, c'.procs pid = some p → p.Placed c'.db := by
  -- The proof needs soundness of each process as well, so both are carried together.
  have hboth : ∀ pid p, c'.procs pid = some p → p.Sound ∧ p.Placed c'.db := by
    refine h.all (I := fun db p => QuoteProc.Sound p ∧ QuoteProc.Placed db p)
      (fun pid p hp => ⟨hc.sound pid p hp, hplaced pid p hp⟩) ?_ ?_ ?_ ?_ ?_
    · intro p ⟨hsound, hp⟩
      refine ⟨hsound, ?_⟩
      cases p with
      | accepted request job event => exact hasOwner_step hc h hp
      -- The quote keeps its owner, and so does the attempt, whose row only changes its status.
      | worker stage job =>
        refine ⟨hasOwner_step hc h hp.quote, ?_, hp.ended⟩
        intro id hattempt
        obtain ⟨row, hrow, hid, howner⟩ := hp.attempt id hattempt
        have hmove := attempt_step h id
        rw [hrow] at hmove
        obtain ⟨new, hnew, -, hnewid, hnewowner⟩ := hmove.kept
        exact ⟨new, hnew, hnewid.trans hid, hnewowner.trans howner⟩
      | requested _ => trivial
      | replayed _ _ => trivial
      | answered _ _ => trivial
    · intro p harrives
      obtain ⟨request, rfl⟩ := quote_arrives harrives
      exact ⟨trivial, trivial⟩
    · intro p prog x ⟨hsound, hp⟩ hbody hruns
      refine ⟨resume_ok_sound hsound hbody hruns, ?_⟩
      cases p with
      | requested request =>
        cases hbody
        exact request.body_owned hruns
      | worker stage job => exact worker_ok_placed hsound hp hbody hruns
      | accepted _ _ _ => cases hbody
      | replayed _ _ => cases hbody
      | answered _ _ => cases hbody
    · intro p prog e ⟨hsound, hp⟩ hbody
      refine ⟨resume_error_sound hbody e, ?_⟩
      cases p with
      | requested request => trivial
      | worker stage job => exact worker_error_placed e hsound hp
      | accepted _ _ _ => cases hbody
      | replayed _ _ => cases hbody
      | answered _ _ => cases hbody
    · intro p e p' child? ⟨hsound, hp⟩ hmove
      rcases quote_advance_cases hmove with ⟨request, job, event, attemptId, rfl, rfl, rfl⟩ |
        ⟨request, record, rfl, rfl, rfl⟩ | ⟨attemptId, job, outcome, rfl, rfl, rfl⟩
      · refine ⟨⟨trivial, trivial⟩, ?_⟩
        intro q hq
        cases hq
        exact ⟨⟨startAnalysis_valid _, rfl⟩, .of_quote rfl hp⟩
      · exact ⟨⟨trivial, trivial⟩, fun q hq => nomatch hq⟩
      · refine ⟨⟨⟨concludeAnalysis_valid _ _, concludeAnalysis_edge _ _⟩, ?_⟩,
          fun q hq => nomatch hq⟩
        refine ⟨?_, ?_, fun _ hstage => nomatch hstage⟩
        · show (concludeAnalysis job.record outcome).Owned c'.db
          rw [QuoteRecord.Owned, concludeAnalysis_quoteId, concludeAnalysis_ownerSubject]
          exact hp.quote
        · intro id hattempt
          show (concludeAnalysis job.record outcome).Attempted c'.db id
          rw [QuoteRecord.Attempted, concludeAnalysis_quoteId, concludeAnalysis_ownerSubject]
          exact hp.attempt id hattempt
  exact fun pid p hp => (hboth pid p hp).2

/-- The row of an attempt is consistent, and its quote exists and has the same owner. -/
structure AttemptRow.Sound (db : QuoteDb) (id : Uuid) (row : AttemptRow) : Prop where
  id : row.id = id
  consistent : row.Consistent
  owner : HasOwner db row.quoteId row.ownerSubject

omit [CanonicalLib] [Postgres] in
/-- A started attempt has no end and no error. -/
theorem AttemptRow.Consistent.started {row : AttemptRow} (h : row.status = "started")
    (hfinished : row.finishedAt = none) (herror : row.errorCode = none) : row.Consistent where
  known := by
    rw [h]
    decide
  finished := iff_of_true h hfinished
  errorCode := by
    rw [h, herror]
    decide

omit [Postgres] in
/-- A record that has ended marks an attempt consistently. -/
theorem QuoteRecord.Concluded.mark {record : QuoteRecord} (h : record.Concluded)
    (row : AttemptRow) (now : Int) : AttemptRow.Consistent { row with
      status := if record.status = "completed" then "completed" else "failed"
      errorCode := record.errorCode, finishedAt := some now } := by
  obtain ⟨hvalid, hedge⟩ := h
  -- A conclusion is completed or failed, and the attempt takes the same status.
  have hstatus : (if record.status = "completed" then "completed" else "failed") =
      record.status := by
    rcases statusEdge_iff.mp hedge with ⟨h, -⟩ | ⟨-, h⟩ | ⟨-, h⟩ | ⟨h, -⟩
    · exact absurd h (by decide)
    · rw [if_pos h, h]
    · rw [h]
      rfl
    · exact absurd h (by decide)
  constructor
  · show (if record.status = "completed" then "completed" else "failed") ∈ _
    split <;> simp
  · show (if record.status = "completed" then "completed" else "failed") = "started" ↔ _
    split <;> simp
  · show (if record.status = "completed" then "completed" else "failed") = "failed" ↔ _
    rw [hstatus]
    exact hvalid.errorCode

/-- What holds of the attempts in every reachable state. -/
structure AttemptsSound (c : quoteService.Core) : Prop where
  placed : ∀ pid p, c.procs pid = some p → p.Placed c.db
  rows : ∀ id row, c.db (.attempt id) = some row → row.Sound c.db id

/-- A step keeps the attempts sound. -/
theorem attemptsSound_step {c c' : quoteService.Core} {a : quoteService.Action}
    (hc : Lifecycle c) (hattempts : AttemptsSound c) (h : quoteService.AtomicStep c a c') :
    AttemptsSound c' := by
  refine ⟨placed_step hc hattempts.placed h, ?_⟩
  -- A row that stays keeps its quote.
  have hold : ∀ {id row}, c.db (.attempt id) = some row → row.Sound c'.db id := by
    intro id row hrow
    have hsound := hattempts.rows id row hrow
    exact ⟨hsound.id, hsound.consistent, hasOwner_step hc h hsound.owner⟩
  intro id row hrow
  rcases h.commits with hsame | ⟨pid, p, prog, x, hp, hbody, hruns, -⟩
  · rw [hsame] at hrow
    exact hold hrow
  have hplaced := hattempts.placed pid p hp
  cases commit_attempts hbody hruns with
  | quiet hrows _ =>
    rw [hrows] at hrow
    exact hold hrow
  | @start new job hworker _ _ hdb =>
    subst hworker
    by_cases hid : id = new
    · subst hid
      rw [hdb, Function.update_self] at hrow
      cases hrow
      exact ⟨rfl, .started rfl rfl rfl, hasOwner_step hc h hplaced.quote⟩
    · rw [hdb, Function.update_of_ne (by simpa using hid)] at hrow
      exact hold hrow
  | @finish old job started now hworker _ hstarted _ hdb =>
    subst hworker
    by_cases hid : id = old
    · subst hid
      rw [hdb, Function.update_self] at hrow
      cases hrow
      have hbefore := hold hstarted
      exact ⟨hbefore.id, (hplaced.ended id rfl).mark started now, hbefore.owner⟩
    · rw [hdb, Function.update_of_ne (by simpa using hid)] at hrow
      exact hold hrow

/-! ### Attempts and analyses -/

/-- These attempts belong to the quote. -/
def AttemptsOf (db : QuoteDb) (quoteId : Uuid) (ids : List Uuid) : Prop :=
  ids.Nodup ∧ ∀ id ∈ ids, ∃ row, db (.attempt id) = some row ∧ row.quoteId = quoteId

/-- Each attempt of a quote has its own event of an analysis. A worker that will insert an
attempt has an event for it. -/
structure Counted (c : quoteService.Core) : Prop where
  attempts : ∀ quoteId ids, AttemptsOf c.db quoteId ids → ids.length ≤ analyses c.db quoteId
  starting : ∀ pid attemptId job, c.procs pid = some (.worker (.starting attemptId) job) →
    ∀ ids, AttemptsOf c.db job.record.quoteId ids → ids.length < analyses c.db job.record.quoteId

omit [CanonicalLib] [Postgres] in
/-- The attempts of a quote depend on the attempt rows alone. -/
theorem AttemptsOf.congr {db db' : QuoteDb} {quoteId : Uuid} {ids : List Uuid}
    (h : ∀ id, db' (.attempt id) = db (.attempt id)) (hids : AttemptsOf db' quoteId ids) :
    AttemptsOf db quoteId ids := by
  refine ⟨hids.1, ?_⟩
  intro id hid
  rw [← h]
  exact hids.2 id hid

/-- A step does not remove an analysis. -/
theorem analyses_step {c c' : quoteService.Core} {a : quoteService.Action} (hc : Lifecycle c)
    (h : quoteService.AtomicStep c a c') (quoteId : Uuid) :
    analyses c.db quoteId ≤ analyses c'.db quoteId := by
  rcases step_logged hc h with hsame | ⟨row, event, hlogged⟩
  · rw [analyses, analyses, (hsame quoteId).2]
  · by_cases hid : quoteId = row.id
    · rw [analyses, analyses, hid, hlogged.appended, List.countP_append]
      omega
    · rw [analyses, analyses, (hlogged.others quoteId hid).2]

/-- The attempts of a quote after a step were there before, or one of them was inserted. -/
theorem attemptsOf_step {c c' : quoteService.Core} {a : quoteService.Action}
    (h : quoteService.AtomicStep c a c') {quoteId : Uuid} {ids : List Uuid}
    (hids : AttemptsOf c'.db quoteId ids) :
    AttemptsOf c.db quoteId ids ∨ ∃ pid new job,
      c.procs pid = some (.worker (.starting new) job) ∧ job.record.quoteId = quoteId ∧
      (∀ attemptId job', c'.procs pid ≠ some (.worker (.starting attemptId) job')) ∧
      new ∈ ids ∧ AttemptsOf c.db quoteId (ids.erase new) := by
  rcases h.commits with hsame | ⟨pid, p, prog, x, hp, hbody, hruns, hend⟩
  · rw [hsame] at hids
    exact .inl hids
  cases commit_attempts hbody hruns with
  | quiet hrows _ => exact .inl (hids.congr hrows)
  | @start new job hworker hresume _ hdb =>
    subst hworker
    have hother : ∀ id ∈ ids, id ≠ new →
        ∃ row, c.db (.attempt id) = some row ∧ row.quoteId = quoteId := by
      intro id hid hne
      obtain ⟨row, hrow, hquote⟩ := hids.2 id hid
      rw [hdb, Function.update_of_ne (by simpa using hne)] at hrow
      exact ⟨row, hrow, hquote⟩
    by_cases hnew : new ∈ ids
    · obtain ⟨row, hrow, hquote⟩ := hids.2 new hnew
      rw [hdb, Function.update_self] at hrow
      cases hrow
      refine .inr ⟨pid, new, job, hp, hquote, ?_, hnew, hids.1.erase new, ?_⟩
      · intro attemptId job'
        rcases hend with ⟨-, hprocs⟩ | ⟨-, -, hprocs⟩
        · rw [hprocs, hresume, Service.put, Function.update_self]
          intro heq
          cases heq
        · rw [hprocs, Service.put, Function.update_self]
          intro heq
          cases heq
      · intro id hid
        obtain ⟨hne, hmem⟩ := hids.1.mem_erase_iff.mp hid
        exact hother id hmem hne
    · refine .inl ⟨hids.1, fun id hid => hother id hid ?_⟩
      intro heq
      exact hnew (heq ▸ hid)
  | @finish old job row now _ _ hstarted _ hdb =>
    -- The marked attempt was there before.
    refine .inl ⟨hids.1, fun id hid => ?_⟩
    obtain ⟨row', hrow', hquote⟩ := hids.2 id hid
    by_cases heq : id = old
    · subst heq
      rw [hdb, Function.update_self] at hrow'
      cases hrow'
      exact ⟨row, hstarted, hquote⟩
    · rw [hdb, Function.update_of_ne (by simpa using heq)] at hrow'
      exact ⟨row', hrow', hquote⟩

/-- Only the first update of a worker takes it to its attempt. -/
theorem resume_starting {p : QuoteProc} {prog : QuoteTx QuoteResult} {db db' : QuoteDb}
    {x : QuoteResult} {attemptId : Uuid} {job : AnalysisJob}
    (hbody : quoteService.body p = some prog) (h : quoteEngine.Runs db prog (.ok x) db')
    (hresume : quoteService.resume p (.ok x) = .worker (.starting attemptId) job) :
    ∃ before, p = .worker (.marking attemptId true) before ∧
      WorkerUpdated db db' before.record job.record := by
  cases p with
  | requested request =>
    cases hbody
    exact absurd hresume ((request_attempts h).2 _ _)
  | worker stage before =>
    obtain ⟨stage', job', hnext, hcommit⟩ := worker_commit hbody h
    rw [hresume] at hnext
    cases hnext
    cases hcommit with
    | marked hupdated => exact ⟨before, rfl, hupdated⟩
  | accepted _ _ _ => cases hbody
  | replayed _ _ => cases hbody
  | answered _ _ => cases hbody

/-- A failed transaction takes no worker to its attempt. -/
theorem resume_error_starting {p : QuoteProc} {prog : QuoteTx QuoteResult} (e : StoreError)
    (hbody : quoteService.body p = some prog) (attemptId : Uuid) (job : AnalysisJob) :
    quoteService.resume p (.error e) ≠ .worker (.starting attemptId) job := by
  intro hresume
  cases p with
  | requested request => cases hresume
  | worker stage before =>
    cases stage with
    | recording id => cases id <;> cases hresume
    | marking _ _ => cases hresume
    | starting _ => cases hresume
    | finishing _ => cases hresume
    | calling id => cases hbody
    | done => cases hbody
  | accepted _ _ _ => cases hbody
  | replayed _ _ => cases hbody
  | answered _ _ => cases hbody

/-- A step keeps the attempts counted. -/
theorem counted_step {c c' : quoteService.Core} {a : quoteService.Action} (hc : Lifecycle c)
    (hcounted : Counted c) (h : quoteService.AtomicStep c a c') : Counted c' := by
  have hgrows := analyses_step hc h
  constructor
  · intro quoteId ids hids
    have hgrow := hgrows quoteId
    rcases attemptsOf_step h hids with hbefore | ⟨pid, new, job, hp, hquote, -, hnew, hbefore⟩
    · have hle := hcounted.attempts quoteId ids hbefore
      omega
    · -- The worker had an event for the new attempt.
      subst hquote
      have hlt := hcounted.starting pid new job hp _ hbefore
      rw [List.length_erase_of_mem hnew] at hlt
      omega
  · intro pid attemptId job hp' ids hids
    cases h.origin hp' with
    | same hp =>
      have hgrow := hgrows job.record.quoteId
      rcases attemptsOf_step h hids with hbefore | ⟨pid', new, job', hp₁, hquote, hgone, -⟩
      · have hlt := hcounted.starting pid attemptId job hp ids hbefore
        omega
      · -- The worker that inserted an attempt of the quote is this one, and it has moved on.
        have hclaim : claimsOf QuoteProc.claim c.procs pid =
            some (job.record.quoteId, "analyzing") := claimsOf_eq hp
        have hclaim' : claimsOf QuoteProc.claim c.procs pid' =
            some (job'.record.quoteId, "analyzing") := claimsOf_eq hp₁
        rw [hquote] at hclaim'
        have hsame := hc.exclusive.single pid pid' _ _ _ hclaim hclaim'
        subst hsame
        exact absurd hp' (hgone attemptId job)
    | arrived _ harrives =>
      obtain ⟨request, hrequest⟩ := quote_arrives harrives
      cases hrequest
    | @resumed p prog res db' _ hp hbody hruns hdb hresume =>
      cases res with
      | error e => exact absurd hresume.symm (resume_error_starting e hbody attemptId job)
      | ok x =>
        have hdb : c'.db = db' := hdb
        obtain ⟨before, rfl, hupdated⟩ := resume_starting hbody hruns hresume.symm
        obtain ⟨-, hanalyzing⟩ := hc.sound pid _ hp
        rw [hdb] at hids ⊢
        have hle := hcounted.attempts _ ids (hids.congr hupdated.attempts)
        have hevent := hupdated.analysis hanalyzing
        rw [hupdated.quoteId] at hle ⊢
        omega
    | faulted _ hbody hresume =>
      exact absurd hresume.symm (resume_error_starting _ hbody attemptId job)
    | advanced _ hmove =>
      rcases quote_advance_cases hmove with ⟨_, _, _, _, -, hp, -⟩ | ⟨_, _, -, hp, -⟩ |
        ⟨_, _, _, -, hp, -⟩
      · cases hp
      · cases hp
      · cases hp
    | started _ _ hmove =>
      rcases quote_advance_cases hmove with ⟨_, _, _, _, -, -, hchild⟩ | ⟨_, _, -, -, hchild⟩ |
        ⟨_, _, _, -, -, hchild⟩
      · cases hchild
      · cases hchild
      · cases hchild

/-! ### Every run -/

/-- The attempts are sound and counted in every reachable state. -/
theorem attempts_reachable {c : quoteService.Core} (hc : quoteService.atomic.Reachable c) :
    AttemptsSound c ∧ Counted c := by
  refine hc.induct (I := fun c => AttemptsSound c ∧ Counted c) ?_ ?_
  · intro c hinit
    -- At the start there are no attempts.
    subst hinit
    refine ⟨⟨?_, ?_⟩, ⟨?_, ?_⟩⟩
    · intro pid p hp
      cases hp
    · intro id row hrow
      cases hrow
    · intro quoteId ids hids
      cases ids with
      | nil => exact Nat.zero_le _
      | cons id ids =>
        obtain ⟨row, hrow, -⟩ := hids.2 id List.mem_cons_self
        cases hrow
    · intro pid attemptId job hp
      cases hp
  · intro c a c' hr ⟨hattempts, hcounted⟩ _ h
    have hlife := lifecycle_reachable hr
    exact ⟨attemptsSound_step hlife hattempts h, counted_step hlife hcounted h⟩

/-- The attempts in every run of any number of handlers and workers, with failures at any
point.

- An attempt is inserted as started and marked once. It never changes otherwise, and never
  disappears.
- It has an end exactly when it is not started any more, and an error exactly when it failed.
  Its quote exists and has the same owner.
- At most one worker can still mark it, and until then it is started.
- A quote has no more attempts than it went into analysis. -/
theorem attempts_recorded :
    (∀ s a s', quoteService.interleaved.Reachable s → quoteService.interleaved.step s a s' →
      ∀ id, AttemptMove (s.db (.attempt id)) (s'.db (.attempt id))) ∧
    ∀ s, quoteService.interleaved.Reachable s →
      (∀ id row, s.db (.attempt id) = some row → row.Sound s.db id) ∧
      (∀ pid stage job id, s.procs pid = some (.worker stage job) → stage.attempt? = some id →
        attemptStatusOf s.db id = some "started" ∧ ∀ pid' stage' job',
          s.procs pid' = some (.worker stage' job') → stage'.attempt? = some id → pid' = pid) ∧
      ∀ quoteId ids, AttemptsOf s.db quoteId ids → ids.length ≤ analyses s.db quoteId := by
  have hrefines := Service.interleaved_refines_atomic quoteService_disciplined
  refine ⟨?_, ?_⟩
  · intro s a s' hs hstep id
    exact attempt_step (hrefines.step s a s' hs hstep) id
  · intro s hs
    have hr := hrefines.reachable hs
    obtain ⟨hattempts, hcounted⟩ := attempts_reachable hr
    have hexclusive := attempt_writers.exclusive hr
    -- A worker with an attempt claims it as started, and claims are exclusive.
    have hclaim : ∀ {pid stage job id}, s.procs pid = some (.worker stage job) →
        stage.attempt? = some id →
        claimsOf QuoteProc.attempt s.procs pid = some (id, "started") := by
      intro pid stage job id hp hstage
      rw [claimsOf_eq hp]
      exact QuoteProc.attempt_worker hstage
    refine ⟨hattempts.rows, ?_, hcounted.attempts⟩
    intro pid stage job id hp hstage
    refine ⟨hexclusive.expected pid id _ (hclaim hp hstage), ?_⟩
    intro pid' stage' job' hp' hstage'
    exact hexclusive.single pid' pid id _ _ (hclaim hp' hstage') (hclaim hp hstage)

end

section

attribute [local instance] fixtureLib openServer

/-- The quote and the status of the attempt of `testCreate`. -/
def testAttempt (s : quoteService.State) : Option (Uuid × String) :=
  (s.db (.attempt ⟨9⟩)).map fun row => (row.quoteId, row.status)

/-- A run whose call fails. The attempt is closed with an error code, and the quote went into
analysis at least once. -/
theorem attempts_recorded_test :
    ∃ s, quoteService.interleaved.Reachable s ∧ (∃ row, s.db (.attempt ⟨9⟩) = some row ∧
      row.status = "failed" ∧ row.errorCode ≠ none) ∧ 1 ≤ analyses s.db testQuote := by
  have hrun : ((System.run quoteService.next quoteService.initial testFailed).map
      fun s => testAttempt s == some (testQuote, "failed")) = some true := by
    decide
  obtain ⟨s, hs, hview⟩ := System.exists_reachable_of_run testFailed _ hrun
  obtain ⟨row, hrow, hpair⟩ := Option.map_eq_some_iff.mp (eq_of_beq hview)
  obtain ⟨hquote, hfailed⟩ := Prod.mk.inj hpair
  obtain ⟨hrows, -, hcounted⟩ := attempts_recorded.2 s hs
  have hsound := hrows ⟨9⟩ row hrow
  refine ⟨s, hs, ⟨row, hrow, hfailed, hsound.consistent.errorCode.mp hfailed⟩, ?_⟩
  apply hcounted testQuote [⟨9⟩]
  refine ⟨List.pairwise_singleton _ _, ?_⟩
  intro id hid
  rw [List.mem_singleton.mp hid]
  exact ⟨row, hrow, hquote⟩

end

end CanonicalApi
