import CanonicalApi.Quote.Service

/-!
# `CanonicalApi.Quote.Lifecycle`: the status of a quote in the database

`update_quote` writes its status without a look at the current one. What keeps the status on
the edges of `StatusEdge` is that at most one process at a time can still write the row of a
quote: the handler that was just accepted, and then the worker that it started. The next such
process comes from a retry, which locks the row and finds it failed, and a failed row has no
process left.

This is the argument of `SingleWriter`. The claim of a process is the quote that it can still
write and the status that the row has until then. `quote_step_cases` is the step lemma: a step
either leaves the rows alone, or it is the write of one row.
-/

set_option autoImplicit false

namespace CanonicalApi

open Transaction Transition
open SingleWriter (Exclusive Succession Write claimsOf claimsOf_eq succession_put
  succession_spawn succession_remove)

/-- The status of a quote in the tables. -/
def statusOf (db : QuoteDb) (id : Uuid) : Option String := (db (.quote id)).map QuoteRow.status

/-- The status of a quote is the one of its row. -/
theorem statusOf_eq {db : QuoteDb} {id : Uuid} {row : QuoteRow}
    (h : db (.quote id) = some row) : statusOf db id = some row.status := by
  rw [statusOf, h]
  rfl

/-- The write of one row by a process with the claim `claim`. -/
structure RowWrite (db db' : QuoteDb) (claim : Option (Uuid × String)) (row : QuoteRow) :
    Prop where
  written : db' (.quote row.id) = some row
  others : ∀ id, id ≠ row.id → db' (.quote id) = db (.quote id)
  valid : ValidState row.status row.analysisJson row.errorCode
  write : Write quoteProtocol (statusOf db) (statusOf db') claim row.id row.status

/-- A write of the cell of one quote, as a `RowWrite`. -/
theorem RowWrite.of {db db' : QuoteDb} {claim : Option (Uuid × String)} {row : QuoteRow}
    (hwritten : db' (.quote row.id) = some row)
    (hothers : ∀ id, id ≠ row.id → db' (.quote id) = db (.quote id))
    (hvalid : ValidState row.status row.analysisJson row.errorCode)
    (hbefore : Acceptable db row ∧ row.status = "queued" ∨
      ∃ status, claim = some (row.id, status) ∧ StatusEdge status row.status) :
    RowWrite db db' claim row where
  written := hwritten
  others := hothers
  valid := hvalid
  write := by
    refine ⟨statusOf_eq hwritten, fun id hne => by rw [statusOf, hothers id hne, statusOf], ?_⟩
    rcases hbefore with ⟨hnone | ⟨old, hold, hfailed, -⟩, hqueued⟩ | hclaim
    · exact .inl ⟨.inl (by rw [statusOf, hnone, Option.map_none]), hqueued⟩
    · exact .inl ⟨.inr ⟨old.status, statusOf_eq hold, hfailed⟩, hqueued⟩
    · exact .inr hclaim

section

variable [CanonicalLib]

/-- The worker can still write the row of its quote. -/
def WorkerStage.mayWrite : WorkerStage → Bool
  | marking _ _ | starting _ | calling _ | recording _ => true
  | finishing _ | done => false

/-- The quote that a process can still write, and the status that its row has until then. -/
def QuoteProc.claim : QuoteProc → Option (Uuid × String)
  | accepted _ job _ => some (job.record.quoteId, "queued")
  | worker (.marking _ _) job => some (job.record.quoteId, "queued")
  | worker stage job =>
      if stage.mayWrite then some (job.record.quoteId, "analyzing") else none
  | _ => none

/-- The record that a worker writes next is valid and follows an edge. -/
def QuoteProc.Sound : QuoteProc → Prop
  | worker (.marking _ _) job => job.record.Valid ∧ job.record.status = "analyzing"
  | worker (.recording _) job =>
      job.record.Valid ∧ StatusEdge "analyzing" job.record.status
  | _ => True

variable [Postgres]

/-- What holds in every reachable state. -/
structure Lifecycle (c : quoteService.Core) : Prop where
  rows : ∀ id row, c.db (.quote id) = some row →
    row.id = id ∧ ValidState row.status row.analysisJson row.errorCode
  sound : ∀ pid p, c.procs pid = some p → p.Sound
  exclusive : Exclusive quoteProtocol (statusOf c.db) (claimsOf QuoteProc.claim c.procs)

/-! ### Steps -/

/-- A process after a failed transaction has its claim of before, or none. -/
theorem resume_error_claim {p : QuoteProc} {prog : QuoteTx QuoteResult}
    (hbody : quoteService.body p = some prog) (e : StoreError) :
    (quoteService.resume p (.error e)).claim = none ∨
      (quoteService.resume p (.error e)).claim = p.claim := by
  cases p with
  | requested request => exact .inl rfl
  | worker stage job =>
    cases stage with
    | marking attemptId configured => exact .inl rfl
    | starting attemptId => exact .inr rfl
    | recording attemptId => cases attemptId <;> exact .inl rfl
    | finishing attemptId => exact .inl rfl
    | calling attemptId => cases hbody
    | done => cases hbody
  | accepted _ _ _ => cases hbody
  | replayed _ _ => cases hbody
  | answered _ _ => cases hbody

/-- A commit either leaves the rows alone, or it writes one row. -/
theorem commit_rows {p : QuoteProc} {prog : QuoteTx QuoteResult} {db db' : QuoteDb}
    {x : QuoteResult} (hsound : p.Sound) (hbody : quoteService.body p = some prog)
    (h : quoteEngine.Runs db prog (.ok x) db') :
    ((∀ id, db' (.quote id) = db (.quote id)) ∧
      ((quoteService.resume p (.ok x)).claim = none ∨
        (quoteService.resume p (.ok x)).claim = p.claim)) ∨
    ∃ row, RowWrite db db' p.claim row ∧
      ((quoteService.resume p (.ok x)).claim = none ∨
        (quoteService.resume p (.ok x)).claim = some (row.id, row.status) ∧
          row.status ≠ "failed") ∧
      ∀ e, (quoteService.resume p (.error e)).claim = none := by
  cases p with
  | requested request =>
    cases hbody
    -- A request writes a quote only when it is accepted, and then the handler claims it as queued.
    rcases request.body_cases h with ⟨_, found, -, -, -, rfl, hresume⟩ |
      ⟨row, operation, job, event, haccept, hresume⟩
    · refine .inl ⟨fun _ => rfl, .inl ?_⟩
      show (request.resume (.ok x)).claim = none
      rw [hresume]
      rfl
    · obtain ⟨eventRow, rfl⟩ := haccept.tables
      refine .inr ⟨row, RowWrite.of ?_ ?_ ?_ (.inl ⟨haccept.before, haccept.status⟩), .inr ⟨?_, ?_⟩,
        fun _ => rfl⟩
      · rw [QuoteTables.accept_quote, QuoteTables.progress_quote_self]
      · intro id hne
        rw [QuoteTables.accept_quote, QuoteTables.progress_quote_of_ne _ _ _ hne]
      · rw [haccept.status, haccept.analysis, haccept.errorCode]
        exact .queued
      · show (request.resume (.ok x)).claim = some (row.id, row.status)
        rw [hresume, haccept.status, ← haccept.job]
        rfl
      · rw [haccept.status]
        decide
  | worker stage job =>
    -- A worker writes the quote that it claims, along an edge from the status it knows.
    rcases stage.body_cases hbody h with ⟨hwrites, event, found, old, row, rfl, hupdate⟩ |
      ⟨attemptId, attempt, rfl, hstage⟩
    · obtain ⟨eventRow, rfl⟩ := hupdate.tables
      -- Both updates of the quote write one row in the same way.
      have hwrite : ∀ status, QuoteProc.claim (.worker stage job) = some (row.id, status) →
          job.record.Valid → StatusEdge status job.record.status →
          RowWrite db (QuoteTables.progress db row eventRow)
            (QuoteProc.claim (.worker stage job)) row := by
        intro status hclaim hvalid hedge
        refine RowWrite.of ?_ ?_ ?_ (.inr ⟨status, hclaim, ?_⟩)
        · rw [QuoteTables.progress_quote_self]
        · intro id hne
          exact QuoteTables.progress_quote_of_ne _ _ _ hne
        · rw [hupdate.status, hupdate.analysis, hupdate.errorCode]
          exact hvalid
        · rw [hupdate.status]
          exact hedge
      cases stage with
      | marking attemptId configured =>
        obtain ⟨hvalid, hanalyzing⟩ := hsound
        refine .inr ⟨row, hwrite "queued" ?_ hvalid ?_, .inr ⟨?_, ?_⟩, fun _ => rfl⟩
        · rw [hupdate.id]
          rfl
        · rw [hanalyzing]
          exact .start
        · rw [hupdate.id, hupdate.status, hanalyzing, ← hupdate.foundId]
          cases configured <;> rfl
        · rw [hupdate.status, hanalyzing]
          decide
      | recording attemptId =>
        obtain ⟨hvalid, hedge⟩ := hsound
        refine .inr ⟨row, hwrite "analyzing" ?_ hvalid hedge, .inl ?_, fun _ => ?_⟩
        · rw [hupdate.id]
          rfl
        · cases attemptId <;> rfl
        · cases attemptId <;> rfl
      | starting _ => cases hwrites
      | finishing _ => cases hwrites
      | calling _ => cases hwrites
      | done => cases hwrites
    · refine .inl ⟨fun id => by simp, ?_⟩
      rcases hstage with ⟨⟨_, rfl⟩, rfl⟩ | ⟨⟨_, rfl⟩, rfl⟩
      · exact .inr rfl
      · exact .inl rfl
  | accepted _ _ _ => cases hbody
  | replayed _ _ => cases hbody
  | answered _ _ => cases hbody

/-- What a step does to the rows and the claims: it leaves the rows alone and at most one heir
takes the claim of the process that moves, or it writes one row. -/
inductive RowStep (c c' : quoteService.Core) : Prop where
  | quiet {pid heir : Nat} : (∀ id, c'.db (.quote id) = c.db (.quote id)) →
      Succession (claimsOf QuoteProc.claim c.procs) (claimsOf QuoteProc.claim c'.procs) pid heir
        (claimsOf QuoteProc.claim c.procs pid) → RowStep c c'
  | write {pid : Nat} {row : QuoteRow} {claim : Option (Uuid × String)} :
      RowWrite c.db c'.db (claimsOf QuoteProc.claim c.procs pid) row →
      Succession (claimsOf QuoteProc.claim c.procs) (claimsOf QuoteProc.claim c'.procs) pid pid
        claim →
      (claim = none ∨ claim = some (row.id, row.status) ∧ row.status ≠ "failed") → RowStep c c'

/-- Every step is one of these. -/
theorem quote_step_cases {c c' : quoteService.Core} {a : quoteService.Action}
    (hsound : ∀ pid p, c.procs pid = some p → p.Sound) (h : quoteService.AtomicStep c a c') :
    RowStep c c' := by
  have hidle : ∀ pid, Succession (claimsOf QuoteProc.claim c.procs)
      (claimsOf QuoteProc.claim c.procs) pid pid (claimsOf QuoteProc.claim c.procs pid) := by
    intro pid pid' x hx
    by_cases hne : pid' = pid
    · subst hne
      exact .inl ⟨rfl, hx⟩
    · exact .inr ⟨hne, hx⟩
  -- The commit of `pid`, after which the process goes on with the result or with an error.
  have hcommit : ∀ pid p prog x db' p', c.procs pid = some p → quoteService.body p = some prog →
      quoteEngine.Runs c.db prog (.ok x) db' →
      (p' = quoteService.resume p (.ok x) ∨ ∃ e, p' = quoteService.resume p (.error e)) →
      RowStep c ⟨db', quoteService.put c.procs pid p'⟩ := by
    intro pid p prog x db' p' hp hbody hruns hp'
    rcases commit_rows (hsound pid p hp) hbody hruns with
      ⟨hrows, hok⟩ | ⟨row, hwrite, hok, herror⟩
    · refine .quiet hrows (succession_put ?_)
      rw [claimsOf_eq hp]
      rcases hp' with rfl | ⟨e, rfl⟩
      · exact hok
      · exact resume_error_claim hbody e
    · have hclaim : claimsOf QuoteProc.claim c.procs pid = p.claim := claimsOf_eq hp
      rw [← hclaim] at hwrite
      refine .write hwrite (succession_put (.inr rfl)) ?_
      rcases hp' with rfl | ⟨e, rfl⟩
      · exact hok
      · exact .inl (herror e)
  cases a with
  | arrive pid p =>
    obtain ⟨harrives, -, rfl⟩ := h
    obtain ⟨request, rfl⟩ := quote_arrives harrives
    exact .quiet (fun _ => rfl) (succession_put (.inl rfl))
  | begin pid =>
    obtain rfl := h
    exact .quiet (fun _ => rfl) (hidle pid)
  | stmt pid i =>
    obtain rfl := h
    exact .quiet (fun _ => rfl) (hidle pid)
  | finish pid =>
    obtain ⟨p, prog, res, db', hp, hbody, hruns, rfl⟩ := h
    cases res with
    | ok x => exact hcommit pid p prog x db' _ hp hbody hruns (.inl rfl)
    | error e =>
      refine .quiet (fun _ => rfl) (succession_put ?_)
      rw [claimsOf_eq hp]
      exact resume_error_claim hbody e
  | lose pid =>
    obtain ⟨-, p, prog, x, db', hp, hbody, hruns, rfl⟩ := h
    exact hcommit pid p prog x db' _ hp hbody hruns (.inr ⟨_, rfl⟩)
  | fail pid =>
    obtain ⟨p, prog, hp, hbody, rfl⟩ := h
    refine .quiet (fun _ => rfl) (succession_put ?_)
    rw [claimsOf_eq hp]
    exact resume_error_claim hbody _
  | advance pid e child =>
    obtain ⟨p, p', child?, hp, -, hadvance, -, rfl⟩ := h
    rcases quote_advance_cases hadvance with ⟨request, job, event, attemptId, rfl, rfl, rfl⟩ |
      ⟨request, record, rfl, rfl, rfl⟩ | ⟨attemptId, job, outcome, rfl, rfl, rfl⟩
    · -- The worker takes the claim of the handler that starts it.
      refine .quiet (fun _ => rfl) (succession_spawn rfl (.inr ?_))
      rw [claimsOf_eq hp]
      rfl
    · exact .quiet (fun _ => rfl) (succession_put (.inl rfl))
    · refine .quiet (fun _ => rfl) (succession_put (.inr ?_))
      rw [claimsOf_eq hp]
      show some ((concludeAnalysis job.record outcome).quoteId, "analyzing") = _
      rw [concludeAnalysis_quoteId]
      rfl
  | kill pid =>
    obtain ⟨p, -, -, rfl⟩ := h
    exact .quiet (fun _ => rfl) succession_remove

/-! ### The invariant -/

/-- A process whose transaction fails goes on to a state that needs nothing of the database. -/
theorem resume_error_sound {p : QuoteProc} {prog : QuoteTx QuoteResult}
    (hbody : quoteService.body p = some prog) (e : StoreError) :
    (quoteService.resume p (.error e)).Sound := by
  cases p with
  | requested request => trivial
  | worker stage job =>
    cases stage with
    | marking attemptId configured => trivial
    | starting attemptId => trivial
    | recording attemptId => cases attemptId <;> trivial
    | finishing attemptId => trivial
    | calling attemptId => cases hbody
    | done => cases hbody
  | accepted _ _ _ => cases hbody
  | replayed _ _ => cases hbody
  | answered _ _ => cases hbody

/-- A worker without a model fails its quote, which has no analysis then. -/
theorem resume_ok_sound {p : QuoteProc} {prog : QuoteTx QuoteResult} {db db' : QuoteDb}
    {x : QuoteResult} (hsound : p.Sound) (hbody : quoteService.body p = some prog)
    (h : quoteEngine.Runs db prog (.ok x) db') : (quoteService.resume p (.ok x)).Sound := by
  cases p with
  | requested request =>
    cases hbody
    show (request.resume (.ok x)).Sound
    rcases request.body_cases h with ⟨_, found, -, -, -, -, hresume⟩ |
      ⟨_, _, job, event, -, hresume⟩
    · rw [hresume]
      trivial
    · rw [hresume]
      trivial
  | worker stage job =>
    rcases stage.body_cases hbody h with ⟨hwrites, event, found, old, row, rfl, hupdate⟩ |
      ⟨_, _, -, ⟨⟨_, rfl⟩, rfl⟩ | ⟨⟨_, rfl⟩, rfl⟩⟩
    · cases stage with
      | marking attemptId configured =>
        cases configured with
        | true => trivial
        | false =>
          -- Without a configured model the record fails at once, and it has no result that would
          -- forbid this.
          obtain ⟨hvalid, hanalyzing⟩ := hsound
          refine ⟨notConfigured_valid ?_, .fail⟩
          rw [hupdate.foundAnalysis]
          by_contra hsome
          have hcompleted := hvalid.analysis.mpr hsome
          rw [hanalyzing] at hcompleted
          exact absurd hcompleted (by decide)
      | recording attemptId => cases attemptId <;> trivial
      | starting _ => cases hwrites
      | finishing _ => cases hwrites
      | calling _ => cases hwrites
      | done => cases hwrites
    · trivial
    · trivial
  | accepted _ _ _ => cases hbody
  | replayed _ _ => cases hbody
  | answered _ _ => cases hbody

/-- A step keeps the processes sound. -/
theorem sound_step {c c' : quoteService.Core} {a : quoteService.Action}
    (hsound : ∀ pid p, c.procs pid = some p → p.Sound) (h : quoteService.AtomicStep c a c') :
    ∀ pid p, c'.procs pid = some p → p.Sound := by
  intro pid p' hp'
  cases h.origin hp' with
  | same hp => exact hsound pid p' hp
  | arrived _ harrives =>
    obtain ⟨request, rfl⟩ := quote_arrives harrives
    trivial
  | @resumed p prog res db' _ hp hbody hruns _ hresume =>
    subst hresume
    cases res with
    -- A commit, or an answer that was lost after it.
    | ok x => exact resume_ok_sound (hsound pid p hp) hbody hruns
    | error e => exact resume_error_sound hbody e
  -- A statement has failed, and the transaction is rolled back.
  | faulted hp hbody hresume =>
    subst hresume
    exact resume_error_sound hbody _
  | advanced _ hadvance =>
    rcases quote_advance_cases hadvance with ⟨_, _, _, _, -, rfl, -⟩ | ⟨_, _, -, rfl, -⟩ |
      ⟨_, job, outcome, -, rfl, -⟩
    · trivial
    · trivial
    · exact ⟨concludeAnalysis_valid _ _, concludeAnalysis_edge _ _⟩
  | started _ _ hadvance =>
    rcases quote_advance_cases hadvance with ⟨_, job, _, _, -, -, hchild⟩ | ⟨_, _, -, -, hchild⟩ |
      ⟨_, _, _, -, -, hchild⟩
    · cases hchild
      exact ⟨startAnalysis_valid _, rfl⟩
    · cases hchild
    · cases hchild

/-- A step keeps the invariant. -/
theorem lifecycle_step {c c' : quoteService.Core} {a : quoteService.Action}
    (hc : Lifecycle c) (h : quoteService.AtomicStep c a c') : Lifecycle c' := by
  have hsound := sound_step hc.sound h
  cases quote_step_cases hc.sound h with
  -- No row changes, and the claims are passed on.
  | quiet hrows hs =>
    have hstatus : statusOf c'.db = statusOf c.db := by
      funext id
      rw [statusOf, hrows, statusOf]
    refine ⟨fun id row hrow => hc.rows id row ((hrows id).symm.trans hrow), hsound, ?_⟩
    rw [hstatus]
    exact hc.exclusive.succeed hs
  | @write pid row claim hwrite hs hclaim =>
    refine ⟨?_, hsound, hc.exclusive.write hwrite.write hs hclaim⟩
    intro id row' hrow'
    -- The written row is valid; the others are those from before.
    by_cases hid : id = row.id
    · subst hid
      rw [hwrite.written] at hrow'
      cases hrow'
      exact ⟨rfl, hwrite.valid⟩
    · rw [hwrite.others id hid] at hrow'
      exact hc.rows id row' hrow'

/-- A step moves the status of every quote along the lifecycle. -/
theorem status_step {c c' : quoteService.Core} {a : quoteService.Action}
    (hc : Lifecycle c) (h : quoteService.AtomicStep c a c') (id : Uuid) :
    StatusStep (statusOf c.db id) (statusOf c'.db id) := by
  cases quote_step_cases hc.sound h with
  | quiet hrows _ =>
    rw [statusOf, statusOf, hrows]
    exact .same
  | write hwrite _ _ => exact statusStep_of_move (hwrite.write.move hc.exclusive id)

/-- The run lemma of `Lifecycle`, for the atomic service. The interleaved one refines it. -/
theorem lifecycle_reachable {c : quoteService.Core} (hc : quoteService.atomic.Reachable c) :
    Lifecycle c := by
  refine hc.induct (I := Lifecycle) ?_ ?_
  · rintro c rfl
    constructor
    · rintro id row ⟨⟩
    · rintro pid p ⟨⟩
    · exact SingleWriter.exclusive_of_no_claims fun _ => rfl
  · exact fun _ _ _ _ ih _ hs => lifecycle_step ih hs

/-- The lifecycle of the quotes in the database, in every run of any number of handlers and
workers.

- Every step leaves the status of every quote or moves it along an edge; a quote appears as
  queued and does not disappear.
- At most one worker can still write the row of a quote.
- A row is completed exactly when it has an analysis, and failed exactly when it has an error
  code. -/
theorem quote_lifecycle :
    (∀ s a s', quoteService.interleaved.Reachable s → quoteService.interleaved.step s a s' →
      ∀ id, StatusStep (statusOf s.db id) (statusOf s'.db id)) ∧
    ∀ s, quoteService.interleaved.Reachable s →
      (∀ pid pid' stage stage' job job',
        s.procs pid = some (.worker stage job) → stage.mayWrite = true →
        s.procs pid' = some (.worker stage' job') → stage'.mayWrite = true →
        job.record.quoteId = job'.record.quoteId → pid = pid') ∧
      ∀ id row, s.db (.quote id) = some row →
        (row.status = "completed" ↔ row.analysisJson ≠ none) ∧
        (row.status = "failed" ↔ row.errorCode ≠ none) := by
  -- Every interleaved run is a run of the atomic steps, where the invariant is kept.
  have hrefines := Service.interleaved_refines_atomic quoteService_disciplined
  refine ⟨?_, ?_⟩
  · intro s a s' hs hstep id
    have hc := lifecycle_reachable (hrefines.reachable hs)
    exact status_step hc (hrefines.step s a s' hs hstep) id
  · intro s hs
    have hc := lifecycle_reachable (hrefines.reachable hs)
    refine ⟨?_, ?_⟩
    · intro pid pid' stage stage' job job' hp hstage hp' hstage' hid
      -- A worker that may still write claims its quote, and claims are exclusive.
      have hclaim : ∀ {pid stage job}, s.procs pid = some (.worker stage job) →
          stage.mayWrite = true → ∃ status,
            claimsOf QuoteProc.claim s.procs pid = some (job.record.quoteId, status) := by
        intro pid stage job hp hstage
        rw [claimsOf_eq hp]
        cases stage with
        | marking _ _ => exact ⟨_, rfl⟩
        | starting _ => exact ⟨_, rfl⟩
        | calling _ => exact ⟨_, rfl⟩
        | recording _ => exact ⟨_, rfl⟩
        | finishing _ => cases hstage
        | done => cases hstage
      obtain ⟨status, hclaim₁⟩ := hclaim hp hstage
      obtain ⟨status', hclaim₂⟩ := hclaim hp' hstage'
      rw [← hid] at hclaim₂
      exact hc.exclusive.single pid pid' _ status status' hclaim₁ hclaim₂
    · intro id row hrow
      have hvalid := (hc.rows id row hrow).2
      exact ⟨hvalid.analysis, hvalid.errorCode⟩

/-! ### Where the quotes come from -/

/-- The fresh id of a create that waits for its transaction. -/
def QuoteProc.creates? : QuoteProc → Option Uuid
  | requested ⟨_, _, .create _ _ fresh, _⟩ => some fresh
  | _ => none

/-- The fresh id that arrives with a create. -/
def created? : quoteService.Action → Option Uuid
  | .arrive _ p => p.creates?
  | _ => none

/-- A transaction of a request adds no quote but the one that it creates. -/
theorem MutationRequest.body_creates {request : MutationRequest} {db db' : QuoteDb}
    {x : QuoteResult} (h : quoteEngine.Runs db request.body (.ok x) db') {id : Uuid}
    (hid : db' (.quote id) ≠ none) :
    db (.quote id) ≠ none ∨ (QuoteProc.requested request).creates? = some id := by
  obtain ⟨subject, key, mutation, settings⟩ := request
  cases mutation with
  | create accepted timestamp fresh =>
    rcases (quoteEngine.runs_bind_iff _ _ _ _ _).mp h with
      ⟨e, -, he⟩ | ⟨outcome, db₁, hcreate, hx, rfl⟩
    · cases he
    rcases createQuote_cases hcreate with ⟨e, he, -⟩ | ⟨_, _, -, -, -, -, -, rfl⟩ |
      ⟨context, event, found, row, eventRow, -, -, -, -, -, -, hrow, -, rfl⟩
    · cases he
    · exact .inl hid
    · -- The only new row is the one with the fresh id.
      by_cases hfresh : id = row.id
      · rw [hfresh, hrow.id]
        exact .inr rfl
      · rw [QuoteTables.accept_quote, QuoteTables.progress_quote_of_ne _ _ _ hfresh] at hid
        exact .inl hid
  | retry quoteId =>
    rcases (quoteEngine.runs_bind_iff _ _ _ _ _).mp h with
      ⟨e, -, he⟩ | ⟨outcome, db₁, hretry, hx, rfl⟩
    · cases he
    rcases retryQuote_cases hretry with ⟨e, he, -⟩ | ⟨_, _, -, -, -, -, -, rfl⟩ |
      ⟨context, event, found, row, now, eventRow, -, -, -, -, -, hquote, -, -, -, rfl⟩
    · cases he
    · exact .inl hid
    · obtain ⟨hrow, hrowid, -⟩ := quoteOf_eq_some hquote
      by_cases hsame : id = row.id
      · rw [hsame, hrowid, hrow]
        exact .inl (Option.some_ne_none row)
      · have hne : id ≠ ({ QuoteTables.requeued row with updatedAt := now } : QuoteRow).id := hsame
        rw [QuoteTables.accept_quote, QuoteTables.progress_quote_of_ne _ _ _ hne] at hid
        exact .inl hid

/-- A process does not wait for another create after its transaction. -/
theorem creates_of_resume {p : QuoteProc} {prog : QuoteTx QuoteResult}
    (hbody : quoteService.body p = some prog) (res : Except StoreError QuoteResult) {fresh : Uuid}
    (hfresh : (quoteService.resume p res).creates? = some fresh) : p.creates? = some fresh := by
  cases p with
  | requested request =>
    have hfresh : (request.resume res).creates? = some fresh := hfresh
    unfold MutationRequest.resume at hfresh
    split at hfresh <;> first | exact hfresh | cases hfresh
  | worker stage job => cases hfresh
  | accepted _ _ _ => cases hbody
  | replayed _ _ => cases hbody
  | answered _ _ => cases hbody

/-- The quotes, stored or still to be created, have ids with `P`. -/
structure CreatedIn (P : Uuid → Prop) (c : quoteService.Core) : Prop where
  stored : ∀ id, c.db (.quote id) ≠ none → P id
  waiting : ∀ pid p, c.procs pid = some p → ∀ fresh ∈ p.creates?, P fresh

/-- A step keeps this, if a create arrives with such an id. -/
theorem createdIn_step {P : Uuid → Prop} {c c' : quoteService.Core} {a : quoteService.Action}
    (hc : CreatedIn P c) (hP : ∀ fresh ∈ created? a, P fresh)
    (h : quoteService.AtomicStep c a c') : CreatedIn P c' where
  stored id hid := by
    rcases h.commits with hsame | ⟨pid, p, prog, x, hp, hbody, hruns, -⟩
    · rw [hsame] at hid
      exact hc.stored id hid
    cases p with
    -- A new quote has the id that its request brought.
    | requested request =>
      cases hbody
      rcases request.body_creates hruns hid with hold | hnew
      · exact hc.stored id hold
      · exact hc.waiting pid _ hp id hnew
    -- A worker updates rows that are there.
    | worker stage job =>
      rcases stage.body_cases hbody hruns with ⟨-, _, _, old, row, -, hupdate⟩ | ⟨_, _, hdb, -⟩
      · obtain ⟨event, hdb⟩ := hupdate.tables
        by_cases hsame : id = row.id
        · exact hc.stored id (by rw [hsame, hupdate.before]; exact Option.some_ne_none old)
        · rw [hdb, QuoteTables.progress_quote_of_ne _ _ _ hsame] at hid
          exact hc.stored id hid
      · rw [hdb] at hid
        exact hc.stored id (by simpa using hid)
    | accepted _ _ _ => cases hbody
    | replayed _ _ => cases hbody
    | answered _ _ => cases hbody
  waiting pid p' hp' fresh hfresh := by
    cases h.origin hp' with
    | same hp => exact hc.waiting pid p' hp fresh hfresh
    | arrived ha _ =>
      subst ha
      exact hP fresh hfresh
    | resumed _ hp hbody _ _ heq | faulted hp hbody heq =>
      rw [heq] at hfresh
      exact hc.waiting pid _ hp fresh (creates_of_resume hbody _ hfresh)
    | advanced _ hadvance =>
      rcases quote_advance_cases hadvance with ⟨_, _, _, _, -, rfl, -⟩ | ⟨_, _, -, rfl, -⟩ |
        ⟨_, _, _, -, rfl, -⟩
      · cases hfresh
      · cases hfresh
      · cases hfresh
    | started _ _ hadvance =>
      rcases quote_advance_cases hadvance with ⟨_, job, _, _, -, -, hchild⟩ |
        ⟨_, _, -, -, hchild⟩ | ⟨_, _, _, -, -, hchild⟩
      · cases hchild
        cases hfresh
      · cases hchild
      · cases hchild

/-- Every stored quote was created by a request that arrived with its id. -/
theorem created_of_reachable {P : Uuid → Prop} {s : quoteService.State}
    (hs : quoteService.interleaved.ReachableWith (fun _ a => ∀ fresh ∈ created? a, P fresh) s)
    {id : Uuid} (hid : s.db (.quote id) ≠ none) : P id := by
  have hrefines := Service.interleaved_refines_atomic quoteService_disciplined
  have hatomic : quoteService.atomic.ReachableWith (fun _ a => ∀ fresh ∈ created? a, P fresh) _ :=
    hrefines.reachableWith (fun _ _ h => h) hs
  have hcreated : CreatedIn P s.toCore := by
    refine hatomic.induct (I := CreatedIn P) ?_ ?_
    · rintro c rfl
      constructor
      · intro id hid
        exact absurd rfl hid
      · rintro pid p ⟨⟩
    · exact fun _ _ _ _ ih hP h => createdIn_step ih hP h
  exact hcreated.stored id hid

end

section

attribute [local instance] fixtureLib openServer

/-- A create, and a worker without a client. The quote ends as failed, and a failed row has an error
code. -/
theorem quote_lifecycle_test :
    ∃ s, quoteService.interleaved.Reachable s ∧ ∃ row, s.db (.quote testQuote) = some row ∧
      row.status = "failed" ∧ row.errorCode ≠ none := by
  have hrun : ((System.run quoteService.next quoteService.initial testFailed).map
      fun s => statusOf s.db testQuote == some "failed") = some true := by
    decide
  obtain ⟨s, hs, hstatus⟩ := System.exists_reachable_of_run testFailed _ hrun
  obtain ⟨row, hrow, hfailed⟩ := Option.map_eq_some_iff.mp (eq_of_beq hstatus)
  have hstate := (quote_lifecycle.2 s hs).2 testQuote row hrow
  exact ⟨s, hs, row, hrow, hfailed, hstate.2.mp hfailed⟩

end

end CanonicalApi
