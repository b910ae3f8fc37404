import CanonicalApi.Memory.Idempotency
import CanonicalApi.Quote.Idempotency
import CanonicalApi.Quote.Lifecycle
import Mathlib.Data.Set.Insert

/-!
# `CanonicalApi.Cancellation`: handlers that are dropped

`enforce_request_envelope` drops the future of a handler at the deadline of its request, at
whatever await point it has reached. A handler makes its request durable first and starts the
analysis later: with a database it commits the ledger row and the quote together and starts
the worker after another await, without one it makes its entry, then stores the quote and
starts the worker in one poll. A drop in between leaves an entry that no replay repairs.

`cancellation_atomicity` is about the runs without such a drop: `CommitsKept` with a database,
where a commit can also be reported as failed, and `EntriesKept` without one.
-/

set_option autoImplicit false

namespace CanonicalApi

open Transaction Transition
open Tasks (Due Ensured note)

section

variable [CanonicalLib]

/-! ### Without a database -/

/-- The pair of a handler in progress. -/
def MemoryTask.handles? : MemoryTask → Option (String × String)
  | handler _ (.answered _) => none
  | handler request _ => some request.pair
  | _ => none

/-- The entries of new requests whose quote is stored and whose analysis is started, as a
record. -/
abbrev acceptance? : MemoryTask → Option ((String × String) × MemoryOperation) :=
  MemoryTask.acceptance? fun _ => true

/-- No drop leaves an entry behind: when a handler is dropped that waits to store the record of
the entry on the map, the analysis of this entry has been started, or another handler waits to
store a record of the same entry. -/
def EntriesKept
    (q : memoryTasks.State × List ((String × String) × MemoryOperation))
    (a : memoryTasks.Action) : Prop :=
  ∀ pid x, a = .drop pid → Due acceptance? q.1 pid x → q.1.shared.idempotency x.1 = some x.2 →
    x ∈ q.2 ∨ ∃ pid', pid' ≠ pid ∧ Due acceptance? q.1 pid' x

/-- What holds of the entries in every run without a drop that leaves one behind. -/
structure Kept (s : memoryTasks.State) (log : List ((String × String) × MemoryOperation)) :
    Prop where
  listed : Listed (fun _ => true) s log
  entries : EntriesEnsured (fun _ => true) s log

/-- The run lemma of `Kept`: a guarded step keeps the entries ensured, since a drop that would
leave one behind is excluded. -/
theorem kept_reachable {q : memoryTasks.State × List ((String × String) × MemoryOperation)}
    (hq : (Tasks.recorded acceptance?).ReachableWith EntriesKept q) : Kept q.1 q.2 := by
  refine hq.induct (I := fun q => Kept q.1 q.2) ?_ ?_
  · rintro ⟨s, log⟩ ⟨rfl, rfl⟩
    constructor
    · constructor
      · rintro x (hmem | ⟨pid, hdue⟩)
        · cases hmem
        · cases hdue
      · rintro x ⟨⟩
    · rintro pair operation quoteId - - ⟨⟩
  · -- A step adds at most its own answer to the log.
    rintro ⟨s, log⟩ a ⟨s', log'⟩ hq ih hg ⟨hstep, hnote⟩
    have hnote : log' = note acceptance? log s a := hnote
    subst hnote
    have hs := consistent_reachable (Tasks.reachableWith_of_recorded hq.reachable)
    exact ⟨listed_step hs ih.listed hstep, entriesEnsured_step ih.entries hg hstep⟩

/-- Without a database: when no handler of a pair is in progress, the pair has no entry and its
handlers have stored nothing, or the quote of its entry can be read and the analysis of this
entry was started. -/
theorem Kept.atomic {s : memoryTasks.State} {log : List ((String × String) × MemoryOperation)}
    (h : Kept s log) {pair : String × String}
    (hidle : ∀ pid p, s.tasks pid = some p → p.handles? ≠ some pair) :
    (¬ s.shared.HasEntry pair ∧ ∀ operation, (pair, operation) ∉ log) ∨
    ∃ operation quoteId record, s.shared.idempotency pair = some operation ∧
      operation.quoteId? = some quoteId ∧ s.shared.findQuote quoteId pair.1 = .ok record ∧
      (pair, operation) ∈ log := by
  by_cases hentry : s.shared.HasEntry pair
  · right
    obtain ⟨operation, quoteId, hoperation, hquote⟩ := hentry
    -- The entry is on the log already, or a handler is due to add it; but no handler of the pair is
    -- left.
    rcases h.entries pair operation quoteId rfl hquote hoperation with hmem | ⟨pid, hdue⟩
    · obtain ⟨quoteId', hquote', record, hrecord, howner⟩ := h.listed.owned _ hmem
      rw [hquote] at hquote'
      cases hquote'
      refine ⟨operation, quoteId, record, hoperation, hquote, ?_, hmem⟩
      rw [AppState.findQuote, hrecord]
      exact if_pos howner
    · obtain ⟨request, record, event, hp, -, heq⟩ := due_acceptance.mp hdue
      cases heq
      exact absurd rfl (hidle pid _ hp)
  · left
    exact ⟨hentry, fun operation hmem => hentry (h.listed.claimed _ (.inl hmem))⟩

/-! ### With a database -/

/-- The pair of a handler in progress. -/
def QuoteProc.handles? : QuoteProc → Option (String × String)
  | requested request | accepted request _ _ | replayed request _ => some request.pair
  | answered _ _ | worker _ _ => none

variable [Postgres]

/-- No commit is left behind: no accepted handler is dropped before it starts its analysis, and
no commit that makes a ledger row is reported as failed. -/
structure CommitsKept (c : quoteService.Core) (a : quoteService.Action) : Prop where
  kills : ∀ pid request job event, a = .kill pid →
    c.procs pid ≠ some (.accepted request job event)
  loses : ∀ pid request, a = .lose pid → c.procs pid = some (.requested request) →
    request.ledger c.db ≠ []

/-- The pairs that have started an analysis, and the pairs whose handlers have written the row
of a quote. -/
structure QuoteHistory where
  started : List (String × String)
  written : Set (String × String)

/-- The history after a step. -/
def QuoteHistory.note (history : QuoteHistory) (c : quoteService.Core) (a : quoteService.Action)
    (c' : quoteService.Core) : QuoteHistory where
  started := noteStarted history.started c.procs c'.procs a
  written := { pair | pair ∈ history.written ∨ ∃ request,
    c.procs a.pid = some (.requested request) ∧ request.pair = pair ∧
    ∃ id, c'.db (.quote id) ≠ c.db (.quote id) }

omit [Postgres] in
/-- The subject can read the quote. -/
def CanRead (db : QuoteDb) (subject : String) (id : Uuid) : Prop :=
  ∃ row, db (.quote id) = some row ∧ row.ownerSubject = subject ∧ ReadableRow row

/-- The quote of an acceptance can be read by its subject. -/
theorem canRead_accepted {request : MutationRequest} {db db' : QuoteDb} {row : QuoteRow}
    {operation : StoredOperation} {job : AnalysisJob}
    (h : Acceptance request db db' row operation job) : CanRead db' request.subject row.id := by
  obtain ⟨event, hdb⟩ := h.tables
  refine ⟨row, ?_, h.owner, h.readable⟩
  rw [hdb, QuoteTables.accept_quote, QuoteTables.progress_quote_self]

/-- An acceptance keeps the owners, and what it writes can be read. -/
theorem CanRead.accept {request : MutationRequest} {db db' : QuoteDb} {row : QuoteRow}
    {operation : StoredOperation} {job : AnalysisJob} {subject : String} {id : Uuid}
    (hread : CanRead db subject id) (h : Acceptance request db db' row operation job) :
    CanRead db' subject id := by
  obtain ⟨old, hold, rfl, hreadable⟩ := hread
  by_cases hid : id = row.id
  · subst hid
    rcases h.before with hnone | ⟨old', hold', -, howner⟩
    · rw [hnone] at hold
      cases hold
    · rw [hold] at hold'
      cases hold'
      rw [← howner, h.owner]
      exact canRead_accepted h
  · obtain ⟨event, hdb⟩ := h.tables
    refine ⟨old, ?_, rfl, hreadable⟩
    rw [hdb, QuoteTables.accept_quote, QuoteTables.progress_quote_of_ne _ _ _ hid, hold]

/-- An update by a worker keeps the owner and writes a known status. -/
theorem CanRead.update {job : AnalysisJob} {db db' : QuoteDb} {found : QuoteRecord}
    {old row : QuoteRow} {subject : String} {id : Uuid} (hread : CanRead db subject id)
    (h : WorkerUpdate job db db' found old row) (hvalid : job.record.Valid) :
    CanRead db' subject id := by
  obtain ⟨event, hdb⟩ := h.tables
  obtain ⟨old', hold, rfl, hreadable⟩ := hread
  by_cases hid : id = row.id
  · subst hid
    rw [h.before] at hold
    cases hold
    refine ⟨row, by rw [hdb, QuoteTables.progress_quote_self], h.owner, ?_⟩
    rw [readableRow_iff] at hreadable ⊢
    rw [h.request, h.status]
    exact ⟨hreadable.1, hvalid.known⟩
  · refine ⟨old', ?_, rfl, hreadable⟩
    rw [hdb, QuoteTables.progress_quote_of_ne _ _ _ hid, hold]

/-- A quote that its subject can read stays so. -/
theorem canRead_step {c c' : quoteService.Core} {a : quoteService.Action}
    (hsound : ∀ pid p, c.procs pid = some p → p.Sound) (h : quoteService.AtomicStep c a c')
    {subject : String} {id : Uuid} (hread : CanRead c.db subject id) :
    CanRead c'.db subject id := by
  -- Only a commit changes the tables: one of a handler, or one of a worker.
  rcases h.commits with hsame | ⟨pid, p, prog, x, hp, hbody, hruns, -⟩
  · rw [hsame]
    exact hread
  cases p with
  | requested request =>
    cases hbody
    rcases request.body_cases hruns with ⟨_, _, -, -, -, hdb, -⟩ | ⟨_, _, _, _, haccept, -⟩
    · rw [hdb]
      exact hread
    · exact hread.accept haccept
  | worker stage job =>
    rcases stage.body_cases hbody hruns with ⟨hwrites, _, _, _, _, -, hupdate⟩ | ⟨_, _, hdb, -⟩
    · refine hread.update hupdate ?_
      have hjob := hsound pid _ hp
      cases stage with
      | marking _ _ => exact hjob.1
      | recording _ => exact hjob.1
      | starting _ => cases hwrites
      | finishing _ => cases hwrites
      | calling _ => cases hwrites
      | done => cases hwrites
    · -- The transactions of attempts leave the quotes alone.
      obtain ⟨row, hrow, hrest⟩ := hread
      refine ⟨row, ?_, hrest⟩
      rw [hdb]
      simpa using hrow
  | accepted _ _ _ => cases hbody
  | replayed _ _ => cases hbody
  | answered _ _ => cases hbody

/-- The step of a process that makes the ledger row of a pair, or changes the row of a quote as
a handler: the handler is accepted with that row. -/
theorem acceptance_step {c c' : quoteService.Core} {a : quoteService.Action}
    (h : quoteService.AtomicStep c a c') :
    c'.db = c.db ∨ ∃ pid p, c.procs pid = some p ∧ a.pid = pid ∧
      ((∃ stage job, p = .worker stage job ∧
          ∀ subject key, c'.db (.operations subject key) = c.db (.operations subject key)) ∨
        ∃ request row operation job event, p = .requested request ∧
          Acceptance request c.db c'.db row operation job ∧
          (a = .finish pid ∧ c'.procs pid = some (.accepted request job event) ∨
            a = .lose pid)) := by
  rcases h.commits with hsame | ⟨pid, p, prog, x, hp, hbody, hruns, haction⟩
  · exact .inl hsame
  have hpid : a.pid = pid := by
    rcases haction with ⟨rfl, -⟩ | ⟨-, rfl, -⟩
    · rfl
    · rfl
  cases p with
  | requested request =>
    cases hbody
    rcases request.body_cases hruns with ⟨_, _, -, -, -, hdb, -⟩ |
      ⟨row, operation, job, event, haccept, hresume⟩
    · exact .inl hdb
    · refine .inr ⟨pid, _, hp, hpid, .inr ⟨request, row, operation, job, event, rfl, haccept, ?_⟩⟩
      -- The handler learns of the commit, or the commit is lost on the way.
      rcases haction with ⟨ha, hprocs⟩ | ⟨-, ha, -⟩
      · refine .inl ⟨ha, ?_⟩
        rw [hprocs, Service.put, Function.update_self]
        exact congrArg some hresume
      · exact .inr ha
  | worker stage job =>
    refine .inr ⟨pid, _, hp, hpid, .inl ⟨stage, job, rfl, fun subject key => ?_⟩⟩
    -- A worker writes quotes, events or attempts, and never the ledger.
    rcases stage.body_cases hbody hruns with ⟨-, _, _, _, row, -, hupdate⟩ | ⟨_, _, hdb, -⟩
    · obtain ⟨eventRow, hdb⟩ := hupdate.tables
      rw [hdb]
      simp
    · rw [hdb]
      simp
  | accepted _ _ _ => cases hbody
  | replayed _ _ => cases hbody
  | answered _ _ => cases hbody

/-- What holds of the ledger in every run without a commit that is left behind: a quote that the
ledger names can be read, and its analysis was started or is about to be. -/
structure Durable (c : quoteService.Core) (history : QuoteHistory) : Prop where
  readable : ∀ subject key operation, operation ∈ c.db (.operations subject key) →
    CanRead c.db subject operation.quoteId
  started : ∀ pair : String × String, c.db (.operations pair.1 pair.2) ≠ [] →
    pair ∈ history.started ∨ ∃ pid request job event,
      c.procs pid = some (.accepted request job event) ∧ request.pair = pair
  written : ∀ pair ∈ history.written, c.db (.operations pair.1 pair.2) ≠ []

section

variable {c c' : quoteService.Core} {a : quoteService.Action} {history : QuoteHistory}

/-- The quotes of the ledger rows can still be read after a step, and so can the quote of a
new row. -/
theorem durable_readable (hsound : ∀ pid p, c.procs pid = some p → p.Sound)
    (hc : Durable c history) (h : quoteService.AtomicStep c a c') :
    ∀ subject key operation, operation ∈ c'.db (.operations subject key) →
      CanRead c'.db subject operation.quoteId := by
  intro subject key operation hmem
  -- What could be read stays readable in every step.
  have hkept : operation ∈ c.db (.operations subject key) →
      CanRead c'.db subject operation.quoteId :=
    fun hold => canRead_step hsound h (hc.readable subject key operation hold)
  -- A new ledger row comes with an acceptance, which stores its quote in the same transaction.
  rcases acceptance_step h with hsame | ⟨_, _, -, -, ⟨_, _, -, hledger⟩ |
    ⟨request, row, operation', _, _, -, haccept, -⟩⟩
  · rw [hsame] at hmem
    exact hkept hmem
  · rw [hledger] at hmem
    exact hkept hmem
  · obtain ⟨event, hdb⟩ := haccept.tables
    by_cases hpair : subject = request.subject ∧ key = request.idempotencyKey
    · obtain ⟨rfl, rfl⟩ := hpair
      rw [hdb, QuoteTables.accept_operations_self, haccept.ledger, List.nil_append,
        List.mem_singleton] at hmem
      rw [hmem, haccept.operationId]
      exact canRead_accepted haccept
    · rw [hdb, QuoteTables.accept_operations_of_ne _ _ _ _ _ _ hpair] at hmem
      exact hkept hmem

/-- A step that leaves no commit behind: a pair with a ledger row has started its analysis, or
its accepted handler is about to. -/
theorem durable_started (hc : Durable c history) (hg : CommitsKept c a)
    (h : quoteService.AtomicStep c a c') :
    ∀ pair : String × String, c'.db (.operations pair.1 pair.2) ≠ [] →
      pair ∈ (history.note c a c').started ∨ ∃ pid request job event,
        c'.procs pid = some (.accepted request job event) ∧ request.pair = pair := by
  intro pair hledger'
  have hnoted : pair ∈ history.started → pair ∈ (history.note c a c').started := by
    intro hmem
    show pair ∈ noteStarted history.started c.procs c'.procs a
    rcases noteStarted_cases h history.started with hsame | ⟨_, _, _, _, _, _, _, -, -, -, hnote⟩
    · rw [hsame]
      exact hmem
    · rw [hnote]
      exact List.mem_append_left _ hmem
  by_cases hledger : c.db (.operations pair.1 pair.2) = []
  · -- The row is new, and its commit was reported.
    rcases acceptance_step h with hsame | ⟨pid, p, hp, hpid, ⟨_, _, -, hkept⟩ |
      ⟨request, row, operation, job, event, rfl, haccept, haction⟩⟩
    · rw [hsame] at hledger'
      exact absurd hledger hledger'
    · rw [hkept] at hledger'
      exact absurd hledger hledger'
    · have hpair : pair.1 = request.subject ∧ pair.2 = request.idempotencyKey := by
        by_contra hne
        obtain ⟨eventRow, hdb⟩ := haccept.tables
        rw [hdb, QuoteTables.accept_operations_of_ne _ _ _ _ _ _ hne] at hledger'
        exact hledger' hledger
      rcases haction with ⟨-, hp'⟩ | rfl
      · exact .inr ⟨pid, request, job, event, hp', Prod.ext hpair.1.symm hpair.2.symm⟩
      · exact absurd haccept.ledger (hg.loses pid request rfl hp)
  · rcases hc.started pair hledger with hmem | ⟨pid, request, job, event, hp, rfl⟩
    · exact .inl (hnoted hmem)
    by_cases hpid : a.pid = pid
    · subst hpid
      cases a with
      | arrive pid q =>
        obtain ⟨-, hnone, -⟩ := h
        cases hnone.symm.trans hp
      | begin pid =>
        obtain rfl := h
        exact .inr ⟨pid, request, job, event, hp, rfl⟩
      | stmt pid i =>
        obtain rfl := h
        exact .inr ⟨pid, request, job, event, hp, rfl⟩
      | finish pid =>
        obtain ⟨_, _, _, _, hp', hbody, -, -⟩ := h
        cases hp'.symm.trans hp
        cases hbody
      | lose pid =>
        obtain ⟨-, _, _, _, _, hp', hbody, -, -⟩ := h
        cases hp'.symm.trans hp
        cases hbody
      | fail pid =>
        obtain ⟨_, _, hp', hbody, -⟩ := h
        cases hp'.symm.trans hp
        cases hbody
      | advance pid e child =>
        left
        show request.pair ∈ noteStarted history.started c.procs c'.procs (.advance pid e child)
        rw [noteStarted_accepted h hp]
        exact List.mem_append_right _ List.mem_cons_self
      | kill pid => exact absurd hp (hg.kills pid request job event rfl)
    · exact .inr ⟨pid, request, job, event, h.kept hp hpid, rfl⟩

/-- A pair whose handler writes the row of a quote has a ledger row. -/
theorem durable_written (hc : Durable c history) (h : quoteService.AtomicStep c a c') :
    ∀ pair ∈ (history.note c a c').written, c'.db (.operations pair.1 pair.2) ≠ [] := by
  intro pair hmem hnil
  -- The ledger only grows, so that it was empty before as well.
  have hbefore : c.db (.operations pair.1 pair.2) = [] := by
    have hgrows := ledger_grows_step_quote h pair.1 pair.2
    rw [hnil] at hgrows
    exact List.prefix_nil.mp hgrows
  rcases hmem with hold | ⟨request, hp, rfl, id, hchanged⟩
  · exact hc.written pair hold hbefore
  · rcases acceptance_step h with hsame | ⟨pid, p, hp', rfl, ⟨_, _, rfl, -⟩ |
      ⟨request', row, operation, job, event, rfl, haccept, -⟩⟩
    · exact hchanged (by rw [hsame])
    · -- The process is the one that was noted, and it has just inserted its row.
      cases hp'.symm.trans hp
    · cases hp'.symm.trans hp
      obtain ⟨eventRow, hdb⟩ := haccept.tables
      have hnil : c'.db (.operations request.subject request.idempotencyKey) = [] := hnil
      rw [hdb, QuoteTables.accept_operations_self, haccept.ledger] at hnil
      cases hnil

end

/-- The service with its history. -/
def quotesWithHistory : System (quoteService.State × QuoteHistory) quoteService.Action :=
  quoteService.interleaved.recording ⟨[], ∅⟩ fun history s a s' =>
    history.note s.toCore a s'.toCore

/-- The same for the atomic service. -/
def atomicQuotesWithHistory : System (quoteService.Core × QuoteHistory) quoteService.Action :=
  quoteService.atomic.recording ⟨[], ∅⟩ QuoteHistory.note

/-- The run lemma of `Durable`, from the three step lemmas above, one for each field. -/
theorem durable_reachable {q : quoteService.Core × QuoteHistory}
    (hq : atomicQuotesWithHistory.ReachableWith (fun q a => CommitsKept q.1 a) q) :
    Durable q.1 q.2 := by
  refine hq.induct (I := fun q => Durable q.1 q.2) ?_ ?_
  · rintro ⟨c, history⟩ ⟨rfl, rfl⟩
    constructor
    · rintro subject key operation ⟨⟩
    · rintro pair hne
      exact absurd rfl hne
    · rintro pair ⟨⟩
  · rintro ⟨c, history⟩ a ⟨c', history'⟩ hq ih hg ⟨hstep, hnote⟩
    have hnote : history' = history.note c a c' := hnote
    subst hnote
    have hc := lifecycle_reachable (System.reachableWith_of_recording hq).reachable
    exact ⟨durable_readable hc.sound ih hstep, durable_started ih hg hstep,
      durable_written ih hstep⟩

/-- With a database: when no handler of a pair is in progress, the pair has no ledger row and
its handlers have written no quote, or the quote of its ledger row can be read and its analysis
was started. -/
theorem Durable.atomic {c : quoteService.Core} {history : QuoteHistory} (h : Durable c history)
    {pair : String × String}
    (hidle : ∀ pid p, c.procs pid = some p → p.handles? ≠ some pair) :
    (c.db (.operations pair.1 pair.2) = [] ∧ pair ∉ history.written) ∨
    (∃ operation, operation ∈ c.db (.operations pair.1 pair.2)) ∧
      (∀ operation ∈ c.db (.operations pair.1 pair.2), CanRead c.db pair.1 operation.quoteId) ∧
      pair ∈ history.started := by
  by_cases hledger : c.db (.operations pair.1 pair.2) = []
  · exact .inl ⟨hledger, fun hmem => h.written pair hmem hledger⟩
  · right
    refine ⟨List.exists_mem_of_ne_nil _ hledger, h.readable pair.1 pair.2, ?_⟩
    rcases h.started pair hledger with hmem | ⟨pid, request, job, event, hp, rfl⟩
    · exact hmem
    · exact absurd rfl (hidle pid _ hp)

/-- Handlers that are dropped, in every run in which no drop and no lost commit leaves a
request behind. When no handler of a pair of subject and key is in progress any more, either
the pair has no entry and its handlers have neither created nor queued a quote, or the quote of
its entry can be read by the subject and the analysis was started: with a database, and
without one. Without a database the analysis is a worker among the tasks, and the workers are
those that the entries on the record have started. -/
theorem cancellation_atomicity :
    (∀ s history (pair : String × String),
      quotesWithHistory.ReachableWith (fun q a => CommitsKept q.1.toCore a) (s, history) →
      (∀ pid p, s.procs pid = some p → p.handles? ≠ some pair) →
      (s.db (.operations pair.1 pair.2) = [] ∧ pair ∉ history.written) ∨
      (∃ operation, operation ∈ s.db (.operations pair.1 pair.2)) ∧
        (∀ operation ∈ s.db (.operations pair.1 pair.2),
          CanRead s.db pair.1 operation.quoteId) ∧ pair ∈ history.started) ∧
    ∀ s log (pair : String × String),
      (Tasks.recorded acceptance?).ReachableWith EntriesKept (s, log) →
      (∀ pid p, s.tasks pid = some p → p.handles? ≠ some pair) →
      ∃ starts, Analyses s starts ∧ starts.map Prod.snd = log ∧
      ((¬ s.shared.HasEntry pair ∧ ∀ operation, (pair, operation) ∉ log) ∨
      ∃ operation quoteId record pid stage job, s.shared.idempotency pair = some operation ∧
        operation.quoteId? = some quoteId ∧ s.shared.findQuote quoteId pair.1 = .ok record ∧
        (pair, operation) ∈ log ∧ (pid, pair, operation) ∈ starts ∧
        s.tasks pid = some (.worker stage job) ∧ job.record.quoteId = quoteId) := by
  refine ⟨?_, ?_⟩
  · intro s history pair hq hidle
    have hrefines := Service.interleaved_refines_atomic quoteService_disciplined
    have hrec : quotesWithHistory.Refines atomicQuotesWithHistory
        (Prod.map Service.State.toCore id) := hrefines.recording fun _ _ _ _ => rfl
    have hdurable := durable_reachable
      (hrec.reachableWith (H := fun q a => CommitsKept q.1 a) (fun _ _ hg => hg) hq)
    exact hdurable.atomic hidle
  · intro s log pair hq hidle
    obtain ⟨starts, hstarts, hlog⟩ := exists_analyses hq.reachable
    rw [List.filter_true] at hlog
    refine ⟨starts, hstarts, hlog, ?_⟩
    rcases (kept_reachable hq).atomic hidle with
      hnone | ⟨operation, quoteId, record, hentry, hquote, hread, hmem⟩
    · exact .inl hnone
    · -- The entry is on the record, so it has started a worker.
      have hstarted : (pair, operation) ∈ starts.map Prod.snd := hlog ▸ hmem
      obtain ⟨⟨pid, _⟩, hstart, rfl⟩ := List.mem_map.mp hstarted
      obtain ⟨stage, job, hp, hid⟩ := hstarts.worker hstart hquote
      exact .inr ⟨operation, quoteId, record, pid, stage, job, hentry, hquote, hread, hmem,
        hstart, hp, hid⟩

/-! ### Runs with few processes -/

/-- A check for `CommitsKept`, in a run of ten processes. No handler is dropped between its commit
and the start of its worker, and no commit of a new request is lost. -/
def commitsKept (c : quoteService.Core) (a : quoteService.Action) : Bool :=
  a.starts.all (· < 10) &&
    match a with
    | .kill pid =>
        match c.procs pid with
        | some (.accepted _ _ _) => false
        | _ => true
    | .lose pid =>
        match c.procs pid with
        | some (.requested request) => !(request.ledger c.db).isEmpty
        | _ => true
    | _ => true

/-- The check implies the condition. -/
theorem CommitsKept.of_check {c : quoteService.Core} {a : quoteService.Action}
    (h : commitsKept c a = true) : CommitsKept c a where
  kills pid request job event ha hp := by
    subst ha
    simp only [commitsKept, hp, Bool.and_false] at h
    cases h
  loses pid request ha hp hnil := by
    subst ha
    simp only [commitsKept, hp, hnil, List.isEmpty_nil, Bool.not_true, Bool.and_false] at h
    cases h

/-- Such a run has no other process. -/
theorem procs_bounded {s : quoteService.State}
    (hs : quoteService.interleaved.ReachableWith (fun s a => commitsKept s.toCore a = true) s) :
    ∀ pid, 10 ≤ pid → s.procs pid = none := by
  refine hs.induct (I := fun s => ∀ pid, 10 ≤ pid → s.procs pid = none) ?_ ?_
  · rintro s rfl pid -
    rfl
  · intro s a s' hs ih hg h pid hpid
    have hstep := (Service.interleaved_refines_atomic quoteService_disciplined).step s a s'
      hs.reachable h
    refine hstep.absent (ih pid hpid) fun hstarts => ?_
    simp only [commitsKept, hstarts, Option.all_some, Bool.and_eq_true, decide_eq_true_eq] at hg
    omega

end

/-- A check for `EntriesKept`, in a run of ten tasks. -/
def entriesKept [CanonicalLib] (s : memoryTasks.State) (a : memoryTasks.Action) : Bool :=
  a.starts.all (· < 10) &&
    match a with
    | .drop pid => ((s.tasks pid).bind acceptance?).isNone
    | _ => true

section

variable [CanonicalLib]

/-- The check implies the condition: it allows no drop of a handler that has an entry to lose. -/
theorem EntriesKept.of_check {q : memoryTasks.State × List ((String × String) × MemoryOperation)}
    {a : memoryTasks.Action} (h : entriesKept q.1 a = true) : EntriesKept q a := by
  intro pid x ha hdue
  subst ha
  rw [Tasks.Due] at hdue
  simp only [entriesKept, hdue, Option.isNone_some, Bool.and_false] at h
  cases h

/-- Such a run has no other task. -/
theorem tasks_bounded {G : memoryTasks.State → memoryTasks.Action → Prop}
    (hG : ∀ s a, G s a → a.starts.all (· < 10) = true) {s : memoryTasks.State}
    (hs : memoryTasks.system.ReachableWith G s) : ∀ pid, 10 ≤ pid → s.tasks pid = none := by
  refine hs.induct (I := fun s => ∀ pid, 10 ≤ pid → s.tasks pid = none) ?_ ?_
  · rintro s rfl pid -
    rfl
  · intro s a s' _ ih hg h pid hpid
    refine (Tasks.step_of_next h).absent (ih pid hpid) fun hstarts => ?_
    have hbound := hG s a hg
    simp only [hstarts, Option.all_some, decide_eq_true_eq] at hbound
    omega

end

section

attribute [local instance] fixtureLib openServer

/-- The pair of the creates. -/
def createPair : String × String := ("customer-1", "quote-key-0001")

/-- No one of the first ten processes handles the pair. -/
def idle {Proc : Type} (procs : Nat → Option Proc) (handles? : Proc → Option (String × String)) :
    Bool :=
  (List.range 10).all fun pid => (procs pid).bind handles? ≠ some createPair

/-- No process handles the pair, when there are at most ten. -/
theorem idle_all {Proc : Type} {procs : Nat → Option Proc}
    {handles? : Proc → Option (String × String)} (hbound : ∀ pid, 10 ≤ pid → procs pid = none)
    (h : idle procs handles? = true) :
    ∀ pid p, procs pid = some p → handles? p ≠ some createPair := by
  intro pid p hp hpair
  by_cases hpid : 10 ≤ pid
  · rw [hbound pid hpid] at hp
    cases hp
  · have hnot := List.all_eq_true.mp h pid (List.mem_range.mpr (Nat.not_le.mp hpid))
    rw [hp, Option.bind_some, hpair] at hnot
    exact absurd rfl (of_decide_eq_true hnot)

/-- A create that is accepted, and another one with its key that is dropped at its lookup. -/
def testDropped : List memoryTasks.Action :=
  [.arrive 0 (.handler (memoryCreate testQuote) .lookup), testPoll 0 9, testPoll 0 9,
    testPoll 0 1, .arrive 2 (.handler (memoryCreate ⟨8⟩) .lookup), .drop 2]

/-- One run in each mode that keeps what it has written. No handler is in progress at its end, and
the analysis of the create was started. -/
theorem cancellation_atomicity_test :
    (∃ s history, quotesWithHistory.ReachableWith (fun q a => CommitsKept q.1.toCore a)
        (s, history) ∧ createPair ∈ history.started) ∧
    ∃ s log operation pid stage job,
      (Tasks.recorded acceptance?).ReachableWith EntriesKept (s, log) ∧
      s.shared.idempotency createPair = some operation ∧ (createPair, operation) ∈ log ∧
      s.tasks pid = some (.worker stage job) := by
  constructor
  · have hrun : (System.run (System.guarded (fun s a => commitsKept s.toCore a = true)
        quoteService.next) quoteService.initial testFailed).map (fun s =>
          idle s.procs QuoteProc.handles? &&
            !(s.db (.operations "customer-1" "quote-key-0001")).isEmpty) =
        some true := by
      decide
    obtain ⟨s, hs, hview⟩ := System.exists_reachable_of_run testFailed _ hrun
    rw [Bool.and_eq_true] at hview
    obtain ⟨hidle, hledger⟩ := hview
    have hs : quoteService.interleaved.ReachableWith
        (fun s a => commitsKept s.toCore a = true) s := .of_guarded hs
    have hidle := idle_all (procs_bounded hs) hidle
    obtain ⟨history, hq⟩ : ∃ history, quotesWithHistory.ReachableWith
        (fun q a => commitsKept q.1.toCore a = true) (s, history) := hs.recording
    have hq : quotesWithHistory.ReachableWith (fun q a => CommitsKept q.1.toCore a)
        (s, history) := hq.mono fun _ _ _ hg => .of_check hg
    refine ⟨s, history, hq, ?_⟩
    rcases cancellation_atomicity.1 s history createPair hq hidle with ⟨hnil, -⟩ | ⟨-, -, hmem⟩
    · have hnil : s.db (.operations "customer-1" "quote-key-0001") = [] := hnil
      rw [hnil] at hledger
      cases hledger
    · exact hmem
  · have hrun : (System.run (System.guarded (fun s a => entriesKept s a = true)
        memoryTasks.next) memoryTasks.initial testDropped).map (fun s =>
          idle s.tasks MemoryTask.handles? && (s.shared.idempotency createPair ==
            some (.create testQuote fixtureRequest.toValue))) = some true := by
      decide
    obtain ⟨s, hs, hview⟩ := System.exists_reachable_of_run testDropped _ hrun
    rw [Bool.and_eq_true, beq_iff_eq] at hview
    obtain ⟨hidle, hentry⟩ := hview
    have hs : memoryTasks.system.ReachableWith (fun s a => entriesKept s a = true) s :=
      .of_guarded hs
    have hbound : ∀ (s : memoryTasks.State) a, entriesKept s a = true →
        a.starts.all (· < 10) = true := by
      intro s a hg
      unfold entriesKept at hg
      exact (Bool.and_eq_true _ _ ▸ hg).1
    have hidle := idle_all (tasks_bounded hbound hs) hidle
    obtain ⟨log, hq⟩ : ∃ log, (Tasks.recorded acceptance?).ReachableWith
        (fun q a => entriesKept q.1 a = true) (s, log) := hs.recording
    have hq : (Tasks.recorded acceptance?).ReachableWith EntriesKept (s, log) :=
      hq.mono fun _ _ _ hg => .of_check hg
    obtain ⟨_, -, -, ⟨hnone, -⟩ | ⟨operation, _, _, pid, stage, job, hoperation, -, -, hmem, -, hp,
      -⟩⟩ := cancellation_atomicity.2 s log createPair hq hidle
    · exact absurd ⟨_, _, hentry, rfl⟩ hnone
    · exact ⟨s, log, operation, pid, stage, job, hq, hoperation, hmem, hp⟩

/-- A create that is dropped after it has made its entry. -/
def testAbandoned : List memoryTasks.Action :=
  [.arrive 0 (.handler (memoryCreate testQuote) .lookup), testPoll 0 9, testPoll 0 9, .drop 0]

/-- The create is dropped before its quote is stored: no task is left, the key has its entry,
and the quote of the entry does not exist. -/
theorem abandoned_entry :
    ∃ s, memoryTasks.system.Reachable s ∧ (∀ pid, s.tasks pid = none) ∧
      s.shared.idempotency createPair = some (.create testQuote fixtureRequest.toValue) ∧
      s.shared.quotes testQuote = none := by
  -- The run is evaluated, and only the values that the statement reads are compared.
  have hrun : (System.run (System.guarded (fun (_ : memoryTasks.State) a =>
      a.starts.all (· < 10) = true) memoryTasks.next) memoryTasks.initial testAbandoned).map
        (fun s => ((List.range 10).all fun pid => (s.tasks pid).isNone) &&
          (s.shared.idempotency createPair ==
            some (.create testQuote fixtureRequest.toValue)) &&
          (s.shared.quotes testQuote).isNone) = some true := by
    decide
  obtain ⟨s, hs, hview⟩ := System.exists_reachable_of_run testAbandoned _ hrun
  rw [Bool.and_eq_true, Bool.and_eq_true, beq_iff_eq, Option.isNone_iff_eq_none] at hview
  obtain ⟨⟨htasks, hentry⟩, hquote⟩ := hview
  have hs : memoryTasks.system.ReachableWith (fun _ a => a.starts.all (· < 10) = true) s :=
    .of_guarded hs
  refine ⟨s, hs.reachable, fun pid => ?_, hentry, hquote⟩
  by_cases hpid : 10 ≤ pid
  · exact tasks_bounded (fun _ _ hg => hg) hs pid hpid
  · exact Option.isNone_iff_eq_none.mp
      (List.all_eq_true.mp htasks pid (List.mem_range.mpr (Nat.not_le.mp hpid)))

end

end CanonicalApi
