import CanonicalApi.Quote.Alone
import CanonicalApi.Replica

/-!
# `CanonicalApi.Replica.Ledgers`: the keys that a replica remembers

An accepted request is filed under its subject and key: a quote in the ledger of the database
when there is one, and everything else in the idempotency map. `AppState.Filed` and `RowsFiled`
say that the two ledgers hold exactly the accepted requests whose records still exist.

`Serves` is the inversion of one request. It either accepts nothing and writes no entry, or it
accepts a quote in memory, a quote in the database or an assessment. `filed` is the invariant of
all runs. An eviction removes an assessment with its own entry and no other one, because the ids
of the assessments are distinct and new ids are fresh.
-/

set_option autoImplicit false

namespace CanonicalApi

open Transaction Transition

/-! ### Entries -/

/-- The subject and the key of an accepted request. -/
def Accepted.pair (a : Accepted) : String × String := (a.subject, a.idempotencyKey)

/-- The request is filed in the database. -/
def Accepted.inDatabase (databaseConfigured : Bool) (a : Accepted) : Bool :=
  databaseConfigured && a.operation.quoteId?.isSome

/-- The ledger row of an operation on a quote. -/
def StoredOperation.Encodes (row : StoredOperation) : MemoryOperation → Prop
  | .assessment _ _ => False
  | .create quoteId requestJson =>
      row.operation = "create" ∧ row.quoteId = quoteId ∧ row.requestJson = some requestJson
  | .retry quoteId => row.operation = "retry" ∧ row.quoteId = quoteId

/-- The rows of the ledger are the accepted requests of `log`, and their quotes are stored. -/
structure RowsFiled (tables : QuoteDb) (log : List Accepted) : Prop where
  filed : ∀ a ∈ log, ∃ row, tables (.operations a.subject a.idempotencyKey) = [row] ∧
    row.Encodes a.operation
  logged : ∀ subject key row, (tables (.operations subject key)).head? = some row →
    ∃ a ∈ log, a.pair = (subject, key) ∧ row.Encodes a.operation
  quotes : ∀ a ∈ log, ∀ id, a.operation.quoteId? = some id → tables (.quote id) ≠ none

section

variable [CanonicalLib]

namespace AppState

/-- The record of an operation exists. -/
def HasRecord (state : AppState) : MemoryOperation → Prop
  | .assessment id _ => ∃ record ∈ state.assessments, record.id = id
  | .create id _ | .retry id => state.quotes id ≠ none

/-- The entries of the idempotency map are the accepted requests of `log` whose records
exist. -/
structure Filed (state : AppState) (log : List Accepted) : Prop where
  filed : ∀ a ∈ log, state.HasRecord a.operation → state.idempotency a.pair = some a.operation
  logged : ∀ pair operation, state.idempotency pair = some operation →
    ∃ a ∈ log, a.pair = pair ∧ a.operation = operation
  quotes : ∀ a ∈ log, ∀ id, a.operation.quoteId? = some id → state.quotes id ≠ none
  owned : ∀ pair id requestJson, state.idempotency pair = some (.assessment id requestJson) →
    ∃ record ∈ state.assessments, record.id = id ∧
      (record.subject, record.idempotencyKey) = pair
  distinct : (state.assessments.map AssessmentRecord.id).Nodup
  issuedRecords : ∀ record ∈ state.assessments, record.id ∈ state.issued
  issuedLog : ∀ a ∈ log, ∀ id requestJson, a.operation = .assessment id requestJson →
    id ∈ state.issued

/-- What a request leaves alone that accepts nothing: it writes no entry and no assessment. -/
structure Quiet (state state' : AppState) : Prop where
  idempotency : state'.idempotency = state.idempotency
  assessments : state'.assessments = state.assessments
  issued : ∀ id ∈ state.issued, id ∈ state'.issued
  quotes : ∀ id, state.quotes id ≠ none → state'.quotes id ≠ none

end AppState

omit [CanonicalLib] in
/-- The entries without a quote are those of assessments. -/
theorem MemoryOperation.quoteId?_eq_none_iff {operation : MemoryOperation} :
    operation.quoteId? = none ↔ ∃ id requestJson, operation = .assessment id requestJson := by
  cases operation <;> simp [quoteId?]

namespace AppState

variable {state state' : AppState} {log : List Accepted} {a : Accepted}

/-- To do nothing is quiet. -/
theorem Quiet.refl (state : AppState) : state.Quiet state :=
  ⟨rfl, rfl, fun _ h => h, fun _ h => h⟩

/-- Storing a record is quiet: it files nothing. -/
theorem insertQuote_quiet (state : AppState) (record : QuoteRecord) :
    state.Quiet (state.insertQuote record) := by
  refine ⟨rfl, rfl, fun _ h => h, fun id h => ?_⟩
  show Function.update state.quotes record.quoteId (some record) id ≠ none
  by_cases hid : id = record.quoteId
  · rw [hid, Function.update_self]
    exact nofun
  · rwa [Function.update_of_ne hid]

/-- To issue an id is quiet. -/
theorem issue_quiet {fresh? : Option Uuid} (h : state.issue fresh? = some state') :
    state.Quiet state' := by
  have hissues := issue_issues h
  have hassessments : state'.assessments = state.assessments := by
    cases fresh? with
    | none =>
      cases h
      rfl
    | some fresh =>
      rw [issue] at h
      split at h
      · cases h
      · cases h
        rfl
  exact ⟨hissues.idempotency, hassessments, fun id hid => (hissues.issued id).mpr (.inr hid),
    fun id hid => by rwa [hissues.quotes]⟩

/-- The record of an entry of a quote is the stored quote. -/
theorem hasRecord_of_quoteId? {operation : MemoryOperation} {id : Uuid}
    (h : operation.quoteId? = some id) : state.HasRecord operation ↔ state.quotes id ≠ none := by
  cases operation with
  | assessment _ _ => cases h
  | create _ _ =>
    cases h
    rfl
  | retry _ =>
    cases h
    rfl

/-- Nothing is filed in the beginning. -/
theorem Filed.empty : AppState.empty.Filed [] where
  filed _ h := nomatch h
  logged _ _ h := nomatch h
  quotes _ h := nomatch h
  owned _ _ _ h := nomatch h
  distinct := .nil
  issuedRecords _ h := nomatch h
  issuedLog _ h := nomatch h

/-- A step that writes no entry. -/
theorem Filed.quiet (h : state.Filed log) (hquiet : state.Quiet state') : state'.Filed log where
  filed a ha hrecord := by
    rw [hquiet.idempotency]
    cases hquote : a.operation.quoteId? with
    | some id =>
      exact h.filed a ha ((hasRecord_of_quoteId? hquote).mpr (h.quotes a ha id hquote))
    | none =>
      refine h.filed a ha ?_
      obtain ⟨id, requestJson, hassessment⟩ := MemoryOperation.quoteId?_eq_none_iff.mp hquote
      rw [hassessment, HasRecord] at hrecord ⊢
      rwa [hquiet.assessments] at hrecord
  logged pair operation hentry := by
    rw [hquiet.idempotency] at hentry
    exact h.logged pair operation hentry
  quotes a ha id hid := hquiet.quotes id (h.quotes a ha id hid)
  owned pair id requestJson hentry := by
    rw [hquiet.idempotency] at hentry
    rw [hquiet.assessments]
    exact h.owned pair id requestJson hentry
  distinct := hquiet.assessments ▸ h.distinct
  issuedRecords record hrecord := by
    rw [hquiet.assessments] at hrecord
    exact hquiet.issued _ (h.issuedRecords record hrecord)
  issuedLog a ha id requestJson hid := hquiet.issued id (h.issuedLog a ha id requestJson hid)

/-- A quote is accepted under a free key. -/
theorem Filed.acceptQuote (h : state.Filed log) {id : Uuid}
    (hfree : state.idempotency a.pair = none) (hquote : a.operation.quoteId? = some id)
    (hstored : state.quotes id ≠ none) :
    (state.insertOperation a.pair a.operation).Filed (log ++ [a]) where
  -- An older answer keeps its entry: its pair is another one, since this pair was free.
  filed b hb hrecord := by
    show Function.update state.idempotency a.pair (some a.operation) b.pair = _
    rcases List.mem_append.mp hb with hb | hb
    · have hentry := h.filed b hb hrecord
      rw [Function.update_of_ne, hentry]
      intro hpair
      rw [hpair, hfree] at hentry
      cases hentry
    · rw [List.mem_singleton.mp hb, Function.update_self]
  -- An entry is the new one, or one that stood there before.
  logged pair operation hentry := by
    have hentry : Function.update state.idempotency a.pair (some a.operation) pair =
      some operation := hentry
    by_cases hpair : pair = a.pair
    · rw [hpair, Function.update_self] at hentry
      exact ⟨a, by simp, hpair.symm, Option.some.inj hentry⟩
    · rw [Function.update_of_ne hpair] at hentry
      obtain ⟨b, hb, hbpair⟩ := h.logged pair operation hentry
      exact ⟨b, List.mem_append_left _ hb, hbpair⟩
  quotes b hb id' hid := by
    rcases List.mem_append.mp hb with hb | hb
    · exact h.quotes b hb id' hid
    · rw [List.mem_singleton.mp hb, hquote] at hid
      cases hid
      exact hstored
  -- The new entry names a quote, so an entry of an assessment is an old one.
  owned pair id' requestJson hentry := by
    have hentry : Function.update state.idempotency a.pair (some a.operation) pair =
      some (.assessment id' requestJson) := hentry
    by_cases hpair : pair = a.pair
    · rw [hpair, Function.update_self] at hentry
      rw [Option.some.inj hentry] at hquote
      cases hquote
    · rw [Function.update_of_ne hpair] at hentry
      exact h.owned pair id' requestJson hentry
  distinct := h.distinct
  issuedRecords := h.issuedRecords
  issuedLog b hb id' requestJson hid := by
    rcases List.mem_append.mp hb with hb | hb
    · exact h.issuedLog b hb id' requestJson hid
    · rw [List.mem_singleton.mp hb] at hid
      rw [hid] at hquote
      cases hquote

/-! ### Assessments -/

/-- The eviction of an assessment removes its entry too, so the others stay filed. -/
theorem Filed.evict (h : state.Filed log) : state.evictOldest.Filed log := by
  unfold evictOldest
  split
  case h_2 => exact h
  next evicted assessments hassessments =>
  obtain ⟨hfirst, hdistinct⟩ := List.nodup_cons.mp
    ((congrArg (fun l => (l.map AssessmentRecord.id).Nodup) hassessments).mp h.distinct)
  -- The records that stay are records from before, with ids other than the evicted one.
  have hrest : ∀ record ∈ assessments, record ∈ state.assessments := fun record hrecord =>
    hassessments ▸ List.mem_cons_of_mem _ hrecord
  have hgone : ∀ record ∈ assessments, record.id ≠ evicted.id := fun record hrecord hid =>
    hfirst (hid ▸ List.mem_map_of_mem hrecord)
  exact {
    filed := by
      intro a ha hrecord
      -- What still has its record had it before, and its entry is not the one that goes.
      have hbefore : state.HasRecord a.operation := by
        cases hoperation : a.operation with
        | assessment id requestJson =>
          rw [hoperation] at hrecord
          obtain ⟨record, hmem, hid⟩ := hrecord
          exact ⟨record, hrest record hmem, hid⟩
        | create id requestJson => rwa [hoperation] at hrecord
        | retry id => rwa [hoperation] at hrecord
      refine evictOperation_eq_some_iff.mpr ⟨h.filed a ha hbefore, ?_⟩
      rintro ⟨-, requestJson, hoperation⟩
      rw [hoperation] at hrecord
      obtain ⟨record, hmem, hid⟩ := hrecord
      exact hgone record hmem hid
    logged := fun pair operation hentry =>
      h.logged pair operation (evictOperation_eq_some_iff.mp hentry).1
    quotes := h.quotes
    owned := by
      intro pair id requestJson hentry
      obtain ⟨hentry, hother⟩ := evictOperation_eq_some_iff.mp hentry
      obtain ⟨record, hmem, hid, hpair⟩ := h.owned pair id requestJson hentry
      rw [hassessments] at hmem
      rcases List.mem_cons.mp hmem with rfl | hmem
      · exact absurd ⟨hpair.symm, requestJson, hid ▸ rfl⟩ hother
      · exact ⟨record, hmem, hid, hpair⟩
    distinct := hdistinct
    issuedRecords := fun record hrecord => h.issuedRecords record (hrest record hrecord)
    issuedLog := h.issuedLog }

/-- An assessment is accepted under a free key, with a new id. -/
theorem Filed.add (h : state.Filed log) {record : AssessmentRecord} {requestJson : JsonValue}
    (hpair : a.pair = (record.subject, record.idempotencyKey))
    (hoperation : a.operation = .assessment record.id requestJson)
    (hfree : state.idempotency a.pair = none)
    (hlog : ∀ b ∈ log, ∀ requestJson, b.operation ≠ .assessment record.id requestJson)
    (hrecords : ∀ old ∈ state.assessments, old.id ≠ record.id)
    (hissued : record.id ∈ state.issued) :
    (state.addAssessment record requestJson).Filed (log ++ [a]) where
  filed b hb hrecord := by
    show Function.update state.idempotency _ _ b.pair = _
    rcases List.mem_append.mp hb with hb | hb
    · -- A logged operation whose record is there had it before, because the new record has a new
      -- id.
      have hbefore : state.HasRecord b.operation := by
        cases hbop : b.operation with
        | assessment id requestJson' =>
          rw [hbop] at hrecord
          obtain ⟨old, hmem, hid⟩ := hrecord
          rcases List.mem_append.mp hmem with hmem | hmem
          · exact ⟨old, hmem, hid⟩
          · rw [List.mem_singleton.mp hmem] at hid
            exact absurd (hid ▸ hbop) (hlog b hb requestJson')
        | create id requestJson' => rwa [hbop] at hrecord
        | retry id => rwa [hbop] at hrecord
      have hentry := h.filed b hb hbefore
      -- The new key was free, so the entry of the other one stands.
      rw [Function.update_of_ne, hentry]
      intro hbpair
      rw [hbpair, ← hpair, hfree] at hentry
      cases hentry
    · rw [List.mem_singleton.mp hb, hpair, Function.update_self, hoperation]
  logged pair operation hentry := by
    have hentry : Function.update state.idempotency (record.subject, record.idempotencyKey)
      (some (.assessment record.id requestJson)) pair = some operation := hentry
    rw [← hpair, ← hoperation] at hentry
    by_cases hpair' : pair = a.pair
    · rw [hpair', Function.update_self] at hentry
      exact ⟨a, by simp, hpair'.symm, Option.some.inj hentry⟩
    · rw [Function.update_of_ne hpair'] at hentry
      obtain ⟨b, hb, hbpair⟩ := h.logged pair operation hentry
      exact ⟨b, List.mem_append_left _ hb, hbpair⟩
  quotes b hb id hid := by
    rcases List.mem_append.mp hb with hb | hb
    · exact h.quotes b hb id hid
    · rw [List.mem_singleton.mp hb, hoperation] at hid
      cases hid
  owned pair id requestJson' hentry := by
    have hentry : Function.update state.idempotency (record.subject, record.idempotencyKey)
      (some (.assessment record.id requestJson)) pair = some (.assessment id requestJson') := hentry
    by_cases hpair' : pair = (record.subject, record.idempotencyKey)
    · rw [hpair', Function.update_self] at hentry
      cases hentry
      exact ⟨record, List.mem_append_right _ (List.mem_singleton_self _), rfl, hpair'.symm⟩
    · rw [Function.update_of_ne hpair'] at hentry
      obtain ⟨old, hmem, hold⟩ := h.owned pair id requestJson' hentry
      exact ⟨old, List.mem_append_left _ hmem, hold⟩
  distinct := by
    show ((state.assessments ++ [record]).map AssessmentRecord.id).Nodup
    rw [List.map_append, List.nodup_append]
    refine ⟨h.distinct, List.nodup_singleton _, ?_⟩
    intro id hid id' hid'
    obtain ⟨old, hmem, rfl⟩ := List.mem_map.mp hid
    rw [List.map_singleton] at hid'
    rw [List.mem_singleton.mp hid']
    exact hrecords old hmem
  issuedRecords old hold := by
    rcases List.mem_append.mp hold with hold | hold
    · exact h.issuedRecords old hold
    · rw [List.mem_singleton.mp hold]
      exact hissued
  issuedLog b hb id requestJson' hid := by
    rcases List.mem_append.mp hb with hb | hb
    · exact h.issuedLog b hb id requestJson' hid
    · rw [List.mem_singleton.mp hb, hoperation] at hid
      cases hid
      exact hissued

end AppState

/-! ### Rows -/

namespace RowsFiled

variable {tables tables' : QuoteDb} {log : List Accepted} {a : Accepted}

omit [CanonicalLib] in
/-- No row is filed in the beginning. -/
theorem empty : RowsFiled emptyTables [] where
  filed _ h := nomatch h
  logged _ _ _ h := nomatch h
  quotes _ h := nomatch h

omit [CanonicalLib] in
/-- A step that writes no row of the ledger. -/
theorem keep (h : RowsFiled tables log)
    (hledger : ∀ subject key, tables' (.operations subject key) = tables (.operations subject key))
    (hquotes : ∀ id, tables (.quote id) ≠ none → tables' (.quote id) ≠ none) :
    RowsFiled tables' log where
  filed a ha := by
    obtain ⟨row, hrow, hencodes⟩ := h.filed a ha
    exact ⟨row, (hledger _ _).trans hrow, hencodes⟩
  logged subject key row hrow := by
    rw [hledger] at hrow
    exact h.logged subject key row hrow
  quotes a ha id hid := hquotes id (h.quotes a ha id hid)

variable [Postgres]

/-- The transaction of a worker writes no row of the ledger. -/
theorem work (h : RowsFiled tables log) {stage : WorkerStage} {job : AnalysisJob}
    {prog : QuoteTx QuoteResult} {x : QuoteResult} (hbody : stage.body job = some prog)
    (hruns : quoteEngine.Runs tables prog (.ok x) tables') : RowsFiled tables' log := by
  rcases WorkerStage.body_cases hbody hruns with
    ⟨-, event, found, old, row, -, hupdate⟩ | ⟨attemptId, attempt, rfl, -⟩
  · obtain ⟨eventRow, rfl⟩ := hupdate.tables
    refine h.keep (fun subject key => QuoteTables.progress_operations _ _ _ _ _) fun id hid => ?_
    by_cases hrow : id = row.id
    · rw [hrow, QuoteTables.progress_quote_self]
      exact nofun
    · rwa [QuoteTables.progress_quote_of_ne _ _ _ hrow]
  · refine h.keep (fun subject key => by simp) fun id hid => ?_
    simpa using hid

/-- A quote is accepted under a free key. -/
theorem accept (h : RowsFiled tables log) {request : MutationRequest} {row : QuoteRow}
    {operation : StoredOperation} {job : AnalysisJob}
    (haccepted : Acceptance request tables tables' row operation job)
    (hpair : a.pair = request.pair) (hencodes : operation.Encodes a.operation)
    (hquote : a.operation.quoteId? = some row.id) : RowsFiled tables' (log ++ [a]) := by
  obtain ⟨event, rfl⟩ := haccepted.tables
  obtain ⟨hsubject, hkey⟩ := Prod.mk.inj hpair
  have hfree := haccepted.ledger
  rw [← hsubject, ← hkey] at hfree ⊢
  exact {
    filed := by
      intro b hb
      rcases List.mem_append.mp hb with hb | hb
      · obtain ⟨row', hrow', hencodes'⟩ := h.filed b hb
        refine ⟨row', ?_, hencodes'⟩
        -- The key was free, so the rows of other operations stand under other keys.
        rw [QuoteTables.accept_operations_of_ne, hrow']
        rintro ⟨hs, hk⟩
        rw [hs, hk, hfree] at hrow'
        cases hrow'
      · rw [List.mem_singleton.mp hb, QuoteTables.accept_operations_self, hfree]
        exact ⟨operation, rfl, hencodes⟩
    logged := by
      intro subject key row' hrow'
      by_cases hsame : subject = a.subject ∧ key = a.idempotencyKey
      · obtain ⟨rfl, rfl⟩ := hsame
        rw [QuoteTables.accept_operations_self, hfree] at hrow'
        cases hrow'
        exact ⟨a, by simp, rfl, hencodes⟩
      · rw [QuoteTables.accept_operations_of_ne _ _ _ _ _ _ hsame] at hrow'
        obtain ⟨b, hb, hbpair⟩ := h.logged subject key row' hrow'
        exact ⟨b, List.mem_append_left _ hb, hbpair⟩
    quotes := by
      intro b hb id hid
      rw [QuoteTables.accept_quote]
      by_cases hrow : id = row.id
      · rw [hrow, QuoteTables.progress_quote_self]
        exact nofun
      · rw [QuoteTables.progress_quote_of_ne _ _ _ hrow]
        rcases List.mem_append.mp hb with hb | hb
        · exact h.quotes b hb id hid
        · rw [List.mem_singleton.mp hb, hquote] at hid
          exact absurd (Option.some.inj hid).symm hrow }

end RowsFiled

/-! ### One request -/

/-- An entry that a request does not replay belongs to another operation. -/
theorem MutationRequest.replays_eq_none_iff (request : MutationRequest)
    (operation : MemoryOperation) :
    request.replays operation = none ↔
      ¬ ∃ id, operation = (Submission.quote request).operation id := by
  obtain ⟨subject, key, mutation, settings⟩ := request
  have hid : Nonempty Uuid := ⟨.nil⟩
  cases mutation <;> cases operation <;> simp [replays, Submission.operation]

/-- The same for a ledger row. -/
theorem MutationRequest.matches_iff {request : MutationRequest} {row : StoredOperation}
    {operation : MemoryOperation} (h : row.Encodes operation) :
    request.Matches row ↔ ∃ id, operation = (Submission.quote request).operation id := by
  obtain ⟨subject, key, mutation, settings⟩ := request
  have hid : Nonempty Uuid := ⟨.nil⟩
  cases mutation <;> cases operation <;>
    simp_all [StoredOperation.Encodes, Matches, StoredOperation.IsCreate,
      StoredOperation.IsRetry, Submission.operation]

/-- The ledger row of an accepted request encodes it. -/
theorem Acceptance.encodes [Postgres] {request : MutationRequest} {db db' : QuoteDb}
    {row : QuoteRow} {operation : StoredOperation} {job : AnalysisJob}
    (h : Acceptance request db db' row operation job) :
    operation.Encodes ((Submission.quote request).operation row.id) ∧
      ((Submission.quote request).operation row.id).quoteId? = some row.id := by
  have hmatched := h.matched
  have hid := h.operationId
  obtain ⟨subject, key, mutation, settings⟩ := request
  cases mutation with
  | create accepted timestamp fresh => exact ⟨⟨hmatched.1, hid, hmatched.2⟩, rfl⟩
  | retry quoteId => exact ⟨hmatched, congrArg some (hmatched.2.symm.trans hid)⟩

/-- The record of a new request: a create makes one, and a retry needs a failed quote of its
subject. -/
theorem MutationRequest.draft_eq_ok_iff {request : MutationRequest} {state : AppState}
    {timestamp : Option String} {record : QuoteRecord} :
    request.draft state timestamp = .ok record ↔ ∃ now, timestamp = some now ∧
      match request.mutation with
      | .create accepted _ fresh =>
          record = newRecord request.settings request.subject accepted.wire now fresh
      | .retry quoteId => ∃ old, state.findQuote quoteId request.subject = .ok old ∧
          old.status = "failed" ∧ record =
            { old with
              status := "queued", analysis := none, errorCode := none, updatedAt := now } := by
  obtain ⟨subject, key, mutation, settings⟩ := request
  cases mutation with
  | create accepted created fresh =>
    unfold draft
    simp only [Outcome.bind_eq_ok_iff, Outcome.okOr_eq_ok_iff]
    refine exists_congr fun now => and_congr_right fun _ => ?_
    exact ⟨fun h => (Except.ok.inj h).symm, fun h => congrArg Except.ok h.symm⟩
  | retry quoteId =>
    unfold draft
    simp only [Outcome.bind_eq_ok_iff, Outcome.ite_error_eq_ok_iff, Outcome.okOr_eq_ok_iff,
      ne_eq, not_not]
    constructor
    · rintro ⟨old, hold, hstatus, now, hnow, hrecord⟩
      exact ⟨now, hnow, old, hold, hstatus, (Except.ok.inj hrecord).symm⟩
    · rintro ⟨now, hnow, old, hold, hstatus, rfl⟩
      exact ⟨old, hold, hstatus, now, hnow, rfl⟩

variable [Postgres]

omit [CanonicalLib] in
/-- A transaction that succeeds has run, and one that fails changes nothing. -/
theorem transact_cases {α : Type} (input : Option QuoteInput) (tables : QuoteDb)
    (prog : QuoteTx α) :
    (∃ i a tables', input = some i ∧ quoteEngine.evaluate i tables prog = some (.ok a, tables') ∧
      transact input tables prog = (.ok a, tables')) ∨
    ∃ e, transact input tables prog = (.error e, tables) := by
  unfold transact
  cases input with
  | none => exact .inr ⟨_, rfl⟩
  | some i =>
    rw [Option.bind_some]
    cases hrun : quoteEngine.evaluate i tables prog with
    | none => exact .inr ⟨_, rfl⟩
    | some p =>
      obtain ⟨result, tables'⟩ := p
      cases result with
      | ok a => exact .inl ⟨i, a, tables', rfl, hrun, rfl⟩
      | error e => exact .inr ⟨e, rfl⟩

/-- What a request does behind the limiter: it is not accepted and leaves the ledgers as they are,
or it is filed in the ledger of its mode. -/
inductive Serves (replica : Replica) : Submission → Served → Replica → Prop where
  | quiet {submission : Submission} {served : Served} {memory : AppState} :
      (∀ id, served ≠ .accepted id) → replica.memory.Quiet memory →
      Serves replica submission served { replica with memory }
  | memoryQuote {request : MutationRequest} {record : QuoteRecord} {memory : AppState}
      {stage : MemoryWorkerStage} {job : AnalysisJob} :
      request.settings.databaseConfigured = false →
      replica.memory.idempotency request.pair = none →
      replica.memory.Quiet memory →
      (∃ id, ((Submission.quote request).operation record.quoteId).quoteId? = some id ∧
        memory.quotes id ≠ none) →
      Serves replica (.quote request) (.accepted record.quoteId)
        { replica with
          memory := memory.insertOperation request.pair
            ((Submission.quote request).operation record.quoteId)
          memoryWorkers := replica.memoryWorkers ++ [.worker stage job] }
  | databaseQuote {request : MutationRequest} {row : QuoteRow} {operation : StoredOperation}
      {job : AnalysisJob} {tables : QuoteDb} {worker : DatabaseWorker} :
      request.settings.databaseConfigured = true →
      Acceptance request replica.tables tables row operation job →
      Serves replica (.quote request) (.accepted row.id)
        { replica with tables, databaseWorkers := replica.databaseWorkers ++ [worker] }
  | assessment {request : AssessmentRequest} {receivedAt : String} :
      replica.memory.idempotency (request.subject, request.idempotencyKey) = none →
      Serves replica (.assessment request) (.accepted request.fresh)
        { replica with
          memory := replica.memory.insertAssessment (request.record receivedAt)
            request.submission.toValue }

namespace Serves

variable {replica : Replica} {surroundings : Surroundings}

/-- A quote without a database. -/
theorem of_handle {request : MutationRequest}
    (hmemory : request.settings.databaseConfigured = false) (timestamp : Option String) :
    Serves replica (.quote request) (request.handle replica.memory timestamp).1
      { replica with
        memory := (request.handle replica.memory timestamp).2.1
        memoryWorkers := replica.memoryWorkers ++
          (request.handle replica.memory timestamp).2.2.toList } := by
  have hrefused : ∀ error, Serves replica (.quote request) (.refused error)
      { replica with memoryWorkers := replica.memoryWorkers ++ [] } := by
    intro error
    rw [List.append_nil]
    exact .quiet (fun id h => by cases h) (.refl _)
  cases hentry : replica.memory.idempotency request.pair with
  | some operation =>
    cases hreplays : request.replays operation with
    | none =>
      simp only [MutationRequest.handle, hentry, hreplays]
      exact hrefused _
    | some quoteId =>
      simp only [MutationRequest.handle, hentry, hreplays]
      cases request.original replica.memory quoteId with
      | error error => exact hrefused error
      | ok record =>
        show Serves replica _ _ { replica with
          memory := replica.memory.insertQuote record
          memoryWorkers := replica.memoryWorkers ++ [] }
        rw [List.append_nil]
        exact .quiet (fun id h => by cases h) (replica.memory.insertQuote_quiet record)
  | none =>
    simp only [MutationRequest.handle, hentry]
    cases hdraft : request.draft replica.memory timestamp with
    | error error => exact hrefused error
    | ok record =>
      -- The order in which the fields are written does not matter.
      let memory := (((replica.memory.memoryEvent record).2.insertQuote record).publishEvent
        (replica.memory.memoryEvent record).1)
      have hquiet : replica.memory.Quiet memory := by
        obtain ⟨hidempotency, hassessments, hissued, hquotes⟩ :=
          replica.memory.insertQuote_quiet record
        exact ⟨hidempotency, hassessments, hissued, hquotes⟩
      have hstored : memory.quotes record.quoteId ≠ none := by
        show Function.update replica.memory.quotes record.quoteId (some record) _ ≠ none
        rw [Function.update_self]
        exact Option.some_ne_none _
      obtain ⟨now, -, hrecord⟩ := MutationRequest.draft_eq_ok_iff.mp hdraft
      refine .memoryQuote hmemory hentry hquiet ?_
      obtain ⟨subject, key, mutation, settings⟩ := request
      cases mutation with
      | create accepted created fresh => exact ⟨record.quoteId, rfl, hstored⟩
      | retry quoteId =>
        obtain ⟨old, hold, -⟩ := hrecord
        refine ⟨quoteId, rfl, hquiet.quotes quoteId ?_⟩
        rw [(AppState.findQuote_ok hold).1]
        exact Option.some_ne_none _

/-- A quote with a database. -/
theorem of_handleDatabase {request : MutationRequest}
    (hdatabase : request.settings.databaseConfigured = true) (surroundings : Surroundings) :
    Serves replica (.quote request) (request.handleDatabase replica.tables surroundings).1
      { replica with
        tables := (request.handleDatabase replica.tables surroundings).2.1
        databaseWorkers := replica.databaseWorkers ++
          (request.handleDatabase replica.tables surroundings).2.2.toList } := by
  have hquiet : ∀ served : Served, (∀ id, served ≠ .accepted id) →
      Serves replica (.quote request) served
        { replica with databaseWorkers := replica.databaseWorkers ++ [] } := by
    intro served hserved
    rw [List.append_nil]
    exact .quiet hserved (.refl _)
  rcases transact_cases surroundings.database replica.tables request.body with
    ⟨i, x, tables', -, hrun, htransact⟩ | ⟨e, htransact⟩
  · rcases MutationRequest.body_cases (quoteEngine.runs_of_evaluate hrun) with
      ⟨operation, found, -, -, -, rfl, hresume⟩ | ⟨row, operation, job, event, haccepted, hresume⟩
    · simp only [MutationRequest.handleDatabase, htransact, hresume]
      exact hquiet _ nofun
    · simp only [MutationRequest.handleDatabase, htransact, hresume, haccepted.job]
      exact .databaseQuote hdatabase haccepted
  · simp only [MutationRequest.handleDatabase, htransact, MutationRequest.resume]
    exact hquiet _ nofun

/-- An assessment. -/
theorem of_assessment (request : AssessmentRequest) (timestamp : Option String) :
    Serves replica (.assessment request) (request.handle replica.memory timestamp).1
      { replica with memory := (request.handle replica.memory timestamp).2 } := by
  have hsame : ∀ served : Served, (∀ id, served ≠ .accepted id) →
      Serves replica (.assessment request) served { replica with memory := replica.memory } :=
    fun served hserved => .quiet hserved (.refl _)
  unfold AssessmentRequest.handle createReadinessAssessment
  cases hentry : replica.memory.idempotency (request.subject, request.idempotencyKey) with
  | none =>
    cases timestamp with
    | none => exact hsame _ nofun
    | some receivedAt => exact .assessment hentry
  | some operation =>
    cases operation with
    | create _ _ => exact hsame _ nofun
    | retry _ => exact hsame _ nofun
    | assessment assessmentId existing =>
      by_cases hexisting : existing = request.submission.toValue
      · simp only [if_pos hexisting]
        cases replica.memory.findAssessment assessmentId request.subject with
        | ok record => exact hsame _ nofun
        | error error => exact hsame _ nofun
      · simp only [if_neg hexisting]
        exact hsame _ nofun

end Serves

/-- A quote behind the limiter, without a database and with one. -/
theorem Replica.serve_memory (replica : Replica) {request : MutationRequest}
    (h : request.settings.databaseConfigured = false) (surroundings : Surroundings) :
    replica.serve (.quote request) surroundings =
      ((request.handle replica.memory surroundings.timestamp).1,
        { replica with
          memory := (request.handle replica.memory surroundings.timestamp).2.1
          memoryWorkers := replica.memoryWorkers ++
            (request.handle replica.memory surroundings.timestamp).2.2.toList }) := by
  simp only [Replica.serve, h]
  rfl

/-- With a database a request of a quote is one transaction, unless a create finds no time first. -/
theorem Replica.serve_database (replica : Replica) {request : MutationRequest}
    (h : request.settings.databaseConfigured = true) (surroundings : Surroundings) :
    replica.serve (.quote request) surroundings =
      if request.mutation.fresh?.isSome = true ∧ surroundings.timestamp = none then
        (.refused timestampUnavailable, replica)
      else
        ((request.handleDatabase replica.tables surroundings).1,
          { replica with
            tables := (request.handleDatabase replica.tables surroundings).2.1
            databaseWorkers := replica.databaseWorkers ++
              (request.handleDatabase replica.tables surroundings).2.2.toList }) := by
  simp only [Replica.serve, h, if_true, Bool.and_eq_true, Option.isNone_iff_eq_none]

/-- The windows are the matter of the limiter. -/
theorem Serves.windows {replica replica' : Replica} {submission : Submission}
    {served : Served} (h : Serves replica submission served replica') :
    replica'.windows = replica.windows := by
  cases h <;> rfl

/-- Every request behind the limiter is served like this. -/
theorem Replica.serves (replica : Replica) (submission : Submission)
    (surroundings : Surroundings) :
    Serves replica submission (replica.serve submission surroundings).1
      (replica.serve submission surroundings).2 := by
  cases submission with
  | assessment request => exact .of_assessment request surroundings.timestamp
  | quote request =>
    cases hdatabase : request.settings.databaseConfigured with
    | false =>
      rw [replica.serve_memory hdatabase]
      exact .of_handle hdatabase surroundings.timestamp
    | true =>
      rw [replica.serve_database hdatabase]
      split
      · exact .quiet nofun (.refl _)
      · exact .of_handleDatabase hdatabase surroundings

/-! ### Runs -/

/-- The request has the permit that it needs. -/
def Submission.Permitted (submission : Submission) (surroundings : Surroundings) : Prop :=
  submission.needsPermit = true → surroundings.permit = true

/-- A request is refused without a permit, it is refused by the limiter, or it is served. The three
cases exclude each other. -/
inductive Submits (replica : Replica) (submission : Submission) (surroundings : Surroundings) :
    Served → Replica → Prop where
  | unpermitted : ¬ submission.Permitted surroundings →
      Submits replica submission surroundings (.refused analysisCapacityReached) replica
  | limited {limited : RateLimited} {windows : SubmissionWindows} :
      submission.Permitted surroundings →
      checkSubmission replica.windows submission.subject surroundings.now =
        (.error limited, windows) →
      Submits replica submission surroundings (.refused (.rateLimited limited.retryAfterSeconds))
        { replica with windows }
  | served {windows : SubmissionWindows} :
      submission.Permitted surroundings →
      checkSubmission replica.windows submission.subject surroundings.now = (.ok (), windows) →
      Submits replica submission surroundings
        ({ replica with windows }.serve submission surroundings).1
        ({ replica with windows }.serve submission surroundings).2

/-- Every submission is one of the cases of `Submits`. -/
theorem Replica.submits (replica : Replica) (submission : Submission)
    (surroundings : Surroundings) :
    Submits replica submission surroundings (replica.submit submission surroundings).1
      (replica.submit submission surroundings).2 := by
  unfold Replica.submit
  split
  · next hpermit =>
    refine .unpermitted ?_
    simpa [Submission.Permitted] using hpermit
  · next hpermit =>
    have hpermit : submission.Permitted surroundings := by
      simpa [Submission.Permitted] using hpermit
    split
    · next limited windows hcheck => exact .limited hpermit hcheck
    · next windows hcheck => exact .served hpermit hcheck

variable {databaseConfigured : Bool} {s s' : History}

/-- The inversion of a request in a run. -/
theorem History.submit_cases {submission : Submission} {surroundings : Surroundings}
    {served : Served}
    (h : s.submit databaseConfigured submission surroundings = some (served, s')) :
    ∃ memory, s.replica.memory.issue submission.fresh? = some memory ∧
      submission.configured databaseConfigured = true ∧ s.clock ≤ surroundings.now ∧
      s'.clock = surroundings.now ∧
      s'.accepted = s.accepted ++ served.note submission surroundings.now ∧
      Submits { s.replica with memory } submission surroundings served s'.replica := by
  unfold History.submit at h
  split at h
  case isFalse => cases h
  next hcondition =>
  obtain ⟨hconfigured, hclock⟩ := Bool.and_eq_true_iff.mp hcondition
  obtain ⟨memory, hissue, h⟩ := Option.bind_eq_some_iff.mp h
  cases h
  exact ⟨memory, hissue, hconfigured, of_decide_eq_true hclock, rfl, rfl,
    Replica.submits _ submission surroundings⟩

/-- The two ledgers hold the accepted requests whose records exist. -/
structure History.Filed (databaseConfigured : Bool) (s : History) : Prop where
  memory : s.replica.memory.Filed
    (s.accepted.filter fun a => !a.inDatabase databaseConfigured)
  rows : RowsFiled s.replica.tables (s.accepted.filter fun a => a.inDatabase databaseConfigured)
  workers : ∀ task ∈ s.replica.memoryWorkers, ∃ stage job, task = .worker stage job

namespace History.Filed

omit [Postgres] in
/-- A worker without a database writes no entry and no assessment. -/
theorem worker_quiet {state : AppState} {stage : MemoryWorkerStage} {job : AnalysisJob}
    {input : MemoryInput} {after : AppState × MemoryWorkerStage × AnalysisJob}
    (h : stage.poll state job input = some after) : state.Quiet after.1 := by
  -- A worker prepares an update, which at most draws a timestamp,
  have hprepared : ∀ (state : AppState) (record : QuoteRecord) (timestamp : Option String)
      (next : QuoteEventRecord → MemoryWorkerStage),
      state.Quiet (job.update state record timestamp next).1 := by
    rintro state record (_ | timestamp) next
    · exact .refl _
    · exact ⟨rfl, rfl, fun _ h => h, fun _ h => h⟩
  -- or finishes one, which stores its quote.
  have hfinished : ∀ event, state.Quiet (state.finishUpdate job.record event) := fun event =>
    have hinsert := state.insertQuote_quiet job.record
    ⟨hinsert.idempotency, hinsert.assessments, hinsert.issued, hinsert.quotes⟩
  cases input with
  | resume timestamp =>
    cases stage with
    | created configured =>
      cases h
      exact hprepared ..
    | marking configured event =>
      cases configured with
      | true =>
        cases h
        exact hfinished event
      | false =>
        cases h
        obtain ⟨hidempotency, hassessments, hissued, hquotes⟩ := hfinished event
        obtain ⟨hidempotency', hassessments', hissued', hquotes'⟩ :=
          hprepared (state.finishUpdate job.record event) (notConfigured job.record) timestamp
            .recording
        exact ⟨hidempotency'.trans hidempotency, hassessments'.trans hassessments,
          fun id hid => hissued' id (hissued id hid), fun id hid => hquotes' id (hquotes id hid)⟩
    | recording event =>
      cases h
      exact hfinished event
    | calling => cases h
    | done => cases h
  | called outcome timestamp =>
    cases stage with
    | calling =>
      cases h
      exact hprepared ..
    | created configured => cases h
    | marking configured event => cases h
    | recording event => cases h
    | done => cases h

omit [Postgres] in
/-- A new replica has filed nothing. -/
theorem start : History.Filed databaseConfigured ⟨.start, 0, []⟩ where
  memory := .empty
  rows := .empty
  workers _ h := nomatch h

omit [Postgres] in
/-- A request that accepts nothing. -/
theorem quiet (h : s.Filed databaseConfigured) (replica : Replica) (now : Nat)
    (hmemory : s.replica.memory.Quiet replica.memory) (htables : replica.tables = s.replica.tables)
    (hworkers : replica.memoryWorkers = s.replica.memoryWorkers) :
    History.Filed databaseConfigured ⟨replica, now, s.accepted⟩ where
  memory := h.memory.quiet hmemory
  rows := by
    show RowsFiled replica.tables _
    rw [htables]
    exact h.rows
  workers := by
    show ∀ task ∈ replica.memoryWorkers, _
    rw [hworkers]
    exact h.workers

/-- A request that is served. -/
theorem serve (h : s.Filed databaseConfigured) {submission : Submission} {served : Served}
    {memory : AppState} {windows : SubmissionWindows} {replica : Replica} (now : Nat)
    (hissue : s.replica.memory.issue submission.fresh? = some memory)
    (hconfigured : submission.configured databaseConfigured = true)
    (hserves : Serves { s.replica with memory, windows } submission served replica) :
    History.Filed databaseConfigured ⟨replica, now, s.accepted ++ served.note submission now⟩ := by
  have hquiet := AppState.issue_quiet hissue
  cases hserves with
  -- What was not accepted is not logged.
  | quiet hserved hmemory =>
    have hnote : served.note submission now = [] := by
      cases served with
      | accepted id => exact absurd rfl (hserved id)
      | replayed id => rfl
      | refused error => rfl
    rw [hnote, List.append_nil]
    exact {
      memory := (h.memory.quiet hquiet).quiet hmemory
      rows := h.rows
      workers := h.workers }
  -- A quote accepted in memory is logged there, with its worker.
  | @memoryQuote request record memory' stage job hdatabase hfree hmemory hstored =>
    have hdatabase' : databaseConfigured = false := by
      rw [← hdatabase]
      exact (beq_iff_eq.mp hconfigured).symm
    subst hdatabase'
    have hfiled := (h.memory.quiet hquiet).quiet hmemory
    obtain ⟨id, hid, hstored⟩ := hstored
    have hfree' : memory'.idempotency request.pair = none := by
      rw [hmemory.idempotency]
      exact hfree
    exact {
      memory := by
        rw [List.filter_append]
        exact hfiled.acceptQuote (a := ⟨_, _, _, now⟩) hfree' hid hstored
      rows := by
        rw [List.filter_append]
        show RowsFiled _ (_ ++ [])
        rw [List.append_nil]
        exact h.rows
      workers := by
        intro task htask
        rcases List.mem_append.mp htask with htask | htask
        · exact h.workers task htask
        · exact ⟨stage, job, List.mem_singleton.mp htask⟩ }
  -- A quote accepted in the database is logged in its ledger.
  | @databaseQuote request row operation job tables worker hdatabase haccepted =>
    have hdatabase' : databaseConfigured = true := by
      rw [← hdatabase]
      exact (beq_iff_eq.mp hconfigured).symm
    subst hdatabase'
    obtain ⟨hencodes, hid⟩ := haccepted.encodes
    have hin : Accepted.inDatabase true ⟨request.subject, request.idempotencyKey,
        (Submission.quote request).operation row.id, now⟩ = true := by
      rw [Accepted.inDatabase, hid]
      rfl
    have hnote : (Served.accepted row.id).note (.quote request) now =
        [⟨request.subject, request.idempotencyKey,
          (Submission.quote request).operation row.id, now⟩] := rfl
    exact {
      memory := by
        rw [hnote, List.filter_append, List.filter_cons_of_neg (by simp [hin]), List.filter_nil,
          List.append_nil]
        exact h.memory.quiet hquiet
      rows := by
        rw [hnote, List.filter_append, List.filter_cons_of_pos hin, List.filter_nil]
        exact h.rows.accept haccepted rfl hencodes hid
      workers := h.workers }
  -- An assessment is logged in memory and may evict the oldest record.
  | @assessment request receivedAt hfree =>
    have hnote : (Served.accepted request.fresh).note (.assessment request) now =
        [⟨request.subject, request.idempotencyKey,
          .assessment request.fresh request.submission.toValue, now⟩] := rfl
    have hin : ∀ dc, Accepted.inDatabase dc ⟨request.subject, request.idempotencyKey,
        .assessment request.fresh request.submission.toValue, now⟩ = false := by
      intro dc
      cases dc <;> rfl
    have hissues := AppState.issue_issues hissue
    have hnew := hissues.new request.fresh rfl
    exact {
      memory := by
        rw [hnote, List.filter_append, List.filter_cons_of_pos (by simp [hin]), List.filter_nil]
        have hfiled : (memory.addAssessment (request.record receivedAt)
            request.submission.toValue).Filed _ :=
          (h.memory.quiet hquiet).add
            (a := ⟨request.subject, request.idempotencyKey,
              .assessment request.fresh request.submission.toValue, now⟩)
            rfl rfl hfree
            (fun b hb requestJson hoperation =>
              hnew (h.memory.issuedLog b hb request.fresh requestJson hoperation))
            (fun old hold hid => hnew (by
              rw [hquiet.assessments] at hold
              have := h.memory.issuedRecords old hold
              rwa [hid] at this))
            ((hissues.issued request.fresh).mpr (.inl rfl))
        show (memory.insertAssessment _ _).Filed _
        rw [AppState.insertAssessment_eq]
        split
        · exact hfiled.evict
        · exact hfiled
      rows := by
        rw [hnote, List.filter_append, List.filter_cons_of_neg (by simp [hin]), List.filter_nil,
          List.append_nil]
        exact h.rows
      workers := h.workers }

/-- A request keeps the invariant, whatever its answer is. -/
theorem submit (h : s.Filed databaseConfigured) {submission : Submission}
    {surroundings : Surroundings} {served : Served}
    (hsubmit : s.submit databaseConfigured submission surroundings = some (served, s')) :
    s'.Filed databaseConfigured := by
  obtain ⟨memory, hissue, hconfigured, -, -, haccepted, hsubmits⟩ := History.submit_cases hsubmit
  obtain ⟨replica, clock, accepted⟩ := s'
  have haccepted : accepted = s.accepted ++ served.note submission surroundings.now := haccepted
  subst haccepted
  have hrefused : ∀ (windows : SubmissionWindows),
      History.Filed databaseConfigured
        ⟨{ s.replica with memory, windows }, clock, s.accepted ++ []⟩ := by
    intro windows
    rw [List.append_nil]
    exact h.quiet { s.replica with memory, windows } clock (AppState.issue_quiet hissue) rfl rfl
  cases hsubmits with
  | unpermitted _ => exact hrefused _
  | limited _ _ => exact hrefused _
  | served _ _ =>
    obtain ⟨hmemory, hrows, hworkers⟩ :=
      h.serve surroundings.now hissue hconfigured (Replica.serves _ _ _)
    exact ⟨hmemory, hrows, hworkers⟩

omit [Postgres] in
/-- A worker without a database files nothing. -/
theorem workInMemory (h : s.Filed databaseConfigured) {i : Nat} {input : MemoryInput}
    {replica : Replica} (hwork : s.replica.workInMemory i input = some replica) :
    History.Filed databaseConfigured { s with replica } := by
  obtain ⟨task, htask, hwork⟩ := Option.bind_eq_some_iff.mp hwork
  obtain ⟨⟨memory, task', child?⟩, hpoll, hwork⟩ := Option.bind_eq_some_iff.mp hwork
  cases hwork
  obtain ⟨stage, job, rfl⟩ := h.workers task (List.mem_of_getElem? htask)
  obtain ⟨⟨memory', stage', job'⟩, hstage, heq⟩ := Option.map_eq_some_iff.mp hpoll
  cases heq
  exact {
    memory := h.memory.quiet (worker_quiet hstage)
    rows := h.rows
    workers := by
      intro task htask
      rcases List.mem_or_eq_of_mem_set htask with htask | rfl
      · exact h.workers task htask
      · exact ⟨stage', job', rfl⟩ }

/-- A worker with a database files nothing. -/
theorem workInDatabase (h : s.Filed databaseConfigured) {i : Nat} {input : Option QuoteInput}
    {outcome : CallOutcome} {replica : Replica}
    (hwork : s.replica.workInDatabase i input outcome = some replica) :
    History.Filed databaseConfigured { s with replica } := by
  obtain ⟨⟨stage, job⟩, -, hwork⟩ := Option.bind_eq_some_iff.mp hwork
  dsimp only at hwork
  split at hwork
  · next prog hbody =>
    cases hwork
    refine ⟨h.memory, ?_, h.workers⟩
    rcases transact_cases input s.replica.tables prog with
      ⟨i, x, tables, -, hrun, htransact⟩ | ⟨e, htransact⟩
    · simp only [htransact]
      exact h.rows.work hbody (quoteEngine.runs_of_evaluate hrun)
    · simp only [htransact]
      exact h.rows
  · cases hwork
    exact ⟨h.memory, h.rows, h.workers⟩
  · cases hwork

/-- In every run the two ledgers hold the accepted requests whose records exist. -/
theorem of_reachable (h : (replicaRuns databaseConfigured).Reachable s) :
    s.Filed databaseConfigured := by
  refine h.induct (fun s hs => ?_) fun s step s' _ hfiled _ hstep => ?_
  · have hs : s = ⟨.start, 0, []⟩ := hs
    subst hs
    exact start
  · cases step with
    | submit submission surroundings =>
      obtain ⟨⟨served, s''⟩, hsubmit, rfl⟩ := Option.map_eq_some_iff.mp hstep
      exact hfiled.submit hsubmit
    | workInMemory i input =>
      obtain ⟨replica, hwork, heq⟩ := Option.bind_eq_some_iff.mp hstep
      cases heq
      exact hfiled.workInMemory hwork
    | workInDatabase i input outcome =>
      obtain ⟨replica, hwork, heq⟩ := Option.bind_eq_some_iff.mp hstep
      cases heq
      exact hfiled.workInDatabase hwork

end History.Filed

/-! ### Records that exist -/

/-- The record of an accepted request exists. -/
def Replica.HasRecord (databaseConfigured : Bool) (replica : Replica) (a : Accepted) : Prop :=
  if a.inDatabase databaseConfigured then
    ∃ id, a.operation.quoteId? = some id ∧ replica.tables (.quote id) ≠ none
  else replica.memory.HasRecord a.operation

omit [Postgres] in
/-- The ledger that a request looks its key up in. -/
def Submission.inDatabase (databaseConfigured : Bool) : Submission → Bool
  | quote _ => databaseConfigured
  | assessment _ => false

omit [Postgres] in
/-- A request is filed in the ledger that its repetitions look their key up in. -/
theorem Submission.inDatabase_eq {submission : Submission} {a : Accepted} {id : Uuid}
    (h : a.operation = submission.operation id) :
    a.inDatabase databaseConfigured = submission.inDatabase databaseConfigured := by
  unfold Accepted.inDatabase
  rw [h]
  cases submission with
  | assessment request => exact Bool.and_false _
  | quote request =>
    obtain ⟨subject, key, mutation, settings⟩ := request
    cases mutation <;> exact Bool.and_true _

omit [Postgres] in
/-- The entry of an accepted request in memory whose record exists. -/
theorem History.Filed.entry (h : s.Filed databaseConfigured) {a : Accepted}
    (ha : a ∈ s.accepted) (hrecord : s.replica.HasRecord databaseConfigured a)
    (hin : a.inDatabase databaseConfigured = false) :
    s.replica.memory.idempotency a.pair = some a.operation := by
  rw [Replica.HasRecord, hin, if_neg nofun] at hrecord
  exact h.memory.filed a (List.mem_filter.mpr ⟨ha, by rw [hin]; rfl⟩) hrecord

omit [Postgres] in
/-- The ledger row of an accepted request in the database. -/
theorem History.Filed.row (h : s.Filed databaseConfigured) {a : Accepted}
    (ha : a ∈ s.accepted) (hin : a.inDatabase databaseConfigured = true) :
    ∃ row, s.replica.tables (.operations a.subject a.idempotencyKey) = [row] ∧
      row.Encodes a.operation :=
  h.rows.filed a (List.mem_filter.mpr ⟨ha, hin⟩)

end

end CanonicalApi
