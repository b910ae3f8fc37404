import CanonicalApi.Replica.Ledgers

/-!
# `CanonicalApi.Replica.Exclusion`: one operation for each key

A key that was accepted for one kind of operation is refused for another kind. Each handler
looks its key up in one ledger: `serve_reused_iff` says when it refuses the key. Without a
database all three kinds are in the idempotency map, and the exclusion holds. With a database
the quotes are in its ledger and the assessments are in memory, so a key can be accepted for a
quote and for an assessment.
-/

set_option autoImplicit false

namespace CanonicalApi

open Transaction Transition

/-- The kinds of operations that an idempotency key is used for. -/
inductive OperationKind where
  | assessment
  | create
  | retry
deriving DecidableEq

/-- The kind of an entry. -/
def MemoryOperation.kind : MemoryOperation → OperationKind
  | assessment _ _ => .assessment
  | create _ _ => .create
  | retry _ => .retry

section

variable [CanonicalLib]

/-- The kind of operation that a submission asks for. -/
def Submission.kind : Submission → OperationKind
  | quote request =>
      match request.mutation with
      | .create _ _ _ => .create
      | .retry _ => .retry
  | assessment _ => .assessment

/-- A submission makes an entry of its own kind. -/
theorem Submission.kind_operation (submission : Submission) (id : Uuid) :
    (submission.operation id).kind = submission.kind := by
  cases submission with
  | assessment request => rfl
  | quote request =>
    obtain ⟨subject, key, mutation, settings⟩ := request
    cases mutation <;> rfl

/-- The stored records and the ledgers are the same. -/
structure Replica.SameRecords (replica replica' : Replica) : Prop where
  quotes : replica'.memory.quotes = replica.memory.quotes
  assessments : replica'.memory.assessments = replica.memory.assessments
  idempotency : replica'.memory.idempotency = replica.memory.idempotency
  tables : replica'.tables = replica.tables

/-! ### The refusal of a key -/

/-- A lookup of a quote never says that a key was reused. -/
theorem findQuote_ne_reused (state : AppState) (quoteId : Uuid) (subject : String) :
    state.findQuote quoteId subject ≠ .error idempotencyReused := by
  have hnotFound : ApiError.notFound "not_found" "quote was not found" ≠ idempotencyReused := by
    decide
  unfold AppState.findQuote
  split
  · split
    · exact nofun
    · exact fun h => hnotFound (Except.error.inj h)
  · exact fun h => hnotFound (Except.error.inj h)

/-- Nor does the replay of an entry that fits. -/
theorem original_ne_reused (request : MutationRequest) (state : AppState) (quoteId : Uuid) :
    request.original state quoteId ≠ .error idempotencyReused := by
  unfold MutationRequest.original
  split
  · cases state.quotes quoteId with
    | none => exact fun h => absurd (Except.error.inj h) (by decide)
    | some record => exact nofun
  · exact findQuote_ne_reused _ _ _

/-- Nor does the draft of a new record. -/
theorem draft_ne_reused (request : MutationRequest) (state : AppState)
    (timestamp : Option String) :
    request.draft state timestamp ≠ .error idempotencyReused := by
  have htimestamp : timestampUnavailable ≠ idempotencyReused := by decide
  unfold MutationRequest.draft
  split
  · cases timestamp with
    | none => exact fun h => htimestamp (Except.error.inj h)
    | some createdAt => exact nofun
  · next quoteId hmutation =>
    have hfind := findQuote_ne_reused state quoteId request.subject
    cases hrecord : state.findQuote quoteId request.subject with
    | error error =>
      rw [hrecord] at hfind
      exact fun h => hfind (congrArg Except.error (Except.error.inj h))
    | ok record =>
      show (if record.status ≠ "failed" then _ else _) ≠ _
      split
      · exact fun h => absurd (Except.error.inj h) (by decide)
      · cases timestamp with
        | none => exact fun h => htimestamp (Except.error.inj h)
        | some updatedAt => exact nofun

/-- A quote without a database is refused because of its key when the entry is another
operation. -/
theorem MutationRequest.handle_reused_iff (request : MutationRequest) (state : AppState)
    (timestamp : Option String) :
    (request.handle state timestamp).1 = .refused idempotencyReused ↔
      ∃ operation, state.idempotency request.pair = some operation ∧
        ¬ ∃ id, operation = (Submission.quote request).operation id := by
  cases hentry : state.idempotency request.pair with
  | some operation =>
    have hreplays := request.replays_eq_none_iff operation
    simp only [handle, hentry, Option.some.injEq, exists_eq_left', ← hreplays]
    cases request.replays operation with
    | none => exact iff_of_true rfl rfl
    | some quoteId =>
      refine iff_of_false ?_ (Option.some_ne_none _)
      dsimp only
      have hne := original_ne_reused request state quoteId
      cases horiginal : request.original state quoteId with
      | error error => exact fun h => hne (horiginal.trans (congrArg _ (Served.refused.inj h)))
      | ok record =>
        intro h
        cases h
  | none =>
    refine iff_of_false ?_ (by simp)
    simp only [handle, hentry]
    have hne := draft_ne_reused request state timestamp
    cases hdraft : request.draft state timestamp with
    | error error => exact fun h => hne (hdraft.trans (congrArg _ (Served.refused.inj h)))
    | ok record =>
      intro h
      cases h

/-- A refusal changes nothing. -/
theorem MutationRequest.handle_refused {request : MutationRequest} {state : AppState}
    {timestamp : Option String} {error : ApiError}
    (h : (request.handle state timestamp).1 = .refused error) :
    (request.handle state timestamp).2.1 = state := by
  unfold handle at h ⊢
  split at h
  · split at h
    · simp_all
    · split at h
      · simp_all
      · cases h
  · split at h
    · simp_all
    · cases h

/-- An assessment is refused because of its key when the entry is another operation. -/
theorem AssessmentRequest.handle_reused_iff (request : AssessmentRequest) (state : AppState)
    (timestamp : Option String) :
    (request.handle state timestamp).1 = .refused idempotencyReused ↔
      ∃ operation, state.idempotency (request.subject, request.idempotencyKey) = some operation ∧
        ¬ ∃ id, operation = (Submission.assessment request).operation id := by
  unfold handle createReadinessAssessment
  cases hentry : state.idempotency (request.subject, request.idempotencyKey) with
  | none =>
    refine iff_of_false ?_ (by simp)
    cases timestamp with
    | none => exact fun h => absurd (Served.refused.inj h) (by decide)
    | some receivedAt => exact nofun
  | some operation =>
    simp only [Option.some.injEq, exists_eq_left']
    cases operation with
    | create _ _ => exact iff_of_true rfl (by rintro ⟨id, ⟨⟩⟩)
    | retry _ => exact iff_of_true rfl (by rintro ⟨id, ⟨⟩⟩)
    | assessment assessmentId existing =>
      by_cases hexisting : existing = request.submission.toValue
      · simp only [if_pos hexisting]
        refine iff_of_false ?_ (not_not.mpr ⟨assessmentId, hexisting ▸ rfl⟩)
        cases state.findAssessment assessmentId request.subject with
        | ok record => exact nofun
        | error error => exact fun h => absurd (Served.refused.inj h) (by decide)
      · simp only [if_neg hexisting]
        refine iff_of_true trivial ?_
        rintro ⟨id, h⟩
        cases h
        exact hexisting rfl

/-- An assessment that is refused changes nothing. -/
theorem AssessmentRequest.handle_refused {request : AssessmentRequest} {state : AppState}
    {timestamp : Option String} {error : ApiError}
    (h : (request.handle state timestamp).1 = .refused error) :
    (request.handle state timestamp).2 = state := by
  unfold handle createReadinessAssessment at h ⊢
  cases hentry : state.idempotency (request.subject, request.idempotencyKey) with
  | none =>
    cases timestamp with
    | none => rfl
    | some receivedAt =>
      rw [hentry] at h
      cases h
  | some operation =>
    cases operation with
    | create _ _ => rfl
    | retry _ => rfl
    | assessment assessmentId existing =>
      by_cases hexisting : existing = request.submission.toValue
      · simp only [if_pos hexisting]
        cases state.findAssessment assessmentId request.subject <;> rfl
      · simp only [if_neg hexisting]

variable [Postgres]

omit [CanonicalLib] [Postgres] in
/-- Only one error of the store is answered as a reused key. -/
theorem mapStoreError_eq_reused_iff {e : StoreError} :
    mapStoreError e = idempotencyReused ↔ e = .idempotencyKeyReused := by
  cases e <;> simp [mapStoreError, idempotencyReused, storageUnavailable, ApiError.conflict,
    ApiError.notFound, ApiError.serviceUnavailable]

/-- The transaction of a handler fails because of its key. -/
theorem MutationRequest.body_reused_iff {request : MutationRequest} {input : QuoteInput}
    {tables : QuoteDb} :
    Fails .idempotencyKeyReused input tables request.body ↔
      Postgres.acceptsText (idempotencyLockText request.subject request.idempotencyKey) = true ∧
      ∃ row, (tables (.operations request.subject request.idempotencyKey)).head? = some row ∧
        ¬ request.Matches row := by
  obtain ⟨subject, key, mutation, settings⟩ := request
  cases mutation with
  | create accepted timestamp fresh => exact fails_map.trans createQuote_reused_iff
  | retry quoteId => exact fails_map.trans retryQuote_reused_iff

/-- A quote with a database is refused because of its key when the database answers and the
ledger row belongs to something else. -/
theorem MutationRequest.handleDatabase_reused_iff (request : MutationRequest) (tables : QuoteDb)
    (surroundings : Surroundings) :
    (request.handleDatabase tables surroundings).1 = .refused idempotencyReused ↔
      ∃ input, surroundings.database = some input ∧
        Fails .idempotencyKeyReused input tables request.body := by
  cases hdatabase : surroundings.database with
  | none =>
    refine iff_of_false ?_ (by simp)
    simp only [handleDatabase, transact, hdatabase, Option.bind_none, resume]
    exact fun h => absurd (Served.refused.inj h) (by decide)
  | some i =>
    simp only [Option.some.injEq, exists_eq_left']
    unfold Fails Ends
    cases hrun : quoteEngine.evaluate i tables request.body with
    | none =>
      refine iff_of_false ?_ (by simp)
      simp only [handleDatabase, transact, hdatabase, Option.bind_some, hrun, resume]
      exact fun h => absurd (Served.refused.inj h) (by decide)
    | some p =>
      obtain ⟨result, tables'⟩ := p
      cases result with
      | error e =>
        simp only [handleDatabase, transact, hdatabase, Option.bind_some, hrun, resume,
          Served.refused.injEq, mapStoreError_eq_reused_iff]
        simp
      | ok x =>
        refine iff_of_false ?_ (by simp)
        simp only [handleDatabase, transact, hdatabase, Option.bind_some, hrun]
        rcases body_cases (quoteEngine.runs_of_evaluate hrun) with
          ⟨operation, found, -, -, -, -, hresume⟩ | ⟨row, operation, job, event, -, hresume⟩
        · rw [hresume]
          intro h
          cases h
        · rw [hresume]
          intro h
          cases h

/-- A refusal changes nothing. -/
theorem MutationRequest.handleDatabase_refused {request : MutationRequest} {tables : QuoteDb}
    {surroundings : Surroundings} {error : ApiError}
    (h : (request.handleDatabase tables surroundings).1 = .refused error) :
    (request.handleDatabase tables surroundings).2.1 = tables := by
  rcases transact_cases surroundings.database tables request.body with
    ⟨i, x, tables', -, hrun, htransact⟩ | ⟨e, htransact⟩
  · rcases body_cases (quoteEngine.runs_of_evaluate hrun) with
      ⟨operation, found, -, -, -, rfl, hresume⟩ | ⟨row, operation, job, event, -, hresume⟩
    · simp only [handleDatabase, htransact, hresume]
    · simp only [handleDatabase, htransact, hresume] at h
      cases h
  · simp only [handleDatabase, htransact, resume]

/-- The ledger that the request consults has its key for another operation, and the database
answers when it is the one that is asked. -/
def Replica.Reused (replica : Replica) (submission : Submission) (surroundings : Surroundings) :
    Prop :=
  match submission with
  | .assessment request => ∃ operation,
      replica.memory.idempotency (request.subject, request.idempotencyKey) = some operation ∧
        ¬ ∃ id, operation = submission.operation id
  | .quote request =>
      if request.settings.databaseConfigured then
        ¬ (request.mutation.fresh?.isSome = true ∧ surroundings.timestamp = none) ∧
        ∃ input, surroundings.database = some input ∧
          Fails .idempotencyKeyReused input replica.tables request.body
      else ∃ operation, replica.memory.idempotency request.pair = some operation ∧
        ¬ ∃ id, operation = submission.operation id

/-- A request behind the limiter is refused because of its key exactly in this case, and
changes no record then. -/
theorem Replica.serve_reused_iff (replica : Replica) (submission : Submission)
    (surroundings : Surroundings) :
    ((replica.serve submission surroundings).1 = .refused idempotencyReused ↔
      replica.Reused submission surroundings) ∧
    ((replica.serve submission surroundings).1 = .refused idempotencyReused →
      replica.SameRecords (replica.serve submission surroundings).2) := by
  cases submission with
  | assessment request =>
    refine ⟨request.handle_reused_iff replica.memory surroundings.timestamp, fun h => ?_⟩
    show replica.SameRecords { replica with
      memory := (request.handle replica.memory surroundings.timestamp).2 }
    rw [AssessmentRequest.handle_refused h]
    exact ⟨rfl, rfl, rfl, rfl⟩
  | quote request =>
    cases hdatabase : request.settings.databaseConfigured with
    | false =>
      rw [replica.serve_memory hdatabase]
      simp only [Replica.Reused, hdatabase]
      refine ⟨request.handle_reused_iff replica.memory surroundings.timestamp, fun h => ?_⟩
      rw [MutationRequest.handle_refused h]
      exact ⟨rfl, rfl, rfl, rfl⟩
    | true =>
      rw [replica.serve_database hdatabase]
      simp only [Replica.Reused, hdatabase]
      -- Without a timestamp the create ends before it reaches the ledger.
      by_cases htimestamp : request.mutation.fresh?.isSome = true ∧ surroundings.timestamp = none
      · rw [if_pos htimestamp]
        refine ⟨iff_of_false ?_ (fun h => h.1 htimestamp), fun _ => ⟨rfl, rfl, rfl, rfl⟩⟩
        exact fun h => absurd (Served.refused.inj h) (by decide)
      · rw [if_neg htimestamp]
        refine ⟨(request.handleDatabase_reused_iff replica.tables surroundings).trans
          (and_iff_right htimestamp).symm, fun h => ?_⟩
        exact ⟨rfl, rfl, rfl, MutationRequest.handleDatabase_refused h⟩

/-! ### Runs -/

variable {databaseConfigured : Bool} {s s' : History}

omit [Postgres] in
/-- The entries of the idempotency map are accepted requests whose records exist. -/
theorem History.Filed.entry_iff (h : s.Filed databaseConfigured) (pair : String × String)
    (operation : MemoryOperation) :
    s.replica.memory.idempotency pair = some operation ↔
      ∃ a ∈ s.accepted, a.pair = pair ∧ a.operation = operation ∧
        a.inDatabase databaseConfigured = false ∧
        s.replica.HasRecord databaseConfigured a := by
  constructor
  · intro hentry
    obtain ⟨a, ha, hpair, hoperation⟩ := h.memory.logged pair operation hentry
    obtain ⟨hmem, hin⟩ := List.mem_filter.mp ha
    have hin : a.inDatabase databaseConfigured = false := by simpa using hin
    refine ⟨a, hmem, hpair, hoperation, hin, ?_⟩
    rw [Replica.HasRecord, hin, if_neg Bool.false_ne_true]
    cases hquote : a.operation.quoteId? with
    | some id =>
      exact (AppState.hasRecord_of_quoteId? hquote).mpr (h.memory.quotes a ha id hquote)
    | none =>
      obtain ⟨id, requestJson, hassessment⟩ := MemoryOperation.quoteId?_eq_none_iff.mp hquote
      rw [← hoperation, hassessment] at hentry
      obtain ⟨record, hrecord, hid, -⟩ := h.memory.owned pair id requestJson hentry
      rw [hassessment]
      exact ⟨record, hrecord, hid⟩
  · rintro ⟨a, ha, rfl, rfl, hin, hrecord⟩
    exact h.entry ha hrecord hin

omit [Postgres] in
/-- A ledger row that a quote does not match is an accepted request of another operation, whose
quote exists. -/
theorem History.Filed.row_iff (h : s.Filed databaseConfigured) (request : MutationRequest) :
    (∃ row, (s.replica.tables (.operations request.subject request.idempotencyKey)).head? =
        some row ∧ ¬ request.Matches row) ↔
      ∃ a ∈ s.accepted, a.pair = request.pair ∧
        (¬ ∃ id, a.operation = (Submission.quote request).operation id) ∧
        a.inDatabase databaseConfigured = true ∧ s.replica.HasRecord databaseConfigured a := by
  constructor
  · rintro ⟨row, hrow, hother⟩
    obtain ⟨a, ha, hpair, hencodes⟩ := h.rows.logged _ _ row hrow
    obtain ⟨hmem, hin⟩ := List.mem_filter.mp ha
    rw [MutationRequest.matches_iff hencodes] at hother
    refine ⟨a, hmem, hpair, hother, hin, ?_⟩
    rw [Replica.HasRecord, if_pos hin]
    obtain ⟨id, hid⟩ := Option.isSome_iff_exists.mp (Bool.and_eq_true_iff.mp hin).2
    exact ⟨id, hid, h.rows.quotes a ha id hid⟩
  · rintro ⟨a, ha, hpair, hother, hin, -⟩
    obtain ⟨row, hrow, hencodes⟩ := h.row ha hin
    obtain ⟨hsubject, hkey⟩ := Prod.mk.inj hpair
    refine ⟨row, ?_, ?_⟩
    · rw [← hsubject, ← hkey, hrow]
      rfl
    · rwa [MutationRequest.matches_iff hencodes]

/-- The database of a replica answers a quote: the transaction runs, and the server takes the
text of its lock. -/
def Submission.Answered (submission : Submission) (surroundings : Surroundings) : Prop :=
  ∀ request, submission = .quote request → request.settings.databaseConfigured = true →
    ¬ (request.mutation.fresh?.isSome = true ∧ surroundings.timestamp = none) ∧
    (∃ input, surroundings.database = some input) ∧
    Postgres.acceptsText (idempotencyLockText request.subject request.idempotencyKey) = true

/-- The ledger that the request consults holds an accepted request of another operation under
the key, whose record exists, and the database answers if it is asked. -/
def History.Excludes (databaseConfigured : Bool) (s : History) (submission : Submission)
    (surroundings : Surroundings) : Prop :=
  (∃ a ∈ s.accepted, a.pair = submission.pair ∧ (¬ ∃ id, a.operation = submission.operation id) ∧
    a.inDatabase databaseConfigured = submission.inDatabase databaseConfigured ∧
    s.replica.HasRecord databaseConfigured a) ∧
  submission.Answered surroundings

/-- A submission is told that its key was reused just when the history excludes it. The entries
that the replica has are those of the accepted submissions, so the history can be asked instead. -/
theorem History.Filed.reused_iff (h : s.Filed databaseConfigured) {submission : Submission}
    (hconfigured : submission.configured databaseConfigured = true)
    (surroundings : Surroundings) :
    s.replica.Reused submission surroundings ↔
      s.Excludes databaseConfigured submission surroundings := by
  -- In the memory ledger an entry is an answer whose record stands.
  have hinMemory : ∀ pair, (∃ operation, s.replica.memory.idempotency pair = some operation ∧
        ¬ ∃ id, operation = submission.operation id) ↔
      ∃ a ∈ s.accepted, a.pair = pair ∧ (¬ ∃ id, a.operation = submission.operation id) ∧
        a.inDatabase databaseConfigured = false ∧
        s.replica.HasRecord databaseConfigured a := by
    intro pair
    simp only [h.entry_iff]
    constructor
    · rintro ⟨_, ⟨a, ha, hpair, rfl, hin, hrecord⟩, hother⟩
      exact ⟨a, ha, hpair, hother, hin, hrecord⟩
    · rintro ⟨a, ha, hpair, hother, hin, hrecord⟩
      exact ⟨a.operation, ⟨a, ha, hpair, rfl, hin, hrecord⟩, hother⟩
  unfold History.Excludes Submission.Answered
  cases submission with
  | assessment request =>
    refine (hinMemory _).trans (and_iff_left ?_).symm
    exact fun _ h => nomatch h
  | quote request =>
    have hsettings : request.settings.databaseConfigured = databaseConfigured :=
      beq_iff_eq.mp hconfigured
    cases databaseConfigured with
    | false =>
      simp only [Replica.Reused, hsettings]
      refine (hinMemory _).trans (and_iff_left ?_).symm
      rintro _ ⟨⟩ hdatabase
      exact absurd (hsettings.symm.trans hdatabase) nofun
    -- In the database the row decides, once the transaction reaches it.
    | true =>
      simp only [Replica.Reused, hsettings, MutationRequest.body_reused_iff, if_true]
      refine Iff.trans ?_ (and_congr_left fun _ => h.row_iff request)
      constructor
      · rintro ⟨htimestamp, input, hinput, hlock, hrow⟩
        refine ⟨hrow, ?_⟩
        rintro _ ⟨⟩ -
        exact ⟨htimestamp, ⟨input, hinput⟩, hlock⟩
      · rintro ⟨hrow, hanswered⟩
        obtain ⟨htimestamp, ⟨input, hinput⟩, hlock⟩ := hanswered request rfl hsettings
        exact ⟨htimestamp, input, hinput, hlock, hrow⟩

/-- A fresh id that was issued changes nothing for the request. -/
theorem Replica.reused_issue {replica : Replica} {memory : AppState}
    {fresh? : Option Uuid} (hissue : replica.memory.issue fresh? = some memory)
    (windows : SubmissionWindows) (submission : Submission) (surroundings : Surroundings) :
    { replica with memory, windows }.Reused submission surroundings ↔
      replica.Reused submission surroundings := by
  have hissues := AppState.issue_issues hissue
  unfold Replica.Reused
  simp only [hissues.idempotency]

/-- One operation for each key. Take a request that was accepted in a run, and whose record
exists. A later request with its key of another kind, which has a permit and passes the
limiter, is refused with `idempotency_key_reused` and changes no record exactly when the ledger
that it consults holds such an accepted request, and the database answers if it is asked.
Without a database this is always so. -/
theorem one_operation_per_key_iff {a : Accepted} {submission : Submission}
    {surroundings : Surroundings} {served : Served}
    (h : (replicaRuns databaseConfigured).Reachable s) (ha : a ∈ s.accepted)
    (hrecord : s.replica.HasRecord databaseConfigured a) (hpair : a.pair = submission.pair)
    (hkind : a.operation.kind ≠ submission.kind)
    (hpermitted : submission.Permitted surroundings)
    (hadmitted : (checkSubmission s.replica.windows submission.subject surroundings.now).1 =
      .ok ())
    (hsubmit : s.submit databaseConfigured submission surroundings = some (served, s')) :
    (served = .refused idempotencyReused ∧ s.replica.SameRecords s'.replica ↔
      s.Excludes databaseConfigured submission surroundings) ∧
    (databaseConfigured = false → s.Excludes databaseConfigured submission surroundings) := by
  have hfiled := History.Filed.of_reachable h
  obtain ⟨memory, hissue, hconfigured, -, -, -, hsubmits⟩ := History.submit_cases hsubmit
  -- An operation of another kind is not the one submitted.
  have hother : ¬ ∃ id, a.operation = submission.operation id := by
    rintro ⟨id, hoperation⟩
    rw [hoperation, submission.kind_operation] at hkind
    exact hkind rfl
  constructor
  · obtain ⟨replica, clock, accepted⟩ := s'
    cases hsubmits with
    | unpermitted hpermit => exact absurd hpermitted hpermit
    | limited _ hcheck =>
      have hcheck := congrArg Prod.fst hcheck
      rw [hadmitted] at hcheck
      cases hcheck
    -- Neither the permit nor the limit stopped the request, so the ledger decides.
    | @served windows _ _ =>
      obtain ⟨hiff, hsame⟩ := Replica.serve_reused_iff { s.replica with memory, windows }
        submission surroundings
      rw [Replica.reused_issue hissue, hfiled.reused_iff hconfigured] at hiff
      refine (and_iff_left_of_imp fun hrefused => ?_).trans hiff
      obtain ⟨hquotes, hassessments, hidempotency, htables⟩ := hsame hrefused
      -- Drawing a fresh id changes no record, so the refusal leaves the records of the state before
      -- it.
      have hquiet := AppState.issue_quiet hissue
      have hissues := AppState.issue_issues hissue
      exact ⟨hquotes.trans hissues.quotes, hassessments.trans hquiet.assessments,
        hidempotency.trans hissues.idempotency, htables⟩
  · rintro rfl
    refine ⟨⟨a, ha, hpair, hother, ?_, hrecord⟩, ?_⟩
    · cases submission <;> rfl
    · rintro request rfl hdatabase
      exact absurd ((beq_iff_eq.mp hconfigured).symm.trans hdatabase) nofun

end

section

attribute [local instance] fixtureLib openServer

/-- Without a database both kinds share the ledger in memory. An assessment under the key of an
accepted create is refused as a reuse. -/
theorem one_operation_per_key_iff_test : ∃ s : History, (replicaRuns false).Reachable s ∧
    ∃ s', s.submit false (.assessment testAssessment) (testSurroundings 1) =
      some (.refused idempotencyReused, s') := by
  obtain ⟨s, hreachable, hs⟩ := System.exists_reachable_of_run
    [.submit (.quote (memoryCreate testQuote)) (testSurroundings 0)]
    (fun s : History => s.accepted.head? = some ⟨"customer-1", "quote-key-0001",
        .create testQuote fixtureRequest.toValue, 0⟩ ∧
      (s.replica.memory.quotes testQuote).isSome = true ∧
      (checkSubmission s.replica.windows "customer-1" 1).1 = .ok () ∧
      (s.submit false (.assessment testAssessment) (testSurroundings 1)).isSome = true)
    (show (System.run (History.next false) ⟨.start, 0, []⟩ _).map _ = some true from
      by decide)
  obtain ⟨haccepted, hquote, hadmitted, hsubmit⟩ := of_decide_eq_true hs
  have hpermitted : (Submission.assessment testAssessment).Permitted (testSurroundings 1) := nofun
  have hadmitted : (checkSubmission s.replica.windows (Submission.assessment testAssessment).subject
    (testSurroundings 1).now).1 = .ok () := hadmitted
  obtain ⟨⟨served, s'⟩, hsubmit⟩ := Option.isSome_iff_exists.mp hsubmit
  have hmem := List.mem_of_mem_head? haccepted
  obtain ⟨hiff, hmemory⟩ := one_operation_per_key_iff hreachable hmem
    (Option.isSome_iff_ne_none.mp hquote) rfl (by decide) hpermitted hadmitted hsubmit
  rw [(hiff.mpr (hmemory rfl)).1] at hsubmit
  exact ⟨s, hreachable, s', hsubmit⟩

/-- With a database quotes have a ledger of their own. A permitted create that is not limited is
accepted under the key of a stored assessment, another kind of operation. -/
theorem key_accepted_twice : ∃ s, (replicaRuns true).Reachable s ∧
    ∃ a ∈ s.accepted, s.replica.HasRecord true a ∧
      a.pair = (Submission.quote testCreate).pair ∧
      a.operation.kind ≠ (Submission.quote testCreate).kind ∧
      (Submission.quote testCreate).Permitted (testSurroundings 1) ∧
      (checkSubmission s.replica.windows "customer-1" 1).1 = .ok () ∧
      ∃ s', s.submit true (.quote testCreate) (testSurroundings 1) =
        some (.accepted testQuote, s') := by
  obtain ⟨s, hreachable, hs⟩ := System.exists_reachable_of_run
    [.submit (.assessment testAssessment) (testSurroundings 0)]
    (fun s : History => s.accepted.head? = some ⟨"customer-1", "quote-key-0001",
        .assessment ⟨8⟩ testAssessment.submission.toValue, 0⟩ ∧
      (s.replica.memory.assessments.head?.map AssessmentRecord.id = some ⟨8⟩) ∧
      (checkSubmission s.replica.windows "customer-1" 1).1 = .ok () ∧
      (s.submit true (.quote testCreate) (testSurroundings 1)).map (·.1) =
        some (.accepted testQuote))
    (show (System.run (History.next true) ⟨.start, 0, []⟩ _).map _ = some true from
      by decide)
  obtain ⟨haccepted, hrecord, hadmitted, hsubmit⟩ := of_decide_eq_true hs
  obtain ⟨⟨served, s'⟩, hsubmit, hserved⟩ := Option.map_eq_some_iff.mp hsubmit
  obtain ⟨record, hrecord, hid⟩ := Option.map_eq_some_iff.mp hrecord
  have hserved : served = .accepted testQuote := hserved
  subst hserved
  refine ⟨s, hreachable, _, List.mem_of_mem_head? haccepted, ?_, rfl, by decide, fun _ => rfl,
    hadmitted, s', hsubmit⟩
  exact ⟨record, List.mem_of_mem_head? hrecord, hid⟩

end

end CanonicalApi
