import CanonicalApi.Replica.Ledgers

/-!
# `CanonicalApi.Replica.Charges`: which requests the limiter charges

The limiter counts the requests that pass it, and a handler looks at the key of a request only
afterwards. So a request that is refused later and the replay of an accepted request are
charged as well, and a replay can be refused by the limiter. A quote asks for its analysis permit
even before the limiter, so the replay of a quote is refused as well when no permit is free.

`Acceptable` is the condition under which a request behind the limiter is accepted
(`serve_accepted_iff`). `charges_iff` is about the runs in which every request is no replay, and is
acceptable when it gets to the limiter and the quotas leave room for it. In these runs the windows
hold the accepted requests and nothing else. The first request of another kind breaks this.
-/

set_option autoImplicit false

namespace CanonicalApi

open Transaction Transition
open Window (live timesOf timesOfKey Ordered)

section

variable [CanonicalLib] [Postgres]

/-! ### Acceptance -/

/-- A quote behind the limiter can be accepted without a database: its key is free, the clock works,
and a retry finds a failed quote of the subject. -/
def MutationRequest.AcceptableInMemory (request : MutationRequest) (state : AppState)
    (surroundings : Surroundings) : Prop :=
  state.idempotency request.pair = none ∧ surroundings.timestamp ≠ none ∧
    match request.mutation with
    | .create _ _ _ => True
    | .retry quoteId => ∃ record, state.findQuote quoteId request.subject = .ok record ∧
        record.status = "failed"

/-- A quote behind the limiter can be accepted with a database. The lock text must be one that
PostgreSQL accepts, and every read of the transaction must succeed. -/
def MutationRequest.AcceptableInDatabase (request : MutationRequest) (tables : QuoteDb)
    (surroundings : Surroundings) : Prop :=
  ∃ input, surroundings.database = some input ∧
    tables (.operations request.subject request.idempotencyKey) = [] ∧
    Postgres.acceptsText (idempotencyLockText request.subject request.idempotencyKey) = true ∧
    0 ≤ input.sequence ∧
    match request.mutation with
    | .create _ _ fresh => surroundings.timestamp ≠ none ∧ tables (.quote fresh) = none ∧
        ∃ context, input.context = some context ∧ context.validate = .ok ()
    | .retry quoteId => ∃ row record,
        QuoteTables.quoteOf tables quoteId request.subject = some row ∧
        quoteFromRow row = .ok record ∧ record.status = "failed" ∧
        (contextSnapshotFromRow row).validate = .ok ()

/-- A request behind the limiter can be accepted: the ledger knows nothing of its key, and its
record can be made and stored. -/
def Replica.Acceptable (replica : Replica) (submission : Submission)
    (surroundings : Surroundings) : Prop :=
  match submission with
  | .assessment request =>
      replica.memory.idempotency (request.subject, request.idempotencyKey) = none ∧
        surroundings.timestamp ≠ none
  | .quote request =>
      if request.settings.databaseConfigured then
        request.AcceptableInDatabase replica.tables surroundings
      else request.AcceptableInMemory replica.memory surroundings

omit [Postgres] in
/-- In memory, a request is accepted just when it is acceptable there. -/
theorem MutationRequest.handle_accepted_iff (request : MutationRequest) (state : AppState)
    (surroundings : Surroundings) :
    (∃ id, (request.handle state surroundings.timestamp).1 = .accepted id) ↔
      request.AcceptableInMemory state surroundings := by
  have hnever : ∀ error, ¬ ∃ id, Served.refused error = .accepted id := by
    rintro error ⟨id, h⟩
    cases h
  unfold AcceptableInMemory
  cases hentry : state.idempotency request.pair with
  -- A key with an entry is replayed or refused, never accepted.
  | some operation =>
    refine iff_of_false ?_ (by simp)
    simp only [handle, hentry]
    cases request.replays operation with
    | none => exact hnever _
    | some quoteId =>
      dsimp only
      cases request.original state quoteId with
      | error error => exact hnever error
      | ok record =>
        rintro ⟨id, h⟩
        cases h
  | none =>
    -- A new key is accepted exactly when its record can be drafted.
    have hdraft : (∃ id, (request.handle state surroundings.timestamp).1 = .accepted id) ↔
        ∃ record, request.draft state surroundings.timestamp = .ok record := by
      simp only [handle, hentry]
      cases request.draft state surroundings.timestamp with
      | error error => exact iff_of_false (hnever error) (by simp)
      | ok record => exact iff_of_true ⟨record.quoteId, rfl⟩ ⟨record, rfl⟩
    rw [hdraft]
    simp only [draft_eq_ok_iff, true_and, ← Option.isSome_iff_ne_none, Option.isSome_iff_exists]
    cases request.mutation with
    | create accepted created fresh =>
      simp
    | retry quoteId =>
      constructor
      · rintro ⟨record, now, hnow, old, hold, hstatus, -⟩
        exact ⟨⟨now, hnow⟩, old, hold, hstatus⟩
      · rintro ⟨⟨now, hnow⟩, old, hold, hstatus⟩
        exact ⟨_, now, hnow, old, hold, hstatus, rfl⟩

/-- A handler accepts a request when the ledger has no row for it and its transaction
commits. -/
theorem MutationRequest.handleDatabase_accepted_iff (request : MutationRequest)
    (tables : QuoteDb) (surroundings : Surroundings) :
    (∃ id, (request.handleDatabase tables surroundings).1 = .accepted id) ↔
      ∃ input, surroundings.database = some input ∧
        tables (.operations request.subject request.idempotencyKey) = [] ∧
        Commits input tables request.body := by
  rcases transact_cases surroundings.database tables request.body with
    ⟨i, x, tables', hi, hrun, htransact⟩ | ⟨e, htransact⟩
  · rcases body_cases (quoteEngine.runs_of_evaluate hrun) with
      ⟨operation, found, hhead, -, -, -, hresume⟩ | ⟨row, operation, job, event, haccepted, hresume⟩
    · -- A committed replay: the ledger was not empty.
      refine iff_of_false ?_ ?_
      · simp only [handleDatabase, htransact, hresume]
        rintro ⟨id, h⟩
        cases h
      · rintro ⟨_, -, hnil, -⟩
        rw [hnil] at hhead
        cases hhead
    · refine iff_of_true ?_ ⟨i, hi, haccepted.ledger, _, _, hrun, x, rfl⟩
      simp only [handleDatabase, htransact, hresume]
      exact ⟨_, rfl⟩
  · refine iff_of_false ?_ ?_
    · simp only [handleDatabase, htransact, resume]
      rintro ⟨id, h⟩
      cases h
    · rintro ⟨i, hi, -, result, tables', hrun, x, rfl⟩
      rw [transact, hi, Option.bind_some, hrun] at htransact
      cases htransact

/-- A quote behind the limiter with a database. A create needs the clock of the replica
before its transaction. -/
theorem Replica.serve_database_accepted_iff (replica : Replica) {request : MutationRequest}
    (hdatabase : request.settings.databaseConfigured = true) (surroundings : Surroundings) :
    (∃ id, (replica.serve (.quote request) surroundings).1 = .accepted id) ↔
      request.AcceptableInDatabase replica.tables surroundings := by
  rw [replica.serve_database hdatabase]
  unfold MutationRequest.AcceptableInDatabase
  have haccepted := request.handleDatabase_accepted_iff replica.tables surroundings
  obtain ⟨subject, key, mutation, settings⟩ := request
  cases mutation with
  | create accepted created fresh =>
    -- A create takes its timestamp before the transaction, a retry does not.
    by_cases htimestamp : surroundings.timestamp = none
    · rw [if_pos ⟨rfl, htimestamp⟩]
      refine iff_of_false ?_ ?_
      · rintro ⟨id, h⟩
        cases h
      · rintro ⟨input, -, -, -, -, hsome, -⟩
        exact hsome htimestamp
    · rw [if_neg fun h => htimestamp h.2]
      refine haccepted.trans (exists_congr fun input => and_congr_right fun _ =>
        and_congr_right fun hfree => ?_)
      refine (commits_map.trans (createQuote_commits_iff hfree)).trans ?_
      constructor
      · rintro ⟨hlock, hcontext, hnew, hsequence⟩
        exact ⟨hlock, hsequence, htimestamp, hnew, hcontext⟩
      · rintro ⟨hlock, hsequence, -, hnew, hcontext⟩
        exact ⟨hlock, hcontext, hnew, hsequence⟩
  | retry quoteId =>
    rw [if_neg fun h => Bool.false_ne_true h.1]
    refine haccepted.trans (exists_congr fun input => and_congr_right fun _ =>
      and_congr_right fun hfree => ?_)
    refine (commits_map.trans (retryQuote_commits_iff hfree)).trans ?_
    exact and_congr_right fun _ => and_comm

/-- A request behind the limiter is accepted exactly when it is acceptable. -/
theorem Replica.serve_accepted_iff (replica : Replica) (submission : Submission)
    (surroundings : Surroundings) :
    (∃ id, (replica.serve submission surroundings).1 = .accepted id) ↔
      replica.Acceptable submission surroundings := by
  have hreplayed : ∀ id', ¬ ∃ id, Served.replayed id' = .accepted id := by simp
  have hrefused : ∀ error, ¬ ∃ id, Served.refused error = .accepted id := by simp
  cases submission with
  | assessment request =>
    simp only [Replica.serve, Replica.Acceptable, AssessmentRequest.handle,
      createReadinessAssessment]
    cases hentry : replica.memory.idempotency (request.subject, request.idempotencyKey) with
    | none =>
      cases surroundings.timestamp with
      | none => exact iff_of_false (hrefused _) (by simp)
      | some receivedAt => exact iff_of_true ⟨request.fresh, rfl⟩ ⟨rfl, by simp⟩
    -- A pair that is taken is replayed or refused, whatever its operation.
    | some operation =>
      refine iff_of_false ?_ (by simp)
      cases operation with
      | create _ _ => exact hrefused _
      | retry _ => exact hrefused _
      | assessment assessmentId existing =>
        by_cases hexisting : existing = request.submission.toValue
        · simp only [if_pos hexisting]
          cases replica.memory.findAssessment assessmentId request.subject with
          | ok record => exact hreplayed _
          | error error => exact hrefused _
        · simp only [if_neg hexisting]
          exact hrefused _
  | quote request =>
    cases hdatabase : request.settings.databaseConfigured with
    | false =>
      rw [replica.serve_memory hdatabase]
      simp only [Replica.Acceptable, hdatabase]
      exact request.handle_accepted_iff replica.memory surroundings
    | true =>
      simp only [Replica.Acceptable, hdatabase]
      exact replica.serve_database_accepted_iff hdatabase surroundings

/-- A fresh id that was issued changes nothing for the request. -/
theorem Replica.acceptable_issue {replica : Replica} {memory : AppState}
    {fresh? : Option Uuid} (hissue : replica.memory.issue fresh? = some memory)
    (windows : SubmissionWindows) (submission : Submission) (surroundings : Surroundings) :
    { replica with memory, windows }.Acceptable submission surroundings ↔
      replica.Acceptable submission surroundings := by
  have hissues := AppState.issue_issues hissue
  unfold Replica.Acceptable MutationRequest.AcceptableInMemory AppState.findQuote
  simp only [hissues.idempotency, hissues.quotes]

/-! ### Charges -/

variable {databaseConfigured : Bool} {s s' : History}

namespace History

omit [Postgres] in
/-- The subjects of the accepted requests, with their times. -/
def charges (s : History) : List (String × Nat) := s.accepted.map fun a => (a.subject, a.time)

omit [Postgres] in
/-- The windows hold exactly one entry for each charged request that has not expired, at every later
time. -/
def Charged (s : History) : Prop :=
  ∀ now, s.clock ≤ now →
    live quoteSubmissionWindow now s.replica.windows.allSubjects =
      live quoteSubmissionWindow now (timesOf s.charges) ∧
    ∀ subject, live quoteSubmissionWindow now
        ((s.replica.windows.bySubject.lookup subject).getD []) =
      live quoteSubmissionWindow now (timesOfKey subject s.charges)

omit [Postgres] in
/-- The request repeats an accepted one, whose record `id` exists. -/
def Replays (databaseConfigured : Bool) (s : History) (submission : Submission) (id : Uuid) :
    Prop :=
  ∃ a ∈ s.accepted, a.pair = submission.pair ∧ a.operation = submission.operation id ∧
    a.operation.recordId = id ∧ s.replica.HasRecord databaseConfigured a

omit [Postgres] in
/-- The quotas leave room for a request: less than 500 accepted requests in the last ten
minutes, and less than 5 of them by the same subject. -/
def Room (s : History) (submission : Submission) (surroundings : Surroundings) : Prop :=
  (recent s.charges surroundings.now).length < quoteSubmissionsGlobalPerWindow ∧
    ((recent s.charges surroundings.now).filter
      fun e => e.1 = submission.subject).length < quoteSubmissionsPerWindow

/-- The request is no replay, and it is acceptable when it has a permit and there is room for it. -/
def NewAndAcceptable (databaseConfigured : Bool) (s : History) (submission : Submission)
    (surroundings : Surroundings) : Prop :=
  (∀ id, ¬ s.Replays databaseConfigured submission id) ∧
    (submission.Permitted surroundings → s.Room submission surroundings →
      s.replica.Acceptable submission surroundings)

/-- What a request should do to the windows: it is charged when it is accepted and only then,
and a replay is answered with its record, whatever the quotas and the permits are. -/
structure RightlyCharged (databaseConfigured : Bool) (s : History) (submission : Submission)
    (surroundings : Surroundings) (served : Served) (s' : History) : Prop where
  charged : s'.Charged
  replayed : ∀ id, s.Replays databaseConfigured submission id → served.id? = some id

omit [Postgres] in
/-- The windows follow the accepted requests. -/
def Tracked (s : History) : Prop :=
  ∃ last ≤ s.clock, Exact last s.charges s.replica.windows

omit [Postgres] in
/-- Windows that follow the accepted requests are charged with them, at every later time: expiry
removes from both the same calls. -/
theorem Tracked.charged (h : s.Tracked) : s.Charged := by
  obtain ⟨last, hlast, hexact⟩ := h
  intro now hnow
  have hle : last ≤ now := Nat.le_trans hlast hnow
  refine ⟨?_, fun subject => ?_⟩
  · rw [hexact.tracks.all, Window.live_live hle]
  · rw [hexact.tracks.getD_lookup, Window.live_live hle]

omit [Postgres] in
/-- Windows with a request too much are not charged rightly. -/
theorem not_charged_of_exact (subject : String)
    (h : Exact s.clock (s.charges ++ [(subject, s.clock)]) s.replica.windows) :
    ¬ s.Charged := by
  intro hcharged
  have hall := (hcharged s.clock (Nat.le_refl _)).1
  rw [h.tracks.all, Window.live_live (Nat.le_refl _), Window.timesOf_append, Window.live_append,
    Window.live_now (by decide)] at hall
  have hlength := congrArg List.length hall
  rw [List.length_append, List.length_singleton] at hlength
  omega

/-- A request with an entry in its ledger is not acceptable. -/
theorem not_acceptable_of_filed (hfiled : s.Filed databaseConfigured) {submission : Submission}
    {surroundings : Surroundings} {a : Accepted}
    (hconfigured : submission.configured databaseConfigured = true) (ha : a ∈ s.accepted)
    (hpair : a.pair = submission.pair)
    (hin : a.inDatabase databaseConfigured = submission.inDatabase databaseConfigured)
    (hrecord : s.replica.HasRecord databaseConfigured a) :
    ¬ s.replica.Acceptable submission surroundings := by
  cases submission with
  -- Assessments are filed in memory in both modes.
  | assessment request =>
    have hentry := hfiled.entry ha hrecord hin
    rw [hpair] at hentry
    rintro ⟨hfree, -⟩
    have hfree : s.replica.memory.idempotency (Submission.assessment request).pair = none := hfree
    rw [hentry] at hfree
    cases hfree
  -- Quotes are filed in memory or in the ledger, as the mode has it.
  | quote request =>
    have hsettings : request.settings.databaseConfigured = databaseConfigured :=
      beq_iff_eq.mp hconfigured
    obtain ⟨hsubject, hkey⟩ := Prod.mk.inj hpair
    cases databaseConfigured with
    | false =>
      have hentry := hfiled.entry ha hrecord hin
      rw [hpair] at hentry
      simp only [Replica.Acceptable, hsettings]
      rintro ⟨hfree, -⟩
      have hfree : s.replica.memory.idempotency (Submission.quote request).pair = none := hfree
      rw [hentry] at hfree
      cases hfree
    | true =>
      obtain ⟨row, hrow, -⟩ := hfiled.row ha hin
      rw [hsubject, hkey] at hrow
      simp only [Replica.Acceptable, hsettings]
      rintro ⟨input, -, hnil, -⟩
      have hnil : s.replica.tables (.operations (Submission.quote request).subject
        (Submission.quote request).idempotencyKey) = [] := hnil
      rw [hnil] at hrow
      cases hrow

/-- A request that is refused before its key is looked up charges nothing. It is answered rightly
unless it is a replay, which has its record all the same. -/
theorem Tracked.rightlyCharged_refused (htracked : s'.Tracked) {submission : Submission}
    {surroundings : Surroundings} {error : ApiError}
    (hrefused : submission.Permitted surroundings → ¬ s.Room submission surroundings) :
    s.RightlyCharged databaseConfigured submission surroundings (.refused error) s' ↔
      s.NewAndAcceptable databaseConfigured submission surroundings := by
  constructor
  · intro hright
    refine ⟨fun id hreplays => ?_, fun hpermitted hroom => absurd hroom (hrefused hpermitted)⟩
    cases hright.replayed id hreplays
  · intro hnew
    exact ⟨htracked.charged, fun id hreplays => absurd hreplays (hnew.1 id)⟩

/-- One request, when the windows follow the accepted requests. -/
theorem submit_charges (htracked : s.Tracked) (hfiled : s.Filed databaseConfigured)
    {submission : Submission} {surroundings : Surroundings} {served : Served}
    (h : s.submit databaseConfigured submission surroundings = some (served, s')) :
    (s.NewAndAcceptable databaseConfigured submission surroundings → s'.Tracked) ∧
      (s.RightlyCharged databaseConfigured submission surroundings served s' ↔
        s.NewAndAcceptable databaseConfigured submission surroundings) := by
  obtain ⟨last, hlast, hexact⟩ := htracked
  obtain ⟨memory, hissue, hconfigured, hclock, hclock', haccepted, hsubmits⟩ := submit_cases h
  have hle : last ≤ surroundings.now := Nat.le_trans hlast hclock
  obtain ⟨hanswer, hnext⟩ := hexact.check hle submission.subject
  have hroom : answerOf s.charges submission.subject surroundings.now = .ok () ↔
      s.Room submission surroundings :=
    answerOf_ok_iff (fun t ht => Nat.le_trans (hexact.past t ht) hle) submission.subject
  have hunpaid : served.note submission surroundings.now = [] → s'.charges = s.charges := by
    intro hnote
    rw [charges, haccepted, hnote, List.append_nil]
    rfl
  obtain ⟨replica, clock, accepted⟩ := s'
  have hclock' : clock = surroundings.now := hclock'
  subst hclock'
  cases hsubmits with
  | unpermitted hpermit =>
    have htracked : Tracked ⟨{ s.replica with memory }, surroundings.now, accepted⟩ := by
      refine ⟨last, hle, ?_⟩
      rw [hunpaid rfl]
      exact hexact
    have hrefused : submission.Permitted surroundings → ¬ s.Room submission surroundings :=
      fun hpermitted => absurd hpermitted hpermit
    exact ⟨fun _ => htracked, htracked.rightlyCharged_refused hrefused⟩
  | @limited refusal windows hpermit hcheck =>
    have hcheck : checkSubmission s.replica.windows submission.subject surroundings.now =
      (.error refusal, windows) := hcheck
    rw [hcheck] at hanswer hnext
    have hfull : answerOf s.charges submission.subject surroundings.now ≠ .ok () :=
      hanswer ▸ nofun
    rw [extend, if_neg hfull] at hnext
    have htracked : Tracked
        ⟨{ s.replica with memory, windows }, surroundings.now, accepted⟩ := by
      refine ⟨surroundings.now, Nat.le_refl _, ?_⟩
      rw [hunpaid rfl]
      exact hnext
    have hrefused : submission.Permitted surroundings → ¬ s.Room submission surroundings :=
      fun _ hthere => hfull (hroom.mpr hthere)
    exact ⟨fun _ => htracked, htracked.rightlyCharged_refused hrefused⟩
  | @served windows hpermit hcheck =>
    have hcheck : checkSubmission s.replica.windows submission.subject surroundings.now =
      (.ok (), windows) := hcheck
    rw [hcheck] at hanswer hnext
    rw [extend, if_pos hanswer.symm] at hnext
    have hwindows := (Replica.serves { s.replica with memory, windows } submission
      surroundings).windows
    have hiff := (Replica.serve_accepted_iff { s.replica with memory, windows } submission
      surroundings).trans (Replica.acceptable_issue hissue windows submission surroundings)
    generalize hserve : Replica.serve { s.replica with memory, windows } submission surroundings =
      result at *
    obtain ⟨served, replica⟩ := result
    by_cases hserved : ∃ id, served = .accepted id
    · obtain ⟨id, rfl⟩ := hserved
      have hcharges : charges ⟨replica, surroundings.now, accepted⟩ =
          s.charges ++ [(submission.subject, surroundings.now)] := by
        rw [charges, haccepted, List.map_append]
        rfl
      have htracked : Tracked ⟨replica, surroundings.now, accepted⟩ := by
        refine ⟨surroundings.now, Nat.le_refl _, ?_⟩
        rw [hcharges]
        show Exact _ _ replica.windows
        rw [hwindows]
        exact hnext
      have hacceptable := hiff.mp ⟨id, rfl⟩
      have hnone : ∀ id, ¬ s.Replays databaseConfigured submission id := by
        rintro id ⟨a, ha, hpair, hoperation, -, hrecord⟩
        exact not_acceptable_of_filed hfiled hconfigured ha hpair
          (Submission.inDatabase_eq hoperation) hrecord hacceptable
      exact ⟨fun _ => htracked, iff_of_true
        ⟨htracked.charged, fun id hreplays => absurd hreplays (hnone id)⟩
        ⟨hnone, fun _ _ => hacceptable⟩⟩
    · have hnote : served.note submission surroundings.now = [] := by
        cases served with
        | accepted id => exact absurd ⟨id, rfl⟩ hserved
        | replayed id => rfl
        | refused error => rfl
      have hwrong : ¬ Charged ⟨replica, surroundings.now, accepted⟩ := by
        refine not_charged_of_exact submission.subject ?_
        rw [hunpaid hnote]
        show Exact _ _ replica.windows
        rw [hwindows]
        exact hnext
      have hold : ¬ s.NewAndAcceptable databaseConfigured submission surroundings := fun hnew =>
        hserved (hiff.mpr (hnew.2 hpermit (hroom.mp hanswer.symm)))
      exact ⟨fun hnew => absurd hnew hold, iff_of_false (fun hright => hwrong hright.charged) hold⟩

end History

/-! ### Runs -/

/-- The steps of the runs that `charges_iff` is about. -/
def ChargeStep (databaseConfigured : Bool) (s : History) : ReplicaStep → Prop
  | .submit submission surroundings =>
      s.NewAndAcceptable databaseConfigured submission surroundings
  | _ => True

/-- The run lemma of `Tracked`. -/
theorem tracked_of_reachable
    (h : (replicaRuns databaseConfigured).ReachableWith (ChargeStep databaseConfigured) s) :
    s.Tracked := by
  refine h.induct (fun s hs => ?_) fun s step s' hreachable htracked hgood hstep => ?_
  · have hs : s = ⟨.start, 0, []⟩ := hs
    subst hs
    exact ⟨0, Nat.le_refl 0, .empty⟩
  · cases step with
    | submit submission surroundings =>
      obtain ⟨⟨served, s''⟩, hsubmit, rfl⟩ := Option.map_eq_some_iff.mp hstep
      exact (History.submit_charges htracked (.of_reachable hreachable.reachable) hsubmit).1 hgood
    -- The workers charge nothing.
    | workInMemory i input =>
      obtain ⟨replica, hwork, heq⟩ := Option.bind_eq_some_iff.mp hstep
      cases heq
      obtain ⟨task, -, hwork⟩ := Option.bind_eq_some_iff.mp hwork
      obtain ⟨after, -, hwork⟩ := Option.bind_eq_some_iff.mp hwork
      cases hwork
      exact htracked
    | workInDatabase i input outcome =>
      obtain ⟨replica, hwork, heq⟩ := Option.bind_eq_some_iff.mp hstep
      cases heq
      obtain ⟨⟨stage, job⟩, -, hwork⟩ := Option.bind_eq_some_iff.mp hwork
      dsimp only at hwork
      split at hwork
      · cases hwork
        exact htracked
      · cases hwork
        exact htracked
      · cases hwork

/-- Take a run in which every request is no replay, and is acceptable when it gets its permit and
the quotas leave room for it. In every state of the run the windows hold exactly one entry for
each accepted request that has not expired. The next request keeps this, and is answered with
its record if it is a replay, exactly when it is of this kind, too. -/
theorem charges_iff
    (h : (replicaRuns databaseConfigured).ReachableWith (ChargeStep databaseConfigured) s) :
    s.Charged ∧ ∀ submission surroundings served s',
      s.submit databaseConfigured submission surroundings = some (served, s') →
      (s.RightlyCharged databaseConfigured submission surroundings served s' ↔
        s.NewAndAcceptable databaseConfigured submission surroundings) := by
  have htracked := tracked_of_reachable h
  refine ⟨htracked.charged, fun submission surroundings served s' hsubmit => ?_⟩
  exact (History.submit_charges htracked (.of_reachable h.reachable) hsubmit).2

end

/-! ### A replay that is refused -/

section

attribute [local instance] fixtureLib openServer

/-- One create without a database. It is accepted, and the windows hold one entry for the one
accepted submission. -/
theorem charges_iff_test : ∃ s, (replicaRuns false).Reachable s ∧ s.accepted.length = 1 ∧
    s.Charged := by
  let create : ReplicaStep := .submit (.quote (memoryCreate testQuote)) (testSurroundings 0)
  have hrun : ∃ s, History.next false ⟨.start, 0, []⟩ create = some s ∧ s.accepted.length = 1 :=
    ⟨_, rfl, rfl⟩
  have hnew : ChargeStep false ⟨.start, 0, []⟩ create := by
    refine ⟨?_, fun _ _ => ⟨rfl, by simp [testSurroundings], trivial⟩⟩
    rintro id ⟨a, ha, -⟩
    cases ha
  obtain ⟨s, hstep, hlength⟩ := hrun
  have hreachable : (replicaRuns false).ReachableWith (ChargeStep false) s :=
    .step (.init rfl) hnew hstep
  exact ⟨s, hreachable.reachable, hlength, (charges_iff hreachable).1⟩

/-- The create and four replays of it, which use up the quota of the subject. -/
def testReplays : List ReplicaStep :=
  .submit (.quote (memoryCreate testQuote)) (testSurroundings 0) ::
    [1, 2, 3, 4].map fun n =>
      .submit (.quote (memoryCreate ⟨10 + BitVec.ofNat 128 n⟩)) (testSurroundings n)

/-- A create and replays of it have used up the limit of the subject. The next one replays a stored
quote as well, and the limiter refuses it before the ledger is asked. -/
theorem replay_rate_limited : ∃ s, (replicaRuns false).Reachable s ∧
    s.Replays false (.quote (memoryCreate ⟨15⟩)) testQuote ∧
    ∃ served s', s.submit false (.quote (memoryCreate ⟨15⟩)) (testSurroundings 5) =
      some (served, s') ∧ served.id? ≠ some testQuote := by
  obtain ⟨s, hreachable, hs⟩ := System.exists_reachable_of_run testReplays
    (fun s : History => s.accepted.head? = some ⟨"customer-1", "quote-key-0001",
        .create testQuote fixtureRequest.toValue, 0⟩ ∧
      (s.replica.memory.quotes testQuote).isSome = true ∧
      (s.submit false (.quote (memoryCreate ⟨15⟩)) (testSurroundings 5)).map (·.1.id?) =
        some none) (show (System.run (History.next false) ⟨.start, 0, []⟩ testReplays).map _ =
          some true from by decide)
  obtain ⟨haccepted, hquote, hrefused⟩ := of_decide_eq_true hs
  obtain ⟨⟨served, s'⟩, hsubmit, hserved⟩ := Option.map_eq_some_iff.mp hrefused
  refine ⟨s, hreachable, ?_, served, s', hsubmit, by simp [hserved]⟩
  refine ⟨_, List.mem_of_mem_head? haccepted, rfl, rfl, rfl, ?_⟩
  exact Option.isSome_iff_ne_none.mp hquote

end

end CanonicalApi
