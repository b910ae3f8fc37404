import CanonicalApi.Quote.Attempts

/-!
# `CanonicalApi.Quote.Winners`: the analyses that succeed

When the model has answered, the worker first updates the quote and then marks its attempt as
completed. It marks the attempt also when the update has failed, and then the row of the quote
is still `analyzing`.

An attempt that is completed, or is about to be, is a winner. The worker of a winner has given up
its quote while the row was not failed, so the quote is `Settled`: no worker will write it, and no
retry is accepted. Nothing can win the quote a second time (`Winning`).
-/

set_option autoImplicit false

namespace CanonicalApi

open Transaction Transition
open SingleWriter (Settled claimsOf claimsOf_eq)

section

variable [CanonicalLib] [Postgres]

/-- The attempt is completed, or its worker has a completed record and will mark it. -/
def Winner (c : quoteService.Core) (quoteId id : Uuid) : Prop :=
  ∃ row, c.db (.attempt id) = some row ∧ row.quoteId = quoteId ∧
    (row.status = "completed" ∨ ∃ pid job, c.procs pid = some (.worker (.finishing id) job) ∧
      job.record.status = "completed")

/-- The quote of a winner is settled, and has no other winner. -/
structure Winning (c : quoteService.Core) : Prop where
  settled : ∀ quoteId id, Winner c quoteId id → ∃ status ∈ ["analyzing", "completed"],
    Settled quoteProtocol (statusOf c.db) (claimsOf QuoteProc.claim c.procs) quoteId status
  single : ∀ quoteId id id', Winner c quoteId id → Winner c quoteId id' → id = id'

/-- A worker that has recorded a completed analysis, or tried to, goes on to mark its attempt. -/
def Wins (c c' : quoteService.Core) (quoteId id : Uuid) : Prop :=
  ∃ pid job job', c.procs pid = some (.worker (.recording (some id)) job) ∧
    job.record.quoteId = quoteId ∧ job.record.status = "completed" ∧
    c'.procs pid = some (.worker (.finishing id) job')

/-- Only the update after the call takes a worker to the end of its attempt. -/
theorem resume_finishing {p : QuoteProc} {prog : QuoteTx QuoteResult} {db db' : QuoteDb}
    {x : QuoteResult} {id : Uuid} {job : AnalysisJob}
    (hbody : quoteService.body p = some prog) (h : quoteEngine.Runs db prog (.ok x) db')
    (hresume : quoteService.resume p (.ok x) = .worker (.finishing id) job) :
    ∃ before, p = .worker (.recording (some id)) before ∧
      WorkerUpdated db db' before.record job.record := by
  cases p with
  | requested request =>
    cases hbody
    exact absurd hresume ((request_attempts h).2 _ _)
  | worker stage before =>
    -- Of the commits of a worker only the recording leads to this stage.
    obtain ⟨stage', job', hnext, hcommit⟩ := worker_commit hbody h
    rw [hresume] at hnext
    cases hnext
    cases hcommit with
    | recorded hupdated => exact ⟨before, rfl, hupdated⟩
  | accepted _ _ _ => cases hbody
  | replayed _ _ => cases hbody
  | answered _ _ => cases hbody

/-- It does so when it fails as well. -/
theorem resume_error_finishing {p : QuoteProc} {prog : QuoteTx QuoteResult} {e : StoreError}
    {id : Uuid} {job : AnalysisJob} (hbody : quoteService.body p = some prog)
    (hresume : quoteService.resume p (.error e) = .worker (.finishing id) job) :
    p = .worker (.recording (some id)) job := by
  cases p with
  | requested request => cases hresume
  | worker stage before =>
    cases stage with
    | recording attemptId =>
      cases attemptId with
      | none => cases hresume
      | some attemptId =>
        cases hresume
        rfl
    | marking _ _ => cases hresume
    | starting _ => cases hresume
    | finishing _ => cases hresume
    | calling _ => cases hbody
    | done => cases hbody
  | accepted _ _ _ => cases hbody
  | replayed _ _ => cases hbody
  | answered _ _ => cases hbody

/-- A worker at the end of its attempt was there before, or it wins now. -/
theorem finishing_step {c c' : quoteService.Core} {a : quoteService.Action}
    (h : quoteService.AtomicStep c a c') {pid : Nat} {id : Uuid} {job : AnalysisJob}
    (hp' : c'.procs pid = some (.worker (.finishing id) job))
    (hcompleted : job.record.status = "completed") :
    c.procs pid = some (.worker (.finishing id) job) ∨ Wins c c' job.record.quoteId id := by
  -- A worker comes to finish an attempt only by recording its outcome, whether that commits or
  -- fails.
  cases h.origin hp' with
  | same hp => exact .inl hp
  | arrived _ harrives =>
    obtain ⟨request, hrequest⟩ := quote_arrives harrives
    cases hrequest
  | @resumed p prog res db' _ hp hbody hruns _ hresume =>
    cases res with
    | error e =>
      obtain rfl := resume_error_finishing hbody hresume.symm
      exact .inr ⟨pid, job, job, hp, rfl, hcompleted, hp'⟩
    | ok x =>
      obtain ⟨before, rfl, hupdated⟩ := resume_finishing hbody hruns hresume.symm
      exact .inr ⟨pid, before, job, hp, hupdated.quoteId.symm,
        hupdated.status.symm.trans hcompleted, hp'⟩
  | faulted hp hbody hresume =>
    obtain rfl := resume_error_finishing hbody hresume.symm
    exact .inr ⟨pid, job, job, hp, rfl, hcompleted, hp'⟩
  | advanced _ hmove =>
    rcases quote_advance_cases hmove with ⟨_, _, _, _, -, hp, -⟩ | ⟨_, _, -, hp, -⟩ |
      ⟨_, _, _, -, hp, -⟩
    · cases hp
    · cases hp
    · cases hp
  | started _ _ hmove =>
    rcases quote_advance_cases hmove with ⟨_, _, _, _, -, -, hchild⟩ | ⟨_, _, -, -, hchild⟩ |
      ⟨_, _, _, -, -, hchild⟩
    · cases hchild
    · cases hchild
    · cases hchild

/-- A winner was one before, or it wins now. -/
theorem winner_step {c c' : quoteService.Core} {a : quoteService.Action}
    (hattempts : AttemptsSound c) (hattempts' : AttemptsSound c')
    (h : quoteService.AtomicStep c a c') {quoteId id : Uuid} (hwinner : Winner c' quoteId id) :
    Winner c quoteId id ∨ Wins c c' quoteId id := by
  obtain ⟨row, hrow, hquote, hcompleted | ⟨pid, job, hp', hcompleted⟩⟩ := hwinner
  · -- The row is completed now. If it was not before, then its worker has just marked it.
    rcases h.commits with hsame | ⟨pid, p, prog, x, hp, hbody, hruns, -⟩
    · rw [hsame] at hrow
      exact .inl ⟨row, hrow, hquote, .inl hcompleted⟩
    cases commit_attempts hbody hruns with
    | quiet hrows _ =>
      rw [hrows] at hrow
      exact .inl ⟨row, hrow, hquote, .inl hcompleted⟩
    | @start new job _ _ _ hdb =>
      by_cases hid : id = new
      · subst hid
        rw [hdb, Function.update_self] at hrow
        cases hrow
        exact absurd hcompleted (show ¬ "started" = "completed" by decide)
      · rw [hdb, Function.update_of_ne (by simpa using hid)] at hrow
        exact .inl ⟨row, hrow, hquote, .inl hcompleted⟩
    | @finish old job before now hworker _ hbefore _ hdb =>
      by_cases hid : id = old
      · subst hid hworker
        rw [hdb, Function.update_self] at hrow
        cases hrow
        refine .inl ⟨before, hbefore, hquote, .inr ⟨pid, job, hp, ?_⟩⟩
        by_contra hne
        rw [if_neg hne] at hcompleted
        exact absurd hcompleted (show ¬ "failed" = "completed" by decide)
      · rw [hdb, Function.update_of_ne (by simpa using hid)] at hrow
        exact .inl ⟨row, hrow, hquote, .inl hcompleted⟩
  · have hplaced : Placement c'.db (.finishing id) job := hattempts'.placed pid _ hp'
    obtain ⟨row', hrow', hid, -⟩ := hplaced.attempt id rfl
    rw [hrow] at hrow'
    cases hrow'
    have hjob : job.record.quoteId = quoteId := hid.symm.trans hquote
    rcases finishing_step h hp' hcompleted with hp | hwins
    · have hplaced : Placement c.db (.finishing id) job := hattempts.placed pid _ hp
      obtain ⟨before, hbefore, hid, -⟩ := hplaced.attempt id rfl
      exact .inl ⟨before, hbefore, hid.trans hjob, .inr ⟨pid, job, hp, hcompleted⟩⟩
    · exact .inr (hjob ▸ hwins)

/-- A quote that is won is settled from then on. -/
theorem wins_settled {c c' : quoteService.Core} {a : quoteService.Action} (hc : Lifecycle c)
    (h : quoteService.AtomicStep c a c') {quoteId id : Uuid} (hwins : Wins c c' quoteId id) :
    ∃ status ∈ ["analyzing", "completed"], Settled quoteProtocol (statusOf c'.db)
      (claimsOf QuoteProc.claim c'.procs) quoteId status := by
  obtain ⟨pid, job, job', hp, rfl, hcompleted, hp'⟩ := hwins
  have hclaim : claimsOf QuoteProc.claim c.procs pid =
      some (job.record.quoteId, "analyzing") := claimsOf_eq hp
  have hmoved : c'.procs pid ≠ some (.worker (.recording (some id)) job) := by
    rw [hp']
    exact fun heq => nomatch heq
  -- The worker had the only claim, and gives it up.
  have hunclaimed : ∀ pid' status, claimsOf QuoteProc.claim c'.procs pid' ≠
      some (job.record.quoteId, status) := by
    intro pid' status hclaim'
    by_cases hne : pid' = pid
    · rw [hne, claimsOf_eq hp'] at hclaim'
      cases hclaim'
    · rw [claimsOf, h.alone hp rfl hmoved hne] at hclaim'
      exact hne (hc.exclusive.single pid' pid _ _ _ hclaim' hclaim)
  rcases h.commits with hsame | ⟨pid', p, prog, x, hp₁, hbody, hruns, hend⟩
  · refine ⟨"analyzing", by decide, ?_, show ¬ "analyzing" = "failed" by decide, hunclaimed⟩
    rw [hsame]
    exact hc.exclusive.expected pid _ _ hclaim
  · have hpid : pid' = pid := by
      by_contra hne
      have hkept : c'.procs pid = c.procs pid := by
        rcases hend with ⟨-, hprocs⟩ | ⟨-, -, hprocs⟩
        · rw [hprocs, Service.put, Function.update_of_ne (Ne.symm hne)]
        · rw [hprocs, Service.put, Function.update_of_ne (Ne.symm hne)]
      exact hmoved (hkept.trans hp)
    subst hpid
    rw [hp] at hp₁
    cases hp₁
    cases hbody
    obtain ⟨event, found, old, row, -, hupdate⟩ := worker_update_cases hruns
    obtain ⟨eventRow, hdb⟩ := hupdate.tables
    refine ⟨"completed", by decide, ?_, show ¬ "completed" = "failed" by decide, hunclaimed⟩
    rw [hdb, ← hupdate.id]
    refine (statusOf_eq (QuoteTables.progress_quote_self _ _ _)).trans ?_
    rw [hupdate.status, hcompleted]

/-- A step keeps a settled quote. -/
theorem settled_step {c c' : quoteService.Core} {a : quoteService.Action} (hc : Lifecycle c)
    (h : quoteService.AtomicStep c a c') {quoteId : Uuid} {status : String}
    (hsettled : Settled quoteProtocol (statusOf c.db) (claimsOf QuoteProc.claim c.procs) quoteId
      status) :
    Settled quoteProtocol (statusOf c'.db) (claimsOf QuoteProc.claim c'.procs) quoteId status := by
  cases quote_step_cases hc.sound h with
  | quiet hrows hs =>
    have hsame : statusOf c'.db = statusOf c.db := by
      funext id
      rw [statusOf, hrows, statusOf]
    rw [hsame]
    exact hsettled.succeed hs
  | write hwrite hs hclaim =>
    refine hsettled.write hwrite.write hs ?_
    intro y hy
    -- The claim that is left after the write is one on the same row.
    rcases hclaim with hnone | ⟨hsome, -⟩
    · rw [hnone] at hy
      cases hy
    · rw [hsome] at hy
      cases hy
      rfl

/-- A step keeps at most one winner for each quote. -/
theorem winning_step {c c' : quoteService.Core} {a : quoteService.Action} (hc : Lifecycle c)
    (hattempts : AttemptsSound c) (hattempts' : AttemptsSound c') (hwinning : Winning c)
    (h : quoteService.AtomicStep c a c') : Winning c' := by
  -- Nobody wins a quote that has a winner.
  have hnot : ∀ {quoteId id id'}, Winner c quoteId id → ¬ Wins c c' quoteId id' := by
    intro quoteId id id' hwinner hwins
    obtain ⟨status, -, hsettled⟩ := hwinning.settled quoteId id hwinner
    obtain ⟨pid, job, -, hp, rfl, -⟩ := hwins
    exact hsettled.unclaimed pid "analyzing" (claimsOf_eq hp)
  constructor
  · intro quoteId id hwinner
    rcases winner_step hattempts hattempts' h hwinner with hbefore | hwins
    · obtain ⟨status, hmem, hsettled⟩ := hwinning.settled quoteId id hbefore
      exact ⟨status, hmem, settled_step hc h hsettled⟩
    · exact wins_settled hc h hwins
  · intro quoteId id id' hwinner hwinner'
    rcases winner_step hattempts hattempts' h hwinner with hbefore | hwins <;>
      rcases winner_step hattempts hattempts' h hwinner' with hbefore' | hwins'
    · exact hwinning.single quoteId id id' hbefore hbefore'
    · exact absurd hwins' (hnot hbefore)
    · exact absurd hwins (hnot hbefore')
    · obtain ⟨pid, job, -, hp, hid, -⟩ := hwins
      obtain ⟨pid', job', -, hp', hid', -⟩ := hwins'
      have hclaim : claimsOf QuoteProc.claim c.procs pid = some (quoteId, "analyzing") :=
        hid ▸ claimsOf_eq hp
      have hclaim' : claimsOf QuoteProc.claim c.procs pid' = some (quoteId, "analyzing") :=
        hid' ▸ claimsOf_eq hp'
      have hsame := hc.exclusive.single pid pid' _ _ _ hclaim hclaim'
      subst hsame
      rw [hp] at hp'
      cases hp'
      rfl

/-- In every reachable state. -/
theorem winning_reachable {c : quoteService.Core} (hc : quoteService.atomic.Reachable c) :
    Winning c := by
  refine hc.induct (I := Winning) ?_ ?_
  · intro c hinit
    subst hinit
    constructor
    · intro quoteId id hwinner
      obtain ⟨row, hrow, -⟩ := hwinner
      cases hrow
    · intro quoteId id id' hwinner
      obtain ⟨row, hrow, -⟩ := hwinner
      cases hrow
  · intro c a c' hr hwinning _ h
    have hnext : quoteService.atomic.Reachable c' := .step hr trivial h
    exact winning_step (lifecycle_reachable hr) (attempts_reachable hr).1
      (attempts_reachable hnext).1 hwinning h

/-- A quote is analysed with success at most once. At most one of its attempts is ever
completed, and the status of its row does not change any more from then on: it is completed, or
analyzing when the update after the call has failed. -/
theorem attempt_completed_once {s : quoteService.State}
    (hs : quoteService.interleaved.Reachable s) {id : Uuid} {row : AttemptRow}
    (hrow : s.db (.attempt id) = some row) (hcompleted : row.status = "completed") :
    (∀ id' row', s.db (.attempt id') = some row' → row'.quoteId = row.quoteId →
      row'.status = "completed" → id' = id) ∧
    ∃ status ∈ ["analyzing", "completed"], ∀ s', quoteService.interleaved.Steps s s' →
      statusOf s'.db row.quoteId = some status := by
  have hrefines := Service.interleaved_refines_atomic quoteService_disciplined
  have hwinning := winning_reachable (hrefines.reachable hs)
  have hwinner : Winner s.toCore row.quoteId id := ⟨row, hrow, rfl, .inl hcompleted⟩
  refine ⟨?_, ?_⟩
  · intro id' row' hrow' hquote hcompleted'
    exact hwinning.single row.quoteId id' id ⟨row', hrow', hquote, .inl hcompleted'⟩ hwinner
  · obtain ⟨status, hmem, hsettled⟩ := hwinning.settled row.quoteId id hwinner
    refine ⟨status, hmem, ?_⟩
    -- The quote stays settled, by induction on the steps after `s`.
    have hstays : ∀ s', quoteService.interleaved.Steps s s' →
        Settled quoteProtocol (statusOf s'.db) (claimsOf QuoteProc.claim s'.procs) row.quoteId
          status := by
      intro s' hsteps
      induction hsteps with
      | refl => exact hsettled
      | @tail s₁ s₂ hsteps hlast ih =>
        obtain ⟨a, hstep⟩ := hlast
        have hs₁ := System.Steps.reachable hsteps hs
        have hc := lifecycle_reachable (hrefines.reachable hs₁)
        exact settled_step hc (hrefines.step s₁ a s₂ hs₁ hstep) ih
    exact fun s' hsteps => (hstays s' hsteps).current

end

section

attribute [local instance] fixtureLib openServer

/-- The create is accepted, and its worker completes the quote. -/
def testCompleted : List quoteService.Action :=
  .arrive 0 (.requested testCreate) :: testTransaction 0 7 ++
    .advance 0 (.proceed ⟨9⟩) 1 :: testTransaction 1 3 ++ testTransaction 1 2 ++
    .advance 1 (.called testAnswer) 2 :: testTransaction 1 3 ++ testTransaction 1 2

/-- A run whose call is answered. The attempt is completed, and the quote keeps the status that it
has in every continuation. -/
theorem attempt_completed_once_test :
    ∃ s, quoteService.interleaved.Reachable s ∧ testAttempt s = some (testQuote, "completed") ∧
      ∃ status ∈ ["analyzing", "completed"], ∀ s', quoteService.interleaved.Steps s s' →
        statusOf s'.db testQuote = some status := by
  have hrun : ((System.run quoteService.next quoteService.initial testCompleted).map
      fun s => testAttempt s == some (testQuote, "completed")) = some true := by
    decide
  obtain ⟨s, hs, hview⟩ := System.exists_reachable_of_run testCompleted _ hrun
  have hview := eq_of_beq hview
  obtain ⟨row, hrow, hpair⟩ := Option.map_eq_some_iff.mp hview
  obtain ⟨hquote, hcompleted⟩ := Prod.mk.inj hpair
  refine ⟨s, hs, hview, ?_⟩
  rw [← hquote]
  exact (attempt_completed_once hs hrow hcompleted).2

end

end CanonicalApi
