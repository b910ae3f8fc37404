import CanonicalApi.Memory.Lifecycle

/-!
# `CanonicalApi.Memory.Workers`: the workers of a quote without a database

A retry reads the status of its quote under one guard and queues it under a later one, so two
retries with different keys can both start a worker. The runs in which a handler that has read
`failed` still finds the quote failed when it stores its record have at most one worker for
each quote (`single_worker`): the protocol of `SingleWriter` with the two statuses failed and
not failed.

A record beside the states counts how often a quote fails and how often it is retried.
-/

set_option autoImplicit false

namespace CanonicalApi

open Transition (System)
open SingleWriter (Protocol claimsOf claimsOf_eq)

/-- A quote that fails, or that is queued by a retry. -/
inductive Milestone where
  | failed (quoteId : Uuid)
  | retried (quoteId : Uuid)
deriving DecidableEq

/-- The statuses as far as retries depend on them: whether the quote has failed. -/
def retryProtocol : Protocol Bool where
  edge _ _ := True
  idle failed := failed = true
  entry := false

/-- The status is `failed`. -/
def isFailed (status : String) : Bool := status = "failed"

/-- The status that a retry needs. -/
theorem isFailed_iff {status : String} : isFailed status = true ↔ status = "failed" := by
  rw [isFailed, decide_eq_true_eq]

/-- Seen by whether they have failed, the quotes follow the protocol of the retries. -/
theorem quoteProtocol_map_isFailed : quoteProtocol.Map retryProtocol isFailed where
  edge _ _ _ := trivial
  idle _ := isFailed_iff
  entry := by decide

section

variable [CanonicalLib]

/-- When all handlers that have read `failed` are up to date, the step is timely as far as
retries depend on it: any other store writes a status that is not failed, over whatever is
stored. -/
theorem RetriesUpToDate.timely {s : memoryTasks.State} {a : memoryTasks.Action}
    (hs : Consistent s) (h : RetriesUpToDate s a) : Timely retryProtocol isFailed s a := by
  rintro ⟨quoteId, status⟩ hx
  by_cases hread : status = "failed"
  · exact ⟨"failed", h _ hx hread, .inl (by rw [hread])⟩
  · have hbusy : isFailed status = false := by
      rw [← Bool.not_eq_true, isFailed_iff]
      exact hread
    obtain ⟨stored, hstored⟩ := relies_stored hs hx
    refine ⟨stored, hstored, ?_⟩
    by_cases hfailed : stored = "failed"
    · exact .inr ⟨hfailed, hbusy⟩
    · refine .inl ?_
      rw [hbusy, ← Bool.not_eq_true, isFailed_iff]
      exact hfailed

/-- The milestone that a poll of the task is: the retry that stores a queued quote, or the worker
that stores a failed one. The other polls are none. -/
def MemoryTask.milestone? : MemoryTask → Option Milestone
  | handler request (.storing record (some _)) =>
      match request.mutation with
      | .create _ _ _ => none
      | .retry _ => some (.retried record.quoteId)
  | worker (.recording _) job =>
      if job.record.status = "failed" then some (.failed job.record.quoteId) else none
  | _ => none

/-- Only a store is a milestone. -/
theorem MemoryTask.milestone?_none {task : MemoryTask} (h : task.stored? = none) :
    task.milestone? = none := by
  cases task with
  | handler request stage =>
    cases stage with
    | storing _ _ => cases h
    | lookup => rfl
    | reading _ => rfl
    | checking => rfl
    | claiming _ _ => rfl
    | answered _ => rfl
  | worker stage job =>
    cases stage with
    | recording _ => cases h
    | marking _ _ => cases h
    | created _ => rfl
    | calling => rfl
    | done => rfl
  | assessing _ => rfl
  | assessed _ => rfl

/-- The tasks with their milestones. -/
def milestones : System (memoryTasks.State × List Milestone) memoryTasks.Action :=
  Tasks.recorded MemoryTask.milestone?

/-- Each retry so far has used up a failure, and a failed quote has one left. -/
def Balanced (state : AppState) (log : List Milestone) : Prop :=
  ∀ quoteId, log.count (.retried quoteId) +
    (if state.status quoteId = some "failed" then 1 else 0) ≤ log.count (.failed quoteId)

section

variable {state state' : AppState} {log : List Milestone} {record : QuoteRecord}

/-- The statuses after a store. -/
theorem status_stores (h : state.Stores state' record) (quoteId : Uuid) :
    state'.status quoteId =
      if quoteId = record.quoteId then some record.status else state.status quoteId := by
  rw [AppState.status, h.quotes]
  by_cases hid : quoteId = record.quoteId
  · subst hid
    rw [Function.update_self, if_pos rfl]
    rfl
  · rw [Function.update_of_ne hid, if_neg hid]
    rfl

/-- Without a milestone, the failures stay, when no quote becomes failed. -/
theorem Balanced.quiet (h : Balanced state log)
    (hstatus : ∀ quoteId, state'.status quoteId = some "failed" →
      state.status quoteId = some "failed") : Balanced state' log := by
  intro quoteId
  have hbefore := h quoteId
  by_cases hfailed : state'.status quoteId = some "failed"
  · rw [if_pos (hstatus quoteId hfailed)] at hbefore
    rw [if_pos hfailed]
    exact hbefore
  · rw [if_neg hfailed]
    omega

/-- A store of a record that has not failed is no failure. -/
theorem Balanced.store (h : Balanced state log) (hstores : state.Stores state' record)
    (hbusy : record.status ≠ "failed") : Balanced state' log := by
  refine h.quiet fun quoteId hfailed => ?_
  rw [status_stores hstores] at hfailed
  split at hfailed
  · exact absurd (Option.some.inj hfailed) hbusy
  · exact hfailed

/-- A retry uses up the failure that it finds. -/
theorem Balanced.retry (h : Balanced state log) (hstores : state.Stores state' record)
    (hfailed : state.status record.quoteId = some "failed") (hbusy : record.status ≠ "failed") :
    Balanced state' (log ++ [.retried record.quoteId]) := by
  intro quoteId
  have hbefore := h quoteId
  have hcount : List.count (.failed quoteId) [Milestone.retried record.quoteId] = 0 :=
    List.count_eq_zero.mpr (by simp)
  rw [status_stores hstores, List.count_append, List.count_append, hcount]
  -- The failure that was ahead is used up by this retry.
  by_cases hid : quoteId = record.quoteId
  · subst hid
    rw [if_pos hfailed] at hbefore
    rw [if_pos rfl, if_neg fun heq => hbusy (Option.some.inj heq), List.count_singleton_self]
    omega
  · have hother : List.count (.retried quoteId) [Milestone.retried record.quoteId] = 0 :=
      List.count_eq_zero.mpr (by simp [hid])
    rw [if_neg hid, hother]
    omega

/-- A failure is left for a retry. -/
theorem Balanced.fail (h : Balanced state log) (hstores : state.Stores state' record) :
    Balanced state' (log ++ [.failed record.quoteId]) := by
  intro quoteId
  have hbefore := h quoteId
  have hcount : List.count (.retried quoteId) [Milestone.failed record.quoteId] = 0 :=
    List.count_eq_zero.mpr (by simp)
  rw [status_stores hstores, List.count_append, List.count_append, hcount]
  -- One more failure than before, whatever the status was.
  by_cases hid : quoteId = record.quoteId
  · subst hid
    rw [List.count_singleton_self]
    have hle : (if some record.status = some "failed" then 1 else 0) ≤ 1 := by
      split <;> omega
    rw [if_pos rfl]
    omega
  · rw [if_neg hid]
    omega

end

/-- A step keeps the balance. -/
theorem balanced_step {s s' : memoryTasks.State} {a : memoryTasks.Action} {log : List Milestone}
    (hsound : Sound s) (hcurrent : RetriesUpToDate s a) (hlog : Balanced s.shared log)
    (h : memoryTasks.next s a = some s') :
    Balanced s'.shared (Tasks.note MemoryTask.milestone? log s a) := by
  rcases quotes_step h with ⟨hsame, hquiet⟩ |
    ⟨pid, input, child, p, record, rfl, hp, hstored, hstores⟩
  · -- No task stores anything, so this is no milestone.
    have hnote : Tasks.note MemoryTask.milestone? log s a = log := by
      rcases Tasks.note_cases log s a with
        hnote | ⟨pid, input, child, x, ha, hdue, -⟩
      · exact hnote
      · obtain ⟨p, hp, hx⟩ := Tasks.due_iff.mp hdue
        rw [MemoryTask.milestone?_none (hquiet pid input child p ha hp)] at hx
        cases hx
    rw [hnote]
    refine hlog.quiet fun quoteId hfailed => ?_
    rw [AppState.status, hsame] at hfailed
    exact hfailed
  · rw [Tasks.note, hp, Option.bind_some]
    cases p with
    | handler request stage =>
      cases stage with
      | storing record' event =>
        cases hstored
        cases event with
        | none =>
          -- A copy of a failed record finds the quote failed.
          show Balanced _ (log ++ [])
          rw [List.append_nil]
          refine hlog.quiet fun quoteId hfailed => ?_
          rw [status_stores hstores] at hfailed
          split at hfailed
          · next hid =>
            subst hid
            exact hcurrent _ (relies_eq hp rfl) (Option.some.inj hfailed)
          · exact hfailed
        | some event =>
          obtain ⟨-, hqueued⟩ : record.Valid ∧ record.status = "queued" := hsound.tasks pid _ hp
          have hbusy : record.status ≠ "failed" := by
            rw [hqueued]
            decide
          cases hmutation : request.mutation with
          | create accepted timestamp fresh =>
            rw [MemoryTask.milestone?, hmutation]
            show Balanced _ (log ++ [])
            rw [List.append_nil]
            exact hlog.store hstores hbusy
          | retry _ =>
            have hrelied : request.relied record (some event) = some "failed" := by
              rw [MutationRequest.relied, hmutation]
            rw [MemoryTask.milestone?, hmutation]
            exact hlog.retry hstores (hcurrent _ (relies_eq hp hrelied) rfl) hbusy
      | lookup => cases hstored
      | reading _ => cases hstored
      | checking => cases hstored
      | claiming _ _ => cases hstored
      | answered _ => cases hstored
    | worker stage job =>
      cases stage with
      | marking _ _ =>
        cases hstored
        obtain ⟨-, hanalyzing⟩ := hsound.tasks pid _ hp
        show Balanced _ (log ++ [])
        rw [List.append_nil]
        refine hlog.store hstores ?_
        rw [hanalyzing]
        decide
      | recording _ =>
        cases hstored
        rw [MemoryTask.milestone?]
        by_cases hfailed : job.record.status = "failed"
        · rw [if_pos hfailed]
          exact hlog.fail hstores
        · rw [if_neg hfailed]
          show Balanced _ (log ++ [])
          rw [List.append_nil]
          exact hlog.store hstores hfailed
      | created _ => cases hstored
      | calling => cases hstored
      | done => cases hstored
    | assessing _ => cases hstored
    | assessed _ => cases hstored

/-- The run lemma of `Balanced`, beside the record of the milestones. -/
theorem balanced_reachable {q : memoryTasks.State × List Milestone}
    (hq : milestones.ReachableWith (fun q a => RetriesUpToDate q.1 a) q) :
    Balanced q.1.shared q.2 := by
  refine hq.induct (I := fun q => Balanced q.1.shared q.2) ?_ ?_
  · rintro ⟨s, log⟩ ⟨rfl, rfl⟩ quoteId
    exact Nat.le_refl 0
  · rintro ⟨s, log⟩ a ⟨s', log'⟩ hq ih hg ⟨hstep, hnote⟩
    have hnote : log' = Tasks.note MemoryTask.milestone? log s a := hnote
    subst hnote
    have hs := (Tasks.reachableWith_of_recorded hq).reachable
    exact balanced_step (memory_sound_reachable hs) hg ih hstep

/-- In every run in which a handler that has read its quote as failed finds it failed when it
stores its record, a quote has at most one worker, and it is retried at most as often as it
fails. -/
theorem single_worker (s : memoryTasks.State) (log : List Milestone)
    (h : milestones.ReachableWith (fun q a => RetriesUpToDate q.1 a) (s, log)) :
    (∀ pid pid' stage stage' job job',
      s.tasks pid = some (.worker stage job) → stage ≠ .done →
      s.tasks pid' = some (.worker stage' job') → stage' ≠ .done →
      job.record.quoteId = job'.record.quoteId → pid = pid') ∧
    ∀ quoteId, log.count (.retried quoteId) ≤ log.count (.failed quoteId) := by
  have hs : memoryTasks.system.ReachableWith RetriesUpToDate s :=
    Tasks.reachableWith_of_recorded h
  have hattended := attended_reachable quoteProtocol_map_isFailed
    (fun s a hconsistent _ hg => hg.timely hconsistent) hs
  refine ⟨?_, fun quoteId => ?_⟩
  · intro pid pid' stage stage' job job' hp hlive hp' hlive' hid
    -- A worker that has not ended claims its quote as one that has not failed.
    have hclaim : ∀ {pid stage job}, s.tasks pid = some (.worker stage job) → stage ≠ .done →
        claimsOf (MemoryTask.claimAs isFailed) s.tasks pid = some (job.record.quoteId, false) := by
      intro pid stage job hp hlive
      rw [claimsOf_eq hp]
      cases stage with
      | created _ => rfl
      | marking _ _ => rfl
      | calling => rfl
      | recording _ => rfl
      | done => exact absurd rfl hlive
    have hclaim₂ := hclaim hp' hlive'
    rw [← hid] at hclaim₂
    exact hattended.single pid pid' _ _ _ (hclaim hp hlive) hclaim₂
  · have hbalance := balanced_reachable h quoteId
    dsimp only at hbalance
    omega

end

/-! ### One retry after the other, and two at once -/

section

attribute [local instance] fixtureLib

/-- The task is a worker of `testQuote` that has not ended. -/
def analyzes (s : memoryTasks.State) (pid : Nat) : Bool :=
  match s.tasks pid with
  | some (.worker stage job) => stage ≠ .done ∧ job.record.quoteId = testQuote
  | _ => false

/-- What the check finds. -/
theorem analyzes_iff {s : memoryTasks.State} {pid : Nat} :
    analyzes s pid = true ↔ ∃ stage job, s.tasks pid = some (.worker stage job) ∧
      stage ≠ .done ∧ job.record.quoteId = testQuote := by
  unfold analyzes
  constructor
  · intro h
    split at h
    · next stage job hp => exact ⟨stage, job, hp, of_decide_eq_true h⟩
    · cases h
  · rintro ⟨stage, job, hp, hlive⟩
    rw [hp]
    exact decide_eq_true hlive

/-- One failure and one retry that is up to date. One worker analyses the quote, and the retry has
used up the failure. -/
theorem single_worker_test :
    ∃ s log, milestones.ReachableWith (fun q a => RetriesUpToDate q.1 a) (s, log) ∧
      analyzes s 3 = true ∧ log.count (.retried testQuote) = 1 ∧
      1 ≤ log.count (.failed testQuote) := by
  have hrun : (System.run (System.guarded (fun q a => RetriesUpToDate q.1 a)
      (Tasks.nextRecorded MemoryTask.milestone?))
      (memoryTasks.initial, []) (testRetried ++ [testPoll 2 3])).map (fun q =>
        analyzes q.1 3 && q.2.count (.retried testQuote) == 1) = some true := by
    decide
  obtain ⟨⟨s, log⟩, hq, hview⟩ := System.exists_reachable_of_run _ _ hrun
  rw [Bool.and_eq_true, beq_iff_eq] at hview
  obtain ⟨hlive, hretried⟩ := hview
  have hq : milestones.ReachableWith (fun q a => RetriesUpToDate q.1 a) (s, log) :=
    Tasks.recorded_of_next _ (.of_guarded hq)
  have hle := (single_worker s log hq).2 testQuote
  dsimp only at hretried
  rw [hretried] at hle
  exact ⟨s, log, hq, hlive, hretried, hle⟩

/-- The quote fails. The handlers 2 and 3 both read it as failed, and then both queue it. -/
def testRetries : List memoryTasks.Action :=
  testAnalysis testOutcome ++ [.arrive 2 (.handler (memoryRetry "retry-key-0001") .lookup),
    .arrive 3 (.handler (memoryRetry "retry-key-0002") .lookup), testPoll 2 9, testPoll 3 9,
    testPoll 2 9, testPoll 3 9, testPoll 2 9, testPoll 3 9, testPoll 2 4, testPoll 3 5]

/-- Two retries with different keys read the same failure before either stores. Both queue the
quote, and it has two workers at once, with two retries for one failure. -/
theorem two_workers :
    ∃ s log, milestones.Reachable (s, log) ∧
      (∃ pid pid' stage stage' job job', pid ≠ pid' ∧
        s.tasks pid = some (.worker stage job) ∧ stage ≠ .done ∧
        s.tasks pid' = some (.worker stage' job') ∧ stage' ≠ .done ∧
        job.record.quoteId = job'.record.quoteId) ∧
      log.count (.failed testQuote) = 1 ∧ log.count (.retried testQuote) = 2 := by
  have hrun : (System.run (Tasks.nextRecorded MemoryTask.milestone?)
      (memoryTasks.initial, []) testRetries).map (fun q =>
        analyzes q.1 4 && analyzes q.1 5 &&
          (q.2 == [.failed testQuote, .retried testQuote, .retried testQuote])) = some true := by
    decide
  obtain ⟨⟨s, log⟩, hq, hview⟩ := System.exists_reachable_of_run _ _ hrun
  rw [Bool.and_eq_true, Bool.and_eq_true, analyzes_iff, analyzes_iff, beq_iff_eq] at hview
  obtain ⟨⟨⟨stage, job, hp, hlive, hid⟩, stage', job', hp', hlive', hid'⟩, rfl⟩ := hview
  refine ⟨s, _, Tasks.recorded_of_next _ hq, ⟨4, 5, stage, stage', job, job',
    by decide, hp, hlive, hp', hlive',
    hid.trans hid'.symm⟩, ?_, ?_⟩
  · decide
  · decide

end

end CanonicalApi
