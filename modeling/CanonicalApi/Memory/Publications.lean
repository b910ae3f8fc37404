import CanonicalApi.Memory.Lifecycle
import CanonicalApi.Memory.Sequences

/-!
# `CanonicalApi.Memory.Publications`: the stored record and the last event, without a database

`memory_event` makes the event of a record before the task waits for the guards, and the task stores
the record and publishes the event in one poll. So a stored record and the last published event of
its quote have the same status, unless a handler stores a copy of a record over a newer one.
`statusPublished_reachable` is about the runs in which no handler does this (`UpToDate`).
-/

set_option autoImplicit false

namespace CanonicalApi

open Transition (System)

section

variable [CanonicalLib]

/-- The event is that of the record. -/
structure QuoteEventRecord.Reports (event : QuoteEventRecord) (record : QuoteRecord) : Prop where
  quoteId : event.quoteId = record.quoteId
  ownerSubject : event.ownerSubject = record.ownerSubject
  status : event.status = record.status

/-- The record and the event that a handler has prepared. -/
def HandlerStage.pending? : HandlerStage → Option (QuoteRecord × QuoteEventRecord)
  | claiming record event => some (record, event)
  | storing record event => event.map (record, ·)
  | _ => none

/-- The record and the event that a task has prepared. -/
def MemoryTask.pending? : MemoryTask → Option (QuoteRecord × QuoteEventRecord)
  | handler _ stage => stage.pending?
  | worker stage job => stage.event?.map (job.record, ·)
  | _ => none

/-- What a task has prepared fits together. -/
def Fits (pending? : Option (QuoteRecord × QuoteEventRecord)) : Prop :=
  ∀ record event, pending? = some (record, event) → event.Reports record

/-- A task that has prepared nothing fits. -/
theorem fits_none : Fits none := fun _ _ h => by cases h

/-- A record and an event that reports it fit. -/
theorem fits_some {record : QuoteRecord} {event : QuoteEventRecord} (h : event.Reports record) :
    Fits (some (record, event)) := by
  intro record' event' heq
  cases heq
  exact h

/-- `memory_event` makes the event of its record. -/
theorem AppState.memoryEvent_reports (state : AppState) (record : QuoteRecord) :
    (state.memoryEvent record).1.Reports record :=
  ⟨rfl, rfl, rfl⟩

/-! ### One poll -/

/-- A new create makes its event from its record. -/
theorem fits_lookup (request : MutationRequest) (state : AppState) (timestamp : Option String) :
    Fits (request.lookup state timestamp).2.pending? := by
  unfold MutationRequest.lookup
  split
  · split
    · exact fits_none
    · exact fits_none
  · split
    · exact fits_none
    · split
      · exact fits_none
      · exact fits_some (state.memoryEvent_reports _)

/-- A replay prepares no event. -/
theorem fits_read (request : MutationRequest) (state : AppState) (quoteId : Uuid) :
    Fits (request.read state quoteId).pending? := by
  unfold MutationRequest.read
  split
  · split <;> exact fits_none
  · split <;> exact fits_none

/-- A new retry makes its event from the queued copy of the record. -/
theorem fits_check (request : MutationRequest) (state : AppState) (quoteId : Uuid)
    (timestamp : Option String) : Fits (request.check state quoteId timestamp).2.pending? := by
  unfold MutationRequest.check
  split
  · exact fits_none
  · split
    · exact fits_none
    · split
      · exact fits_none
      · exact fits_some (state.memoryEvent_reports _)

/-- `update_quote_state` prepares the record with its event. -/
theorem fits_update (job : AnalysisJob) (state : AppState) (record : QuoteRecord)
    (timestamp : Option String) {stage : QuoteEventRecord → MemoryWorkerStage}
    (hstage : ∀ event, (stage event).event? = some event) :
    Fits (MemoryTask.worker (job.update state record timestamp stage).2.1
      (job.update state record timestamp stage).2.2).pending? := by
  cases timestamp with
  | none => exact fits_none
  | some updatedAt =>
    show Fits ((stage _).event?.map _)
    rw [hstage]
    exact fits_some (state.memoryEvent_reports _)

/-- A worker makes its event from the record that it is about to store. -/
theorem fits_worker {stage stage' : MemoryWorkerStage} {job job' : AnalysisJob}
    {state state' : AppState} {input : MemoryInput}
    (h : stage.poll state job input = some (state', stage', job')) :
    Fits (MemoryTask.worker stage' job').pending? := by
  -- A prepared update waits with an event of its own record.
  have hupdate : ∀ (record : QuoteRecord) (timestamp : Option String)
      (next : QuoteEventRecord → MemoryWorkerStage) (before : AppState),
      (∀ event, (next event).event? = some event) →
      some (job.update before record timestamp next) = some (state', stage', job') →
        Fits (MemoryTask.worker stage' job').pending? := by
    intro record timestamp next before hnext heq
    have hfits := fits_update job before record timestamp hnext
    rwa [Option.some.inj heq] at hfits
  cases input with
  | resume timestamp =>
    cases stage with
    | created configured => exact hupdate _ _ _ _ (fun _ => rfl) h
    | marking configured event =>
      cases configured with
      | true =>
        cases h
        exact fits_none
      | false => exact hupdate _ _ _ _ (fun _ => rfl) h
    | recording event =>
      cases h
      exact fits_none
    | calling | done => cases h
  | called outcome timestamp =>
    cases stage with
    | calling => exact hupdate _ _ _ _ (fun _ => rfl) h
    | created | marking | recording | done => cases h

/-- After a poll, what a task has prepared fits together, and so does what the task that it starts
has. -/
theorem fits_poll {state state' : AppState} {task task' : MemoryTask} {input : MemoryInput}
    {child? : Option MemoryTask} (hfits : Fits task.pending?)
    (h : task.poll state input = some (state', task', child?)) :
    Fits task'.pending? ∧ Fits (child?.bind MemoryTask.pending?) := by
  cases task with
  | handler request stage =>
    cases input with
    | called outcome timestamp => cases stage <;> cases h
    | resume timestamp =>
      cases stage with
      | lookup =>
        cases h
        exact ⟨fits_lookup request state timestamp, fits_none⟩
      | reading quoteId =>
        cases h
        exact ⟨fits_read request state quoteId, fits_none⟩
      | checking =>
        simp only [MemoryTask.poll] at h
        split at h
        · cases h
        · cases h
          exact ⟨fits_check request state _ timestamp, fits_none⟩
      | claiming record event =>
        cases h
        exact ⟨hfits, fits_none⟩
      -- The event has been published, so that nothing is pending any more.
      | storing record event =>
        cases event with
        | none =>
          cases h
          exact ⟨fits_none, fits_none⟩
        | some event =>
          cases h
          exact ⟨fits_none, fits_none⟩
      | answered result => cases h
  | worker stage job =>
    obtain ⟨⟨state₁, stage', job'⟩, hpoll, heq⟩ := Option.map_eq_some_iff.mp h
    cases heq
    exact ⟨fits_worker hpoll, fits_none⟩
  | assessing request =>
    cases input with
    | called outcome timestamp => cases h
    | resume timestamp =>
      cases h
      exact ⟨fits_none, fits_none⟩
  | assessed result => cases input <;> cases h

/-- A task that stores a record publishes the event that it has prepared with it, or it is a replay
that stores a copy. -/
theorem MemoryTask.publishes_of_stored {task : MemoryTask} {record : QuoteRecord}
    (hstored : task.stored? = some record) :
    (∃ request, task = .handler request (.storing record none) ∧ task.publishes? = none) ∨
      ∃ event, task.pending? = some (record, event) ∧ task.publishes? = some event := by
  cases task with
  | handler request stage =>
    cases stage with
    -- A replayed retry stores without an event.
    | storing record' event =>
      cases hstored
      cases event with
      | none => exact .inl ⟨request, rfl, rfl⟩
      | some event => exact .inr ⟨event, rfl, rfl⟩
    | lookup | reading | checking | claiming | answered => cases hstored
  | worker stage job =>
    cases stage with
    | marking configured event =>
      cases hstored
      exact .inr ⟨event, rfl, rfl⟩
    | recording event =>
      cases hstored
      exact .inr ⟨event, rfl, rfl⟩
    | created | calling | done => cases hstored
  | assessing | assessed => cases hstored

/-- A task that stores no record publishes nothing. -/
theorem MemoryTask.publishes_of_not_stored {task : MemoryTask} (hstored : task.stored? = none) :
    task.publishes? = none := by
  cases task with
  | handler request stage =>
    cases stage with
    | storing => cases hstored
    | lookup | reading | checking | claiming | answered => rfl
  | worker stage job =>
    cases stage with
    | marking | recording => cases hstored
    | created | calling | done => rfl
  | assessing | assessed => rfl

/-! ### Runs -/

/-- The events of a quote and its owner, as they were published. -/
def AppState.eventsOf (state : AppState) (quoteId : Uuid) (subject : String) :
    List QuoteEventRecord :=
  state.events.filter fun event => event.quoteId = quoteId ∧ event.ownerSubject = subject

/-- The last published event of every stored quote has the status of the quote. -/
structure StatusPublished (s : memoryTasks.State) : Prop where
  fits : ∀ pid task, s.tasks pid = some task → Fits task.pending?
  latest : ∀ quoteId record, s.shared.quotes quoteId = some record →
    ∃ event, (s.shared.eventsOf quoteId record.ownerSubject).getLast? = some event ∧
      event.status = record.status

/-- A step that is up to date keeps this. -/
theorem StatusPublished.step {s s' : memoryTasks.State} {a : memoryTasks.Action} (hs : Consistent s)
    (hsettled : StatusPublished s) (hcurrent : UpToDate s a) (h : memoryTasks.next s a = some s') :
    StatusPublished s' where
  fits pid task htask := by
    cases (Tasks.step_of_next h).origin htask with
    | same htask _ _ => exact hsettled.fits pid task htask
    | arrived _ _ harrives =>
      rcases memory_arrives harrives with ⟨_, rfl, -, -⟩ | ⟨_, rfl, -⟩
      · exact fits_none
      · exact fits_none
    | polled _ hbefore hpoll => exact (fits_poll (hsettled.fits _ _ hbefore) hpoll).1
    | started _ hbefore _ hpoll => exact (fits_poll (hsettled.fits _ _ hbefore) hpoll).2
  latest quoteId record hrecord := by
    -- Without a store there is no publication either.
    have hquiet : s'.shared.quotes = s.shared.quotes → s'.shared.events = s.shared.events →
        ∃ event, (s'.shared.eventsOf quoteId record.ownerSubject).getLast? = some event ∧
          event.status = record.status := by
      intro hquotes hevents
      rw [hquotes] at hrecord
      rw [AppState.eventsOf, hevents]
      exact hsettled.latest quoteId record hrecord
    cases Tasks.step_of_next h with
    | @arrive pid task shared harrives _ =>
      refine hquiet ?_ (events_of_arrives harrives)
      rcases memory_arrives harrives with ⟨_, -, -, hissues⟩ | ⟨_, -, hissues⟩
      · exact hissues.quotes
      · exact hissues.quotes
    | drop _ _ => exact hquiet rfl rfl
    | @poll pid child input task task' child? shared htask _ hpoll =>
      have hevents : shared.events = s.shared.events ++ task.publishes?.toList :=
        events_of_poll hpoll
      rcases (polled_of_poll hpoll).quotes with ⟨hnone, hquotes⟩ | ⟨new, hstored, hstores⟩
      · refine hquiet hquotes ?_
        rw [MemoryTask.publishes_of_not_stored hnone] at hevents
        exact hevents.trans (List.append_nil _)
      have hrecord : shared.quotes quoteId = some record := hrecord
      show ∃ event, (shared.eventsOf quoteId record.ownerSubject).getLast? = some event ∧ _
      unfold AppState.eventsOf
      rcases MemoryTask.publishes_of_stored hstored with
        ⟨request, rfl, hpublishes⟩ | ⟨event, hpending, hpublishes⟩
      · -- The copy has the owner and the status of the stored record.
        rw [hevents, hpublishes, Option.toList_none, List.append_nil]
        by_cases hid : quoteId = new.quoteId
        · subst hid
          rw [hstores.quotes, Function.update_self] at hrecord
          cases hrecord
          obtain ⟨old, hold, howner⟩ : s.shared.Owned record.quoteId record.ownerSubject :=
            hs.knows pid _ htask
          have hstatus := hcurrent _ (relies_eq htask rfl)
          rw [AppState.status_eq hold] at hstatus
          obtain ⟨event, hlast, hevent⟩ := hsettled.latest record.quoteId old hold
          rw [howner] at hlast
          exact ⟨event, hlast, hevent.trans (Option.some.inj hstatus)⟩
        · rw [hstores.quotes, Function.update_of_ne hid] at hrecord
          exact hsettled.latest quoteId record hrecord
      · have hreports := hsettled.fits pid task htask new event hpending
        rw [hevents, hpublishes, Option.toList_some, List.filter_append]
        by_cases hid : quoteId = new.quoteId
        · subst hid
          rw [hstores.quotes, Function.update_self] at hrecord
          cases hrecord
          have hone : [event].filter (fun event : QuoteEventRecord =>
              event.quoteId = record.quoteId ∧ event.ownerSubject = record.ownerSubject) =
              [event] :=
            List.filter_eq_self.mpr fun _ hmem => by
              rw [List.mem_singleton.mp hmem]
              exact decide_eq_true ⟨hreports.quoteId, hreports.ownerSubject⟩
          refine ⟨event, ?_, hreports.status⟩
          rw [hone, List.getLast?_concat]
        · rw [hstores.quotes, Function.update_of_ne hid] at hrecord
          have hother : [event].filter (fun event : QuoteEventRecord =>
              event.quoteId = quoteId ∧ event.ownerSubject = record.ownerSubject) = [] :=
            List.filter_eq_nil_iff.mpr fun _ hmem htrue => by
              rw [List.mem_singleton.mp hmem] at htrue
              exact hid ((of_decide_eq_true htrue).1.symm.trans hreports.quoteId)
          rw [hother, List.append_nil]
          exact hsettled.latest quoteId record hrecord

/-- In every run in which no handler stores an old copy, a stored quote has the status of its last
published event. -/
theorem statusPublished_reachable {s : memoryTasks.State}
    (hs : memoryTasks.system.ReachableWith UpToDate s) : StatusPublished s := by
  refine hs.induct (I := StatusPublished) ?_ ?_
  · rintro s rfl
    constructor
    · rintro pid task ⟨⟩
    · rintro quoteId record ⟨⟩
  · intro s a s' hs ih hcurrent h
    exact StatusPublished.step (consistent_reachable hs.reachable) ih hcurrent h

/-- A quote that is found has the status of its last published event. -/
theorem StatusPublished.of_find {s : memoryTasks.State} (hs : StatusPublished s) {quoteId : Uuid}
    {subject : String} {record : QuoteRecord}
    (h : s.shared.findQuote quoteId subject = .ok record) :
    ∃ event, (s.shared.eventsOf quoteId subject).getLast? = some event ∧
      event.status = record.status := by
  obtain ⟨hrecord, howner⟩ := AppState.findQuote_ok h
  obtain ⟨event, hlast, hstatus⟩ := hs.latest quoteId record hrecord
  rw [howner] at hlast
  exact ⟨event, hlast, hstatus⟩

/-- The numbers of the published events are positive. -/
theorem sequence_pos {s : memoryTasks.State} (hs : memoryTasks.system.Reachable s)
    {event : QuoteEventRecord} (hevent : event ∈ s.shared.events) : 0 < event.sequence :=
  Tickets.used_ge sequenceTickets_sound hs event.sequence (List.mem_map_of_mem hevent)

end

end CanonicalApi
