import CanonicalApi.EventStream.Source
import CanonicalApi.Lib.Tickets
import Mathlib.Data.List.Nodup

/-!
# `CanonicalApi.Memory.Sequences`: the numbers of the events without a database

`memory_event` draws the number of an event from `next_event_sequence` before the task waits for
the guards under which it stores its record, and `publish_event` comes after them. In between other
tasks draw and publish. The numbers are `Tickets`: an event that is published keeps the number that
was drawn for it, and no other event is published with this number.
-/

set_option autoImplicit false

namespace CanonicalApi

open Tickets (Moves)

section

variable [CanonicalLib]

/-- The event that a handler has prepared and not published. -/
def HandlerStage.event? : HandlerStage → Option QuoteEventRecord
  | claiming _ event => some event
  | storing _ event => event
  | _ => none

omit [CanonicalLib] in
/-- The event that a worker has prepared and not published. -/
def MemoryWorkerStage.event? : MemoryWorkerStage → Option QuoteEventRecord
  | marking _ event | recording event => some event
  | _ => none

/-- The event that a task has prepared and not published. -/
def MemoryTask.event? : MemoryTask → Option QuoteEventRecord
  | handler _ stage => stage.event?
  | worker stage _ => stage.event?
  | _ => none

/-- The numbers of events. -/
def sequenceTickets : Tickets memoryTasks where
  counter state := state.nextEventSequence
  used state := state.events.map QuoteEventRecord.sequence
  held task := task.event?.map QuoteEventRecord.sequence

/-- What happens to the numbers when a task prepares, drops or publishes an event. -/
def Numbers (state : AppState) (event? : Option QuoteEventRecord) (state' : AppState)
    (event'? : Option QuoteEventRecord) : Prop :=
  Moves state.nextEventSequence (state.events.map QuoteEventRecord.sequence)
    (event?.map QuoteEventRecord.sequence) state'.nextEventSequence
    (state'.events.map QuoteEventRecord.sequence) (event'?.map QuoteEventRecord.sequence)

/-! ### One poll -/

/-- A new create draws a number for its event and holds it; other lookups draw none. -/
theorem numbers_lookup (request : MutationRequest) (state : AppState)
    (timestamp : Option String) :
    Numbers state none (request.lookup state timestamp).1
      (request.lookup state timestamp).2.event? := by
  unfold MutationRequest.lookup
  split
  · split <;> exact .keeps
  · split
    · exact .keeps
    · split
      · exact .keeps
      · exact .draws

/-- A replay holds no number. -/
theorem numbers_read (request : MutationRequest) (state : AppState) (quoteId : Uuid) :
    (request.read state quoteId).event? = none := by
  unfold MutationRequest.read
  split <;> split <;> rfl

/-- A new retry draws a number for its event and holds it. -/
theorem numbers_check (request : MutationRequest) (state : AppState) (quoteId : Uuid)
    (timestamp : Option String) :
    Numbers state none (request.check state quoteId timestamp).1
      (request.check state quoteId timestamp).2.event? := by
  unfold MutationRequest.check
  split
  · exact .keeps
  · split
    · exact .keeps
    · split
      · exact .keeps
      · exact .draws

/-- A publication appends the number of the event. -/
theorem numbers_publish (state : AppState) (record : QuoteRecord) (event : QuoteEventRecord) :
    Numbers state (some event) (state.finishUpdate record event) none := by
  unfold Numbers AppState.finishUpdate AppState.publishEvent AppState.insertQuote
  rw [List.map_append]
  exact .uses rfl

/-- The store of a new request uses the number that it holds. -/
theorem numbers_store (request : MutationRequest) (state : AppState) (record : QuoteRecord)
    (event : Option QuoteEventRecord) :
    Numbers state event (request.store state record event).1 none := by
  cases event with
  | none => exact .keeps
  | some event => exact numbers_publish state record event

/-- A worker that goes on draws a number after what it has published. -/
theorem numbers_update {state before : AppState} {event? : Option QuoteEventRecord}
    (h : Numbers state event? before none) (job : AnalysisJob) (record : QuoteRecord)
    (timestamp : Option String) {stage : QuoteEventRecord → MemoryWorkerStage}
    (hstage : ∀ event, (stage event).event? = some event) :
    Numbers state event? (job.update before record timestamp stage).1
      (job.update before record timestamp stage).2.1.event? := by
  cases timestamp with
  | none => exact h
  | some updatedAt =>
    show Moves _ _ _ (before.nextEventSequence + 1) (before.events.map QuoteEventRecord.sequence)
      ((stage _).event?.map _)
    rw [hstage]
    -- The number is the one that the counter has now.
    show Moves _ _ _ (before.nextEventSequence + 1) _ (some before.nextEventSequence)
    unfold Numbers at h
    generalize before.nextEventSequence = counter at h ⊢
    generalize before.events.map QuoteEventRecord.sequence = used at h ⊢
    generalize hheld : Option.map QuoteEventRecord.sequence none = held at h
    cases h with
    | keeps => exact .draws
    | discards => exact .draws
    | draws => cases hheld
    | uses hn => exact .exchanges hn
    | exchanges _ => cases hheld

/-- A worker draws a number when it prepares its update and uses it when it stores the record. It
holds at most one at a time. -/
theorem numbers_worker {stage stage' : MemoryWorkerStage} {job job' : AnalysisJob}
    {state state' : AppState} {input : MemoryInput}
    (h : stage.poll state job input = some (state', stage', job')) :
    Numbers state stage.event? state' stage'.event? := by
  -- Every update draws the next number for its event.
  have hupdate : ∀ (record : QuoteRecord) (timestamp : Option String)
      (next : QuoteEventRecord → MemoryWorkerStage) (before : AppState),
      (∀ event, (next event).event? = some event) → Numbers state stage.event? before none →
      some (job.update before record timestamp next) = some (state', stage', job') →
        Numbers state stage.event? state' stage'.event? := by
    intro record timestamp next before hnext hbefore heq
    have hnumbers := numbers_update hbefore job record timestamp hnext
    rwa [Option.some.inj heq] at hnumbers
  cases input with
  | resume timestamp =>
    cases stage with
    | created configured => exact hupdate _ _ _ _ (fun _ => rfl) .keeps h
    -- The event is published, and without a client the next update follows in the same step.
    | marking configured event =>
      have hpublish := numbers_publish state job.record event
      cases configured with
      | true =>
        cases h
        exact hpublish
      | false => exact hupdate _ _ _ _ (fun _ => rfl) hpublish h
    | recording event =>
      cases h
      exact numbers_publish state job.record event
    | calling => cases h
    | done => cases h
  | called outcome timestamp =>
    cases stage with
    | calling => exact hupdate _ _ _ _ (fun _ => rfl) .keeps h
    | created _ => cases h
    | marking _ _ => cases h
    | recording _ => cases h
    | done => cases h

/-- An assessment draws no number. -/
theorem nextEventSequence_assess (state : AppState) (request : AssessmentRequest)
    (timestamp : Option String) :
    (createReadinessAssessment state request timestamp).2.nextEventSequence =
      state.nextEventSequence := by
  unfold createReadinessAssessment AppState.insertAssessment
  dsimp only
  split
  · split
    · split <;> rfl
    · rfl
  · rfl
  · split
    · rfl
    · split
      · split <;> rfl
      · rfl

/-- A poll of a task. -/
theorem numbers_poll {state state' : AppState} {task task' : MemoryTask} {input : MemoryInput}
    {child? : Option MemoryTask} (h : task.poll state input = some (state', task', child?)) :
    Numbers state task.event? state' task'.event? ∧ child?.bind MemoryTask.event? = none := by
  cases task with
  | handler request stage =>
    cases input with
    | called outcome timestamp => cases stage <;> cases h
    | resume timestamp =>
      cases stage with
      | lookup =>
        cases h
        exact ⟨numbers_lookup request state timestamp, rfl⟩
      | reading quoteId =>
        cases h
        refine ⟨?_, rfl⟩
        show Numbers state none state (request.read state quoteId).event?
        rw [numbers_read]
        exact .keeps
      -- This stage may draw a number; the stages before it hold none.
      | checking =>
        simp only [MemoryTask.poll] at h
        split at h
        · cases h
        · cases h
          exact ⟨numbers_check request state _ timestamp, rfl⟩
      | claiming record event =>
        cases h
        exact ⟨.keeps, rfl⟩
      | storing record event =>
        cases event with
        | none =>
          cases h
          exact ⟨numbers_store request state record none, rfl⟩
        | some event =>
          cases h
          exact ⟨numbers_store request state record (some event), rfl⟩
      | answered result => cases h
  | worker stage job =>
    obtain ⟨⟨state₁, stage', job'⟩, hpoll, heq⟩ := Option.map_eq_some_iff.mp h
    cases heq
    exact ⟨numbers_worker hpoll, rfl⟩
  | assessing request =>
    cases input with
    | called outcome timestamp => cases h
    | resume timestamp =>
      cases h
      refine ⟨?_, rfl⟩
      show Numbers state none (createReadinessAssessment state request timestamp).2 none
      unfold Numbers
      rw [events_assess, nextEventSequence_assess]
      exact .keeps
  | assessed result => cases input <;> cases h

/-! ### Runs -/

/-- To issue an id draws no number. -/
theorem nextEventSequence_issue {state state' : AppState} {fresh? : Option Uuid}
    (h : state.issue fresh? = some state') :
    state'.nextEventSequence = state.nextEventSequence := by
  cases fresh? with
  | none =>
    cases h
    rfl
  | some fresh =>
    simp only [AppState.issue] at h
    split at h
    · cases h
    · cases h
      rfl

/-- A task arrives without an event. -/
theorem numbers_arrives {state state' : AppState} {p : MemoryTask}
    (h : memoryTasks.arrives state p = some state') :
    state'.nextEventSequence = state.nextEventSequence ∧ p.event? = none := by
  cases p with
  | handler request stage =>
    cases stage with
    | lookup =>
      have h : (if request.settings.databaseConfigured = true then none
        else state.issue request.mutation.fresh?) = some state' := h
      split at h
      · cases h
      · exact ⟨nextEventSequence_issue h, rfl⟩
    | reading | checking | claiming | storing | answered => cases h
  | worker | assessed => cases h
  | assessing request =>
    have h : state.issue (some request.fresh) = some state' := h
    exact ⟨nextEventSequence_issue h, rfl⟩

/-- The numbers of the events are tickets: every step draws, uses or gives up some. -/
theorem sequenceTickets_sound : sequenceTickets.Sound where
  start := rfl
  arrives {shared shared' p} h := by
    obtain ⟨hcounter, hevent⟩ := numbers_arrives h
    refine ⟨hcounter, ?_, ?_⟩
    · show shared'.events.map _ = shared.events.map _
      rw [events_of_arrives h]
    · show p.event?.map _ = none
      rw [hevent]
      rfl
  poll {shared shared' p p' q? input} h := by
    obtain ⟨hnumbers, hchild⟩ := numbers_poll h
    refine ⟨hnumbers, ?_⟩
    cases q? with
    | none => rfl
    | some q =>
      show q.event?.map _ = none
      rw [show q.event? = none from hchild]
      rfl

/-- The numbers of the published events differ. -/
theorem sequences_nodup {s : memoryTasks.State} (h : memoryTasks.system.Reachable s) :
    (s.shared.events.map QuoteEventRecord.sequence).Nodup :=
  Tickets.used_nodup sequenceTickets_sound h

/-- A published event is known by its number. -/
theorem event_of_sequence {s : memoryTasks.State} (h : memoryTasks.system.Reachable s)
    {event event' : QuoteEventRecord} (hevent : event ∈ s.shared.events)
    (hevent' : event' ∈ s.shared.events) (hsequence : event.sequence = event'.sequence) :
    event = event' :=
  List.inj_on_of_nodup_map (sequences_nodup h) hevent hevent' hsequence

end

end CanonicalApi
