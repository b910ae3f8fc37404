import CanonicalApi.Memory.Handlers

/-!
# `CanonicalApi.Memory.Consistency`: ids and owners without a database

What every run keeps, whatever the order of its steps. A quote is stored under its own id,
which was issued before. The id of a create belongs to its handler alone, and no quote has it
until this handler stores the record. Every other record that a task holds belongs to a stored
quote with the same owner, so the owner of a quote never changes.
-/

set_option autoImplicit false

namespace CanonicalApi

open Transition (System)

section

variable [CanonicalLib]

/-- The quote is stored and belongs to the subject. -/
def AppState.Owned (state : AppState) (id : Uuid) (subject : String) : Prop :=
  ∃ record, state.quotes id = some record ∧ record.ownerSubject = subject

/-- The record of a new request: a create has the only right to its id, and a retry has found
its quote. -/
structure MutationRequest.Prepared (request : MutationRequest) (state : AppState)
    (record : QuoteRecord) : Prop where
  owner : record.ownerSubject = request.subject
  create : ∀ accepted timestamp fresh, request.mutation = .create accepted timestamp fresh →
    record.quoteId = fresh ∧ state.quotes fresh = none
  retry : ∀ quoteId, request.mutation = .retry quoteId →
    record.quoteId = quoteId ∧ state.Owned quoteId request.subject

/-- What a task knows about the quotes, at the await points where it has read something. A handler
of a new create knows that its fresh id is free, and one that replays that the quote is there. -/
def MemoryTask.Knows (state : AppState) : MemoryTask → Prop
  | handler request .lookup => ∀ fresh, request.mutation.fresh? = some fresh →
      state.quotes fresh = none
  | handler request (.claiming record _) => request.Prepared state record
  | handler request (.storing record (some _)) => request.Prepared state record
  | handler _ (.storing record none) => state.Owned record.quoteId record.ownerSubject
  | worker _ job => state.Owned job.record.quoteId job.record.ownerSubject
  | _ => True

/-- What holds in every reachable state: quotes stand under their own ids, every id was issued once,
and no two handlers hold one fresh id. `knows` is what each task relies on. -/
structure Consistent (s : memoryTasks.State) : Prop where
  keyed : ∀ id record, s.shared.quotes id = some record → record.quoteId = id
  issued : ∀ id record, s.shared.quotes id = some record → id ∈ s.shared.issued
  fresh : ∀ pid request stage id, s.tasks pid = some (.handler request stage) →
    request.mutation.fresh? = some id → id ∈ s.shared.issued
  single : ∀ pid pid' request request' stage stage' id,
    s.tasks pid = some (.handler request stage) →
    s.tasks pid' = some (.handler request' stage') →
    request.mutation.fresh? = some id → request'.mutation.fresh? = some id → pid = pid'
  knows : ∀ pid p, s.tasks pid = some p → p.Knows s.shared

/-! ### The effect of a poll -/

/-- The record that a task stores when it is polled. -/
def MemoryTask.stored? : MemoryTask → Option QuoteRecord
  | handler _ (.storing record _) => some record
  | worker (.marking _ _) job | worker (.recording _) job => some job.record
  | _ => none

section

variable {state state' : AppState} {task task' : MemoryTask} {child? : Option MemoryTask}

/-- What a poll does to the quotes and the entries: nothing, or it stores the record of its task,
or it makes the entry of a new request, or it is an assessment. -/
inductive Polled.Effect (state : AppState) (task : MemoryTask) (state' : AppState)
    (task' : MemoryTask) (child? : Option MemoryTask) : Prop where
  | silent : task.stored? = none → state.Silent state' →
      Polled.Effect state task state' task' child?
  | stores {record : QuoteRecord} : task.stored? = some record → state.Stores state' record →
      Polled.Effect state task state' task' child?
  | claims {request : MutationRequest} {record : QuoteRecord} {event : QuoteEventRecord} :
      task = .handler request (.claiming record event) →
      task' = .handler request (.storing record (some event)) → child? = none →
      state' = state.insertOperation request.pair (request.operation record) →
      Polled.Effect state task state' task' child?
  | assesses {request : AssessmentRequest} : task = .assessing request →
      KeepsQuotes state state' → Polled.Effect state task state' task' child?

/-- Every poll has one of these effects. Later proofs split on the effect, so that the seventeen
kinds of polls are gone through only here. -/
theorem Polled.effect (h : Polled state task state' task' child?) :
    Polled.Effect state task state' task' child? := by
  cases h with
  | @refuses request stage error hreads _ =>
    refine .silent ?_ ⟨rfl, rfl, rfl⟩
    -- A refusal comes from a guard that only reads.
    cases stage with
    | lookup => rfl
    | reading _ => rfl
    | checking => rfl
    | claiming _ _ => cases hreads
    | storing _ _ => cases hreads
    | answered _ => cases hreads
  | replays _ _ => exact .silent rfl ⟨rfl, rfl, rfl⟩
  | creates _ _ _ hsilent => exact .silent rfl hsilent
  | checks _ => exact .silent rfl ⟨rfl, rfl, rfl⟩
  | rereads _ => exact .silent rfl ⟨rfl, rfl, rfl⟩
  | requeues _ _ _ _ _ hsilent => exact .silent rfl hsilent
  | claims => exact .claims rfl rfl rfl rfl
  | answers hstores => exact .stores rfl hstores
  | accepts hstores => exact .stores rfl hstores
  | halts hstage =>
    refine .silent ?_ ⟨rfl, rfl, rfl⟩
    rcases hstage with ⟨_, rfl⟩ | rfl
    · rfl
    · rfl
  | starts hsilent => exact .silent rfl hsilent
  | marks hstores => exact .stores rfl hstores
  | abandons hstores => exact .stores rfl hstores
  | fails hstores => exact .stores rfl hstores
  | concludes hsilent => exact .silent rfl hsilent
  | records hstores => exact .stores rfl hstores
  | assesses hkeeps => exact .assesses rfl hkeeps

/-- A poll stores the record of its task, or it leaves the quotes alone. -/
theorem Polled.quotes (h : Polled state task state' task' child?) :
    task.stored? = none ∧ state'.quotes = state.quotes ∨
      ∃ record, task.stored? = some record ∧ state.Stores state' record := by
  cases h.effect with
  | silent hnone hsilent => exact .inl ⟨hnone, hsilent.quotes⟩
  | stores hstored hstores => exact .inr ⟨_, hstored, hstores⟩
  | claims htask _ _ hstate =>
    subst htask hstate
    exact .inl ⟨rfl, rfl⟩
  | assesses htask hkeeps =>
    subst htask
    exact .inl ⟨rfl, hkeeps.quotes⟩

/-- A poll issues no id. -/
theorem Polled.issued (h : Polled state task state' task' child?) :
    state'.issued = state.issued := by
  cases h.effect with
  | silent _ hsilent => exact hsilent.issued
  | stores _ hstores => exact hstores.issued
  | claims _ _ _ hstate =>
    subst hstate
    rfl
  | assesses _ hkeeps => exact hkeeps.issued

/-- A poll of a handler leaves its request alone, and no other task becomes a handler. -/
theorem Polled.handler {request : MutationRequest} {stage' : HandlerStage}
    (h : Polled state task state' (.handler request stage') child?) :
    ∃ stage, task = .handler request stage := by
  cases h with
  | refuses _ _ => exact ⟨_, rfl⟩
  | replays _ _ => exact ⟨_, rfl⟩
  | creates _ _ _ _ => exact ⟨_, rfl⟩
  | checks _ => exact ⟨_, rfl⟩
  | rereads _ => exact ⟨_, rfl⟩
  | requeues _ _ _ _ _ _ => exact ⟨_, rfl⟩
  | claims => exact ⟨_, rfl⟩
  | answers _ => exact ⟨_, rfl⟩
  | accepts _ => exact ⟨_, rfl⟩

/-- A replay that waits at its store has just read the stored record. -/
theorem Polled.copy {request : MutationRequest} {record : QuoteRecord}
    (h : Polled state task state' (.handler request (.storing record none)) child?) :
    ∃ quoteId, task = .handler request (.reading quoteId) ∧
      state.quotes quoteId = some record := by
  cases h with
  | rereads hrecord => exact ⟨_, rfl, hrecord⟩

/-- A handler that waits to store the record of a new request has just made its entry. -/
theorem Polled.claimed {request : MutationRequest} {record : QuoteRecord}
    {event : QuoteEventRecord}
    (h : Polled state task state' (.handler request (.storing record (some event))) child?) :
    task = .handler request (.claiming record event) ∧
      state' = state.insertOperation request.pair (request.operation record) := by
  cases h with
  | claims => exact ⟨rfl, rfl⟩

/-- A replay that waits to read its quote has just found an entry. -/
theorem Polled.replayed {request : MutationRequest} {quoteId : Uuid}
    (h : Polled state task state' (.handler request (.reading quoteId)) child?) :
    ∃ operation, state.idempotency request.pair = some operation ∧
      request.replays operation = some quoteId := by
  cases h with
  | replays hentry hreplays => exact ⟨_, hentry, hreplays⟩

/-- A handler that answers with success has just stored its record. -/
theorem Polled.succeeded {request : MutationRequest} {response : MutationResponse}
    (h : Polled state task state' (.handler request (.answered (.ok response))) child?) :
    ∃ record event, task = .handler request (.storing record event) ∧
      response = .of record request.mutation := by
  cases h with
  | answers _ => exact ⟨_, _, rfl, rfl⟩
  | accepts _ => exact ⟨_, _, rfl, rfl⟩

/-- A handler that answers that the storage is unavailable has just missed its quote. -/
theorem Polled.unavailable {request : MutationRequest}
    (h : Polled state task state' (.handler request (.answered (.error storageUnavailable)))
      child?) :
    ∃ quoteId, task = .handler request (.reading quoteId) ∧ state.quotes quoteId = none := by
  cases h with
  | refuses _ herror =>
    obtain ⟨quoteId, rfl, hnone⟩ := herror rfl
    exact ⟨quoteId, rfl, hnone⟩

/-- A task that is started is a worker. -/
theorem Polled.child {child : MemoryTask} (h : Polled state task state' task' (some child)) :
    ∃ request record event, task = .handler request (.storing record (some event)) ∧
      task' = .handler request (.answered (.ok (.of record request.mutation))) ∧
      state.Stores state' record ∧
      child = .worker (.created request.settings.geminiConfigured)
        (.of request.settings record CanonicalContext.requestOnly request.mutation) := by
  cases h with
  | accepts hstores => exact ⟨_, _, _, rfl, rfl, hstores, rfl⟩

end

/-! ### Quotes before and after a step -/

/-- A record that is stored makes its owner own the quote. -/
theorem AppState.Stores.owned {state state' : AppState} {record : QuoteRecord}
    (h : state.Stores state' record) : state'.Owned record.quoteId record.ownerSubject := by
  refine ⟨record, ?_, rfl⟩
  rw [h.quotes, Function.update_self]

/-- The owner of a quote is the same when the quotes are. -/
theorem AppState.Owned.of_quotes {state state' : AppState} {id : Uuid} {subject : String}
    (h : state.Owned id subject) (hquotes : state'.quotes = state.quotes) :
    state'.Owned id subject := by
  rw [AppState.Owned, hquotes]
  exact h

/-- What a task that stores a record knows about the quote. -/
theorem MemoryTask.Knows.stored {state : AppState} {task : MemoryTask} {record : QuoteRecord}
    (h : task.Knows state) (hstored : task.stored? = some record) :
    state.Owned record.quoteId record.ownerSubject ∨
      state.quotes record.quoteId = none ∧ ∃ request event,
        task = .handler request (.storing record (some event)) ∧
        request.mutation.fresh? = some record.quoteId := by
  cases task with
  | handler request stage =>
    cases stage with
    | storing record' event =>
      cases hstored
      -- Without an event the record is a copy of a stored one; with an event it is a new record or
      -- a queued copy.
      cases event with
      | none => exact .inl h
      | some event =>
        have hprepared : request.Prepared state record := h
        cases hmutation : request.mutation with
        | create accepted timestamp fresh =>
          -- A create stores under its fresh id, which nothing else has.
          obtain ⟨hid, hnone⟩ := hprepared.create accepted timestamp fresh hmutation
          refine .inr ⟨by rw [hid, hnone], request, event, rfl, ?_⟩
          rw [hid, hmutation]
          rfl
        | retry quoteId =>
          obtain ⟨hid, howned⟩ := hprepared.retry quoteId hmutation
          rw [hid, hprepared.owner]
          exact .inl howned
    | lookup => cases hstored
    | reading _ => cases hstored
    | checking => cases hstored
    | claiming _ _ => cases hstored
    | answered _ => cases hstored
  | worker stage job =>
    cases stage with
    | marking _ _ =>
      cases hstored
      exact .inl h
    | recording _ =>
      cases hstored
      exact .inl h
    | created _ => cases hstored
    | calling => cases hstored
    | done => cases hstored
  | assessing _ => cases hstored
  | assessed _ => cases hstored

/-- The effect of a step on the quotes: none, or the polled task stores its record. -/
theorem quotes_step {s s' : memoryTasks.State} {a : memoryTasks.Action}
    (h : memoryTasks.next s a = some s') :
    s'.shared.quotes = s.shared.quotes ∧
        (∀ pid input child p, a = .poll pid input child → s.tasks pid = some p →
          p.stored? = none) ∨
      ∃ pid input child p record, a = .poll pid input child ∧ s.tasks pid = some p ∧
        p.stored? = some record ∧ s.shared.Stores s'.shared record := by
  cases Tasks.step_of_next h with
  | arrive harrives _ =>
    rcases memory_arrives harrives with ⟨_, -, -, hissues⟩ | ⟨_, -, hissues⟩
    · exact .inl ⟨hissues.quotes, fun _ _ _ _ heq => by cases heq⟩
    · exact .inl ⟨hissues.quotes, fun _ _ _ _ heq => by cases heq⟩
  | @poll pid child input p p' q? shared hp _ hpoll =>
    rcases (polled_of_poll hpoll).quotes with ⟨hnone, hsame⟩ | ⟨record, hstored, hstores⟩
    · refine .inl ⟨hsame, ?_⟩
      rintro pid' input' child' p' ⟨⟩ hp'
      rw [hp] at hp'
      cases hp'
      exact hnone
    · -- The one kind of step that writes the map of the quotes.
      exact .inr ⟨pid, input, child, p, record, rfl, hp, hstored, hstores⟩
  | drop _ _ => exact .inl ⟨rfl, fun _ _ _ _ heq => by cases heq⟩

/-- The poll of a task at its store. -/
theorem stores_step {s s' : memoryTasks.State} {pid child : Nat} {input : MemoryInput}
    {p : MemoryTask} {record : QuoteRecord}
    (h : memoryTasks.next s (.poll pid input child) = some s') (hp : s.tasks pid = some p)
    (hstored : p.stored? = some record) : s.shared.Stores s'.shared record := by
  rcases quotes_step h with ⟨-, hnone⟩ | ⟨_, _, _, p', record', ha, hp', hstored', hstores⟩
  · rw [hnone pid input child p rfl hp] at hstored
    cases hstored
  · cases ha
    rw [hp] at hp'
    cases hp'
    rw [hstored] at hstored'
    cases hstored'
    exact hstores

/-- A store keeps the owners. -/
theorem owned_stores {state state' : AppState} {record : QuoteRecord} {id : Uuid}
    {subject : String} (hstores : state.Stores state' record)
    (hwritable : state.quotes record.quoteId = none ∨
      state.Owned record.quoteId record.ownerSubject)
    (h : state.Owned id subject) : state'.Owned id subject := by
  -- The stored quote keeps its owner, and the others are not touched.
  by_cases hid : id = record.quoteId
  · subst hid
    obtain ⟨old, hold, rfl⟩ := h
    rcases hwritable with hnone | ⟨old', hold', howner⟩
    · rw [hnone] at hold
      cases hold
    · rw [hold] at hold'
      cases hold'
      rw [howner]
      exact hstores.owned
  · obtain ⟨old, hold, howner⟩ := h
    refine ⟨old, ?_, howner⟩
    rw [hstores.quotes, Function.update_of_ne hid, hold]

/-- A step keeps the owners. -/
theorem owned_step {s s' : memoryTasks.State} {a : memoryTasks.Action} (hs : Consistent s)
    (h : memoryTasks.next s a = some s') {id : Uuid} {subject : String}
    (howned : s.shared.Owned id subject) : s'.shared.Owned id subject := by
  rcases quotes_step h with ⟨hsame, -⟩ | ⟨pid, input, child, p, record, rfl, hp, hstored, hstores⟩
  · exact howned.of_quotes hsame
  · refine owned_stores hstores ?_ howned
    rcases (hs.knows pid p hp).stored hstored with hold | ⟨hnone, -⟩
    · exact .inr hold
    · exact .inl hnone

/-- The id of a create stays free for its handler. -/
theorem vacant_step {s s' : memoryTasks.State} {a : memoryTasks.Action} (hs : Consistent s)
    (h : memoryTasks.next s a = some s') {pid : Nat} {request : MutationRequest}
    {stage : HandlerStage} {fresh : Uuid} (hp : s.tasks pid = some (.handler request stage))
    (hfresh : request.mutation.fresh? = some fresh)
    (hother : ∀ input child, a ≠ .poll pid input child)
    (hnone : s.shared.quotes fresh = none) : s'.shared.quotes fresh = none := by
  rcases quotes_step h with ⟨hsame, -⟩ | ⟨pid', input, child, p, record, rfl, hp', hstored, hstores⟩
  · rw [hsame, hnone]
  · rw [hstores.quotes]
    -- A task that stores under this id is the one that drew it, and it is not polled here.
    have hne : fresh ≠ record.quoteId := by
      rintro rfl
      rcases (hs.knows pid' p hp').stored hstored with ⟨old, hold, -⟩ |
        ⟨-, request', event, rfl, hfresh'⟩
      · rw [hnone] at hold
        cases hold
      · obtain rfl := hs.single pid pid' _ _ _ _ _ hp hp' hfresh hfresh'
        exact hother input child rfl
    rw [Function.update_of_ne hne, hnone]

/-- A new request stays prepared while its quote stays free or owned. -/
theorem MutationRequest.Prepared.mono {request : MutationRequest} {state state' : AppState}
    {record : QuoteRecord} (h : request.Prepared state record)
    (howned : ∀ id subject, state.Owned id subject → state'.Owned id subject)
    (hvacant : ∀ fresh, request.mutation.fresh? = some fresh → state.quotes fresh = none →
      state'.quotes fresh = none) : request.Prepared state' record where
  owner := h.owner
  create accepted timestamp fresh hmutation := by
    obtain ⟨hid, hnone⟩ := h.create accepted timestamp fresh hmutation
    refine ⟨hid, hvacant fresh ?_ hnone⟩
    rw [hmutation]
    rfl
  retry quoteId hmutation := by
    obtain ⟨hid, hquote⟩ := h.retry quoteId hmutation
    exact ⟨hid, howned _ _ hquote⟩

/-- A task that a step does not poll keeps what it knows. -/
theorem knows_kept {s s' : memoryTasks.State} {a : memoryTasks.Action} (hs : Consistent s)
    (h : memoryTasks.next s a = some s') {pid : Nat} {p : MemoryTask}
    (hp : s.tasks pid = some p) (hother : ∀ input child, a ≠ .poll pid input child) :
    p.Knows s'.shared := by
  have hknows := hs.knows pid p hp
  have howned : ∀ id subject, s.shared.Owned id subject → s'.shared.Owned id subject :=
    fun _ _ => owned_step hs h
  cases p with
  | handler request stage =>
    -- A fresh id stays free as long as the handler that holds it does not move.
    have hvacant : ∀ fresh, request.mutation.fresh? = some fresh → s.shared.quotes fresh = none →
        s'.shared.quotes fresh = none :=
      fun _ hfresh => vacant_step hs h hp hfresh hother
    cases stage with
    | lookup => exact fun fresh hfresh => hvacant fresh hfresh (hknows fresh hfresh)
    | claiming record event =>
      have hprepared : request.Prepared s.shared record := hknows
      exact hprepared.mono howned hvacant
    | storing record event =>
      cases event with
      | none => exact howned _ _ hknows
      | some event =>
        have hprepared : request.Prepared s.shared record := hknows
        exact hprepared.mono howned hvacant
    | reading _ => trivial
    | checking => trivial
    | answered _ => trivial
  | worker stage job => exact howned _ _ hknows
  | assessing _ => trivial
  | assessed _ => trivial

/-- A task at its next await point knows what it needs there. -/
theorem knows_polled {state state' : AppState} {task task' : MemoryTask}
    {child? : Option MemoryTask}
    (hkeyed : ∀ id record, state.quotes id = some record → record.quoteId = id)
    (hknows : task.Knows state) (h : Polled state task state' task' child?) :
    task'.Knows state' := by
  cases h with
  | refuses _ _ => trivial
  | replays _ _ => trivial
  | @creates request accepted timestamp createdAt fresh record event _ _ hmutation hrecord
      hsilent =>
    subst hrecord
    refine ⟨rfl, fun accepted' timestamp' fresh' hmutation' => ?_, fun quoteId hmutation' => ?_⟩
    · rw [hmutation] at hmutation'
      cases hmutation'
      refine ⟨rfl, ?_⟩
      rw [hsilent.quotes]
      -- The handler knew before that its fresh id was free.
      exact hknows fresh (by rw [hmutation]; rfl)
    · rw [hmutation] at hmutation'
      cases hmutation'
  | checks _ => trivial
  | @rereads request quoteId record hrecord =>
    refine ⟨record, ?_, rfl⟩
    rw [hkeyed quoteId record hrecord, hrecord]
  | @requeues request quoteId old record updatedAt event _ hmutation hold howner _ hrecord
      hsilent =>
    subst hrecord
    refine ⟨howner, fun accepted timestamp fresh hmutation' => ?_, fun quoteId' hmutation' => ?_⟩
    · rw [hmutation] at hmutation'
      cases hmutation'
    · rw [hmutation] at hmutation'
      cases hmutation'
      -- The retry has just read the quote as the subject's own.
      have howned : state.Owned quoteId request.subject := ⟨old, hold, howner⟩
      exact ⟨hkeyed quoteId old hold, howned.of_quotes hsilent.quotes⟩
  | @claims request record event =>
    have hprepared : request.Prepared state record := hknows
    exact hprepared.mono (fun _ _ howned => howned.of_quotes rfl) fun _ _ hnone => hnone
  | answers _ => trivial
  | accepts _ => trivial
  | halts _ => exact hknows
  | @starts configured job updatedAt event _ hsilent =>
    have howned : state.Owned job.record.quoteId job.record.ownerSubject := hknows
    exact howned.of_quotes hsilent.quotes
  | marks hstores => exact hstores.owned
  | abandons hstores => exact hstores.owned
  | fails hstores => exact hstores.owned
  | @concludes job outcome updatedAt event _ hsilent =>
    have howned : state.Owned job.record.quoteId job.record.ownerSubject := hknows
    -- The end of an analysis keeps the id and the owner.
    have hconcluded := howned.of_quotes hsilent.quotes
    rw [← concludeAnalysis_quoteId job.record outcome,
      ← concludeAnalysis_ownerSubject job.record outcome] at hconcluded
    exact hconcluded
  | records hstores => exact hstores.owned
  | assesses _ => trivial

/-- A step keeps what the tasks know. -/
theorem knows_step {s s' : memoryTasks.State} {a : memoryTasks.Action} (hs : Consistent s)
    (h : memoryTasks.next s a = some s') :
    ∀ pid p, s'.tasks pid = some p → p.Knows s'.shared := by
  intro pid p' hp'
  cases (Tasks.step_of_next h).origin hp' with
  | same hp hother _ => exact knows_kept hs h hp hother
  -- A new id is in use nowhere yet.
  | arrived _ _ harrives =>
    rcases memory_arrives harrives with ⟨request, rfl, -, hissues⟩ | ⟨request, rfl, -⟩
    · intro fresh hfresh
      rw [hissues.quotes]
      cases hquote : s.shared.quotes fresh with
      | none => rfl
      | some record => exact absurd (hs.issued fresh record hquote) (hissues.new fresh hfresh)
    · trivial
  | polled _ hp hpoll => exact knows_polled hs.keyed (hs.knows _ _ hp) (polled_of_poll hpoll)
  -- The worker starts with the quote that the handler has just stored.
  | started _ _ _ hpoll =>
    obtain ⟨request, record, event, -, -, hstores, rfl⟩ := (polled_of_poll hpoll).child
    show s'.shared.Owned (AnalysisJob.of _ _ _ _).record.quoteId _
    rw [AnalysisJob.of_record]
    exact hstores.owned

/-- The requests after a step, with the fresh ids that they carry. -/
theorem handler_step {s s' : memoryTasks.State} {a : memoryTasks.Action}
    (h : memoryTasks.next s a = some s') {pid : Nat} {request : MutationRequest}
    {stage : HandlerStage} (hp' : s'.tasks pid = some (.handler request stage)) :
    (∃ stage, s.tasks pid = some (.handler request stage)) ∨
      a = .arrive pid (.handler request stage) ∧
        s.shared.Issues s'.shared request.mutation.fresh? := by
  cases (Tasks.step_of_next h).origin hp' with
  | same hp _ _ => exact .inl ⟨stage, hp⟩
  | arrived ha _ harrives =>
    rcases memory_arrives harrives with ⟨request', heq, -, hissues⟩ | ⟨_, heq, -⟩
    · cases heq
      exact .inr ⟨ha, hissues⟩
    · cases heq
  | polled _ hp hpoll =>
    obtain ⟨stage', rfl⟩ := (polled_of_poll hpoll).handler
    exact .inl ⟨stage', hp⟩
  -- What a handler starts is a worker.
  | started _ _ _ hpoll =>
    obtain ⟨_, _, _, -, -, -, heq⟩ := (polled_of_poll hpoll).child
    cases heq

/-- A handler past its lookup waited there before the step, or it has just been polled. -/
theorem handler_origin {s s' : memoryTasks.State} {a : memoryTasks.Action}
    (h : memoryTasks.next s a = some s') {pid : Nat} {request : MutationRequest}
    {stage : HandlerStage} (hp' : s'.tasks pid = some (.handler request stage))
    (hstage : stage ≠ .lookup) :
    s.tasks pid = some (.handler request stage) ∧ (∀ input child, a ≠ .poll pid input child) ∨
      ∃ input child p child?, a = .poll pid input child ∧ s.tasks pid = some p ∧
        Polled s.shared p s'.shared (.handler request stage) child? := by
  cases (Tasks.step_of_next h).origin hp' with
  | same hp hpoll _ => exact .inl ⟨hp, hpoll⟩
  | arrived _ _ harrives =>
    rcases memory_arrives harrives with ⟨_, heq, -, -⟩ | ⟨_, heq, -⟩
    · cases heq
      exact absurd rfl hstage
    · cases heq
  | polled ha hp hpoll => exact .inr ⟨_, _, _, _, ha, hp, polled_of_poll hpoll⟩
  | started _ _ _ hpoll =>
    obtain ⟨_, _, _, -, -, -, heq⟩ := (polled_of_poll hpoll).child
    cases heq

/-- Issued ids stay issued. -/
theorem issued_step {s s' : memoryTasks.State} {a : memoryTasks.Action}
    (h : memoryTasks.next s a = some s') {id : Uuid} (hid : id ∈ s.shared.issued) :
    id ∈ s'.shared.issued := by
  cases Tasks.step_of_next h with
  | arrive harrives _ =>
    rcases memory_arrives harrives with ⟨_, -, -, hissues⟩ | ⟨_, -, hissues⟩
    · exact (hissues.issued id).mpr (.inr hid)
    · exact (hissues.issued id).mpr (.inr hid)
  | poll _ _ hpoll =>
    rw [(polled_of_poll hpoll).issued]
    exact hid
  | drop _ _ => exact hid

/-- A step keeps the state consistent. -/
theorem consistent_step {s s' : memoryTasks.State} {a : memoryTasks.Action} (hs : Consistent s)
    (h : memoryTasks.next s a = some s') : Consistent s' := by
  -- A stored quote was stored before, or the polled task had the right to store it.
  have hquote : ∀ id record, s'.shared.quotes id = some record →
      record.quoteId = id ∧ id ∈ s.shared.issued := by
    intro id record hrecord
    rcases quotes_step h with ⟨hsame, -⟩ | ⟨pid, input, child, p, stored, rfl, hp, hstored, hstores⟩
    · rw [hsame] at hrecord
      exact ⟨hs.keyed id record hrecord, hs.issued id record hrecord⟩
    · rw [hstores.quotes] at hrecord
      by_cases hid : id = stored.quoteId
      · subst hid
        rw [Function.update_self] at hrecord
        cases hrecord
        refine ⟨rfl, ?_⟩
        rcases (hs.knows pid p hp).stored hstored with ⟨old, hold, -⟩ |
          ⟨-, request, event, rfl, hfresh⟩
        · exact hs.issued _ old hold
        · exact hs.fresh pid request _ _ hp hfresh
      · rw [Function.update_of_ne hid] at hrecord
        exact ⟨hs.keyed id record hrecord, hs.issued id record hrecord⟩
  have hfresh : ∀ pid request stage id, s'.tasks pid = some (.handler request stage) →
      request.mutation.fresh? = some id → id ∈ s'.shared.issued := by
    intro pid request stage id hp hfresh
    rcases handler_step h hp with ⟨stage', hold⟩ | ⟨-, hissues⟩
    · exact issued_step h (hs.fresh pid request stage' id hold hfresh)
    · exact (hissues.issued id).mpr (.inl hfresh)
  have hsingle : ∀ pid pid' request request' stage stage' id,
      s'.tasks pid = some (.handler request stage) →
      s'.tasks pid' = some (.handler request' stage') →
      request.mutation.fresh? = some id → request'.mutation.fresh? = some id → pid = pid' := by
    intro pid pid' request request' stage stage' id hp hp' hid hid'
    rcases handler_step h hp with ⟨_, hold⟩ | ⟨ha, hissues⟩ <;>
      rcases handler_step h hp' with ⟨_, hold'⟩ | ⟨ha', hissues'⟩
    · exact hs.single pid pid' _ _ _ _ id hold hold' hid hid'
    · exact absurd (hs.fresh pid _ _ id hold hid) (hissues'.new id hid')
    · exact absurd (hs.fresh pid' _ _ id hold' hid') (hissues.new id hid)
    · rw [ha] at ha'
      cases ha'
      rfl
  exact {
    keyed := fun id record hrecord => (hquote id record hrecord).1
    issued := fun id record hrecord => issued_step h (hquote id record hrecord).2
    fresh := hfresh
    single := hsingle
    knows := knows_step hs h }

/-- The run lemma of `Consistent`. It holds in every run, whatever races there are. -/
theorem consistent_reachable {s : memoryTasks.State} (hs : memoryTasks.system.Reachable s) :
    Consistent s := by
  refine hs.induct (I := Consistent) ?_ ?_
  · rintro s rfl
    constructor
    · rintro id record ⟨⟩
    · rintro id record ⟨⟩
    · rintro pid request stage id ⟨⟩
    · rintro pid pid' request request' stage stage' id ⟨⟩
    · rintro pid p ⟨⟩
  · exact fun _ _ _ _ ih _ h => consistent_step ih h

end

end CanonicalApi
