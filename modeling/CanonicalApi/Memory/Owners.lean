import CanonicalApi.Memory.Assessments
import CanonicalApi.Memory.Idempotency

/-!
# `CanonicalApi.Memory.Owners`: what a subject can write without a database

A replay of a create reads the quote of its entry without a look at the owner, and it stores the
record that it has read. `Reserved` is why this never touches the quote of somebody else: the
quote of an entry belongs to the subject of the entry, or it is not stored yet and only a handler
of this subject can create it.

`Confined` says what a step for one subject leaves alone: the quotes, the entries and the
assessments of the others, apart from the oldest assessment when the store is full
(`confined_step`).
-/

set_option autoImplicit false

namespace CanonicalApi

open Transition (System)

section

variable [CanonicalLib]

/-- An entry after an insertion is the new one, or it was there before. -/
theorem AppState.insertOperation_cases {state : AppState} {pair pair' : String × String}
    {operation operation' : MemoryOperation}
    (h : (state.insertOperation pair operation).idempotency pair' = some operation') :
    pair' = pair ∧ operation' = operation ∨
      pair' ≠ pair ∧ state.idempotency pair' = some operation' := by
  have h : Function.update state.idempotency pair (some operation) pair' = some operation' := h
  by_cases hpair : pair' = pair
  · rw [hpair, Function.update_self] at h
    exact .inl ⟨hpair, (Option.some.inj h).symm⟩
  · rw [Function.update_of_ne hpair] at h
    exact .inr ⟨hpair, h⟩

/-! ### The ids in the entries -/

/-- The quote belongs to the subject, or only a handler of the subject can create it. -/
def Reserved (s : memoryTasks.State) (id : Uuid) (subject : String) : Prop :=
  s.shared.Owned id subject ∨
    s.shared.quotes id = none ∧ id ∈ s.shared.issued ∧
      ∀ pid request stage, s.tasks pid = some (.handler request stage) →
        request.mutation.fresh? = some id → request.subject = subject

/-- What holds in every reachable state of the quotes that a request can get at: they are its
subject's own, or reserved for a create of that subject. -/
structure OwnersApart (s : memoryTasks.State) : Prop where
  entries : ∀ pair operation id, s.shared.idempotency pair = some operation →
    operation.quoteId? = some id → Reserved s id pair.1
  retries : ∀ pair id, s.shared.idempotency pair = some (.retry id) → s.shared.Owned id pair.1
  reading : ∀ pid request id, s.tasks pid = some (.handler request (.reading id)) →
    Reserved s id request.subject
  /-- A replay stores a record of its own subject. -/
  copies : ∀ pid request record, s.tasks pid = some (.handler request (.storing record none)) →
    record.ownerSubject = request.subject

section

variable {s s' : memoryTasks.State} {a : memoryTasks.Action} {id : Uuid} {subject : String}

/-- A stored quote is reserved for its owner only. -/
theorem Reserved.owner (h : Reserved s id subject) {record : QuoteRecord}
    (hrecord : s.shared.quotes id = some record) : record.ownerSubject = subject := by
  rcases h with ⟨stored, hstored, howner⟩ | ⟨hnone, -⟩
  · rw [hrecord] at hstored
    cases hstored
    exact howner
  · rw [hrecord] at hnone
    cases hnone

/-- A quote stays reserved. -/
theorem reserved_step (hs : Consistent s) (h : memoryTasks.next s a = some s')
    (hreserved : Reserved s id subject) : Reserved s' id subject := by
  rcases hreserved with howned | ⟨hnone, hissued, honly⟩
  · exact .inl (owned_step hs h howned)
  -- A handler that arrives brings an id that was not issued before.
  have honly' : ∀ pid request stage, s'.tasks pid = some (.handler request stage) →
      request.mutation.fresh? = some id → request.subject = subject := by
    intro pid request stage hp hfresh
    rcases handler_step h hp with ⟨stage', hold⟩ | ⟨-, hissues⟩
    · exact honly pid request stage' hold hfresh
    · exact absurd hissued (hissues.new id hfresh)
  rcases quotes_step h with ⟨hsame, -⟩ | ⟨pid, input, child, p, record, rfl, hp, hstored, hstores⟩
  · refine .inr ⟨?_, issued_step h hissued, honly'⟩
    rw [hsame, hnone]
  · by_cases hid : id = record.quoteId
    · subst hid
      rcases (hs.knows pid p hp).stored hstored with
        ⟨old, hold, -⟩ | ⟨-, request, event, rfl, hfresh⟩
      · rw [hnone] at hold
        cases hold
      · -- The quote is created, by a handler of the subject.
        have hprepared : request.Prepared s.shared record := hs.knows pid _ hp
        have howned := hstores.owned
        rw [hprepared.owner, honly pid request _ hp hfresh] at howned
        exact .inl howned
    · refine .inr ⟨?_, issued_step h hissued, honly'⟩
      rw [hstores.quotes, Function.update_of_ne hid, hnone]

/-- The quote of a new request is reserved for its subject. -/
theorem MutationRequest.Prepared.reserved {request : MutationRequest} {record : QuoteRecord}
    {pid : Nat} {stage : HandlerStage} (hs : Consistent s)
    (hp : s.tasks pid = some (.handler request stage))
    (h : request.Prepared s.shared record) : Reserved s record.quoteId request.subject := by
  cases hmutation : request.mutation with
  -- The fresh id belongs to this handler alone until the quote is stored.
  | create accepted timestamp fresh =>
    obtain ⟨hid, hnone⟩ := h.create accepted timestamp fresh hmutation
    have hfresh : request.mutation.fresh? = some fresh := by
      rw [hmutation]
      rfl
    rw [hid]
    refine .inr ⟨hnone, hs.fresh pid request stage fresh hp hfresh, ?_⟩
    intro pid' request' stage' hp' hfresh'
    obtain rfl := hs.single pid' pid request' request stage' stage fresh hp' hp hfresh' hfresh
    rw [hp] at hp'
    cases hp'
    rfl
  | retry quoteId =>
    obtain ⟨hid, howned⟩ := h.retry quoteId hmutation
    rw [hid]
    exact .inl howned

/-- A step keeps the owners apart. -/
theorem ownersApart_step (hs : Consistent s) (hi : OwnersApart s)
    (h : memoryTasks.next s a = some s') : OwnersApart s' where
  entries pair operation id hentry hquote := by
    rcases entries_step h with hsame | ⟨pid, _, _, request, record, event, -, hp, -, hshared⟩
    · exact reserved_step hs h
        (hi.entries pair operation id ((hsame pair operation id hquote).mp hentry) hquote)
    · have hprepared : request.Prepared s.shared record := hs.knows pid _ hp
      rw [hshared] at hentry
      rcases AppState.insertOperation_cases hentry with ⟨rfl, rfl⟩ | ⟨-, hold⟩
      · -- The new entry names the quote of its request, which is reserved for the subject.
        rw [hprepared.operation] at hquote
        cases hquote
        exact reserved_step hs h (hprepared.reserved hs hp)
      · exact reserved_step hs h (hi.entries pair operation id hold hquote)
  retries pair id hentry := by
    rcases entries_step h with hsame | ⟨pid, _, _, request, record, event, -, hp, -, hshared⟩
    · exact owned_step hs h (hi.retries pair id ((hsame pair _ id rfl).mp hentry))
    · have hprepared : request.Prepared s.shared record := hs.knows pid _ hp
      rw [hshared] at hentry
      rcases AppState.insertOperation_cases hentry with ⟨rfl, heq⟩ | ⟨-, hold⟩
      · unfold MutationRequest.operation at heq
        split at heq
        · cases heq
        · next quoteId hmutation =>
          cases heq
          exact owned_step hs h (hprepared.retry _ hmutation).2
      · exact owned_step hs h (hi.retries pair id hold)
  reading pid request id hp' := by
    rcases handler_origin h hp' nofun with ⟨hp, -⟩ | ⟨_, _, p, _, -, -, hpolled⟩
    · exact reserved_step hs h (hi.reading pid request id hp)
    · obtain ⟨operation, hentry, hreplays⟩ := hpolled.replayed
      exact reserved_step hs h
        (hi.entries request.pair operation id hentry (replays_quoteId hreplays))
  copies pid request record hp' := by
    rcases handler_origin h hp' nofun with ⟨hp, -⟩ | ⟨_, _, p, _, -, hp, hpolled⟩
    · exact hi.copies pid request record hp
    · obtain ⟨quoteId, rfl, hrecord⟩ := hpolled.copy
      exact (hi.reading pid request quoteId hp).owner hrecord

/-- The run lemma of `OwnersApart`. -/
theorem ownersApart_reachable (hs : memoryTasks.system.Reachable s) : OwnersApart s := by
  refine hs.induct (I := OwnersApart) ?_ ?_
  · rintro s rfl
    constructor
    · rintro pair operation id ⟨⟩
    · rintro pair id ⟨⟩
    · rintro pid request id ⟨⟩
    · rintro pid request record ⟨⟩
  · exact fun _ _ _ hr ih _ h => ownersApart_step (consistent_reachable hr) ih h

end

/-! ### Steps for a subject -/

/-- The subject for whom a task works. -/
def MemoryTask.subject? : MemoryTask → Option String
  | handler request _ => some request.subject
  | worker _ job => some job.record.ownerSubject
  | assessing request => some request.subject
  | assessed _ => none

/-- The subject for whom a step is made. -/
def stepSubject? (s : memoryTasks.State) : memoryTasks.Action → Option String
  | .arrive _ p => p.subject?
  | .poll pid _ _ | .drop pid => (s.tasks pid).bind MemoryTask.subject?

/-- The assessments of the others. -/
def AppState.othersAssessments (state : AppState) (subject : String) : List AssessmentRecord :=
  state.assessments.filter fun record => record.subject ≠ subject

/-- The entries and the assessments of the others stay. -/
structure KeepsOthers (subject : String) (state state' : AppState) : Prop where
  entries : ∀ pair : String × String, pair.1 ≠ subject →
    state'.idempotency pair = state.idempotency pair
  assessments : state'.othersAssessments subject = state.othersAssessments subject

/-- The store is full, and of the entries and assessments of the others the oldest assessment
goes, with the entry that names it. -/
structure EvictsOldest (subject : String) (state state' : AppState) (evicted : AssessmentRecord) :
    Prop where
  full : state.assessments.length = readinessAssessmentCapacity
  oldest : state.assessments.head? = some evicted
  entries : ∀ (pair : String × String) operation, pair.1 ≠ subject →
    (state'.idempotency pair = some operation ↔ state.idempotency pair = some operation ∧
      ¬ (pair = evicted.pair ∧ ∃ requestJson, operation = .assessment evicted.id requestJson))
  assessments : state'.othersAssessments subject =
    state.assessments.tail.filter fun record => record.subject ≠ subject

/-- What a step for a subject leaves alone. The quotes of others never change. Their assessments and
entries change only where a full store evicts its oldest record. -/
structure Confined (subject : String) (s s' : memoryTasks.State) : Prop where
  quotes : ∀ id (record : QuoteRecord), record.ownerSubject ≠ subject →
    (s'.shared.quotes id = some record ↔ s.shared.quotes id = some record)
  others : KeepsOthers subject s.shared s'.shared ∨
    ∃ evicted, EvictsOldest subject s.shared s'.shared evicted
  /-- What goes on after the step works for the same subject. -/
  tasks : ∀ pid p, s'.tasks pid = some p → s.tasks pid = some p ∨
    ∀ other, p.subject? = some other → other = subject

section

variable {state state' : AppState} {task task' : MemoryTask} {child? : Option MemoryTask}
  {subject : String}

/-- A change that touches neither map keeps what other subjects have there. -/
theorem KeepsOthers.of_eq (hidempotency : state'.idempotency = state.idempotency)
    (hassessments : state'.assessments = state.assessments) :
    KeepsOthers subject state state' where
  entries pair _ := by rw [hidempotency]
  assessments := by rw [AppState.othersAssessments, hassessments, AppState.othersAssessments]

/-- A task works for one subject. -/
theorem Polled.keepsSubject (h : Polled state task state' task' child?) :
    task'.subject? = task.subject? ∨ task'.subject? = none := by
  cases h with
  | refuses _ _ => exact .inl rfl
  | replays _ _ => exact .inl rfl
  | creates _ _ _ _ => exact .inl rfl
  | checks _ => exact .inl rfl
  | rereads _ => exact .inl rfl
  | requeues _ _ _ _ _ _ => exact .inl rfl
  | claims => exact .inl rfl
  | answers _ => exact .inl rfl
  | accepts _ => exact .inl rfl
  | halts _ => exact .inl rfl
  | starts _ => exact .inl rfl
  | marks _ => exact .inl rfl
  | abandons _ => exact .inl rfl
  | fails _ => exact .inl rfl
  | @concludes job outcome _ _ _ _ =>
    exact .inl (congrArg some (concludeAnalysis_ownerSubject job.record outcome))
  | records _ => exact .inl rfl
  | assesses _ => exact .inr rfl

/-- A new assessment of the subject is added. -/
theorem keepsOthers_addAssessment {record : AssessmentRecord} {requestJson : JsonValue}
    (hsubject : record.subject = subject) :
    KeepsOthers subject state (state.addAssessment record requestJson) where
  entries pair hpair := by
    refine Function.update_of_ne ?_ _ _
    rintro rfl
    exact hpair hsubject
  assessments := by
    simp [AppState.othersAssessments, AppState.addAssessment, hsubject]

/-- It makes room for itself in a full store. -/
theorem insertAssessment_others {record : AssessmentRecord} {requestJson : JsonValue}
    (hsubject : record.subject = subject)
    (hcapacity : state.assessments.length ≤ readinessAssessmentCapacity) :
    KeepsOthers subject state (state.insertAssessment record requestJson) ∨
      ∃ evicted, EvictsOldest subject state (state.insertAssessment record requestJson)
        evicted := by
  have hadd : KeepsOthers subject state (state.addAssessment record requestJson) :=
    keepsOthers_addAssessment hsubject
  rw [AppState.insertAssessment_eq]
  split
  case isFalse => exact .inl hadd
  -- A full store evicts its oldest record, which may belong to another subject, with its entry.
  case isTrue hfull =>
    cases hassessments : state.assessments with
    | nil =>
      rw [hassessments] at hfull
      exact absurd hfull (by decide)
    | cons evicted rest =>
      have hrest : (state.addAssessment record requestJson).assessments
          = evicted :: (rest ++ [record]) := by
        show state.assessments ++ [record] = _
        rw [hassessments]
        rfl
      refine .inr ⟨evicted, ?_, ?_, ?_, ?_⟩
      · omega
      · rw [hassessments]
        rfl
      · intro pair operation hpair
        rw [AppState.evictOldest, hrest]
        show evictOperation (state.addAssessment record requestJson).idempotency evicted pair
          = some operation ↔ _
        rw [AppState.evictOperation_eq_some_iff, hadd.entries pair hpair]
        rfl
      · rw [AppState.evictOldest, hrest, hassessments]
        show (rest ++ [record]).filter _ = rest.filter _
        simp [hsubject]

end

section

variable {s s' : memoryTasks.State} {a : memoryTasks.Action} {subject : String}

/-- A poll is a step of the subject of its task. -/
theorem stepSubject_poll {pid child : Nat} {input : MemoryInput} {p : MemoryTask}
    (hp : s.tasks pid = some p) : stepSubject? s (.poll pid input child) = p.subject? := by
  show (s.tasks pid).bind MemoryTask.subject? = _
  rw [hp]
  rfl

/-- A task stores only records of its subject. -/
theorem stored_owner (hs : Consistent s) (hi : OwnersApart s) {pid : Nat} {p : MemoryTask}
    {record : QuoteRecord} (hp : s.tasks pid = some p) (hstored : p.stored? = some record)
    (hsubject : p.subject? = some subject) : record.ownerSubject = subject := by
  cases p with
  | handler request stage =>
    cases stage with
    | storing record' event =>
      cases hstored
      cases hsubject
      cases event with
      -- A replay stores a copy of what it has read as the subject's own.
      | none => exact hi.copies pid request record hp
      | some event =>
        have hprepared : request.Prepared s.shared record := hs.knows pid _ hp
        exact hprepared.owner
    | lookup => cases hstored
    | reading _ => cases hstored
    | checking => cases hstored
    | claiming _ _ => cases hstored
    | answered _ => cases hstored
  | worker stage job =>
    cases hsubject
    cases stage with
    | marking _ _ =>
      cases hstored
      rfl
    | recording _ =>
      cases hstored
      rfl
    | created _ => cases hstored
    | calling => cases hstored
    | done => cases hstored
  | assessing _ => cases hstored
  | assessed _ => cases hstored

/-- The quotes of the others stay. -/
theorem quotes_confined (hs : Consistent s) (hi : OwnersApart s)
    (h : memoryTasks.next s a = some s') (hsubject : stepSubject? s a = some subject) (id : Uuid)
    {record : QuoteRecord} (hother : record.ownerSubject ≠ subject) :
    s'.shared.quotes id = some record ↔ s.shared.quotes id = some record := by
  rcases quotes_step h with ⟨hsame, -⟩ | ⟨pid, input, child, p, stored, rfl, hp, hstored, hstores⟩
  · rw [hsame]
  · rw [stepSubject_poll hp] at hsubject
    have howner := stored_owner hs hi hp hstored hsubject
    rw [hstores.quotes]
    by_cases hid : id = stored.quoteId
    · subst hid
      rw [Function.update_self]
      -- Neither the new record nor the one that it replaces belongs to somebody else.
      refine iff_of_false ?_ ?_
      · rintro ⟨⟩
        exact hother howner
      · intro hold
        rcases (hs.knows pid p hp).stored hstored with ⟨old, hold', howner'⟩ | ⟨hnone, -⟩
        · rw [hold] at hold'
          cases hold'
          exact hother (howner'.trans howner)
        · rw [hnone] at hold
          cases hold
    · rw [Function.update_of_ne hid]

/-- The entries and the assessments of the others stay, apart from the oldest assessment. -/
theorem others_step (hs : IntakeConsistent s) (h : memoryTasks.next s a = some s')
    (hsubject : stepSubject? s a = some subject) :
    KeepsOthers subject s.shared s'.shared ∨
      ∃ evicted, EvictsOldest subject s.shared s'.shared evicted := by
  rcases intake_step_cases h with
    ⟨pid, child, request, timestamp, rfl, hp, hshared⟩ | ⟨hassessments, -, hidempotency⟩
  · rw [stepSubject_poll hp] at hsubject
    rw [hshared]
    rcases createReadinessAssessment_cases s.shared request timestamp with
      ⟨_, _, -, -, heq⟩ | ⟨_, _, -, -, heq⟩ | ⟨_, -, heq⟩ | ⟨receivedAt, -, heq⟩
    · rw [heq]
      exact .inl (.of_eq rfl rfl)
    · rw [heq]
      exact .inl (.of_eq rfl rfl)
    · rw [heq]
      exact .inl (.of_eq rfl rfl)
    · rw [heq]
      exact insertAssessment_others (Option.some.inj hsubject) hs.capacity
  · refine .inl ?_
    rcases entries_step h with
      hsame | ⟨pid, input, child, request, record, event, rfl, hp, -, hshared⟩
    · rcases hidempotency with hidempotency | ⟨pair, operation, id, hquote, hshared⟩
      · exact .of_eq hidempotency hassessments
      · -- The entry that is written was there before.
        have hold : s.shared.idempotency pair = some operation := by
          refine (hsame pair operation id hquote).mp ?_
          rw [hshared]
          exact Function.update_self ..
        refine .of_eq ?_ hassessments
        rw [hshared]
        show Function.update s.shared.idempotency pair (some operation) = _
        rw [← hold, Function.update_eq_self]
    · rw [stepSubject_poll hp] at hsubject
      refine ⟨fun pair hpair => ?_, ?_⟩
      · rw [hshared]
        refine Function.update_of_ne ?_ _ _
        rintro rfl
        exact hpair (Option.some.inj hsubject)
      · rw [hshared]
        rfl

/-- A step for a subject leaves alone what belongs to the others. -/
theorem confined_step (hs : memoryTasks.system.Reachable s) (h : memoryTasks.next s a = some s')
    (hsubject : stepSubject? s a = some subject) : Confined subject s s' where
  quotes id _ hother :=
    quotes_confined (consistent_reachable hs) (ownersApart_reachable hs) h hsubject id hother
  others := others_step (intakeConsistent_reachable hs) h hsubject
  tasks pid p hp' := by
    cases (Tasks.step_of_next h).origin hp' with
    | same hp _ _ => exact .inl hp
    | arrived ha _ _ =>
      subst ha
      refine .inr fun other hother => ?_
      have hsame : some subject = some other := hsubject.symm.trans hother
      exact (Option.some.inj hsame).symm
    | polled ha hp hpoll =>
      subst ha
      rw [stepSubject_poll hp] at hsubject
      refine .inr fun other hother => ?_
      rcases (polled_of_poll hpoll).keepsSubject with hsame | hnone
      · -- A task keeps its subject over its polls.
        rw [hsame, hsubject] at hother
        exact (Option.some.inj hother).symm
      · rw [hnone] at hother
        cases hother
    | started ha hp _ hpoll =>
      subst ha
      rw [stepSubject_poll hp] at hsubject
      obtain ⟨request, record, event, rfl, -, -, rfl⟩ := (polled_of_poll hpoll).child
      -- The worker of a request has its subject, as the owner of the quote.
      have hprepared : request.Prepared s.shared record := (consistent_reachable hs).knows _ _ hp
      refine .inr fun other hother => ?_
      rw [← Option.some.inj hother, ← Option.some.inj hsubject, AnalysisJob.of_record]
      exact hprepared.owner

end

end

end CanonicalApi
