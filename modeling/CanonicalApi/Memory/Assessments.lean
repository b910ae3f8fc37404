import CanonicalApi.Memory.Consistency
import Mathlib.Data.List.Nodup

/-!
# `CanonicalApi.Memory.Assessments`: the store of readiness assessments

The assessments are in a deque behind one lock, their idempotency keys in the map that they
share with the quotes behind another one. `AppState.Intake` says how the two belong together:
an entry of an assessment names a record of the deque with the same subject, key and request,
and every record has some entry under its key. The handlers of quotes can overwrite such an
entry, since they do not look it up again, but they never remove one.

`Intake.add` and `Intake.evict` are the two halves of a new assessment. `intake_step_cases` is the
inversion of a step, as far as assessments see it. Requests that list or find assessments only
read and are no steps of their own.
-/

set_option autoImplicit false

namespace CanonicalApi

open Transition (System)

/-- The subject and the key of an assessment. -/
def AssessmentRecord.pair (record : AssessmentRecord) : String × String :=
  (record.subject, record.idempotencyKey)

/-- What was submitted. -/
def AssessmentRecord.submission (record : AssessmentRecord) : AssessmentSubmission where
  frameworkIds := record.frameworkIds
  notes := record.notes
  organization := record.organization

/-- The error of a replay that does not find its assessment. -/
def assessmentUnavailable : ApiError :=
  .serviceUnavailable "storage_unavailable"
    "readiness assessment storage is temporarily unavailable"

section

variable [CanonicalLib]

namespace AppState

variable {state : AppState} {record : AssessmentRecord}

/-- The deque and the entries of the idempotency map belong together. An entry of an assessment has
its record; a record has an entry under its key, which need not be its own. -/
structure Intake (state : AppState) : Prop where
  /-- No two records have one id. -/
  distinct : (state.assessments.map AssessmentRecord.id).Nodup
  /-- No two records have one subject and key. -/
  single : (state.assessments.map AssessmentRecord.pair).Nodup
  /-- The ids of the records were issued. -/
  issued : ∀ record ∈ state.assessments, record.id ∈ state.issued
  /-- The key of a record is taken, by the record or by a quote that came later. -/
  taken : ∀ record ∈ state.assessments, state.idempotency record.pair ≠ none
  /-- An entry of an assessment names its record. -/
  named : ∀ pair id requestJson, state.idempotency pair = some (.assessment id requestJson) →
    ∃ record ∈ state.assessments, record.id = id ∧ record.pair = pair ∧
      record.submission.toValue = requestJson

/-- No assessment, no entry. -/
theorem Intake.empty : AppState.empty.Intake where
  distinct := .nil
  single := .nil
  issued _ h := nomatch h
  taken _ h := nomatch h
  named _ _ _ h := nomatch h

/-- The rest of the state does not matter. -/
theorem Intake.congr {state' : AppState} (h : state.Intake)
    (hassessments : state'.assessments = state.assessments)
    (hidempotency : state'.idempotency = state.idempotency)
    (hissued : ∀ id ∈ state.issued, id ∈ state'.issued) : state'.Intake where
  distinct := hassessments ▸ h.distinct
  single := hassessments ▸ h.single
  issued record hrecord := by
    rw [hassessments] at hrecord
    exact hissued _ (h.issued record hrecord)
  taken record hrecord := by
    rw [hassessments] at hrecord
    rw [hidempotency]
    exact h.taken record hrecord
  named := by
    rw [hassessments, hidempotency]
    exact h.named

/-- A handler of quotes takes a key, free or not. -/
theorem Intake.overwrite (h : state.Intake) {pair : String × String}
    {operation : MemoryOperation} {id : Uuid} (hquote : operation.quoteId? = some id) :
    (state.insertOperation pair operation).Intake where
  distinct := h.distinct
  single := h.single
  issued := h.issued
  taken record hrecord := by
    show Function.update state.idempotency pair (some operation) record.pair ≠ none
    by_cases hpair : record.pair = pair
    · rw [hpair, Function.update_self]
      simp
    · rw [Function.update_of_ne hpair]
      exact h.taken record hrecord
  named pair' id' requestJson hentry := by
    have hentry : Function.update state.idempotency pair (some operation) pair'
      = some (.assessment id' requestJson) := hentry
    by_cases hpair : pair' = pair
    · -- The new entry is not one of an assessment.
      rw [hpair, Function.update_self, Option.some.injEq] at hentry
      rw [hentry] at hquote
      cases hquote
    · rw [Function.update_of_ne hpair] at hentry
      exact h.named pair' id' requestJson hentry

/-- A new assessment under a free key. -/
theorem Intake.add (h : state.Intake) (hfree : state.idempotency record.pair = none)
    (hnew : ∀ old ∈ state.assessments, old.id ≠ record.id)
    (hissued : record.id ∈ state.issued) :
    (state.addAssessment record record.submission.toValue).Intake where
  distinct := by
    show ((state.assessments ++ [record]).map AssessmentRecord.id).Nodup
    rw [List.map_append, List.nodup_append]
    refine ⟨h.distinct, by simp, ?_⟩
    intro id hid id' hid'
    obtain ⟨old, hold, rfl⟩ := List.mem_map.mp hid
    rw [List.map_singleton] at hid'
    rw [List.mem_singleton.mp hid']
    exact hnew old hold
  single := by
    show ((state.assessments ++ [record]).map AssessmentRecord.pair).Nodup
    rw [List.map_append, List.nodup_append]
    refine ⟨h.single, by simp, ?_⟩
    intro pair hpair pair' hpair'
    obtain ⟨old, hold, rfl⟩ := List.mem_map.mp hpair
    rw [List.map_singleton] at hpair'
    rw [List.mem_singleton.mp hpair']
    -- The key of an old record is taken, the new one is free.
    intro heq
    exact h.taken old hold (heq ▸ hfree)
  issued old hold := by
    rcases List.mem_append.mp hold with hold | hold
    · exact h.issued old hold
    · rw [List.mem_singleton.mp hold]
      exact hissued
  taken old hold := by
    show Function.update state.idempotency record.pair _ old.pair ≠ none
    by_cases hpair : old.pair = record.pair
    · rw [hpair, Function.update_self]
      simp
    · rw [Function.update_of_ne hpair]
      rcases List.mem_append.mp hold with hold | hold
      · exact h.taken old hold
      · exact absurd (congrArg AssessmentRecord.pair (List.mem_singleton.mp hold)) hpair
  named pair id requestJson hentry := by
    have hentry : Function.update state.idempotency record.pair
        (some (.assessment record.id record.submission.toValue)) pair
      = some (.assessment id requestJson) := hentry
    by_cases hpair : pair = record.pair
    · rw [hpair, Function.update_self] at hentry
      cases hentry
      exact ⟨record, List.mem_append_right _ (List.mem_singleton_self _), rfl, hpair.symm, rfl⟩
    · rw [Function.update_of_ne hpair] at hentry
      obtain ⟨old, hold, hnamed⟩ := h.named pair id requestJson hentry
      exact ⟨old, List.mem_append_left _ hold, hnamed⟩

/-- The oldest assessment is dropped, with its entry if it still has one. -/
theorem Intake.evict (h : state.Intake) : state.evictOldest.Intake := by
  unfold evictOldest
  split
  case h_2 => exact h
  next evicted assessments hassessments =>
  have hdistinct := h.distinct
  have hsingle := h.single
  rw [hassessments, List.map_cons, List.nodup_cons] at hdistinct hsingle
  have hrest : ∀ record ∈ assessments, record ∈ state.assessments := by
    intro record hrecord
    rw [hassessments]
    exact List.mem_cons_of_mem _ hrecord
  exact {
    distinct := hdistinct.2
    single := hsingle.2
    issued := fun record hrecord => h.issued record (hrest record hrecord)
    taken := by
      intro record hrecord
      -- No other record has the key whose entry may go.
      have hpair : record.pair ≠ evicted.pair := fun heq =>
        hsingle.1 (heq ▸ List.mem_map_of_mem hrecord)
      obtain ⟨operation, hentry⟩ :=
        Option.ne_none_iff_exists'.mp (h.taken record (hrest record hrecord))
      show evictOperation state.idempotency evicted record.pair ≠ none
      rw [evictOperation_eq_some_iff.mpr ⟨hentry, fun hevicted => hpair hevicted.1⟩]
      simp
    named := by
      intro pair id requestJson hentry
      obtain ⟨hentry, hother⟩ := evictOperation_eq_some_iff.mp hentry
      obtain ⟨record, hrecord, hid, hpair, hjson⟩ := h.named pair id requestJson hentry
      rw [hassessments] at hrecord
      rcases List.mem_cons.mp hrecord with rfl | hrecord
      · exact absurd ⟨hpair.symm, requestJson, hid ▸ rfl⟩ hother
      · exact ⟨record, hrecord, hid, hpair, hjson⟩ }

/-- A new assessment, with the eviction that makes room for it. -/
theorem Intake.insert (h : state.Intake) (hfree : state.idempotency record.pair = none)
    (hnew : ∀ old ∈ state.assessments, old.id ≠ record.id)
    (hissued : record.id ∈ state.issued) :
    (state.insertAssessment record record.submission.toValue).Intake := by
  rw [insertAssessment_eq]
  split
  · exact (h.add hfree hnew hissued).evict
  · exact h.add hfree hnew hissued

/-- The deque never outgrows its capacity. -/
theorem insertAssessment_length (requestJson : JsonValue)
    (h : state.assessments.length ≤ readinessAssessmentCapacity) :
    (state.insertAssessment record requestJson).assessments.length
      ≤ readinessAssessmentCapacity := by
  have hadd : (state.addAssessment record requestJson).assessments.length
      = state.assessments.length + 1 := List.length_append
  rw [insertAssessment_eq]
  split
  · next hfull =>
    -- One record more than the capacity, and one is evicted.
    unfold evictOldest
    split
    · next evicted assessments hassessments =>
      rw [hassessments, List.length_cons] at hadd
      show assessments.length ≤ readinessAssessmentCapacity
      omega
    · next hnil =>
      rw [hnil]
      exact Nat.zero_le _
  · omega

/-- The records after a new assessment are old ones or the new one. -/
theorem mem_insertAssessment {requestJson : JsonValue} {old : AssessmentRecord}
    (h : old ∈ (state.insertAssessment record requestJson).assessments) :
    old ∈ state.assessments ∨ old = record := by
  have hadd : ∀ r, r ∈ (state.addAssessment record requestJson).assessments →
      r ∈ state.assessments ∨ r = record := by
    intro r hr
    rcases List.mem_append.mp hr with hr | hr
    · exact .inl hr
    · exact .inr (List.mem_singleton.mp hr)
  rw [insertAssessment_eq] at h
  split at h
  · unfold evictOldest at h
    split at h
    · next evicted assessments hassessments =>
      apply hadd
      rw [hassessments]
      exact List.mem_cons_of_mem _ h
    · exact hadd old h
  · exact hadd old h

end AppState

/-! ### Requests -/

/-- Everything `create_readiness_assessment` can do: change nothing and answer with the record
of its key or an error, or take a free key for a new record. -/
theorem createReadinessAssessment_cases (state : AppState) (request : AssessmentRequest)
    (timestamp : Option String) :
    (∃ id record,
      state.idempotency (request.subject, request.idempotencyKey)
        = some (.assessment id request.submission.toValue) ∧
      state.findAssessment id request.subject = .ok record ∧
      createReadinessAssessment state request timestamp = (.ok record, state)) ∨
    (∃ id error,
      state.idempotency (request.subject, request.idempotencyKey)
        = some (.assessment id request.submission.toValue) ∧
      state.findAssessment id request.subject = .error error ∧
      createReadinessAssessment state request timestamp
        = (.error assessmentUnavailable, state)) ∨
    (∃ error, error ≠ assessmentUnavailable ∧
      createReadinessAssessment state request timestamp = (.error error, state)) ∨
    ∃ receivedAt, state.idempotency (request.subject, request.idempotencyKey) = none ∧
      createReadinessAssessment state request timestamp = (.ok (request.record receivedAt),
        state.insertAssessment (request.record receivedAt) request.submission.toValue) := by
  unfold createReadinessAssessment
  dsimp only
  split
  · -- The key has an entry of an assessment, which is its replay or a conflict.
    next id existing hentry =>
    split
    · next hsame =>
      split
      · next record hfound => exact .inl ⟨id, record, hsame ▸ hentry, hfound, rfl⟩
      · next error hfound => exact .inr (.inl ⟨id, error, hsame ▸ hentry, hfound, rfl⟩)
    · exact .inr (.inr (.inl ⟨_, by decide, rfl⟩))
  · exact .inr (.inr (.inl ⟨_, by decide, rfl⟩))
  · -- The key is free, and the clock decides.
    next hfree =>
    split
    · exact .inr (.inr (.inl ⟨_, by decide, rfl⟩))
    · next receivedAt => exact .inr (.inr (.inr ⟨receivedAt, hfree, rfl⟩))

namespace AppState.Intake

variable {state : AppState} {request : AssessmentRequest}

/-- A replay finds the record that its entry names. -/
theorem find_named (h : state.Intake) {id : Uuid} {requestJson : JsonValue}
    (hentry : state.idempotency (request.subject, request.idempotencyKey)
      = some (.assessment id requestJson)) :
    ∃ record, state.findAssessment id request.subject = .ok record ∧
      record ∈ state.assessments ∧
      record.pair = (request.subject, request.idempotencyKey) ∧
      record.submission.toValue = requestJson := by
  obtain ⟨record, hrecord, hid, hpair, hjson⟩ := h.named _ _ _ hentry
  have hsubject : record.subject = request.subject := congrArg Prod.fst hpair
  have hfound : (state.assessments.find? fun r => r.id = id ∧ r.subject = request.subject)
      = some record := by
    rw [List.find?_eq_some_iff_append]
    obtain ⟨before, after, hsplit⟩ := List.append_of_mem hrecord
    refine ⟨by simp [hid, hsubject], before, after, hsplit, ?_⟩
    -- No record before it has the same id.
    intro other hother
    have hdistinct := h.distinct
    rw [hsplit, List.map_append, List.nodup_append] at hdistinct
    have hne := hdistinct.2.2 other.id (List.mem_map_of_mem hother) record.id
      (List.mem_map_of_mem List.mem_cons_self)
    simp [hid ▸ hne]
  refine ⟨record, ?_, hrecord, hpair, hjson⟩
  rw [findAssessment, hfound]
  rfl

/-- A request never misses the record of its key. -/
theorem available (h : state.Intake) (timestamp : Option String) :
    (createReadinessAssessment state request timestamp).1 ≠ .error assessmentUnavailable := by
  rcases createReadinessAssessment_cases state request timestamp with
    ⟨_, record, -, -, heq⟩ | ⟨id, error, hentry, hmissing, -⟩ | ⟨error, hne, heq⟩ |
    ⟨receivedAt, -, heq⟩
  · rw [heq]
    simp
  · obtain ⟨record, hfound, -⟩ := h.find_named hentry
    rw [hfound] at hmissing
    cases hmissing
  · rw [heq]
    simpa using hne
  · rw [heq]
    simp

/-- While the deque has a record with the key of a request, the request changes nothing, and
its answer is this record or an error. -/
theorem once (h : state.Intake) (timestamp : Option String) {kept : AssessmentRecord}
    (hkept : kept ∈ state.assessments)
    (hpair : kept.pair = (request.subject, request.idempotencyKey)) :
    (createReadinessAssessment state request timestamp).2 = state ∧
      ∀ record, (createReadinessAssessment state request timestamp).1 = .ok record →
        record = kept := by
  have htaken := h.taken kept hkept
  rw [hpair] at htaken
  rcases createReadinessAssessment_cases state request timestamp with
    ⟨id, record, hentry, hfound, heq⟩ | ⟨_, _, -, -, heq⟩ | ⟨error, -, heq⟩ |
    ⟨receivedAt, hfree, -⟩
  · rw [heq]
    refine ⟨rfl, fun answered hanswered => ?_⟩
    cases hanswered
    -- The record that the entry names has the same pair, and a pair has one record.
    obtain ⟨named, hnamed, hmem, hnamedPair, -⟩ := h.find_named hentry
    rw [hfound] at hnamed
    cases hnamed
    exact List.inj_on_of_nodup_map h.single hmem hkept (hnamedPair.trans hpair.symm)
  · rw [heq]
    exact ⟨rfl, fun _ hok => nomatch hok⟩
  · rw [heq]
    exact ⟨rfl, fun _ hok => nomatch hok⟩
  · exact absurd hfree htaken

/-- A request with a new id keeps the deque and the entries together. -/
theorem create (h : state.Intake) (timestamp : Option String)
    (hissued : request.fresh ∈ state.issued)
    (hnew : ∀ old ∈ state.assessments, old.id ≠ request.fresh) :
    (createReadinessAssessment state request timestamp).2.Intake := by
  rcases createReadinessAssessment_cases state request timestamp with
    ⟨_, _, -, -, heq⟩ | ⟨_, _, -, -, heq⟩ | ⟨_, -, heq⟩ | ⟨receivedAt, hfree, heq⟩
  · rw [heq]
    exact h
  · rw [heq]
    exact h
  · rw [heq]
    exact h
  · rw [heq]
    show (state.insertAssessment (request.record receivedAt)
      (request.record receivedAt).submission.toValue).Intake
    exact h.insert hfree hnew hissued

end AppState.Intake

/-! ### Polls -/

namespace MemoryTask

/-- The handlers of quotes and the workers leave the deque alone. -/
theorem poll_assessments {state state' : AppState} {task task' : MemoryTask}
    {input : MemoryInput} {child? : Option MemoryTask}
    (h : task.poll state input = some (state', task', child?))
    (htask : ∀ request, task ≠ .assessing request) :
    state'.assessments = state.assessments := by
  cases task with
  -- The guards of a handler of quotes touch quotes, entries and events.
  | handler request stage =>
    cases input with
    | called outcome timestamp => cases stage <;> cases h
    | resume timestamp =>
      cases stage with
      | lookup =>
        cases h
        show (request.lookup state timestamp).1.assessments = state.assessments
        unfold MutationRequest.lookup
        split
        · split <;> rfl
        · split
          · rfl
          · split <;> rfl
      | reading quoteId =>
        cases h
        rfl
      | checking =>
        simp only [poll] at h
        split at h
        · cases h
        · next quoteId hmutation =>
          cases h
          show (request.check state quoteId timestamp).1.assessments = state.assessments
          unfold MutationRequest.check
          split
          · rfl
          · split
            · rfl
            · split <;> rfl
      | claiming record event =>
        cases h
        rfl
      | storing record event =>
        cases event with
        | none =>
          cases h
          rfl
        | some event =>
          cases h
          rfl
      | answered result => cases h
  -- A worker touches quotes and events.
  | worker stage job =>
    obtain ⟨⟨state₁, stage', job'⟩, hpoll, heq⟩ := Option.map_eq_some_iff.mp h
    cases heq
    cases input with
    | resume timestamp =>
      cases stage with
      | created configured => cases timestamp <;> (cases hpoll; rfl)
      | marking configured event =>
        cases configured with
        | true =>
          cases hpoll
          rfl
        | false => cases timestamp <;> (cases hpoll; rfl)
      | recording event =>
        cases hpoll
        rfl
      | calling => cases hpoll
      | done => cases hpoll
    | called outcome timestamp =>
      cases stage with
      | calling => cases timestamp <;> (cases hpoll; rfl)
      | created configured => cases hpoll
      | marking configured event => cases hpoll
      | recording event => cases hpoll
      | done => cases hpoll
  | assessing request => exact absurd rfl (htask request)
  | assessed result => cases input <;> cases h

end MemoryTask

/-- The handlers of quotes and the workers write at most one entry, of a quote. -/
theorem Polled.operations {state state' : AppState} {task task' : MemoryTask}
    {child? : Option MemoryTask} (h : Polled state task state' task' child?)
    (htask : ∀ request, task ≠ .assessing request) :
    state'.idempotency = state.idempotency ∨ ∃ pair operation id,
      operation.quoteId? = some id ∧ state' = state.insertOperation pair operation := by
  cases h.effect with
  | silent _ hsilent => exact .inl hsilent.idempotency
  | stores _ hstores => exact .inl hstores.idempotency
  | @claims request record event _ _ _ hstate =>
    have hquote : ∃ id, (request.operation record).quoteId? = some id := by
      unfold MutationRequest.operation
      split <;> exact ⟨_, rfl⟩
    obtain ⟨id, hid⟩ := hquote
    exact .inr ⟨_, _, id, hid, hstate⟩
  | assesses heq _ => exact absurd heq (htask _)

/-- No poll leads to an assessment that waits, and none starts one. -/
theorem Polled.not_assessing {state state' : AppState} {task task' : MemoryTask}
    {child? : Option MemoryTask} (h : Polled state task state' task' child?)
    (request : AssessmentRequest) :
    task' ≠ .assessing request ∧ child? ≠ some (.assessing request) := by
  cases h <;> exact ⟨fun heq => (nomatch heq), fun heq => (nomatch heq)⟩

/-- What holds in every reachable state: the deque is within its capacity and in step with the
entries, and a request that waits for the guard brings an id that no record has. -/
structure IntakeConsistent (s : memoryTasks.State) : Prop where
  capacity : s.shared.assessments.length ≤ readinessAssessmentCapacity
  intake : s.shared.Intake
  /-- The id of an assessment that waits was issued, and no record has it. -/
  fresh : ∀ pid request, s.tasks pid = some (.assessing request) →
    request.fresh ∈ s.shared.issued ∧ ∀ record ∈ s.shared.assessments, record.id ≠ request.fresh
  /-- No two assessments that wait have one id. -/
  alone : ∀ pid pid' request request', s.tasks pid = some (.assessing request) →
    s.tasks pid' = some (.assessing request') → request.fresh = request'.fresh → pid = pid'

/-- The effect of a step on the store: it leaves the deque alone, or it is the poll of an
assessment. -/
theorem intake_step_cases {s s' : memoryTasks.State} {a : memoryTasks.Action}
    (h : memoryTasks.next s a = some s') :
    (∃ pid child request timestamp, a = .poll pid (.resume timestamp) child ∧
      s.tasks pid = some (.assessing request) ∧
      s'.shared = (createReadinessAssessment s.shared request timestamp).2) ∨
    s'.shared.assessments = s.shared.assessments ∧
      (∀ id ∈ s.shared.issued, id ∈ s'.shared.issued) ∧
      (s'.shared.idempotency = s.shared.idempotency ∨ ∃ pair operation id,
        operation.quoteId? = some id ∧ s'.shared = s.shared.insertOperation pair operation) := by
  cases Tasks.step_of_next h with
  | @arrive pid p shared harrives hnone =>
    refine .inr ?_
    -- What arrives issues an id at most.
    have hissue : ∃ fresh?, s.shared.issue fresh? = some shared := by
      cases p with
      | handler request stage =>
        cases stage with
        | lookup =>
          have harrives : (if request.settings.databaseConfigured = true then none
            else s.shared.issue request.mutation.fresh?) = some shared := harrives
          split at harrives
          · cases harrives
          · exact ⟨_, harrives⟩
        | reading _ => cases harrives
        | checking => cases harrives
        | claiming _ _ => cases harrives
        | storing _ _ => cases harrives
        | answered _ => cases harrives
      | worker stage job => cases harrives
      | assessing request =>
        have harrives : s.shared.issue (some request.fresh) = some shared := harrives
        exact ⟨_, harrives⟩
      | assessed result => cases harrives
    obtain ⟨fresh?, hissue⟩ := hissue
    have hissues := AppState.issue_issues hissue
    refine ⟨?_, fun id hid => (hissues.issued id).mpr (.inr hid), .inl hissues.idempotency⟩
    cases fresh? with
    | none =>
      cases hissue
      rfl
    | some fresh =>
      rw [AppState.issue] at hissue
      split at hissue
      · cases hissue
      · cases hissue
        rfl
  | @poll pid child input p p' q? shared hp hchild hpoll =>
    -- Only the poll of an assessment touches the assessments.
    by_cases htask : ∃ request, p = .assessing request
    · obtain ⟨request, rfl⟩ := htask
      cases input with
      | resume timestamp =>
        cases hpoll
        exact .inl ⟨pid, child, request, timestamp, rfl, hp, rfl⟩
      | called outcome timestamp => cases hpoll
    · have htask : ∀ request, p ≠ .assessing request := fun request heq => htask ⟨request, heq⟩
      have hpolled := polled_of_poll hpoll
      refine .inr ⟨MemoryTask.poll_assessments hpoll htask, ?_, hpolled.operations htask⟩
      intro id hid
      rw [hpolled.issued]
      exact hid
  | drop _ _ => exact .inr ⟨rfl, fun _ hid => hid, .inl rfl⟩

/-- A record of the deque after a step was there before, or an assessment that waited brought
it. -/
theorem assessments_step {s s' : memoryTasks.State} {a : memoryTasks.Action}
    (h : memoryTasks.next s a = some s') {record : AssessmentRecord}
    (hrecord : record ∈ s'.shared.assessments) :
    record ∈ s.shared.assessments ∨ ∃ pid child input request,
      a = .poll pid input child ∧ s.tasks pid = some (.assessing request) ∧
        record.id = request.fresh := by
  rcases intake_step_cases h with ⟨pid, child, request, timestamp, rfl, hp, hshared⟩ |
    ⟨hsame, -, -⟩
  · rw [hshared] at hrecord
    rcases createReadinessAssessment_cases s.shared request timestamp with
      ⟨_, _, -, -, heq⟩ | ⟨_, _, -, -, heq⟩ | ⟨_, -, heq⟩ | ⟨receivedAt, -, heq⟩
    · exact .inl (by simpa [heq] using hrecord)
    · exact .inl (by simpa [heq] using hrecord)
    · exact .inl (by simpa [heq] using hrecord)
    · -- A new record was inserted; the others stood there before.
      rw [heq] at hrecord
      rcases AppState.mem_insertAssessment hrecord with hold | rfl
      · exact .inl hold
      · exact .inr ⟨pid, child, _, request, rfl, hp, rfl⟩
  · rw [hsame] at hrecord
    exact .inl hrecord

/-- An assessment that waits after a step waited before, or it just arrived with an id that was
not issued. -/
theorem assessing_step {s s' : memoryTasks.State} {a : memoryTasks.Action}
    (h : memoryTasks.next s a = some s') {pid : Nat} {request : AssessmentRequest}
    (hp' : s'.tasks pid = some (.assessing request)) :
    (s.tasks pid = some (.assessing request) ∧ ∀ input child, a ≠ .poll pid input child) ∨
      a = .arrive pid (.assessing request) ∧
        s.shared.Issues s'.shared (some request.fresh) := by
  cases (Tasks.step_of_next h).origin hp' with
  | same hp hpoll _ => exact .inl ⟨hp, hpoll⟩
  | arrived ha _ harrives =>
    rcases memory_arrives harrives with ⟨_, heq, -⟩ | ⟨request', heq, hissues⟩
    · cases heq
    · cases heq
      exact .inr ⟨ha, hissues⟩
  -- No step leads to this stage, it only stands at the arrival.
  | polled _ _ hpoll =>
    exact absurd rfl ((polled_of_poll hpoll).not_assessing request).1
  | started _ _ _ hpoll =>
    exact absurd rfl ((polled_of_poll hpoll).not_assessing request).2

/-- The effect of a step on the deque and its entries. -/
theorem intake_step {s s' : memoryTasks.State} {a : memoryTasks.Action}
    (hs : IntakeConsistent s) (h : memoryTasks.next s a = some s') : s'.shared.Intake := by
  rcases intake_step_cases h with ⟨pid, child, request, timestamp, rfl, hp, hshared⟩ |
    ⟨hassessments, hissued, hidempotency | ⟨pair, operation, id, hquote, hshared⟩⟩
  · rw [hshared]
    obtain ⟨hfresh, hnew⟩ := hs.fresh pid request hp
    exact hs.intake.create timestamp hfresh hnew
  · exact hs.intake.congr hassessments hidempotency hissued
  · rw [hshared]
    exact hs.intake.overwrite hquote

/-- The deque stays within its capacity. -/
theorem capacity_step {s s' : memoryTasks.State} {a : memoryTasks.Action}
    (hs : IntakeConsistent s) (h : memoryTasks.next s a = some s') :
    s'.shared.assessments.length ≤ readinessAssessmentCapacity := by
  have hcapacity := hs.capacity
  rcases intake_step_cases h with ⟨pid, child, request, timestamp, rfl, hp, hshared⟩ |
    ⟨hassessments, -, -⟩
  · rw [hshared]
    rcases createReadinessAssessment_cases s.shared request timestamp with
      ⟨_, _, -, -, heq⟩ | ⟨_, _, -, -, heq⟩ | ⟨_, -, heq⟩ | ⟨receivedAt, -, heq⟩
    · rw [heq]
      exact hcapacity
    · rw [heq]
      exact hcapacity
    · rw [heq]
      exact hcapacity
    · rw [heq]
      exact AppState.insertAssessment_length _ hcapacity
  · rw [hassessments]
    exact hcapacity

/-- A step keeps the assessments consistent. -/
theorem intakeConsistent_step {s s' : memoryTasks.State} {a : memoryTasks.Action}
    (hs : IntakeConsistent s) (h : memoryTasks.next s a = some s') : IntakeConsistent s' where
  capacity := capacity_step hs h
  intake := intake_step hs h
  fresh := by
    intro pid request hp'
    rcases assessing_step h hp' with ⟨hp, hother⟩ | ⟨rfl, hissues⟩
    · obtain ⟨hfresh, hnew⟩ := hs.fresh pid request hp
      refine ⟨issued_step h hfresh, fun record hrecord => ?_⟩
      rcases assessments_step h hrecord with hold | ⟨pid', child, input, request', rfl, hp₂, hid⟩
      · exact hnew record hold
      · -- The record of another assessment has the id of that one.
        intro heq
        have hpid := hs.alone pid pid' request request' hp hp₂ (heq.symm.trans hid)
        exact hother input child (hpid ▸ rfl)
    · refine ⟨(hissues.issued _).mpr (.inl rfl), fun record hrecord heq => ?_⟩
      rcases assessments_step h hrecord with hold | ⟨_, _, _, _, hpoll, -⟩
      · exact hissues.new _ rfl (heq ▸ hs.intake.issued record hold)
      · cases hpoll
  alone := by
    intro pid pid' request request' hp hp' heq
    rcases assessing_step h hp with ⟨hold, -⟩ | ⟨ha, hissues⟩ <;>
      rcases assessing_step h hp' with ⟨hold', -⟩ | ⟨ha', hissues'⟩
    · exact hs.alone pid pid' request request' hold hold' heq
    · exact absurd (heq ▸ (hs.fresh pid request hold).1) (hissues'.new _ rfl)
    · exact absurd (heq ▸ (hs.fresh pid' request' hold').1) (hissues.new _ rfl)
    · rw [ha] at ha'
      cases ha'
      rfl

/-- The run lemma of `IntakeConsistent`. -/
theorem intakeConsistent_reachable {s : memoryTasks.State}
    (hs : memoryTasks.system.Reachable s) : IntakeConsistent s := by
  refine hs.induct (I := IntakeConsistent) ?_ ?_
  · rintro s rfl
    exact {
      capacity := Nat.zero_le _
      intake := .empty
      fresh := fun _ _ hp => nomatch hp
      alone := fun _ _ _ _ hp => nomatch hp }
  · exact fun _ _ _ _ ih _ h => intakeConsistent_step ih h

/-- In every reachable state the deque holds at most 1024 assessments, with distinct ids and at
most one for each subject and key, and an entry of an assessment names one with its subject, key
and request. So a replay finds its assessment, and while an assessment is stored no request with
its key creates another one. -/
theorem assessment_store (s : memoryTasks.State) (hs : memoryTasks.system.Reachable s) :
    s.shared.assessments.length ≤ 1024 ∧
    (s.shared.assessments.map AssessmentRecord.id).Nodup ∧
    (s.shared.assessments.map AssessmentRecord.pair).Nodup ∧
    (∀ subject key id requestJson,
      s.shared.idempotency (subject, key) = some (.assessment id requestJson) →
      ∃ record ∈ s.shared.assessments, record.id = id ∧ record.subject = subject ∧
        record.idempotencyKey = key ∧ record.submission.toValue = requestJson) ∧
    (∀ request timestamp,
      (createReadinessAssessment s.shared request timestamp).1 ≠ .error assessmentUnavailable) ∧
    ∀ kept ∈ s.shared.assessments, ∀ request timestamp,
      kept.pair = (request.subject, request.idempotencyKey) →
      (createReadinessAssessment s.shared request timestamp).2 = s.shared ∧
        ∀ record, (createReadinessAssessment s.shared request timestamp).1 = .ok record →
          record = kept := by
  -- Every clause is one of the invariant, or follows from it for a single call.
  have hconsistent := intakeConsistent_reachable hs
  have hintake := hconsistent.intake
  refine ⟨hconsistent.capacity, hintake.distinct, hintake.single, ?_, ?_, ?_⟩
  · intro subject key id requestJson hentry
    obtain ⟨record, hrecord, hid, hpair, hjson⟩ := hintake.named _ _ _ hentry
    exact ⟨record, hrecord, hid, congrArg Prod.fst hpair, congrArg Prod.snd hpair, hjson⟩
  · exact fun request timestamp => hintake.available timestamp
  · exact fun kept hkept request timestamp hpair => hintake.once timestamp hkept hpair

end

section

attribute [local instance] fixtureLib

/-- Two assessments under one key, the second answered with the first. -/
def testAssessments : List memoryTasks.Action :=
  [.arrive 0 (.assessing testAssessment), testPoll 0 9,
    .arrive 1 (.assessing { testAssessment with fresh := ⟨7⟩ }), testPoll 1 9]

/-- A run in which two requests with one pair and one payload arrive. One assessment is stored, and
the entry of the pair names it with its payload. -/
theorem assessment_store_test :
    ∃ s, memoryTasks.system.Reachable s ∧ s.shared.assessments.length = 1 ∧
      ∃ record ∈ s.shared.assessments, record.id = ⟨8⟩ ∧ record.subject = "customer-1" ∧
        record.submission.toValue = testAssessment.submission.toValue := by
  have hrun : (System.run memoryTasks.next memoryTasks.initial testAssessments).map (fun s =>
      decide (s.shared.assessments.length = 1) &&
        (s.shared.idempotency ("customer-1", "quote-key-0001")
          == some (.assessment ⟨8⟩ testAssessment.submission.toValue))) = some true := by
    decide
  obtain ⟨s, hs, hview⟩ := System.exists_reachable_of_run _ _ hrun
  rw [Bool.and_eq_true, decide_eq_true_eq, beq_iff_eq] at hview
  obtain ⟨hlength, hentry⟩ := hview
  obtain ⟨-, -, -, hnamed, -⟩ := assessment_store s hs
  obtain ⟨record, hrecord, hid, hsubject, -, hjson⟩ := hnamed _ _ _ _ hentry
  exact ⟨s, hs, hlength, record, hrecord, hid, hsubject, hjson⟩

end

end CanonicalApi
