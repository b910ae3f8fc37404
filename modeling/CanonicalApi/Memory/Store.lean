import CanonicalApi.Quote.Handlers

/-!
# `CanonicalApi.Memory.Store`: the state of a replica without a database

`AppState` of `lib.rs`, as far as requests change it when there is no database, with the
operations on it that run under one guard. A `HashMap` is a function to `Option`, and the
broadcast channel is the list of what was sent on it.

`issued` collects the ids that `Uuid::new_v4` has given out. It only serves to say that a new
id is none of them.
-/

set_option autoImplicit false

namespace CanonicalApi

/-- `MemoryOperation`. -/
inductive MemoryOperation where
  | assessment (assessmentId : Uuid) (requestJson : JsonValue)
  | create (quoteId : Uuid) (requestJson : JsonValue)
  | retry (quoteId : Uuid)
deriving DecidableEq

/-- The quote of an operation on quotes. -/
def MemoryOperation.quoteId? : MemoryOperation → Option Uuid
  | assessment _ _ => none
  | create quoteId _ | retry quoteId => some quoteId

/-- The record of an operation. -/
def MemoryOperation.recordId : MemoryOperation → Uuid
  | assessment id _ | create id _ | retry id => id

/-- `AssessmentSubmission`. -/
structure AssessmentSubmission where
  frameworkIds : List String
  notes : Option String
  organization : String
deriving DecidableEq

/-- `AssessmentRecord`. The texts are those of the checked submission. -/
structure AssessmentRecord where
  frameworkIds : List String
  id : Uuid
  idempotencyKey : String
  notes : Option String
  organization : String
  receivedAt : String
  status : String
  subject : String
deriving DecidableEq

/-- `READINESS_ASSESSMENT_CAPACITY`. -/
def readinessAssessmentCapacity : Nat := 1024

/-- The error of `now_rfc3339`. -/
def timestampUnavailable : ApiError :=
  .serviceUnavailable "internal" "quote timestamp generation is temporarily unavailable"

section

variable [CanonicalLib]

/-- `AppState`, as far as the modelled handlers use it without a database. `issued` is not in the
source: it holds the ids that were drawn, so that a fresh one is new. `events` are those that were
sent on the channel. -/
structure AppState where
  assessments : List AssessmentRecord
  events : List QuoteEventRecord
  idempotency : String × String → Option MemoryOperation
  issued : List Uuid
  nextEventSequence : Nat
  quotes : Uuid → Option QuoteRecord

namespace AppState

/-- `AppState::new`. Events are numbered from 1. -/
def empty : AppState where
  assessments := []
  events := []
  idempotency _ := none
  issued := []
  nextEventSequence := 1
  quotes _ := none

/-- `memory_event`. It draws the number of the event; the event is published when its record is
stored. -/
def memoryEvent (state : AppState) (record : QuoteRecord) : QuoteEventRecord × AppState :=
  ({ ownerSubject := record.ownerSubject
     quoteId := record.quoteId
     sequence := state.nextEventSequence
     status := record.status
     occurredAt := record.updatedAt },
    { state with nextEventSequence := state.nextEventSequence + 1 })

/-- `state.quotes.write().await.insert`. -/
def insertQuote (state : AppState) (record : QuoteRecord) : AppState :=
  { state with quotes := Function.update state.quotes record.quoteId (some record) }

/-- `state.idempotency.write().await.insert`. -/
def insertOperation (state : AppState) (pair : String × String) (operation : MemoryOperation) :
    AppState :=
  { state with idempotency := Function.update state.idempotency pair (some operation) }

/-- `publish_event`. -/
def publishEvent (state : AppState) (event : QuoteEventRecord) : AppState :=
  { state with events := state.events ++ [event] }

/-- `find_quote` without a database. The quote of another subject is reported like a missing one. -/
def findQuote (state : AppState) (quoteId : Uuid) (subject : String) :
    Except ApiError QuoteRecord :=
  match state.quotes quoteId with
  | some record =>
      if record.ownerSubject = subject then .ok record
      else .error (.notFound "not_found" "quote was not found")
  | none => .error (.notFound "not_found" "quote was not found")

/-- A quote that is found is stored and belongs to the subject. -/
theorem findQuote_ok {state : AppState} {quoteId : Uuid} {subject : String}
    {record : QuoteRecord} (h : state.findQuote quoteId subject = .ok record) :
    state.quotes quoteId = some record ∧ record.ownerSubject = subject := by
  unfold findQuote at h
  split at h
  · next record' hrecord =>
    split at h
    · next howner =>
      cases h
      exact ⟨hrecord, howner⟩
    · cases h
  · cases h

/-- `find_assessment`. -/
def findAssessment (state : AppState) (assessmentId : Uuid) (subject : String) :
    Except ApiError AssessmentRecord :=
  Outcome.okOr (.notFound "not_found" "readiness assessment was not found")
    (state.assessments.find? fun record =>
      record.id = assessmentId ∧ record.subject = subject)

end AppState

/-! ### Readiness assessments -/

/-- A request of `create_readiness_assessment` after authentication and admission, with the
fresh id of its assessment. -/
structure AssessmentRequest where
  subject : String
  idempotencyKey : String
  submission : AssessmentSubmission
  fresh : Uuid

omit [CanonicalLib] in
/-- The normalized payload of an assessment. -/
def AssessmentSubmission.toValue (submission : AssessmentSubmission) : JsonValue :=
  .object [
    ("frameworkIds", .array (submission.frameworkIds.map .string)),
    ("notes", (submission.notes.map JsonValue.string).getD .null),
    ("organization", .string submission.organization)]

/-- The key of an evicted assessment still points at it. -/
def pointsAt (idempotency : String × String → Option MemoryOperation)
    (evicted : AssessmentRecord) : Bool :=
  match idempotency (evicted.subject, evicted.idempotencyKey) with
  | some (.assessment assessmentId _) => assessmentId = evicted.id
  | _ => false

/-- The idempotency map without the entry of an assessment that is evicted. -/
def evictOperation (idempotency : String × String → Option MemoryOperation)
    (evicted : AssessmentRecord) : String × String → Option MemoryOperation :=
  if pointsAt idempotency evicted then
    Function.update idempotency (evicted.subject, evicted.idempotencyKey) none
  else idempotency

/-- A new assessment, when its key is free. In a full store the oldest record makes room for it,
with its entry if that is still its own. -/
def AppState.insertAssessment (state : AppState) (record : AssessmentRecord)
    (requestJson : JsonValue) : AppState :=
  let state := state.insertOperation (record.subject, record.idempotencyKey)
    (.assessment record.id requestJson)
  match state.assessments with
  | evicted :: assessments =>
      if state.assessments.length ≥ readinessAssessmentCapacity then
        { state with
          idempotency := evictOperation state.idempotency evicted
          assessments := assessments ++ [record] }
      else { state with assessments := state.assessments ++ [record] }
  | [] => { state with assessments := [record] }

/-- `create_readiness_assessment`, from its write guard on. The guard is held to the end, so the
whole of it is one poll. The time is read after the lookup, and without one nothing is stored. -/
def createReadinessAssessment (state : AppState) (request : AssessmentRequest)
    (timestamp : Option String) : Except ApiError AssessmentRecord × AppState :=
  let requestJson := request.submission.toValue
  match state.idempotency (request.subject, request.idempotencyKey) with
  | some (.assessment assessmentId existing) =>
      if existing = requestJson then
        match state.findAssessment assessmentId request.subject with
        | .ok record => (.ok record, state)
        | .error _ => (.error (.serviceUnavailable "storage_unavailable"
            "readiness assessment storage is temporarily unavailable"), state)
      else (.error idempotencyReused, state)
  | some _ => (.error idempotencyReused, state)
  | none =>
      match timestamp with
      | none => (.error timestampUnavailable, state)
      | some receivedAt =>
          let record : AssessmentRecord := {
            frameworkIds := request.submission.frameworkIds
            id := request.fresh
            idempotencyKey := request.idempotencyKey
            notes := request.submission.notes
            organization := request.submission.organization
            receivedAt
            status := "received"
            subject := request.subject }
          (.ok record, state.insertAssessment record requestJson)

/-- The record of a new assessment. Its status never changes afterwards. -/
def AssessmentRequest.record (request : AssessmentRequest) (receivedAt : String) :
    AssessmentRecord where
  frameworkIds := request.submission.frameworkIds
  id := request.fresh
  idempotencyKey := request.idempotencyKey
  notes := request.submission.notes
  organization := request.submission.organization
  receivedAt
  status := "received"
  subject := request.subject

/-- An assessment leaves the quotes and their entries in the idempotency map alone: it changes
only entries of assessments and takes only free keys. -/
structure KeepsQuotes (state state' : AppState) : Prop where
  quotes : state'.quotes = state.quotes
  issued : state'.issued = state.issued
  operations : ∀ pair operation quoteId, operation.quoteId? = some quoteId →
    (state'.idempotency pair = some operation ↔ state.idempotency pair = some operation)

omit [CanonicalLib] in
/-- An eviction removes no entry of a quote. -/
theorem evictOperation_iff {idempotency : String × String → Option MemoryOperation}
    {evicted : AssessmentRecord} {pair : String × String} {operation : MemoryOperation}
    {quoteId : Uuid} (h : operation.quoteId? = some quoteId) :
    evictOperation idempotency evicted pair = some operation ↔
      idempotency pair = some operation := by
  unfold evictOperation
  split
  · next hpoints =>
    by_cases hpair : pair = (evicted.subject, evicted.idempotencyKey)
    · subst hpair
      rw [Function.update_self]
      constructor
      · intro hnone
        cases hnone
      · intro hsome
        rw [pointsAt, hsome] at hpoints
        cases operation with
        | assessment _ _ => cases h
        | create _ _ => cases hpoints
        | retry _ => cases hpoints
    · rw [Function.update_of_ne hpair]
  · rfl

namespace AppState

omit [CanonicalLib] in
/-- An eviction removes the entry of the evicted assessment and no other one. -/
theorem evictOperation_eq_some_iff {idempotency : String × String → Option MemoryOperation}
    {evicted : AssessmentRecord} {pair : String × String} {operation : MemoryOperation} :
    evictOperation idempotency evicted pair = some operation ↔
      idempotency pair = some operation ∧
        ¬ (pair = (evicted.subject, evicted.idempotencyKey) ∧
          ∃ requestJson, operation = .assessment evicted.id requestJson) := by
  -- The entry is removed only if it names the evicted record.
  have hpoints : pointsAt idempotency evicted = true ↔ ∃ requestJson,
      idempotency (evicted.subject, evicted.idempotencyKey) =
        some (.assessment evicted.id requestJson) := by
    unfold pointsAt
    split
    · next id requestJson hentry => simp [hentry]
    · next hother => simpa using fun requestJson hentry => hother _ _ hentry
  -- Every other pair keeps its entry.
  by_cases hpair : pair = (evicted.subject, evicted.idempotencyKey)
  · subst hpair
    by_cases hentry : pointsAt idempotency evicted = true
    · obtain ⟨requestJson, hentry'⟩ := hpoints.mp hentry
      rw [evictOperation, if_pos hentry, Function.update_self, hentry']
      refine iff_of_false nofun ?_
      rintro ⟨⟨⟩, hnot⟩
      exact hnot ⟨rfl, requestJson, rfl⟩
    · rw [evictOperation, if_neg hentry]
      refine (and_iff_left_of_imp fun hsome => ?_).symm
      rintro ⟨-, requestJson, rfl⟩
      exact hentry (hpoints.mpr ⟨requestJson, hsome⟩)
  · have hsame : evictOperation idempotency evicted pair = idempotency pair := by
      unfold evictOperation
      split
      · exact Function.update_of_ne hpair _ _
      · rfl
    rw [hsame]
    exact (and_iff_left fun h => hpair h.1).symm

/-- A new assessment with its entry. -/
def addAssessment (state : AppState) (record : AssessmentRecord) (requestJson : JsonValue) :
    AppState :=
  { state.insertOperation (record.subject, record.idempotencyKey)
      (.assessment record.id requestJson) with
    assessments := state.assessments ++ [record] }

/-- The oldest assessment is removed, with its entry if the entry is its own. -/
def evictOldest (state : AppState) : AppState :=
  match state.assessments with
  | evicted :: assessments =>
      { state with
        idempotency := evictOperation state.idempotency evicted
        assessments }
  | [] => state

/-- An assessment is added, and when the store was full the oldest one is evicted. -/
theorem insertAssessment_eq (state : AppState) (record : AssessmentRecord)
    (requestJson : JsonValue) :
    state.insertAssessment record requestJson =
      if state.assessments.length ≥ readinessAssessmentCapacity then
        (state.addAssessment record requestJson).evictOldest
      else state.addAssessment record requestJson := by
  unfold insertAssessment addAssessment evictOldest insertOperation
  cases state.assessments <;> rfl

end AppState

/-- A new assessment takes a free key. -/
theorem insertAssessment_keepsQuotes {state : AppState} {record : AssessmentRecord}
    {requestJson : JsonValue}
    (hfree : state.idempotency (record.subject, record.idempotencyKey) = none) :
    KeepsQuotes state (state.insertAssessment record requestJson) := by
  have hinsert : ∀ pair operation quoteId, operation.quoteId? = some quoteId →
      ((state.insertOperation (record.subject, record.idempotencyKey)
        (.assessment record.id requestJson)).idempotency pair = some operation ↔
          state.idempotency pair = some operation) := by
    intro pair operation quoteId hquote
    by_cases hpair : pair = (record.subject, record.idempotencyKey)
    · subst hpair
      show Function.update state.idempotency _ _ _ = _ ↔ _
      rw [Function.update_self, hfree]
      constructor
      · intro hsome
        cases hsome
        cases hquote
      · intro hnone
        cases hnone
    · show Function.update state.idempotency _ _ _ = _ ↔ _
      rw [Function.update_of_ne hpair]
  unfold AppState.insertAssessment
  dsimp only
  split
  · split
    · refine ⟨rfl, rfl, fun pair operation quoteId hquote => ?_⟩
      exact (evictOperation_iff hquote).trans (hinsert pair operation quoteId hquote)
    · exact ⟨rfl, rfl, hinsert⟩
  · exact ⟨rfl, rfl, hinsert⟩

/-- An assessment leaves the quotes and their entries alone. Only the entry under its own key,
which was free or an assessment's, changes. -/
theorem createReadinessAssessment_keepsQuotes (state : AppState) (request : AssessmentRequest)
    (timestamp : Option String) :
    KeepsQuotes state (createReadinessAssessment state request timestamp).2 := by
  have hsame : KeepsQuotes state state := ⟨rfl, rfl, fun _ _ _ _ => Iff.rfl⟩
  unfold createReadinessAssessment
  dsimp only
  split
  · split
    · split
      · exact hsame
      · exact hsame
    · exact hsame
  · exact hsame
  · next hfree =>
    split
    · exact hsame
    · exact insertAssessment_keepsQuotes hfree

end

end CanonicalApi
