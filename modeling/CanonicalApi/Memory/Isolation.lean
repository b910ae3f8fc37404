import CanonicalApi.EventStream
import CanonicalApi.Lib.Noninterference
import CanonicalApi.Listing
import CanonicalApi.Memory.Owners

/-!
# `CanonicalApi.Memory.Isolation`: owners do not see each other

All owners share the quotes, the idempotency map, the assessments and the channel of a replica
without a database. Every read path checks the owner by itself.

`AppState.Agree` says that two states are the same for one subject: its quotes, its entries, its
assessments, and the counter and the channel that all share. In states that agree the requests
of the subject have the same answers (`answersAlike_of_agree`), also those that take several
steps, whatever the others do between them. `Reserved` is the invariant behind the writes: an id
in an entry of a subject belongs to this subject, or it waits for the handler of this subject
that creates the quote.
-/

set_option autoImplicit false

namespace CanonicalApi

open Transition (System)
open Noninterference (Move Alike Together outcome)

section

variable [CanonicalLib]

/-! ### Requests that read -/

namespace AppState

/-- `get_quote` without a database. -/
def getQuote (state : AppState) (quoteId : Uuid) (subject : String) :
    Except ApiError QuoteDetail := do
  let record ← state.findQuote quoteId subject
  quoteDetail record

/-- `list_readiness_assessments`. -/
def listReadinessAssessments (state : AppState) (subject : String) : List AssessmentRecord :=
  state.assessments.reverse.filter fun record => record.subject = subject

/-- The quote with the id, when it belongs to the subject. -/
def ownQuote (state : AppState) (subject : String) (id : Uuid) : Option QuoteRecord :=
  (state.quotes id).filter fun record => record.ownerSubject = subject

/-- The assessments of the subject. -/
def ownAssessments (state : AppState) (subject : String) : List AssessmentRecord :=
  state.assessments.filter fun record => record.subject = subject

/-- Two states are the same for a subject. -/
structure Agree (subject : String) (state state' : AppState) : Prop where
  quotes : state.ownQuote subject = state'.ownQuote subject
  entries : ∀ key, state.idempotency (subject, key) = state'.idempotency (subject, key)
  assessments : state.ownAssessments subject = state'.ownAssessments subject
  sequence : state.nextEventSequence = state'.nextEventSequence
  events : state.events = state'.events

variable {state state' : AppState} {subject : String}

/-- `find_quote` sees the own quotes only. -/
theorem findQuote_eq (state : AppState) (quoteId : Uuid) (subject : String) :
    state.findQuote quoteId subject =
      Outcome.okOr (.notFound "not_found" "quote was not found")
        (state.ownQuote subject quoteId) := by
  unfold findQuote ownQuote
  cases state.quotes quoteId with
  | none => rfl
  | some record =>
    by_cases howner : record.ownerSubject = subject
    · simp [Option.filter, howner, Outcome.okOr]
    · simp [Option.filter, howner, Outcome.okOr]

/-- `find_assessment` sees the own assessments only. -/
theorem findAssessment_eq (state : AppState) (assessmentId : Uuid) (subject : String) :
    state.findAssessment assessmentId subject =
      Outcome.okOr (.notFound "not_found" "readiness assessment was not found")
        ((state.ownAssessments subject).find? fun record => record.id = assessmentId) := by
  have hfind : ((state.ownAssessments subject).find? fun record => record.id = assessmentId)
      = state.assessments.find? fun record =>
        record.id = assessmentId ∧ record.subject = subject := by
    rw [ownAssessments, List.find?_filter]
    congr 1
    funext record
    simp [and_comm]
  rw [hfind, findAssessment]

/-- The listing is the subject's own assessments, the newest first. -/
theorem listReadinessAssessments_eq (state : AppState) (subject : String) :
    state.listReadinessAssessments subject = (state.ownAssessments subject).reverse := by
  rw [listReadinessAssessments, ownAssessments, List.filter_reverse]

namespace Agree

/-- Stores that agree for a subject find the same quotes for it. -/
theorem findQuote (h : Agree subject state state') (quoteId : Uuid) :
    state.findQuote quoteId subject = state'.findQuote quoteId subject := by
  rw [findQuote_eq, findQuote_eq, h.quotes]

/-- Stores that agree for a subject give it the same details of a quote. -/
theorem getQuote (h : Agree subject state state') (quoteId : Uuid) :
    state.getQuote quoteId subject = state'.getQuote quoteId subject := by
  rw [AppState.getQuote, h.findQuote quoteId]
  rfl

/-- They find the same assessments for it. -/
theorem findAssessment (h : Agree subject state state') (assessmentId : Uuid) :
    state.findAssessment assessmentId subject = state'.findAssessment assessmentId subject := by
  rw [findAssessment_eq, findAssessment_eq, h.assessments]

/-- They list the same assessments for it. -/
theorem listReadinessAssessments (h : Agree subject state state') :
    state.listReadinessAssessments subject = state'.listReadinessAssessments subject := by
  rw [listReadinessAssessments_eq, listReadinessAssessments_eq, h.assessments]

/-- A page of the own quotes does not depend on the order of the map either. -/
theorem listQuotes [UuidCrate] (h : Agree subject state state')
    (hkeyed : ∀ id record, state.quotes id = some record → record.quoteId = id)
    {values values' : List QuoteRecord} (hvalues : Enumerates values state.quotes)
    (hvalues' : Enumerates values' state'.quotes) (query : QuoteListQuery) :
    listQuotesInMemory values subject query = listQuotesInMemory values' subject query := by
  have hown : Enumerates (memoryListing.own subject values) (state.ownQuote subject) :=
    hvalues.filter _
  have hown' : Enumerates (memoryListing.own subject values') (state.ownQuote subject) := by
    rw [h.quotes]
    exact hvalues'.filter _
  have hids : ((memoryListing.own subject values).map memoryListing.id).Nodup := by
    refine hown.nodup fun id record hrecord => ?_
    exact hkeyed id record (Option.filter_eq_some_iff.mp hrecord).1
  -- Equal rows with distinct keys are sorted to the same list, in whatever order they are
  -- enumerated.
  have hsorted : Pagination.descending memoryListing.key (memoryListing.own subject values)
      = Pagination.descending memoryListing.key (memoryListing.own subject values') :=
    Pagination.descending_perm (Listing.keys_nodup hids) (hown.perm hown')
  have hsame : (values.filter fun record => record.ownerSubject = subject).mergeSort
      (fun left right =>
        toLex (right.createdAt, right.quoteId) ≤ toLex (left.createdAt, left.quoteId))
      = (values'.filter fun record => record.ownerSubject = subject).mergeSort
      (fun left right =>
        toLex (right.createdAt, right.quoteId) ≤ toLex (left.createdAt, left.quoteId)) :=
    hsorted
  simp only [listQuotesInMemory, hsame]

/-! ### What a step of the subject does to states that agree -/

/-- Both states number the next event alike. -/
theorem memoryEvent (h : Agree subject state state') (record : QuoteRecord) :
    (state.memoryEvent record).1 = (state'.memoryEvent record).1 ∧
      Agree subject (state.memoryEvent record).2 (state'.memoryEvent record).2 := by
  constructor
  · simp only [AppState.memoryEvent, h.sequence]
  · exact { h with sequence := congrArg (· + 1) h.sequence }

/-- Storing one record keeps them in agreement, also when it is the record of another subject. -/
theorem insertQuote (h : Agree subject state state') (record : QuoteRecord) :
    Agree subject (state.insertQuote record) (state'.insertQuote record) where
  quotes := by
    funext id
    have hold : state.ownQuote subject id = state'.ownQuote subject id := congrFun h.quotes id
    simp only [ownQuote, AppState.insertQuote] at hold ⊢
    by_cases hid : id = record.quoteId
    · rw [hid, Function.update_self, Function.update_self]
    · rw [Function.update_of_ne hid, Function.update_of_ne hid, hold]
  entries := h.entries
  assessments := h.assessments
  sequence := h.sequence
  events := h.events

/-- One entry of the idempotency map, made in both, keeps them in agreement. -/
theorem insertOperation (h : Agree subject state state') (pair : String × String)
    (operation : MemoryOperation) :
    Agree subject (state.insertOperation pair operation)
      (state'.insertOperation pair operation) where
  quotes := h.quotes
  entries key := by
    show Function.update state.idempotency pair _ _ = Function.update state'.idempotency pair _ _
    by_cases hpair : (subject, key) = pair
    · rw [hpair, Function.update_self, Function.update_self]
    · rw [Function.update_of_ne hpair, Function.update_of_ne hpair, h.entries key]
  assessments := h.assessments
  sequence := h.sequence
  events := h.events

/-- One event, published in both, keeps them in agreement. -/
theorem publishEvent (h : Agree subject state state') (event : QuoteEventRecord) :
    Agree subject (state.publishEvent event) (state'.publishEvent event) :=
  { h with events := congrArg (· ++ [event]) h.events }

end Agree

end AppState

/-! ### Requests that take several steps -/

/-- `retry_quote` from one await point to the next. -/
def MutationRequest.step (request : MutationRequest) (state : AppState) (stage : HandlerStage)
    (input : MemoryInput) : Option (AppState × HandlerStage) :=
  match (MemoryTask.handler request stage).poll state input with
  | some (state, .handler _ stage, _) => some (state, stage)
  | _ => none

/-- `quote_events` and `stream_quote_events` from one await point to the next. -/
def streamStep (quoteId : Uuid) (subject : String) (s : memoryTasks.State) (stream : EventStream)
    (a : EventStream.Action memorySource) : Option (memoryTasks.State × EventStream) :=
  match a with
  | .outside _ => none
  | a => (EventStream.step memorySource quoteId subject { source := s, stream } a).map
      fun after => (after.source, after.stream)

section

variable {subject : String} {request : MutationRequest} {quoteId : Uuid}

/-- The first guard of a retry reads the own entry only. -/
theorem lookup_retry (hmutation : request.mutation = .retry quoteId) (state : AppState)
    (timestamp : Option String) :
    request.lookup state timestamp = (state,
      match state.idempotency request.pair with
      | some operation =>
          match request.replays operation with
          | some quoteId => .reading quoteId
          | none => .answered (.error idempotencyReused)
      | none => .checking) := by
  unfold MutationRequest.lookup
  cases state.idempotency request.pair with
  | none =>
    dsimp only
    rw [hmutation]
  | some operation =>
    dsimp only
    cases request.replays operation <;> rfl

/-- A retry in states that agree. -/
theorem retry_alike (hsubject : request.subject = subject)
    (hmutation : request.mutation = .retry quoteId) :
    Alike (AppState.Agree subject) (fun _ => True) request.step request.step := by
  intro state state' stage input hagree _
  cases input with
  | called outcome timestamp => cases stage <;> exact .none
  | resume timestamp =>
    cases stage with
    | lookup =>
      -- The entries of the subject are the same in both stores.
      have hentry : state.idempotency request.pair = state'.idempotency request.pair := by
        have hentries := hagree.entries request.idempotencyKey
        rw [← hsubject] at hentries
        exact hentries
      show Option.Rel _ (some (request.lookup state timestamp))
        (some (request.lookup state' timestamp))
      rw [lookup_retry hmutation, lookup_retry hmutation, hentry]
      exact .some ⟨hagree, rfl, trivial⟩
    | reading readId =>
      have hread : request.read state readId = request.read state' readId := by
        simp only [MutationRequest.read, hmutation, hsubject, hagree.findQuote readId]
      show Option.Rel _ (some (state, request.read state readId))
        (some (state', request.read state' readId))
      rw [hread]
      exact .some ⟨hagree, rfl, trivial⟩
    | checking =>
      have hstep : ∀ state, request.step state .checking (.resume timestamp)
          = some (request.check state quoteId timestamp) := by
        intro state
        simp only [MutationRequest.step, MemoryTask.poll, hmutation]
      rw [hstep, hstep]
      unfold MutationRequest.check
      -- So is what the subject finds.
      rw [hsubject, hagree.findQuote quoteId]
      cases state'.findQuote quoteId subject with
      | error error => exact .some ⟨hagree, rfl, trivial⟩
      | ok record =>
        dsimp only
        split
        · exact .some ⟨hagree, rfl, trivial⟩
        · cases timestamp with
          | none => exact .some ⟨hagree, rfl, trivial⟩
          | some updatedAt =>
            obtain ⟨hevent, hafter⟩ := hagree.memoryEvent
              { record with status := "queued", analysis := none, errorCode := none, updatedAt }
            exact .some ⟨hafter, congrArg (HandlerStage.claiming _) hevent, trivial⟩
    | claiming record event =>
      exact .some ⟨hagree.insertOperation request.pair (request.operation record), rfl, trivial⟩
    | storing record event =>
      -- The same record is stored in both.
      have hinsert := hagree.insertQuote record
      cases event with
      | none => exact .some ⟨hinsert, rfl, trivial⟩
      | some event => exact .some ⟨hinsert.publishEvent event, rfl, trivial⟩
    | answered result => exact .none

/-- The message for an event in states that agree. -/
theorem message_agree {s s' : memoryTasks.State} (h : s.shared.Agree subject s'.shared)
    (read : memorySource.Read) (event : QuoteEventRecord) :
    EventStream.message memorySource quoteId subject s read event
      = EventStream.message memorySource quoteId subject s' read event := by
  show (s.shared.findQuote quoteId subject >>= _) = (s'.shared.findQuote quoteId subject >>= _)
  rw [h.findQuote quoteId]

/-- A stream in states that agree. -/
theorem stream_alike :
    Alike (fun s s' => s.shared.Agree subject s'.shared) (fun _ => True)
      (streamStep quoteId subject) (streamStep quoteId subject) := by
  intro s s' stream a hagree _
  obtain ⟨stage, subscribed, next, lagged, received, greeting, messages⟩ := stream
  cases a with
  | outside _ => exact .none
  | find read =>
    cases stage with
    | connecting =>
      -- Both stores find the same quote for the subject.
      have hfind : memorySource.find s read quoteId subject
          = memorySource.find s' read quoteId subject := hagree.findQuote quoteId
      simp only [streamStep, EventStream.step]
      rw [hfind]
      cases memorySource.find s' read quoteId subject with
      | ok record => exact .some ⟨hagree, rfl, trivial⟩
      | error error => exact .some ⟨hagree, rfl, trivial⟩
    | _ => exact .none
  | noPermit =>
    cases stage with
    | found record => exact .some ⟨hagree, rfl, trivial⟩
    | _ => exact .none
  | latest read =>
    cases stage with
    | found record => exact .some ⟨hagree, rfl, trivial⟩
    | _ => exact .none
  | subscribe =>
    cases stage with
    | upgrading initial =>
      -- Both have published the same events, so the subscriptions start at one place.
      have hpublished : memorySource.published s = memorySource.published s' := hagree.events
      simp only [streamStep, EventStream.step]
      rw [hpublished]
      exact .some ⟨hagree, rfl, trivial⟩
    | _ => exact .none
  | greet read delivered =>
    cases stage with
    | greeting initial =>
      simp only [streamStep, EventStream.step]
      -- The message is projected from what the subject finds.
      rw [message_agree hagree read initial]
      cases EventStream.message memorySource quoteId subject s' read initial with
      | ok message => cases delivered <;> exact .some ⟨hagree, rfl, trivial⟩
      | error error => exact .some ⟨hagree, rfl, trivial⟩
    | _ => exact .none
  | recv =>
    cases stage with
    | waiting =>
      have hpublished : memorySource.published s = memorySource.published s' := hagree.events
      simp only [streamStep, EventStream.step]
      rw [hpublished]
      split
      · exact .some ⟨hagree, rfl, trivial⟩
      · exact .some ⟨hagree, rfl, trivial⟩
      · exact .none
    | _ => exact .none
  | send read delivered =>
    cases stage with
    | handling event =>
      simp only [streamStep, EventStream.step]
      rw [message_agree hagree read event]
      cases EventStream.message memorySource quoteId subject s' read event with
      | ok message => cases delivered <;> exact .some ⟨hagree, rfl, trivial⟩
      | error error => exact .some ⟨hagree, rfl, trivial⟩
    | _ => exact .none
  | close =>
    cases stage with
    | greeting _ => exact .some ⟨hagree, rfl, trivial⟩
    | waiting => exact .some ⟨hagree, rfl, trivial⟩
    | handling _ => exact .some ⟨hagree, rfl, trivial⟩
    | _ => exact .none

end

/-! ### Ids of others -/

/-- In a reachable state, one id is that of a quote of somebody else, and the other one that of no
quote. -/
structure AppState.Hides (subject : String) (foreign unknown : Uuid) (state : AppState) : Prop where
  reachable : ∃ s, memoryTasks.system.Reachable s ∧ s.shared = state
  foreign : ∃ record, state.quotes foreign = some record ∧ record.ownerSubject ≠ subject
  unknown : state.quotes unknown = none

namespace AppState.Hides

variable {subject : String} {foreign unknown : Uuid} {state : AppState}

/-- Neither quote is found. -/
theorem findQuote (h : state.Hides subject foreign unknown) :
    state.findQuote foreign subject = .error (.notFound "not_found" "quote was not found") ∧
      state.findQuote unknown subject = .error (.notFound "not_found" "quote was not found") := by
  obtain ⟨record, hrecord, howner⟩ := h.foreign
  constructor
  · rw [AppState.findQuote, hrecord]
    exact if_neg howner
  · rw [AppState.findQuote, h.unknown]

/-- The subject has retried neither quote. -/
theorem not_owned (h : state.Hides subject foreign unknown) :
    ¬ state.Owned foreign subject ∧ ¬ state.Owned unknown subject := by
  obtain ⟨record, hrecord, howner⟩ := h.foreign
  constructor
  · rintro ⟨stored, hstored, howner'⟩
    rw [hrecord] at hstored
    cases hstored
    exact howner howner'
  · rintro ⟨stored, hstored, -⟩
    rw [h.unknown] at hstored
    cases hstored

/-- The entries of the subject name neither the foreign id nor the unknown one. -/
theorem not_retried (h : state.Hides subject foreign unknown) (key : String) :
    state.idempotency (subject, key) ≠ some (.retry foreign) ∧
      state.idempotency (subject, key) ≠ some (.retry unknown) := by
  obtain ⟨s, hs, rfl⟩ := h.reachable
  have hretries := (ownersApart_reachable hs).retries (subject, key)
  exact ⟨fun hentry => h.not_owned.1 (hretries foreign hentry),
    fun hentry => h.not_owned.2 (hretries unknown hentry)⟩

/-- No own quote has one of the ids. -/
theorem not_listed (h : state.Hides subject foreign unknown) {values : List QuoteRecord}
    (hvalues : Enumerates values state.quotes) {record : QuoteRecord} (hrecord : record ∈ values)
    (howner : record.ownerSubject = subject) :
    record.quoteId ≠ foreign ∧ record.quoteId ≠ unknown := by
  obtain ⟨s, hs, rfl⟩ := h.reachable
  obtain ⟨id, hid⟩ := hvalues.mem.mp hrecord
  have hkey := (consistent_reachable hs).keyed id record hid
  constructor
  · rintro rfl
    exact h.not_owned.1 ⟨record, hkey ▸ hid, howner⟩
  · rintro rfl
    exact h.not_owned.2 ⟨record, hkey ▸ hid, howner⟩

end AppState.Hides

/-- A retry that has got no further than an error. -/
def HandlerStage.Misses (stage : HandlerStage) : Prop :=
  stage = .lookup ∨ stage = .checking ∨ ∃ error, stage = .answered (.error error)

/-- A stream that has got no further than an error. -/
def EventStream.Misses (stream : EventStream) : Prop :=
  stream.stage = .connecting ∨ ∃ error, stream.stage = .refused error

section

variable {subject : String} {foreign unknown : Uuid}

/-- An entry that is not a retry of the quote is in the way. -/
theorem replays_retry {request : MutationRequest} {operation : MemoryOperation} {quoteId : Uuid}
    (hmutation : request.mutation = .retry quoteId) (hother : operation ≠ .retry quoteId) :
    request.replays operation = none := by
  unfold MutationRequest.replays
  rw [hmutation]
  cases operation with
  | assessment _ _ => rfl
  | create _ _ => rfl
  | retry existing =>
    refine if_neg ?_
    rintro rfl
    exact hother rfl

/-- A retry of a foreign quote and one of an unknown quote. -/
theorem retry_hidden {request : MutationRequest} (hsubject : request.subject = subject)
    (hmutation : request.mutation = .retry foreign) :
    Alike (fun state state' => state = state' ∧ state.Hides subject foreign unknown)
      HandlerStage.Misses request.step
      { request with mutation := .retry unknown : MutationRequest }.step := by
  rintro state _ stage input ⟨rfl, hhides⟩ hmisses
  have hstay : ∀ {stage : HandlerStage}, stage.Misses →
      Option.Rel (Together (fun state state' => state = state' ∧
        state.Hides subject foreign unknown) HandlerStage.Misses) (some (state, stage))
        (some (state, stage)) :=
    fun h => .some ⟨⟨rfl, hhides⟩, rfl, h⟩
  cases input with
  | called outcome timestamp => cases stage <;> exact .none
  | resume timestamp =>
    rcases hmisses with rfl | rfl | ⟨error, rfl⟩
    · show Option.Rel _ (some (request.lookup state timestamp)) (some
        ({ request with mutation := .retry unknown : MutationRequest }.lookup state timestamp))
      rw [lookup_retry hmutation, lookup_retry rfl]
      have hpair : { request with mutation := .retry unknown : MutationRequest }.pair
          = request.pair := rfl
      rw [hpair]
      have hentry := hhides.not_retried request.idempotencyKey
      rw [← hsubject] at hentry
      cases hoperation : state.idempotency request.pair with
      | none => exact hstay (.inr (.inl rfl))
      | some operation =>
        -- The entry is no retry of either quote.
        have hforeign : operation ≠ .retry foreign := fun heq => hentry.1 (heq ▸ hoperation)
        have hunknown : operation ≠ .retry unknown := fun heq => hentry.2 (heq ▸ hoperation)
        dsimp only
        rw [replays_retry hmutation hforeign, replays_retry rfl hunknown]
        exact hstay (.inr (.inr ⟨_, rfl⟩))
    · obtain ⟨hforeign, hunknown⟩ := hhides.findQuote
      rw [← hsubject] at hforeign hunknown
      have hcheck : request.step state .checking (.resume timestamp)
          = some (request.check state foreign timestamp) := by
        simp only [MutationRequest.step, MemoryTask.poll, hmutation]
      rw [hcheck]
      show Option.Rel _ _ (some ({ request with mutation := .retry unknown :
        MutationRequest }.check state unknown timestamp))
      simp only [MutationRequest.check]
      rw [hforeign, hunknown]
      exact hstay (.inr (.inr ⟨_, rfl⟩))
    · exact .none

/-- A stream of a foreign quote and one of an unknown quote. -/
theorem stream_hidden :
    Alike (fun s s' => s = s' ∧ s.shared.Hides subject foreign unknown) EventStream.Misses
      (streamStep foreign subject) (streamStep unknown subject) := by
  rintro s _ stream a ⟨rfl, hhides⟩ hmisses
  obtain ⟨stage, subscribed, next, lagged, received, greeting, messages⟩ := stream
  rcases hmisses with hstage | ⟨error, hstage⟩
  · have hstage : stage = .connecting := hstage
    subst hstage
    cases a with
    -- The only move of a stream that connects: both ids are not found.
    | find read =>
      have hfind := hhides.findQuote
      have hforeign : memorySource.find s read foreign subject = .error _ := hfind.1
      have hunknown : memorySource.find s read unknown subject = .error _ := hfind.2
      simp only [streamStep, EventStream.step]
      rw [hforeign, hunknown]
      exact .some ⟨⟨rfl, hhides⟩, rfl, .inr ⟨_, rfl⟩⟩
    | _ => exact .none
  · have hstage : stage = .refused error := hstage
    subst hstage
    -- A refused stream makes no move.
    cases a <;> exact .none

end

/-! ### The answers to a subject -/

section

variable [UuidCrate]

/-- In both states every request of the subject has the same answer. The requests that take
several steps run among other moves, as long as these keep the states in agreement. -/
structure AnswersAlike (subject : String) (s s' : memoryTasks.State) : Prop where
  listQuotes : ∀ values values' query, Enumerates values s.shared.quotes →
    Enumerates values' s'.shared.quotes →
    listQuotesInMemory values subject query = listQuotesInMemory values' subject query
  getQuote : ∀ quoteId, s.shared.getQuote quoteId subject = s'.shared.getQuote quoteId subject
  retryQuote : ∀ (request : MutationRequest) quoteId moves moves', request.subject = subject →
    request.mutation = .retry quoteId →
    List.Forall₂ (Move.Agrees (AppState.Agree subject)) moves moves' →
    outcome request.step s.shared .lookup moves = outcome request.step s'.shared .lookup moves'
  quoteEvents : ∀ quoteId moves moves',
    List.Forall₂ (Move.Agrees fun s s' => s.shared.Agree subject s'.shared) moves moves' →
    outcome (streamStep quoteId subject) s {} moves
      = outcome (streamStep quoteId subject) s' {} moves'
  listReadinessAssessments :
    s.shared.listReadinessAssessments subject = s'.shared.listReadinessAssessments subject
  getReadinessAssessment : ∀ assessmentId,
    s.shared.findAssessment assessmentId subject = s'.shared.findAssessment assessmentId subject

/-- A foreign quote is answered like an unknown one, on each way in which a subject can ask for
it. The handlers with several polls are compared over every interleaving in which the store hides
both. -/
structure HiddenAlike (subject : String) (foreign unknown : Uuid) (s : memoryTasks.State) :
    Prop where
  listQuotes : ∀ values query query', Enumerates values s.shared.quotes →
    query'.limit = query.limit → query.parseCursor = .ok (some foreign) →
    query'.parseCursor = .ok (some unknown) →
    listQuotesInMemory values subject query = listQuotesInMemory values subject query'
  getQuote : s.shared.getQuote foreign subject = s.shared.getQuote unknown subject
  retryQuote : ∀ (request : MutationRequest) moves, request.subject = subject →
    request.mutation = .retry foreign →
    (∀ state, .outside state ∈ moves → state.Hides subject foreign unknown) →
    outcome request.step s.shared .lookup moves =
      outcome { request with mutation := .retry unknown : MutationRequest }.step s.shared .lookup
        moves
  quoteEvents : ∀ moves,
    (∀ s, .outside s ∈ moves → s.shared.Hides subject foreign unknown) →
    outcome (streamStep foreign subject) s {} moves
      = outcome (streamStep unknown subject) s {} moves

/-- In states that agree, the first one reachable, the answers are the same. -/
theorem answersAlike_of_agree {s s' : memoryTasks.State} {subject : String}
    (hs : memoryTasks.system.Reachable s) (h : s.shared.Agree subject s'.shared) :
    AnswersAlike subject s s' where
  listQuotes _ _ query hvalues hvalues' :=
    h.listQuotes (consistent_reachable hs).keyed hvalues hvalues' query
  getQuote quoteId := h.getQuote quoteId
  retryQuote _ _ _ _ hsubject hmutation hmoves :=
    (retry_alike hsubject hmutation).outcome hmoves h trivial
  quoteEvents _ _ _ hmoves := stream_alike.outcome hmoves h trivial
  listReadinessAssessments := h.listReadinessAssessments
  getReadinessAssessment assessmentId := h.findAssessment assessmentId

/-- A cursor that is no own quote has nothing behind it. -/
theorem listQuotes_unlisted {values : List QuoteRecord} {subject : String}
    {query : QuoteListQuery} {cursor : Uuid} (hcursor : query.parseCursor = .ok (some cursor))
    (hunlisted : ∀ record ∈ values, record.ownerSubject = subject → record.quoteId ≠ cursor) :
    listQuotesInMemory values subject query = quoteListResponse [] query.pageLimit := by
  -- The cursor is not among the sorted rows of this subject.
  have hnone : ((values.filter fun record => record.ownerSubject = subject).mergeSort
      fun left right =>
        toLex (right.createdAt, right.quoteId) ≤ toLex (left.createdAt, left.quoteId)).findIdx?
      (fun record => record.quoteId = cursor) = none := by
    rw [List.findIdx?_eq_none_iff]
    intro record hrecord
    rw [List.mem_mergeSort, List.mem_filter, decide_eq_true_eq] at hrecord
    exact decide_eq_false (hunlisted record hrecord.1 hrecord.2)
  rw [listQuotesInMemory, hcursor, Outcome.ok_bind]
  dsimp only
  rw [hnone]
  rfl

/-- The answers of `HiddenAlike`, from what the state hides. Each field is one handler. -/
theorem hiddenAlike_of_hides {s : memoryTasks.State} {subject : String} {foreign unknown : Uuid}
    (h : s.shared.Hides subject foreign unknown) : HiddenAlike subject foreign unknown s where
  listQuotes values query query' hvalues hlimit hforeign hunknown := by
    rw [listQuotes_unlisted hforeign fun _ hrecord howner =>
        (h.not_listed hvalues hrecord howner).1,
      listQuotes_unlisted hunknown fun _ hrecord howner =>
        (h.not_listed hvalues hrecord howner).2,
      QuoteListQuery.pageLimit, QuoteListQuery.pageLimit, hlimit]
  getQuote := by
    obtain ⟨hforeign, hunknown⟩ := h.findQuote
    rw [AppState.getQuote, AppState.getQuote, hforeign, hunknown]
  -- Both requests run side by side and end in the same answer.
  retryQuote _ _ hsubject hmutation hmoves :=
    (retry_hidden hsubject hmutation).outcome (Noninterference.agrees_self hmoves) ⟨rfl, h⟩
      (.inl rfl)
  quoteEvents _ hmoves :=
    stream_hidden.outcome (Noninterference.agrees_self
      (P := fun s : memoryTasks.State => s.shared.Hides subject foreign unknown) hmoves)
      ⟨rfl, h⟩ (.inl rfl)

omit [UuidCrate] in
/-- A foreign assessment is answered like an unknown one. -/
theorem findAssessment_hidden {s : memoryTasks.State} {subject : String}
    {foreign unknown : Uuid} (hs : memoryTasks.system.Reachable s)
    (hforeign : ∃ record ∈ s.shared.assessments, record.id = foreign ∧ record.subject ≠ subject)
    (hunknown : ∀ record ∈ s.shared.assessments, record.id ≠ unknown) :
    s.shared.findAssessment foreign subject = s.shared.findAssessment unknown subject := by
  have hmissing : ∀ {id : Uuid},
      (∀ record ∈ s.shared.assessments, record.id = id → record.subject ≠ subject) →
      (s.shared.assessments.find? fun record => record.id = id ∧ record.subject = subject)
        = none := by
    intro id hid
    rw [List.find?_eq_none]
    intro record hrecord
    simpa using hid record hrecord
  obtain ⟨other, hother, hid, hsubject⟩ := hforeign
  have hdistinct := (intakeConsistent_reachable hs).intake.distinct
  rw [AppState.findAssessment, AppState.findAssessment, hmissing, hmissing]
  · exact fun record hrecord heq => absurd heq (hunknown record hrecord)
  · -- Only one assessment has the id.
    intro record hrecord heq
    rw [List.inj_on_of_nodup_map hdistinct hrecord hother (heq.trans hid.symm)]
    exact hsubject

/-- Owners do not see each other. In every reachable state the answers to a subject do not change
when whatever belongs to others does, and an id of somebody else is answered like an unknown one.
A step for the subject leaves alone what belongs to others, except that a new assessment in a full
store removes the oldest one with its entry. -/
theorem owner_isolation (s : memoryTasks.State) (hs : memoryTasks.system.Reachable s)
    (subject : String) :
    (∀ s' : memoryTasks.State, s.shared.Agree subject s'.shared → AnswersAlike subject s s') ∧
    (∀ foreign unknown, (∃ record, s.shared.quotes foreign = some record ∧
        record.ownerSubject ≠ subject) → s.shared.quotes unknown = none →
      HiddenAlike subject foreign unknown s) ∧
    (∀ foreign unknown, (∃ record ∈ s.shared.assessments, record.id = foreign ∧
        record.subject ≠ subject) → (∀ record ∈ s.shared.assessments, record.id ≠ unknown) →
      s.shared.findAssessment foreign subject = s.shared.findAssessment unknown subject) ∧
    ∀ a s', memoryTasks.next s a = some s' → stepSubject? s a = some subject →
      Confined subject s s' := by
  -- The four parts are independent of each other.
  refine ⟨fun _ hagree => answersAlike_of_agree hs hagree, ?_, ?_, ?_⟩
  · intro foreign unknown hforeign hunknown
    exact hiddenAlike_of_hides ⟨⟨s, hs, rfl⟩, hforeign, hunknown⟩
  · exact fun foreign unknown => findAssessment_hidden hs
  · exact fun a s' h hsubject => confined_step hs h hsubject

end

end

section

attribute [local instance] fixtureLib hyphenatedUuids

/-- Another subject cannot tell the quote of `memoryCreate` from an unknown one, or from none at
all. -/
theorem owner_isolation_test :
    ∃ s, memoryTasks.system.Reachable s ∧
      HiddenAlike "customer-2" testQuote ⟨9⟩ s ∧
      AnswersAlike "customer-2" s { s with
        shared := { s.shared with quotes := Function.update s.shared.quotes testQuote none } } := by
  have hrun : (System.run memoryTasks.next memoryTasks.initial
      ((testAnalysis testOutcome).take 4)).map (fun s =>
        (s.shared.quotes testQuote).map QuoteRecord.ownerSubject == some "customer-1" &&
          (s.shared.quotes ⟨9⟩).isNone) = some true := by
    decide
  obtain ⟨s, hs, hview⟩ := System.exists_reachable_of_run _ _ hrun
  rw [Bool.and_eq_true, beq_iff_eq, Option.isNone_iff_eq_none] at hview
  obtain ⟨howner, hunknown⟩ := hview
  obtain ⟨record, hrecord, howner⟩ := Option.map_eq_some_iff.mp howner
  have hother : record.ownerSubject ≠ "customer-2" := by
    rw [howner]
    decide
  obtain ⟨hanswers, hhidden, -⟩ := owner_isolation s hs "customer-2"
  refine ⟨s, hs, hhidden testQuote ⟨9⟩ ⟨record, hrecord, hother⟩ hunknown, hanswers _ ?_⟩
  refine ⟨?_, fun _ => rfl, rfl, rfl, rfl⟩
  funext id
  show (s.shared.quotes id).filter _
    = (Function.update s.shared.quotes testQuote none id).filter _
  by_cases hid : id = testQuote
  · rw [hid, Function.update_self, hrecord]
    exact if_neg (by simpa using hother)
  · rw [Function.update_of_ne hid]

end

end CanonicalApi
