import CanonicalApi.Gemini.Boundaries
import CanonicalApi.Memory.Assessments
import CanonicalApi.Memory.Sequences
import CanonicalApi.Quote.EventLog
import CanonicalApi.Webhook.Dispatch

/-!
# `CanonicalApi.Webhook.Feed`: the events that are delivered, and their ids

An `EventFeed` publishes the events that `publish_event` and `publish_assessment_event` hand to the
webhook, one after the other. It carries a proof that an event is known by its webhook id.
`memoryFeed` is a replica without a database, where the numbers of quote events are drawn from a
counter. `databaseFeed` publishes committed events of quotes, in any order and any number of times,
which covers several replicas on one database; their numbers are drawn from the identity sequence.
With a database the assessments are still in the memory of the replicas, and all that is used of
them is that their ids are new.

`Issued` is the invariant behind the ids: the published events are quote events of the feed's own
record and events of different assessments.
-/

set_option autoImplicit false

namespace CanonicalApi

open Transaction
open Transition (System)
open JsonValue (digits_injective)

/-! ### Ids -/

/-- A UUID has no colon. -/
theorem colon_not_mem_toText (id : Uuid) : ':' ∉ id.toText.toList := by
  have hhex : ∀ n < 16, JsonValue.hexDigit n ≠ ':' := by decide
  intro hmem
  rcases mem_toText hmem with hdigit | hhyphen
  · obtain ⟨i, -, hcolon⟩ := List.mem_map.mp hdigit
    exact hhex _ (Nat.mod_lt _ (by decide)) hcolon
  · cases hhyphen

/-- The id of a webhook determines the quote and the number of its event. -/
theorem quoteEventId_injective {quoteId quoteId' : Uuid} {sequence sequence' : Nat}
    (h : WebhookEvent.quoteEventId quoteId sequence =
      WebhookEvent.quoteEventId quoteId' sequence') :
    quoteId = quoteId' ∧ sequence = sequence' := by
  have hlist := congrArg String.toList h
  simp only [WebhookEvent.quoteEventId, String.toList_append, List.append_assoc] at hlist
  have hrest := List.append_cancel_left hlist
  have hcolon : (":" : String).toList = [':'] := rfl
  rw [hcolon, List.singleton_append, List.singleton_append] at hrest
  obtain ⟨hid, hnumber⟩ := append_separator_injective (colon_not_mem_toText quoteId)
    (colon_not_mem_toText quoteId') hrest
  refine ⟨toText_injective hid, digits_injective ?_⟩
  rwa [Nat.toString_eq_repr, Nat.toString_eq_repr, Nat.toList_repr, Nat.toList_repr] at hnumber

/-- The id of a webhook determines the assessment of its event. -/
theorem ofAssessment_id_injective {assessment assessment' : AssessmentEventRecord}
    (h : (WebhookEvent.ofAssessment assessment).id = (WebhookEvent.ofAssessment assessment').id) :
    assessment.assessmentId = assessment'.assessmentId := by
  have hlist := congrArg String.toList h
  simp only [WebhookEvent.ofAssessment, String.toList_append] at hlist
  exact toText_injective (List.append_cancel_left hlist)

/-- The id of a quote event is not one of an assessment event. -/
theorem ofQuote_id_ne_ofAssessment (event : QuoteEventRecord)
    (assessment : AssessmentEventRecord) :
    (WebhookEvent.ofQuote event).id ≠ (WebhookEvent.ofAssessment assessment).id := by
  intro h
  have hlist := congrArg String.toList h
  simp only [WebhookEvent.ofQuote, WebhookEvent.ofAssessment, WebhookEvent.quoteEventId,
    String.toList_append, List.append_assoc] at hlist
  -- They differ in the first letter.
  have hhead := congrArg List.head? hlist
  rw [List.head?_append_of_ne_nil _ (by decide), List.head?_append_of_ne_nil _ (by decide)] at hhead
  exact absurd hhead (by decide)

/-! ### Feeds -/

/-- A source of events. An event is known by its id: `keyed` says that no two published events share
one, and this is what lets a receiver drop repetitions. -/
structure EventFeed where
  State : Type
  Action : Type
  start : State
  next : State → Action → Option State
  published : State → List WebhookEvent
  grows : ∀ {s a s'}, next s a = some s' → published s <+: published s'
  keyed : ∀ {s}, (System.ofFun start next).Reachable s →
    ∀ event ∈ published s, ∀ event' ∈ published s, event.id = event'.id → event = event'

/-- The published events: those of quotes that `quotes` records, and those of `assessments`. -/
structure Issued (quotes : QuoteEventRecord → Prop) (published : List WebhookEvent)
    (assessments : List AssessmentEventRecord) : Prop where
  genuine : ∀ event ∈ published, (∃ quote, quotes quote ∧ event = .ofQuote quote) ∨
    ∃ assessment ∈ assessments, event = .ofAssessment assessment
  delivered : ∀ assessment ∈ assessments, WebhookEvent.ofAssessment assessment ∈ published
  distinct : (assessments.map AssessmentEventRecord.assessmentId).Nodup

namespace Issued

variable {quotes quotes' : QuoteEventRecord → Prop} {published : List WebhookEvent}
  {assessments : List AssessmentEventRecord}

/-- Nothing is published. -/
theorem start (quotes : QuoteEventRecord → Prop) : Issued quotes [] [] where
  genuine event hevent := by cases hevent
  delivered assessment hassessment := by cases hassessment
  distinct := .nil

/-- The record of the quotes may grow. -/
theorem mono (h : Issued quotes published assessments)
    (hsub : ∀ quote, quotes quote → quotes' quote) : Issued quotes' published assessments where
  genuine event hevent := by
    rcases h.genuine event hevent with ⟨quote, hquote, heq⟩ | hassessment
    · exact .inl ⟨quote, hsub quote hquote, heq⟩
    · exact .inr hassessment
  delivered := h.delivered
  distinct := h.distinct

/-- Events of quotes are published. -/
theorem quote (h : Issued quotes published assessments) {events : List QuoteEventRecord}
    (hevents : ∀ event ∈ events, quotes event) :
    Issued quotes (published ++ events.map .ofQuote) assessments where
  genuine event hevent := by
    rcases List.mem_append.mp hevent with hevent | hevent
    · exact h.genuine event hevent
    · obtain ⟨quote, hquote, rfl⟩ := List.mem_map.mp hevent
      exact .inl ⟨quote, hevents quote hquote, rfl⟩
  delivered assessment hassessment :=
    List.mem_append_left _ (h.delivered assessment hassessment)
  distinct := h.distinct

/-- The event of a new assessment is published. -/
theorem assess (h : Issued quotes published assessments) {assessment : AssessmentEventRecord}
    (hnew : ∀ old ∈ assessments, old.assessmentId ≠ assessment.assessmentId) :
    Issued quotes (published ++ [.ofAssessment assessment]) (assessments ++ [assessment]) where
  genuine event hevent := by
    rcases List.mem_append.mp hevent with hevent | hevent
    · rcases h.genuine event hevent with hquote | ⟨old, hold, heq⟩
      · exact .inl hquote
      · exact .inr ⟨old, List.mem_append_left _ hold, heq⟩
    · exact .inr ⟨assessment, List.mem_append_right _ (List.mem_singleton_self _),
        List.mem_singleton.mp hevent⟩
  -- The event of the new record is published at the end.
  delivered old hold := by
    rcases List.mem_append.mp hold with hold | hold
    · exact List.mem_append_left _ (h.delivered old hold)
    · rw [List.mem_singleton.mp hold]
      exact List.mem_append_right _ (List.mem_singleton_self _)
  distinct := by
    rw [List.map_append, List.map_singleton, List.nodup_append_comm, List.singleton_append,
      List.nodup_cons]
    refine ⟨?_, h.distinct⟩
    intro hmem
    obtain ⟨old, hold, hid⟩ := List.mem_map.mp hmem
    exact hnew old hold hid

/-- A published event is known by its id, if an event of a quote is known by its number. -/
theorem keyed (h : Issued quotes published assessments)
    (hquotes : ∀ quote quote', quotes quote → quotes quote' → quote.quoteId = quote'.quoteId →
      quote.sequence = quote'.sequence → quote = quote') :
    ∀ event ∈ published, ∀ event' ∈ published, event.id = event'.id → event = event' := by
  intro event hevent event' hevent' hid
  rcases h.genuine event hevent with ⟨quote, hquote, rfl⟩ | ⟨assessment, hassessment, rfl⟩
  · rcases h.genuine event' hevent' with ⟨quote', hquote', rfl⟩ | ⟨assessment', -, rfl⟩
    · obtain ⟨hsame, hsequence⟩ := quoteEventId_injective hid
      rw [hquotes quote quote' hquote hquote' hsame hsequence]
    · exact absurd hid (ofQuote_id_ne_ofAssessment quote assessment')
  · rcases h.genuine event' hevent' with ⟨quote', -, rfl⟩ | ⟨assessment', hassessment', rfl⟩
    · exact absurd hid.symm (ofQuote_id_ne_ofAssessment quote' assessment)
    · rw [List.inj_on_of_nodup_map h.distinct hassessment hassessment'
        (ofAssessment_id_injective hid)]

end Issued

section

variable [CanonicalLib]

/-! ### Without a database -/

/-- The event that the poll of an assessment publishes: one for each record that it stores. A replay
and a refusal publish nothing. -/
def assessmentEvent? (s : memoryTasks.State) : memoryTasks.Action → Option AssessmentEventRecord
  | .poll pid (.resume (some receivedAt)) _ =>
      match s.tasks pid with
      | some (.assessing request) =>
          if (s.shared.idempotency (request.subject, request.idempotencyKey)).isNone then
            some {
              assessmentId := request.fresh
              frameworkIds := request.submission.frameworkIds
              occurredAt := receivedAt
              status := "received" }
          else none
      | _ => none
  | _ => none

/-- The record of the published events after a step. -/
def notePublished (published : List WebhookEvent) (s : memoryTasks.State)
    (a : memoryTasks.Action) (s' : memoryTasks.State) : List WebhookEvent :=
  published ++ (s'.shared.events.drop s.shared.events.length).map .ofQuote ++
    ((assessmentEvent? s a).map .ofAssessment).toList

/-- Only the poll of a waiting assessment publishes the event of one. -/
theorem assessmentEvent?_eq_some {s : memoryTasks.State} {a : memoryTasks.Action}
    {event : AssessmentEventRecord} (h : assessmentEvent? s a = some event) :
    ∃ pid input child request, a = .poll pid input child ∧
      s.tasks pid = some (.assessing request) ∧ event.assessmentId = request.fresh := by
  unfold assessmentEvent? at h
  split at h
  · next pid receivedAt child =>
    split at h
    · next request hp =>
      split at h
      · cases h
        exact ⟨pid, _, child, request, rfl, hp, rfl⟩
      · cases h
    · cases h
  · cases h

/-- What holds of the published events in every run of a replica without a database. -/
structure MemoryPublished (s : memoryTasks.State) (published : List WebhookEvent)
    (assessments : List AssessmentEventRecord) : Prop where
  issued : Issued (· ∈ s.shared.events) published assessments
  /-- The id of an assessment is not given to another one. -/
  spent : ∀ assessment ∈ assessments, assessment.assessmentId ∈ s.shared.issued ∧
    ∀ pid request, s.tasks pid = some (.assessing request) →
      request.fresh ≠ assessment.assessmentId

/-- A step keeps the ids apart. -/
theorem MemoryPublished.step {s s' : memoryTasks.State} {a : memoryTasks.Action}
    {published : List WebhookEvent} {assessments : List AssessmentEventRecord}
    (h : MemoryPublished s published assessments) (hs : memoryTasks.system.Reachable s)
    (hnext : memoryTasks.next s a = some s') :
    MemoryPublished s' (notePublished published s a s')
      (assessments ++ (assessmentEvent? s a).toList) := by
  have hgrows := events_of_next hnext
  have hconsistent := intakeConsistent_reachable hs
  have hquotes : Issued (· ∈ s'.shared.events)
      (published ++ (s'.shared.events.drop s.shared.events.length).map .ofQuote) assessments :=
    (h.issued.mono fun _ hquote => hgrows.subset hquote).quote fun _ hevent =>
      List.mem_of_mem_drop hevent
  -- An assessment whose event was published does not wait.
  have hspent : ∀ assessment ∈ assessments, assessment.assessmentId ∈ s'.shared.issued ∧
      ∀ pid request, s'.tasks pid = some (.assessing request) →
        request.fresh ≠ assessment.assessmentId := by
    intro assessment hassessment
    obtain ⟨hissued, hwaiting⟩ := h.spent assessment hassessment
    refine ⟨issued_step hnext hissued, fun pid request hp => ?_⟩
    rcases assessing_step hnext hp with ⟨hp, -⟩ | ⟨-, hissues⟩
    · exact hwaiting pid request hp
    · intro heq
      exact hissues.new _ rfl (heq ▸ hissued)
  unfold notePublished
  cases hevent : assessmentEvent? s a with
  | none =>
    show MemoryPublished s' (_ ++ []) (assessments ++ [])
    rw [List.append_nil, List.append_nil]
    exact ⟨hquotes, hspent⟩
  | some event =>
    obtain ⟨pid, input, child, request, rfl, hp, hid⟩ := assessmentEvent?_eq_some hevent
    refine ⟨hquotes.assess fun old hold heq => ?_, ?_⟩
    · exact (h.spent old hold).2 pid request hp (hid.symm.trans heq.symm)
    · intro assessment hassessment
      rcases List.mem_append.mp hassessment with hassessment | hassessment
      · exact hspent assessment hassessment
      · rw [List.mem_singleton.mp hassessment, hid]
        refine ⟨issued_step hnext (hconsistent.fresh pid request hp).1, ?_⟩
        intro pid' request' hp' heq
        rcases assessing_step hnext hp' with ⟨hp', hother⟩ | ⟨harrives, -⟩
        · exact hother input child
            (by rw [hconsistent.alone pid pid' request request' hp hp' heq.symm])
        · cases harrives

/-- In every run the published events are known by their ids. -/
theorem memoryPublished_of_reachable {p : memoryTasks.State × List WebhookEvent}
    (h : (System.ofFun (memoryTasks.initial, [])
      (System.record memoryTasks.next notePublished)).Reachable p) :
    memoryTasks.system.Reachable p.1 ∧ ∃ assessments, MemoryPublished p.1 p.2 assessments := by
  refine System.ReachableWith.induct (I := fun p => memoryTasks.system.Reachable p.1 ∧
    ∃ assessments, MemoryPublished p.1 p.2 assessments) ?_ ?_ h
  · intro p hp
    obtain rfl := hp
    exact ⟨.init rfl, [], .start _, fun _ hassessment => absurd hassessment List.not_mem_nil⟩
  · intro p a p' _ hp _ hstep
    obtain ⟨s', hnext, rfl⟩ := Option.map_eq_some_iff.mp hstep
    obtain ⟨hreachable, assessments, hpublished⟩ := hp
    exact ⟨.step hreachable trivial hnext, _, hpublished.step hreachable hnext⟩

/-- A replica without a database. An event is published by the poll that stores its record. -/
def memoryFeed : EventFeed where
  State := memoryTasks.State × List WebhookEvent
  Action := memoryTasks.Action
  start := (memoryTasks.initial, [])
  next := System.record memoryTasks.next notePublished
  published p := p.2
  grows h := by
    obtain ⟨s', -, rfl⟩ := Option.map_eq_some_iff.mp h
    exact (List.prefix_append _ _).trans (List.prefix_append _ _)
  keyed h := by
    obtain ⟨hreachable, assessments, hpublished⟩ := memoryPublished_of_reachable h
    exact hpublished.issued.keyed fun _ _ hquote hquote' _ hsequence =>
      event_of_sequence hreachable hquote hquote' hsequence

/-! ### With a database -/

variable [Postgres]

/-- A step of replicas on a database: a step of the database, the publication of an event of a
quote, or that of an assessment. -/
inductive DatabaseAction where
  | database (a : quoteService.Action)
  | quote (event : QuoteEventRecord)
  | assessment (event : AssessmentEventRecord)

/-- The event of the quote is committed. -/
def Committed (q : quoteService.State × LogRecord) (event : QuoteEventRecord) : Prop :=
  ∃ row ∈ q.1.db (.events event.quoteId), eventFromRow row = .ok event

/-- A number that the database draws comes from the identity sequence, an event of a quote is
published when it is committed, and the id of an assessment is new. -/
def databaseStep (p : (quoteService.State × LogRecord) × List WebhookEvent) :
    DatabaseAction → Option ((quoteService.State × LogRecord) × List WebhookEvent)
  | .database a =>
      (System.guarded DrawsNext (System.record quoteService.next LogRecord.note) p.1 a).map
        fun q => (q, p.2)
  | .quote event =>
      if (p.1.1.db (.events event.quoteId)).any fun row => eventFromRow row == .ok event then
        some (p.1, p.2 ++ [.ofQuote event])
      else none
  | .assessment event =>
      if p.2.any fun old => old.id = (WebhookEvent.ofAssessment event).id then none
      else some (p.1, p.2 ++ [.ofAssessment event])

/-- The committed events of a quote are kept. -/
theorem events_extend {q q' : quoteService.State × LogRecord} {a : quoteService.Action}
    (hq : eventLog.ReachableWith DrawsNext q) (hstep : eventLog.step q a q') (id : Uuid) :
    q.1.db (.events id) <+: q'.1.db (.events id) := by
  have hrefines := Service.interleaved_refines_atomic quoteService_disciplined
  have hs : quoteService.interleaved.Reachable q.1 :=
    System.reachable_of_recording hq.reachable
  have hlifecycle := lifecycle_reachable (hrefines.reachable hs)
  have hatomic := hrefines.step q.1 a q'.1 hs hstep.1
  rcases step_logged hlifecycle hatomic with hsame | ⟨row, event, hlog⟩
  · have hevents : q'.1.db (.events id) = q.1.db (.events id) := (hsame id).2
    rw [hevents]
  · by_cases hid : id = row.id
    · subst hid
      have hevents : q'.1.db (.events row.id) = q.1.db (.events row.id) ++ [event] := hlog.appended
      rw [hevents]
      exact List.prefix_append _ _
    · have hevents : q'.1.db (.events id) = q.1.db (.events id) := (hlog.others id hid).2
      rw [hevents]

/-- A step keeps the published events committed and the ids apart. -/
theorem issued_databaseStep {p p' : (quoteService.State × LogRecord) × List WebhookEvent}
    {assessments : List AssessmentEventRecord} {a : DatabaseAction}
    (hq : eventLog.ReachableWith DrawsNext p.1)
    (h : Issued (Committed p.1) p.2 assessments) (hstep : databaseStep p a = some p') :
    eventLog.ReachableWith DrawsNext p'.1 ∧
      ∃ assessments', Issued (Committed p'.1) p'.2 assessments' := by
  obtain ⟨q, published⟩ := p
  cases a with
  -- A step of the database publishes nothing, and the events that it had stay.
  | database a =>
    obtain ⟨q', hguarded, rfl⟩ := Option.map_eq_some_iff.mp hstep
    unfold System.guarded at hguarded
    split at hguarded
    · next hdraws =>
      obtain ⟨s', hnext, rfl⟩ := Option.map_eq_some_iff.mp hguarded
      have hlogged : eventLog.step q a (s', LogRecord.note q.2 q.1 a s') := ⟨hnext, rfl⟩
      refine ⟨.step hq hdraws hlogged, assessments, h.mono fun event hcommitted => ?_⟩
      obtain ⟨row, hrow, hparse⟩ := hcommitted
      exact ⟨row, (events_extend hq hlogged event.quoteId).subset hrow, hparse⟩
    · cases hguarded
  -- A quote event is published only if its row is committed.
  | quote event =>
    rw [databaseStep, Option.ite_none_right_eq_some] at hstep
    obtain ⟨hany, hstep⟩ := hstep
    obtain rfl := Option.some.inj hstep
    obtain ⟨row, hrow, hparse⟩ := List.any_eq_true.mp hany
    refine ⟨hq, assessments, ?_⟩
    show Issued _ (published ++ [event].map .ofQuote) _
    apply h.quote
    intro event' hevent'
    rw [List.mem_singleton.mp hevent']
    exact ⟨row, hrow, beq_iff_eq.mp hparse⟩
  -- An assessment event is published once.
  | assessment event =>
    rw [databaseStep, Option.ite_none_left_eq_some] at hstep
    obtain ⟨hnone, hstep⟩ := hstep
    obtain rfl := Option.some.inj hstep
    refine ⟨hq, assessments ++ [event], h.assess fun old hold heq => hnone ?_⟩
    refine List.any_eq_true.mpr ⟨_, h.delivered old hold, ?_⟩
    rw [decide_eq_true_iff, WebhookEvent.ofAssessment, WebhookEvent.ofAssessment, heq]

/-- In every run the published events of quotes are committed ones, and the numbers of the committed
events come from the identity sequence. -/
theorem issued_of_reachable {p : (quoteService.State × LogRecord) × List WebhookEvent}
    (h : (System.ofFun ((quoteService.initial, LogRecord.start), []) databaseStep).Reachable p) :
    eventLog.ReachableWith DrawsNext p.1 ∧
      ∃ assessments, Issued (Committed p.1) p.2 assessments := by
  refine System.ReachableWith.induct (I := fun p => eventLog.ReachableWith DrawsNext p.1 ∧
    ∃ assessments, Issued (Committed p.1) p.2 assessments) ?_ ?_ h
  · intro p hp
    obtain rfl := hp
    exact ⟨.init ⟨rfl, rfl⟩, [], .start _⟩
  · intro p a p' _ hp _ hstep
    obtain ⟨hq, assessments, hissued⟩ := hp
    exact issued_databaseStep hq hissued hstep

/-- A committed event is known by its quote and its number. -/
theorem committed_keyed {q : quoteService.State × LogRecord}
    (hq : eventLog.ReachableWith DrawsNext q) {event event' : QuoteEventRecord}
    (hevent : Committed q event) (hevent' : Committed q event')
    (hquote : event.quoteId = event'.quoteId) (hsequence : event.sequence = event'.sequence) :
    event = event' := by
  obtain ⟨hdrawn, -⟩ := eventLog_reachable hq
  obtain ⟨row, hrow, hparse⟩ := hevent
  obtain ⟨row', hrow', hparse'⟩ := hevent'
  rw [← hquote] at hrow'
  have hnumbered := hdrawn.committed event.quoteId
  -- Both rows have the number of the event, and the numbers of the rows ascend.
  have hnumber : ∀ {row : EventRow} {event : QuoteEventRecord}, 0 < row.sequenceId →
      eventFromRow row = .ok event → row.sequenceId = event.sequence := by
    intro row event hpos hparse
    rw [eventFromRow, if_neg (by omega)] at hparse
    cases hparse
    exact (Int.toNat_of_nonneg hpos.le).symm
  have hsame : row.sequenceId = row'.sequenceId := by
    rw [hnumber (hnumbered.bounds row hrow).1 hparse,
      hnumber (hnumbered.bounds row' hrow').1 hparse', hsequence]
  have hnodup : ((q.1.db (.events event.quoteId)).map EventRow.sequenceId).Nodup := by
    rw [List.nodup_iff_pairwise_ne, List.pairwise_map]
    exact hnumbered.ascending.imp fun hlt => hlt.ne
  obtain rfl := List.inj_on_of_nodup_map hnodup hrow hrow' hsame
  rw [hparse] at hparse'
  exact Except.ok.inj hparse'

/-- Replicas on a database. A quote event is published once it is committed, as often as replicas
publish it; assessments are kept in the memory of a replica and publish their own. -/
def databaseFeed : EventFeed where
  State := (quoteService.State × LogRecord) × List WebhookEvent
  Action := DatabaseAction
  start := ((quoteService.initial, .start), [])
  next := databaseStep
  published p := p.2
  grows {p a p'} h := by
    cases a with
    | database a =>
      obtain ⟨q, -, rfl⟩ := Option.map_eq_some_iff.mp h
      exact List.prefix_refl _
    | quote event =>
      rw [databaseStep, Option.ite_none_right_eq_some] at h
      obtain ⟨-, ⟨⟩⟩ := h
      exact List.prefix_append _ _
    | assessment event =>
      rw [databaseStep, Option.ite_none_left_eq_some] at h
      obtain ⟨-, ⟨⟩⟩ := h
      exact List.prefix_append _ _
  keyed h := by
    obtain ⟨hq, assessments, hissued⟩ := issued_of_reachable h
    exact hissued.keyed fun _ _ hquote hquote' hsame hsequence =>
      committed_keyed hq hquote hquote' hsame hsequence

/-- The feed of a storage mode. -/
def StorageMode.feed : StorageMode → EventFeed
  | memory => memoryFeed
  | database => databaseFeed

end

end CanonicalApi
