import CanonicalApi.EventStream.Delivery
import CanonicalApi.Memory.Publications
import CanonicalApi.Quote.EventLog

/-!
# `CanonicalApi.EventStream.Completeness`: what a status stream sends

The stream of a connection starts with the message for `initial`, and goes on with one message for
each event of the quote that is published after the subscription. Three things keep these messages
from being the events of the quote from `initial` on:

* an event that is published after `initial` was read and before the subscription is skipped;
* an event that is committed before `initial` was read, and published after the subscription,
  comes twice;
* two events whose numbers are drawn in one order and that are published in the other come in the
  order of their publication.

`stream_incomplete` has a run for each. Where what was published since the subscription is what
followed `initial`, the stream is complete: `memory_delivers` and `database_delivers`.
-/

set_option autoImplicit false

namespace CanonicalApi

open Transition (System)
open Broadcast (Reception between)

section

variable [CanonicalLib]

namespace EventStream

section

variable {source : EventSource} {quoteId : Uuid} {subject : String}

/-- The steps of the source meet `G`. -/
def Outside (source : EventSource) (G : source.State → source.Action → Prop)
    (q : Connection source × Readings source) : Action source → Prop
  | .outside a => G q.1.source a
  | _ => True

/-- The source is as it was, or it has made a step. -/
theorem source_of_step {s s' : Connection source} {a : Action source}
    (h : step source quoteId subject s a = some s') :
    s'.source = s.source ∨ ∃ b, a = .outside b ∧ source.next s.source b = some s'.source := by
  cases moves_of_step h with
  | outside hafter => exact .inr ⟨_, rfl, hafter⟩
  | connects | subscribes | greets | skips | receives | lags | sends | closes => exact .inl rfl

/-- The source runs beside the connection, and the connection has found the quote in a state of
this run. -/
theorem source_reachable {G : source.State → source.Action → Prop} {s : Connection source}
    {readings : Readings source}
    (hs : (observed source quoteId subject).ReachableWith (Outside source G) (s, readings)) :
    source.system.ReachableWith G s.source ∧
      ∀ found, readings.found = some found → source.system.ReachableWith G found := by
  refine System.ReachableWith.induct
    (I := fun q : Connection source × Readings source =>
      source.system.ReachableWith G q.1.source ∧
        ∀ found, q.2.found = some found → source.system.ReachableWith G found) ?_ ?_ hs
  · rintro ⟨s, readings⟩ ⟨hinit, hstart⟩
    cases hinit
    cases hstart
    refine ⟨.init rfl, ?_⟩
    rintro found ⟨⟩
  · rintro ⟨s, readings⟩ a ⟨s', readings'⟩ - ⟨hsource, hfound⟩ hG ⟨hstep, hreadings⟩
    cases hreadings
    refine ⟨?_, ?_⟩
    · -- Only the steps outside of the connection move the source.
      rcases source_of_step hstep with hsame | ⟨b, rfl, hnext⟩
      · dsimp only
        rw [hsame]
        exact hsource
      · exact .step hsource hG hnext
    · intro found hread
      -- The lookup notes the source as it is now; a greeting that fails keeps the note.
      cases a with
      | find read =>
        cases hread
        exact hsource
      | greet read delivered =>
        refine hfound found ?_
        dsimp only at hread
        split at hread <;> exact hread
      | outside | noPermit | latest | subscribe | recv | send | close => exact hfound found hread

/-- When a receiver that has not fallen behind has nothing pending, a message was sent for each
event of the quote that was published since the subscription. -/
theorem messages_of_pending {s : Connection source} (hs : Delivers quoteId subject s)
    (hstage : s.stream.stage = .waiting) (hlagged : s.stream.lagged = false)
    (hnone : step source quoteId subject s .recv = none) :
    s.stream.messages.map Prod.fst =
      ((source.published s.source).drop s.stream.subscribed).filter (Mine quoteId subject) := by
  have hsends := hs.sends (by rw [hstage]; intro h; cases h)
  rw [hstage] at hsends
  have hsends := (List.append_nil _).symm.trans hsends
  have hreception := hs.reception
  rw [hlagged] at hreception
  -- If the loop cannot move, its receiver waits at the end of the channel.
  obtain ⟨next, hpending⟩ : ∃ next, Broadcast.recv eventCapacity
      (source.published s.source) s.stream.next = (.pending, next) := by
    simp only [step, hstage] at hnone
    split at hnone
    · cases hnone
    · cases hnone
    · next next hrecv => exact ⟨next, hrecv⟩
  rw [hsends, hreception.pending hpending]

/-- The last message is for the last event. -/
theorem stage_of_last {s : Connection source} (hs : Delivers quoteId subject s)
    {event : QuoteEventRecord} (hlast : (s.stream.sent.map Prod.fst).getLast? = some event) :
    ∃ p, s.stream.sent.getLast? = some p ∧ eventStage event.status = .ok p.2.stage := by
  rw [List.getLast?_map] at hlast
  obtain ⟨p, hp, rfl⟩ := Option.map_eq_some_iff.mp hlast
  obtain ⟨record, hprojected⟩ := hs.projected p (List.mem_of_getLast? hp)
  exact ⟨p, hp, (stage_of_projected hprojected).1⟩

end

/-! ### Without a database -/

section

variable {quoteId : Uuid} {subject : String}

/-- The runs without a database in which no handler stores an old copy of a record. -/
def StoresCurrent : Connection memorySource × Readings memorySource →
    Action memorySource → Prop :=
  Outside memorySource UpToDate

instance (q : Connection memorySource × Readings memorySource) (a : Action memorySource) :
    Decidable (StoresCurrent q a) :=
  match a with
  | .outside b =>
      let decideUpToDate (s : memoryTasks.State) (b : memoryTasks.Action) :
        Decidable (UpToDate s b) := inferInstance
      decideUpToDate q.1.source b
  | .find _ | .noPermit | .latest _ | .subscribe | .greet _ _ | .recv | .send _ _ | .close =>
      .isTrue trivial

/-- Without a database `initial` is the record as the connection has found it. -/
theorem initial_of_memory {readings : Readings memorySource} {now found later : memorySource.State}
    {initial : QuoteEventRecord}
    (h : Learned memorySource quoteId subject readings now initial found later) :
    ∃ record, AppState.findQuote (Tasks.State.shared found) quoteId subject = .ok record ∧
      initial = {
        ownerSubject := subject
        quoteId
        sequence := 0
        status := record.status
        occurredAt := record.updatedAt } := by
  obtain ⟨read, read', record, hfind, hlatest⟩ := h.reads
  exact ⟨record, hfind, (Except.ok.inj hlatest).symm⟩

/-- The messages have different numbers: those of published events, and 0 for the first. -/
theorem memory_numbers {s : Connection memorySource} {readings : Readings memorySource}
    (hs : (observed memorySource quoteId subject).Reachable (s, readings)) :
    (s.stream.sent.map fun p => p.1.sequence).Nodup := by
  have hconnection : (system memorySource quoteId subject).Reachable s :=
    System.reachable_of_recording hs
  have hdelivers := delivers_of_reachable hconnection
  have hsource : memoryTasks.system.Reachable s.source :=
    (source_reachable (G := fun _ _ => True) (hs.mono fun q a _ _ => by cases a <;> trivial)).1
  -- The numbers of the messages are among those of the published events, in their order, and these
  -- are distinct.
  have hsublist : (s.stream.messages.map fun p => p.1.sequence).Sublist
      (s.source.shared.events.map QuoteEventRecord.sequence) := by
    have hsent := hdelivers.sent.trans
      ((List.filter_sublist).trans (hdelivers.reception.sublist.trans (List.drop_sublist _ _)))
    have hmap := hsent.map QuoteEventRecord.sequence
    rwa [List.map_map] at hmap
  have hmessages := hsublist.nodup (sequences_nodup hsource)
  unfold EventStream.sent
  cases hgreeting : s.stream.greeting with
  | none => exact hmessages
  | some p =>
    obtain ⟨found, later, hlearned, -, -⟩ := (begins_of_reachable hs).first hgreeting
    obtain ⟨record, -, hinitial⟩ := initial_of_memory hlearned
    refine List.nodup_cons.mpr ⟨fun hmem => ?_, hmessages⟩
    obtain ⟨event, hevent, hsequence⟩ := List.mem_map.mp (hsublist.subset hmem)
    -- The first message has the number 0, and the published events are numbered from 1.
    have hzero : p.1.sequence = 0 := congrArg QuoteEventRecord.sequence hinitial
    have hpos := sequence_pos hsource hevent
    dsimp only at hsequence
    omega

/-- Without a database, in the runs in which no handler stores an old copy. A connection waits with
nothing pending, and no event of the quote was published between the read of `initial` and the
subscription. Then the messages are those for `initial` and for each event of the quote that was
published since, their numbers ascend exactly if these events were published in the order of their
numbers, and the last message has the stage of the quote. -/
theorem memory_delivers {s : Connection memorySource} {readings : Readings memorySource}
    {found : memorySource.State} {p : QuoteEventRecord × QuoteStatusEvent}
    (hs : (observed memorySource quoteId subject).ReachableWith StoresCurrent (s, readings))
    (hstage : s.stream.stage = .waiting) (hlagged : s.stream.lagged = false)
    (hnone : step memorySource quoteId subject s .recv = none)
    (hfound : readings.found = some found) (hgreeting : s.stream.greeting = some p)
    (hgap : ∀ event ∈ between (memorySource.published s.source)
      (memorySource.published found).length s.stream.subscribed,
      Mine quoteId subject event = false) :
    s.stream.sent.map Prod.fst = p.1 :: ((memorySource.published s.source).drop
      (memorySource.published found).length).filter (Mine quoteId subject) ∧
    ((s.stream.sent.map fun q => q.1.sequence).Pairwise (· < ·) ↔
      ((((memorySource.published s.source).drop (memorySource.published found).length).filter
        (Mine quoteId subject)).map QuoteEventRecord.sequence).Pairwise (· < ·)) ∧
    ∀ record, memorySource.find s.source () quoteId subject = .ok record →
      ∃ q, s.stream.sent.getLast? = some q ∧ eventStage record.status = .ok q.2.stage := by
  have hconnection : (system memorySource quoteId subject).Reachable s :=
    System.reachable_of_recording hs.reachable
  have hdelivers := delivers_of_reachable hconnection
  obtain ⟨hsource, hreadings⟩ := source_reachable hs
  obtain ⟨found', later, hlearned, hlater, -⟩ :=
    (begins_of_reachable hs.reachable).first hgreeting
  obtain rfl : found = found' := Option.some.inj (hfound.symm.trans hlearned.foundAt)
  obtain ⟨record, hrecord, hinitial⟩ := initial_of_memory hlearned
  -- What was published since the quote was found.
  have hbefore : (memorySource.published found).length ≤ s.stream.subscribed :=
    (EventSource.published_of_steps hlearned.before).length_le.trans hlater
  have hsince : ((memorySource.published s.source).drop
      (memorySource.published found).length).filter (Mine quoteId subject) =
      s.stream.messages.map Prod.fst := by
    rw [messages_of_pending hdelivers hstage hlagged hnone, ← Broadcast.between_append_drop
      hbefore (hdelivers.reception.started.trans hdelivers.reception.bounded), List.filter_append,
      List.filter_eq_nil_iff.mpr fun event hevent => by rw [hgap event hevent]; decide,
      List.nil_append]
  have hsent : s.stream.sent.map Prod.fst = p.1 :: s.stream.messages.map Prod.fst := by
    rw [EventStream.sent, hgreeting]
    rfl
  refine ⟨hsent.trans (congrArg _ hsince.symm), ?_, ?_⟩
  · have hnumbers : (s.stream.sent.map fun q => q.1.sequence) =
        0 :: (s.stream.messages.map Prod.fst).map QuoteEventRecord.sequence := by
      have hmap := congrArg (List.map QuoteEventRecord.sequence) hsent
      rwa [List.map_cons, hinitial, List.map_map] at hmap
    rw [hsince, hnumbers, List.pairwise_cons]
    refine ⟨And.right, fun hascending => ⟨fun number hnumber => ?_, hascending⟩⟩
    rw [← hsince] at hnumber
    obtain ⟨event, hevent, rfl⟩ := List.mem_map.mp hnumber
    exact sequence_pos hsource.reachable (List.mem_of_mem_drop (List.mem_of_mem_filter hevent))
  · intro now hnow
    obtain ⟨event, hlast, hstatus⟩ := (statusPublished_reachable hsource).of_find hnow
    obtain ⟨event', hlast', hstatus'⟩ :=
      (statusPublished_reachable (hreadings found hfound)).of_find hrecord
    -- The events of the quote are those of `found` and those of the messages.
    have hgrows : memorySource.published found <+: memorySource.published s.source :=
      EventSource.published_of_steps (hlearned.before.trans hlearned.since)
    have hevents : s.source.shared.eventsOf quoteId subject =
        (Tasks.State.shared found).eventsOf quoteId subject ++
          s.stream.messages.map Prod.fst := by
      rw [← hsince]
      show (memorySource.published s.source).filter (Mine quoteId subject) =
        (memorySource.published found).filter (Mine quoteId subject) ++ _
      rw [← List.filter_append, ← List.prefix_append_drop hgrows]
    rw [hevents, List.getLast?_append, hlast'] at hlast
    have hsame : ∃ last, (s.stream.sent.map Prod.fst).getLast? = some last ∧
        last.status = now.status := by
      rw [hsent, List.getLast?_cons]
      refine ⟨_, rfl, ?_⟩
      cases hmessages : (s.stream.messages.map Prod.fst).getLast? with
      | none =>
        rw [hmessages] at hlast
        cases hlast
        rw [← hstatus, hstatus', Option.getD_none, hinitial]
      | some last =>
        rw [hmessages] at hlast
        cases hlast
        rw [← hstatus, Option.getD_some]
    obtain ⟨last, hlast, hlaststatus⟩ := hsame
    rw [← hlaststatus]
    exact stage_of_last hdelivers hlast

end

/-! ### With a database -/

section

variable [Postgres] {quoteId : Uuid} {subject : String}

/-- The service runs beside the connection. -/
theorem service_of_database {q : databaseSource.State} (hq : databaseSource.system.Reachable q) :
    quoteService.interleaved.Reachable (Prod.fst q) := by
  refine hq.induct (I := fun q => quoteService.interleaved.Reachable (Prod.fst q)) ?_ ?_
  · rintro q rfl
    exact .init rfl
  · rintro ⟨s, published⟩ a q' - ih - h
    cases a with
    | inl a =>
      obtain ⟨s', hnext, rfl⟩ := Option.map_eq_some_iff.mp h
      exact .step ih trivial hnext
    | inr event =>
      have h : (if _ then some (s, published ++ [event]) else none) = some q' := h
      split at h
      · cases h
        exact ih
      · cases h

/-- An event that is committed stays committed. -/
theorem committed_of_steps {q q' : databaseSource.State} (h : databaseSource.system.Steps q q')
    (hq : databaseSource.system.Reachable q) (id : Uuid) :
    (Prod.fst q).db (.events id) <+: (Prod.fst q').db (.events id) := by
  refine h.rel (R := fun q q' => (Prod.fst q).db (.events id) <+: (Prod.fst q').db (.events id))
    (fun _ => List.prefix_refl _) (fun _ _ _ => List.IsPrefix.trans) ?_ hq
  rintro ⟨s, published⟩ a q' hs h
  cases a with
  | inl a =>
    obtain ⟨s', hnext, rfl⟩ := Option.map_eq_some_iff.mp h
    exact events_prefix_of_step (service_of_database hs) hnext id
  | inr event =>
    have h : (if _ then some (s, published ++ [event]) else none) = some q' := h
    split at h
    · cases h
      exact List.prefix_refl _
    · cases h

/-- With a database `initial` is a committed event with the largest number of the quote. -/
theorem initial_of_database {readings : Readings databaseSource}
    {now found later : databaseSource.State} {initial : QuoteEventRecord}
    (h : Learned databaseSource quoteId subject readings now initial found later) :
    ∃ row ∈ (Prod.fst later).db (.events quoteId), eventFromRow row = .ok initial ∧
      row.quoteId = quoteId ∧ row.ownerSubject = subject ∧
      ∀ row' ∈ (Prod.fst later).db (.events quoteId), row'.quoteId = quoteId →
        row'.ownerSubject = subject → row'.sequenceId ≤ row.sequenceId := by
  obtain ⟨read, read', record, -, hlatest⟩ := h.reads
  have hlatest : databaseRead (Prod.fst later).db read' (latestEvent subject quoteId) =
    .ok initial := hlatest
  unfold databaseRead at hlatest
  split at hlatest
  · -- The query found a row, and it takes the one with the greatest sequence.
    next initial' db' heval =>
    cases hlatest
    obtain ⟨input, -, heval⟩ := Option.bind_eq_some_iff.mp heval
    exact latestEvent_ok heval
  · cases hlatest
  · cases hlatest

/-- The committed events `rows`, as they were read. -/
def Parsed (events : List QuoteEventRecord) (rows : List EventRow) : Prop :=
  List.Forall₂ (fun event row => eventFromRow row = .ok event) events rows

instance (events : List QuoteEventRecord) (rows : List EventRow) : Decidable (Parsed events rows) :=
  inferInstanceAs (Decidable (List.Forall₂ _ events rows))

omit [CanonicalLib] in
/-- The numbers of parsed events are those of their rows. -/
theorem Parsed.numbers {events : List QuoteEventRecord} {rows : List EventRow}
    (h : Parsed events rows) :
    events.map (fun event => (event.sequence : Int)) = rows.map EventRow.sequenceId := by
  induction h with
  | nil => rfl
  | cons hparse _ ih =>
    rw [List.map_cons, List.map_cons, ih, (eventFromRow_ok hparse).1]

omit [CanonicalLib] in
/-- So are their statuses. -/
theorem Parsed.statuses {events : List QuoteEventRecord} {rows : List EventRow}
    (h : Parsed events rows) :
    events.map QuoteEventRecord.status = rows.map EventRow.status := by
  induction h with
  | nil => rfl
  | cons hparse _ ih =>
    rw [List.map_cons, List.map_cons, ih, (eventFromRow_ok hparse).2.1]

/-- With a database. A connection waits with nothing pending, the committed events of the quote have
ascending numbers, as they do when the identity sequence ascends (`eventLog_reachable`), and those
after `initial` are the ones that were published since the subscription. Then the messages are those
for the committed events from `initial` on, their numbers ascend, and the last message has the stage
of the committed quote. -/
theorem database_delivers {s : Connection databaseSource} {readings : Readings databaseSource}
    {p : QuoteEventRecord × QuoteStatusEvent}
    (hs : (observed databaseSource quoteId subject).Reachable (s, readings))
    (hascending : ((Prod.fst s.source).db (.events quoteId)).Pairwise fun row row' =>
      row.sequenceId < row'.sequenceId)
    (hstage : s.stream.stage = .waiting) (hlagged : s.stream.lagged = false)
    (hnone : step databaseSource quoteId subject s .recv = none)
    (hgreeting : s.stream.greeting = some p)
    (hgap : Parsed (((databaseSource.published s.source).drop s.stream.subscribed).filter
        (Mine quoteId subject))
      (((Prod.fst s.source).db (.events quoteId)).filter fun row =>
        (p.1.sequence : Int) < row.sequenceId)) :
    Parsed (s.stream.sent.map Prod.fst)
      (((Prod.fst s.source).db (.events quoteId)).filter fun row =>
        (p.1.sequence : Int) ≤ row.sequenceId) ∧
    (s.stream.sent.map fun q => q.1.sequence).Pairwise (· < ·) ∧
    ∀ row, (Prod.fst s.source).db (.quote quoteId) = some row →
      ∃ q, s.stream.sent.getLast? = some q ∧ eventStage row.status = .ok q.2.stage := by
  have hconnection : (system databaseSource quoteId subject).Reachable s :=
    System.reachable_of_recording hs
  have hdelivers := delivers_of_reachable hconnection
  obtain ⟨hsource, hreadings⟩ := source_reachable (G := fun _ _ => True)
    (hs.mono fun q a _ _ => by cases a <;> trivial)
  -- The greeting is the latest row at some moment after the lookup, and rows stay.
  obtain ⟨found, later, hlearned, -, -⟩ := (begins_of_reachable hs).first hgreeting
  obtain ⟨initial, hmem, hparse, -⟩ := initial_of_database hlearned
  have hlater : databaseSource.system.Reachable later :=
    hlearned.before.reachable (hreadings found hlearned.foundAt)
  have hmem : initial ∈ (Prod.fst s.source).db (.events quoteId) :=
    (committed_of_steps hlearned.since hlater quoteId).subset hmem
  -- So the rows split at the greeting; those after it are the ones of `hgap`.
  obtain ⟨before, after, hrows, hfrom, hafter⟩ := Numbered.split hascending hmem
  have hsequence := (eventFromRow_ok hparse).1
  rw [hsequence, hafter, ← messages_of_pending hdelivers hstage hlagged hnone] at hgap
  have hsent : s.stream.sent.map Prod.fst = p.1 :: s.stream.messages.map Prod.fst := by
    rw [EventStream.sent, hgreeting]
    rfl
  have hparsed : Parsed (s.stream.sent.map Prod.fst) (initial :: after) := by
    rw [hsent]
    exact .cons hparse hgap
  refine ⟨by rw [hsequence, hfrom]; exact hparsed, ?_, fun row hrow => ?_⟩
  · rw [hrows] at hascending
    have hnumbers := hparsed.numbers
    have hascending : ((initial :: after).map EventRow.sequenceId).Pairwise (· < ·) :=
      List.pairwise_map.mpr (List.pairwise_append.mp hascending).2.1
    rw [← hnumbers, List.map_map, List.pairwise_map] at hascending
    exact List.pairwise_map.mpr (hascending.imp fun hlt => Int.ofNat_lt.mp hlt)
  · -- The last row has the status of the quote, since the log of the events replays to it.
    obtain ⟨log, hlog⟩ : ∃ log, eventLog.Reachable (Prod.fst s.source, log) :=
      (service_of_database hsource).recording
    have hreplayed := replayed_reachable hlog
    have hcurrent := hreplayed.current quoteId
    rw [statusOf_eq hrow, ← hreplayed.events, hrows, List.map_append,
      List.getLast?_append_of_ne_nil _ (by simp), ← hparsed.statuses, List.getLast?_map]
      at hcurrent
    obtain ⟨last, hlast, hstatus⟩ := Option.map_eq_some_iff.mp hcurrent
    rw [← hstatus]
    exact stage_of_last hdelivers hlast

end

/-! ### Both modes -/

/-- The messages after the first. -/
structure Continues (source : EventSource) (quoteId : Uuid) (subject : String)
    (s : Connection source) : Prop where
  /-- Their events were published after the subscription, and keep the order of publication. -/
  ordered : (s.stream.messages.map Prod.fst).Sublist
    (((source.published s.source).drop s.stream.subscribed).filter (Mine quoteId subject))
  /-- The receiver falls behind only by more than the capacity of the channel. -/
  lags : ∀ a s', step source quoteId subject s a = some s' → s'.stream.lagged = true →
    s.stream.lagged = true ∨ s.stream.next + 256 < (source.published s.source).length
  /-- Until then no event that was received is left out. -/
  complete : s.stream.stage = .waiting → s.stream.lagged = false →
    s.stream.messages.map Prod.fst =
      (between (source.published s.source) s.stream.subscribed s.stream.next).filter
        (Mine quoteId subject)
  /-- With nothing pending, no event that was published is left out. -/
  pending : s.stream.stage = .waiting → s.stream.lagged = false →
    step source quoteId subject s .recv = none →
    s.stream.messages.map Prod.fst =
      ((source.published s.source).drop s.stream.subscribed).filter (Mine quoteId subject)
  /-- Every message, the first one too, has the stage and the number of its event. -/
  projected : ∀ p ∈ s.stream.sent, eventStage p.1.status = .ok p.2.stage ∧
    p.2.sequence = toString p.1.sequence

/-- They do so in every state of every run. -/
theorem continues_of_delivers {source : EventSource} {quoteId : Uuid} {subject : String}
    {s : Connection source} (hs : Delivers quoteId subject s) :
    Continues source quoteId subject s where
  ordered := hs.sent.trans (hs.reception.sublist.filter _)
  lags _ _ h hlagged := lagged_of_step (moves_of_step h) hlagged
  -- In the waiting stage nothing is held back, so that all that was received was sent.
  complete hstage hlagged := by
    have hsends := hs.sends (by rw [hstage]; intro h; cases h)
    rw [hstage] at hsends
    have hsends := (List.append_nil _).symm.trans hsends
    have hreception := hs.reception
    rw [hlagged] at hreception
    rw [hsends, hreception.complete rfl]
  pending hstage hlagged hnone := messages_of_pending hs hstage hlagged hnone
  projected p hp := by
    obtain ⟨record, hprojected⟩ := hs.projected p hp
    exact stage_of_projected hprojected

end EventStream

section

variable [Postgres]

open EventStream

/-- What a stream sends, in either mode.

* The first message is for `initial`, which was read before the subscription. It is left out only if
  the message could not be built. The other messages are for events that are published after the
  subscription (`Continues`).
* Without a database `initial` has the number 0 and the status and the time of the record that was
  found, and no two messages have one number. With a database `initial` is the committed event of
  the quote with the largest number.
* The stream has sent the events of the quote from `initial` on, up to the current status, if what
  was published since the subscription is what followed `initial`. Without a database this also
  needs that no handler has stored an old copy of the record, and the numbers ascend if the events
  were published in that order. With one the committed numbers of the quote have to ascend. -/
theorem event_stream_delivers (quoteId : Uuid) (subject : String) :
    (∀ (mode : StorageMode) (s : Connection mode.source) (readings : Readings mode.source),
      (observed mode.source quoteId subject).Reachable (s, readings) →
        Begins mode.source quoteId subject s readings ∧
          Continues mode.source quoteId subject s) ∧
    (∀ (readings : Readings memorySource) (now found later : memorySource.State)
      (initial : QuoteEventRecord),
      Learned memorySource quoteId subject readings now initial found later →
      ∃ record, (Tasks.State.shared found).findQuote quoteId subject = .ok record ∧
        initial = {
          ownerSubject := subject
          quoteId
          sequence := 0
          status := record.status
          occurredAt := record.updatedAt }) ∧
    (∀ (readings : Readings databaseSource) (now found later : databaseSource.State)
      (initial : QuoteEventRecord),
      Learned databaseSource quoteId subject readings now initial found later →
      ∃ row ∈ (Prod.fst later).db (.events quoteId), eventFromRow row = .ok initial ∧
        row.quoteId = quoteId ∧ row.ownerSubject = subject ∧
        ∀ row' ∈ (Prod.fst later).db (.events quoteId), row'.quoteId = quoteId →
          row'.ownerSubject = subject → row'.sequenceId ≤ row.sequenceId) ∧
    (∀ (s : Connection memorySource) (readings : Readings memorySource),
      (observed memorySource quoteId subject).Reachable (s, readings) →
        (s.stream.sent.map fun p => p.1.sequence).Nodup) ∧
    (∀ (s : Connection memorySource) (readings : Readings memorySource)
      (found : memorySource.State) (p : QuoteEventRecord × QuoteStatusEvent),
      (observed memorySource quoteId subject).ReachableWith StoresCurrent (s, readings) →
      s.stream.stage = .waiting → s.stream.lagged = false →
      step memorySource quoteId subject s .recv = none →
      readings.found = some found → s.stream.greeting = some p →
      (∀ event ∈ between (memorySource.published s.source)
        (memorySource.published found).length s.stream.subscribed,
        Mine quoteId subject event = false) →
      s.stream.sent.map Prod.fst = p.1 :: ((memorySource.published s.source).drop
        (memorySource.published found).length).filter (Mine quoteId subject) ∧
      ((s.stream.sent.map fun q => q.1.sequence).Pairwise (· < ·) ↔
        ((((memorySource.published s.source).drop (memorySource.published found).length).filter
          (Mine quoteId subject)).map QuoteEventRecord.sequence).Pairwise (· < ·)) ∧
      ∀ record, memorySource.find s.source () quoteId subject = .ok record →
        ∃ q, s.stream.sent.getLast? = some q ∧ eventStage record.status = .ok q.2.stage) ∧
    ∀ (s : Connection databaseSource) (readings : Readings databaseSource)
      (p : QuoteEventRecord × QuoteStatusEvent),
      (observed databaseSource quoteId subject).Reachable (s, readings) →
      ((Prod.fst s.source).db (.events quoteId)).Pairwise (fun row row' =>
        row.sequenceId < row'.sequenceId) →
      s.stream.stage = .waiting → s.stream.lagged = false →
      step databaseSource quoteId subject s .recv = none →
      s.stream.greeting = some p →
      Parsed (((databaseSource.published s.source).drop s.stream.subscribed).filter
          (Mine quoteId subject))
        (((Prod.fst s.source).db (.events quoteId)).filter fun row =>
          (p.1.sequence : Int) < row.sequenceId) →
      Parsed (s.stream.sent.map Prod.fst)
        (((Prod.fst s.source).db (.events quoteId)).filter fun row =>
          (p.1.sequence : Int) ≤ row.sequenceId) ∧
      (s.stream.sent.map fun q => q.1.sequence).Pairwise (· < ·) ∧
      ∀ row, (Prod.fst s.source).db (.quote quoteId) = some row →
        ∃ q, s.stream.sent.getLast? = some q ∧ eventStage row.status = .ok q.2.stage := by
  -- What the first message is and how the others follow holds of both sources; the rest is
  -- particular to one of them.
  refine ⟨?_, fun _ _ _ _ _ h => initial_of_memory h, fun _ _ _ _ _ h => initial_of_database h,
    fun _ _ hs => memory_numbers hs, ?_, ?_⟩
  · intro mode s readings hs
    exact ⟨begins_of_reachable hs, continues_of_delivers
      (delivers_of_reachable (System.reachable_of_recording hs))⟩
  · intro s readings found p hs hstage hlagged hnone hfound hgreeting hgap
    exact memory_delivers hs hstage hlagged hnone hfound hgreeting hgap
  · intro s readings p hs hascending hstage hlagged hnone hgreeting hgap
    exact database_delivers hs hascending hstage hlagged hnone hgreeting hgap

end

end

section

attribute [local instance] fixtureLib openServer

open EventStream

/-- The first `n` steps of the analysis of `testQuote`, which fails. -/
def testOutside (first n : Nat) : List (Action memorySource) :=
  (((testAnalysis testOutcome).drop first).take n).map fun a => .outside a

/-- The upgrade of a connection that finds the quote. -/
def testOpens : List (Action memorySource) :=
  [.find (), .latest (), .subscribe, .greet () true]

/-- A stream that subscribes while the model is called. -/
def testSubscribed : List (Action memorySource) :=
  testOutside 0 6 ++ testOpens ++ testOutside 6 2 ++ [.recv, .send () true]

/-- A stream that finds the quote while the model is called, and subscribes after the end. -/
def testMissed : List (Action memorySource) :=
  testOutside 0 6 ++ [.find (), .latest ()] ++ testOutside 6 2 ++ [.subscribe, .greet () true]

/-- A stream of a quote that has failed. The handler 2 retries it and draws the number 4, and before
it stores its record the handler 3 retries the quote and its worker 5 fails it again. -/
def testOvertaken : List (Action memorySource) :=
  testOutside 0 8 ++ testOpens ++
    ([.arrive 2 (.handler (memoryRetry "retry-key-0001") .lookup), testPoll 2 9, testPoll 2 9,
      .arrive 3 (.handler (memoryRetry "retry-key-0002") .lookup), testPoll 3 9, testPoll 3 9,
      testPoll 3 9, testPoll 3 5, testPoll 5 9, testPoll 5 9,
      .poll 5 (.called testOutcome (some "2026-09-09T05:00:00Z")) 9, testPoll 5 9, testPoll 2 9,
      testPoll 2 4] : List memoryTasks.Action).map (fun a => .outside a) ++
    [.recv, .send () true, .recv, .send () true, .recv, .send () true, .recv, .send () true]

/-- The event of `testCreate`. -/
def testQueued : QuoteEventRecord where
  ownerSubject := "customer-1"
  quoteId := testQuote
  sequence := 1
  status := "queued"
  occurredAt := "2026-09-09T05:00:00.000000Z"

/-- A read of the database. -/
def testRead : Option QuoteInput := some ⟨some CanonicalContext.requestOnly, 0, 1⟩

/-- A stream that reads the event of `testCreate` after its commit, and subscribes before the
handler publishes it. -/
def testTwice : List (Action databaseSource) :=
  (.arrive 0 (.requested testCreate) :: testTransaction 0 7).map (fun a => .outside (.inl a)) ++
    [.find testRead, .latest testRead, .subscribe, .greet testRead true,
      .outside (.inr testQueued), .recv, .send testRead true]

/-- The stream waits, its last message has the stage `stage`, and the quote has the status
`status`. -/
def testWaits (stage : EventStage) (status : String) (s : Connection memorySource) : Bool :=
  match s.stream.stage, s.stream.sent.getLast?,
    memorySource.find s.source () testQuote "customer-1" with
  | .waiting, some p, .ok record =>
      (step memorySource testQuote "customer-1" s .recv).isNone &&
        decide (p.2.stage = stage ∧ record.status = status)
  | _, _, _ => false

/-- A stream that subscribes before the worker 1 marks the quote and publishes its event, whose
number is 2. -/
def testMarked : List (Action databaseSource) :=
  (.arrive 0 (.requested testCreate) :: testNumbered 0 7 1).map (fun a => .outside (.inl a)) ++
    [.outside (.inr testQueued), .find testRead, .latest testRead, .subscribe,
      .greet testRead true] ++
    (.advance 0 (.proceed ⟨9⟩) 1 :: testNumbered 1 3 2).map (fun a => .outside (.inl a)) ++
    [.outside (.inr { testQueued with sequence := 2, status := "analyzing" }), .recv,
      .send testRead true]

/-- The stream waits with nothing pending, has not fallen behind, has sent messages with these
statuses, and no event of the quote was published before the subscription. -/
def testCompleteMemory (statuses : List String)
    (q : Connection memorySource × Readings memorySource) : Bool :=
  match q.1.stream.stage, q.2.found, q.1.stream.greeting with
  | .waiting, some found, some _ =>
      (step memorySource testQuote "customer-1" q.1 .recv).isNone && !q.1.stream.lagged &&
        decide ((q.1.stream.sent.map fun p => p.1.status) = statuses) &&
        decide (∀ event ∈ between (memorySource.published q.1.source)
          (memorySource.published found).length q.1.stream.subscribed,
          Mine testQuote "customer-1" event = false)
  | _, _, _ => false

/-- The stream waits with nothing pending, has not fallen behind, has sent messages with these
statuses, and what was published since the subscription is what was committed after `initial`. -/
def testCompleteDatabase (statuses : List String) (s : Connection databaseSource) : Bool :=
  match s.stream.stage, s.stream.greeting with
  | .waiting, some p =>
      (step databaseSource testQuote "customer-1" s .recv).isNone && !s.stream.lagged &&
        decide ((s.stream.sent.map fun q => q.1.status) = statuses) &&
        decide (((Prod.fst s.source).db (.events testQuote)).Pairwise fun row row' =>
          row.sequenceId < row'.sequenceId) &&
        decide (Parsed (((databaseSource.published s.source).drop s.stream.subscribed).filter
          (Mine testQuote "customer-1"))
          (((Prod.fst s.source).db (.events testQuote)).filter fun row =>
            (p.1.sequence : Int) < row.sequenceId))
  | _, _ => false

/-- A connection without readings. -/
def testStart (source : EventSource) : Connection source × Readings source :=
  (start source, ⟨none, none, none⟩)

/-- What is noted for `testQuote`. -/
def testNote {source : EventSource} (readings : Readings source) (s : Connection source)
    (a : Action source) (_ : Connection source) : Readings source :=
  note source testQuote "customer-1" readings s a

/-- One run in each mode. The stream sends `initial` first and then what is published after its
subscription, in memory with the current status last and in the database with rising numbers. -/
theorem event_stream_delivers_test :
    (∃ s readings, (observed memorySource testQuote "customer-1").ReachableWith StoresCurrent
        (s, readings) ∧
      (s.stream.sent.map fun p => p.1.status) = ["analyzing", "failed"] ∧
      ∀ record, memorySource.find s.source () testQuote "customer-1" = .ok record →
        ∃ q, s.stream.sent.getLast? = some q ∧ eventStage record.status = .ok q.2.stage) ∧
    ∃ s readings, (observed databaseSource testQuote "customer-1").Reachable (s, readings) ∧
      (s.stream.sent.map fun p => p.1.status) = ["queued", "analyzing"] ∧
      (s.stream.sent.map fun p => p.1.sequence).Pairwise (· < ·) := by
  obtain ⟨-, -, -, -, hmemory, hdatabase⟩ := event_stream_delivers testQuote "customer-1"
  constructor
  · have hrun : ∃ q, (System.ofFun (testStart memorySource)
        (System.guarded StoresCurrent (System.record (step memorySource testQuote "customer-1")
          testNote))).Reachable q ∧ testCompleteMemory ["analyzing", "failed"] q = true :=
      System.exists_reachable_of_run testSubscribed _ (by decide)
    obtain ⟨⟨s, readings⟩, hq, hcomplete⟩ := hrun
    have hs : (observed memorySource testQuote "customer-1").ReachableWith StoresCurrent
        (s, readings) := .of_record (.of_guarded hq)
    unfold testCompleteMemory at hcomplete
    split at hcomplete
    · next found p hstage hfound hgreeting =>
      simp only [Bool.and_eq_true, Option.isNone_iff_eq_none, Bool.not_eq_true',
        decide_eq_true_iff] at hcomplete
      obtain ⟨⟨⟨hnone, hlagged⟩, hstatuses⟩, hgap⟩ := hcomplete
      obtain ⟨-, -, hcurrent⟩ :=
        hmemory s readings found p hs hstage hlagged hnone hfound hgreeting hgap
      exact ⟨s, readings, hs, hstatuses, hcurrent⟩
    · cases hcomplete
  · have hrun : ∃ q, (System.ofFun (testStart databaseSource)
        (System.record (step databaseSource testQuote "customer-1") testNote)).Reachable q ∧
          testCompleteDatabase ["queued", "analyzing"] q.1 = true :=
      System.exists_reachable_of_run testMarked
        (fun q : Connection databaseSource × Readings databaseSource =>
          testCompleteDatabase ["queued", "analyzing"] q.1) (by decide)
    obtain ⟨⟨s, readings⟩, hq, hcomplete⟩ := hrun
    have hs : (observed databaseSource testQuote "customer-1").Reachable (s, readings) :=
      .of_record hq
    unfold testCompleteDatabase at hcomplete
    split at hcomplete
    · next p hstage hgreeting =>
      simp only [Bool.and_eq_true, Option.isNone_iff_eq_none, Bool.not_eq_true',
        decide_eq_true_iff] at hcomplete
      obtain ⟨⟨⟨⟨hnone, hlagged⟩, hstatuses⟩, hascending⟩, hgap⟩ := hcomplete
      obtain ⟨-, hnumbers, -⟩ :=
        hdatabase s readings p hs hascending hstage hlagged hnone hgreeting hgap
      exact ⟨s, readings, hs, hstatuses, hnumbers⟩
    · cases hcomplete

/-- The messages are not the events of the quote from `initial` on. An event between the read of
`initial` and the subscription is not sent, so the stream waits with nothing pending, its last
message says `analyzing`, and the quote has failed. An event that is published late comes after
those with larger numbers, and `initial` comes again when its event is published after the
subscription. -/
theorem stream_incomplete :
    (¬ ∀ s, (system memorySource testQuote "customer-1").Reachable s →
      s.stream.stage = .waiting → step memorySource testQuote "customer-1" s .recv = none →
      ∀ p, s.stream.sent.getLast? = some p →
      ∀ record, memorySource.find s.source () testQuote "customer-1" = .ok record →
        eventStage record.status = .ok p.2.stage) ∧
    (¬ ∀ s readings, (observed memorySource testQuote "customer-1").ReachableWith StoresCurrent
      (s, readings) → (s.stream.sent.map fun p => p.1.sequence).Pairwise (· < ·)) ∧
    ¬ ∀ s, (system databaseSource testQuote "customer-1").Reachable s →
      (s.stream.sent.map fun p => p.1.sequence).Nodup := by
  refine ⟨fun hclaim => ?_, fun hclaim => ?_, fun hclaim => ?_⟩
  · -- An event that was published between the reading and the subscription is never sent.
    have hrun : ∃ s, (system memorySource testQuote "customer-1").Reachable s ∧
        testWaits .analyzing "failed" s = true :=
      System.exists_reachable_of_run testMissed (testWaits .analyzing "failed") (by decide)
    obtain ⟨s, hs, hwaits⟩ := hrun
    unfold testWaits at hwaits
    split at hwaits
    · next p record hstage hlast hfind =>
      rw [Bool.and_eq_true, Option.isNone_iff_eq_none, decide_eq_true_iff] at hwaits
      obtain ⟨hpending, hanalyzing, hfailed⟩ := hwaits
      have hstale := hclaim s hs hstage hpending p hlast record hfind
      rw [hfailed, hanalyzing] at hstale
      exact absurd hstale (by simp [eventStage])
    · cases hwaits
  · -- Events are numbered before they are published, and another worker may publish in between.
    have hrun : ∃ q, (System.ofFun (testStart memorySource)
        (System.guarded StoresCurrent (System.record (step memorySource testQuote "customer-1")
          testNote))).Reachable q ∧
            decide ((q.1.stream.sent.map fun p => p.1.sequence) = [0, 5, 6, 7, 4]) = true :=
      System.exists_reachable_of_run testOvertaken _ (by decide)
    obtain ⟨⟨s, readings⟩, hq, hsent⟩ := hrun
    have hascending := hclaim s readings (.of_record (.of_guarded hq))
    have hsent : (s.stream.sent.map fun p => p.1.sequence) = [0, 5, 6, 7, 4] :=
      of_decide_eq_true hsent
    rw [hsent] at hascending
    exact absurd hascending (by decide)
  · -- The event that was read as the latest one is published after the subscription, and is sent
    -- again.
    have hrun : ∃ s, (system databaseSource testQuote "customer-1").Reachable s ∧
        decide ((s.stream.sent.map fun p => p.1.sequence) = [1, 1]) = true :=
      System.exists_reachable_of_run testTwice _ (by decide)
    obtain ⟨s, hs, hsent⟩ := hrun
    have hnodup := hclaim s hs
    rw [of_decide_eq_true hsent] at hnodup
    exact absurd hnodup (by decide)

end

end CanonicalApi
