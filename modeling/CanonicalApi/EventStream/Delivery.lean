import CanonicalApi.EventStream

/-!
# `CanonicalApi.EventStream.Delivery`: which events a stream sends

The events of the messages after the first are events of the quote that were published after the
subscription, in the order in which they were published and each once (`Delivers`). None is left
out as long as the receiver has not fallen behind, so with nothing pending the last message is for
the last of them.

The first message is for `initial`, which was read before the subscription. `observed` are the runs
of a connection with what it has read (`Readings`), and `Begins` says what this is at each stage.
-/

set_option autoImplicit false

namespace CanonicalApi

open Transition (System)
open Broadcast (Reception between)

section

variable [CanonicalLib]

/-- The event that was received and not yet sent. -/
def StreamStage.pending : StreamStage → List QuoteEventRecord
  | handling event => [event]
  | _ => []

namespace EventStream

variable {source : EventSource} {quoteId : Uuid} {subject : String}

/-- What a stream keeps. The events that it received are a part of the published ones, as the
channel has it, and the messages are those of its own quote, in the same order. An event between its
reception and its message is `pending` in the stage. -/
structure Delivers (quoteId : Uuid) (subject : String) (s : Connection source) : Prop where
  reception : Reception (source.published s.source) s.stream.subscribed s.stream.next
    s.stream.lagged s.stream.received
  fresh : s.stream.stage.connects = true →
    s.stream.received = [] ∧ s.stream.lagged = false
  sends : s.stream.stage ≠ .closed →
    s.stream.messages.map Prod.fst ++ s.stream.stage.pending =
      s.stream.received.filter (Mine quoteId subject)
  sent : (s.stream.messages.map Prod.fst).Sublist (s.stream.received.filter (Mine quoteId subject))
  projected : ∀ p ∈ s.stream.sent, ∃ record, quoteStatusEvent p.1 record = .ok p.2

/-- A message is a projection of its event. -/
theorem projected_of_message {s : source.State} {read : source.Read} {event : QuoteEventRecord}
    {m : QuoteStatusEvent} (h : message source quoteId subject s read event = .ok m) :
    ∃ record, source.find s read quoteId subject = .ok record ∧
      quoteStatusEvent event record = .ok m := by
  unfold message at h
  cases hfind : source.find s read quoteId subject with
  | error error =>
    rw [hfind] at h
    cases h
  | ok record =>
    rw [hfind] at h
    exact ⟨record, rfl, h⟩

/-- Every step keeps this. -/
theorem Delivers.step {s s' : Connection source} {a : Action source}
    (hs : Delivers quoteId subject s) (h : Moves source quoteId subject s a s') :
    Delivers quoteId subject s' := by
  cases h with
  | outside hafter =>
    exact ⟨hs.reception.send (source.grows hafter), hs.fresh, hs.sends, hs.sent, hs.projected⟩
  | @connects a stage hbefore hstage =>
    -- Before the subscription no event is pending, so the stages on the way to it do not matter.
    have hnone : stage.pending = s.stream.stage.pending := by
      cases stage <;> cases hstage <;> cases hplace : s.stream.stage <;>
        first | rfl | (rw [hplace] at hbefore; cases hbefore)
    refine ⟨hs.reception, fun _ => hs.fresh hbefore, fun _ => ?_, hs.sent, hs.projected⟩
    show s.stream.messages.map Prod.fst ++ stage.pending = _
    rw [hnone]
    exact hs.sends fun hclosed => by rw [hclosed] at hbefore; cases hbefore
  -- The subscription starts to receive at the end of what is published by now.
  | subscribes hstage =>
    obtain ⟨hreceived, hlagged⟩ := hs.fresh (by rw [hstage]; rfl)
    have hsends := hs.sends (by rw [hstage]; exact nofun)
    rw [hstage] at hsends
    refine ⟨?_, nofun, fun _ => hsends, hs.sent, hs.projected⟩
    show Reception _ _ _ s.stream.lagged s.stream.received
    rw [hreceived, hlagged]
    exact Broadcast.reception_subscribe _
  | @greets read initial m hstage hmessage =>
    have hsends := hs.sends (by rw [hstage]; exact nofun)
    rw [hstage] at hsends
    refine ⟨hs.reception, nofun, fun _ => hsends, hs.sent, fun p hp => ?_⟩
    obtain ⟨record, -, hprojected⟩ := projected_of_message hmessage
    rcases List.mem_append.mp hp with hgreeting | hold
    · cases List.mem_singleton.mp hgreeting
      exact ⟨record, hprojected⟩
    · exact hs.projected p (List.mem_append_right _ hold)
  | skips hstage =>
    have hsends := hs.sends (by rw [hstage]; exact nofun)
    rw [hstage] at hsends
    exact ⟨hs.reception, nofun, fun _ => hsends, hs.sent, hs.projected⟩
  | @receives event next hstage hrecv =>
    have hsends := hs.sends (by rw [hstage]; exact nofun)
    rw [hstage] at hsends
    have hsends : s.stream.messages.map Prod.fst =
        s.stream.received.filter (Mine quoteId subject) := by
      simpa [StreamStage.pending] using hsends
    refine ⟨hs.reception.value hrecv, fun h => ?_, fun _ => ?_, ?_, hs.projected⟩
    · dsimp only at h
      split at h <;> cases h
    · dsimp only
      rw [hsends, List.filter_append, List.filter_singleton]
      -- An event of the quote is pending until it is sent, and another one is dropped.
      cases Mine quoteId subject event <;> rfl
    · dsimp only
      rw [hsends, List.filter_append]
      exact List.sublist_append_left _ _
  | lags hstage hrecv =>
    refine ⟨hs.reception.lagged hrecv, fun h => ?_, hs.sends, hs.sent, hs.projected⟩
    dsimp only at h
    rw [hstage] at h
    cases h
  | @sends read event m hstage hmessage =>
    have hsends := hs.sends (by rw [hstage]; exact nofun)
    rw [hstage] at hsends
    have hsends : (s.stream.messages ++ [(event, m)]).map Prod.fst =
        s.stream.received.filter (Mine quoteId subject) := by
      rw [List.map_append]
      exact hsends
    refine ⟨hs.reception, nofun, fun _ => ?_, ?_, fun p hp => ?_⟩
    · dsimp only
      rw [hsends]
      exact List.append_nil _
    · dsimp only
      rw [hsends]
    · obtain ⟨record, -, hprojected⟩ := projected_of_message hmessage
      have hp : p ∈ s.stream.sent ++ [(event, m)] := by
        rw [EventStream.sent, List.append_assoc]
        exact hp
      rcases List.mem_append.mp hp with hold | hnew
      · exact hs.projected p hold
      · cases List.mem_singleton.mp hnew
        exact ⟨record, hprojected⟩
  | closes hopen => exact ⟨hs.reception, nofun, fun h => absurd rfl h, hs.sent, hs.projected⟩

/-- A connection at the start has got nothing and sent nothing. -/
theorem delivers_start : Delivers quoteId subject (start source) where
  reception := ⟨Nat.le_refl 0, Nat.zero_le _, List.nil_sublist _, fun _ => rfl⟩
  fresh _ := ⟨rfl, rfl⟩
  sends _ := rfl
  sent := List.nil_sublist _
  projected _ hp := absurd hp List.not_mem_nil

/-- It holds in every state of every run. -/
theorem delivers_of_reachable {s : Connection source}
    (hs : (system source quoteId subject).Reachable s) : Delivers quoteId subject s := by
  refine hs.induct (fun s h0 => ?_) fun s a s' _ ih _ h => ih.step (moves_of_step h)
  obtain rfl := h0
  exact delivers_start

/-- A receiver falls behind only by more than the capacity. -/
theorem lagged_of_step {s s' : Connection source} {a : Action source}
    (h : Moves source quoteId subject s a s') (hlagged : s'.stream.lagged = true) :
    s.stream.lagged = true ∨
      s.stream.next + eventCapacity < (source.published s.source).length := by
  cases h with
  | lags hstage hrecv =>
    unfold Broadcast.recv at hrecv
    split at hrecv
    · next hbehind => exact .inr hbehind
    · split at hrecv <;> cases hrecv
  | outside | connects | subscribes | greets | skips | receives | sends | closes =>
    exact .inl hlagged

/-- The stage and the number of a message are those of its event. -/
theorem stage_of_projected {event : QuoteEventRecord} {record : QuoteRecord}
    {m : QuoteStatusEvent} (h : quoteStatusEvent event record = .ok m) :
    eventStage event.status = .ok m.stage ∧ m.sequence = toString event.sequence := by
  unfold quoteStatusEvent at h
  cases hstage : eventStage event.status with
  | error error =>
    rw [hstage] at h
    cases h
  | ok stage =>
    rw [hstage] at h
    cases hestimate : quoteEstimate record with
    | error error =>
      rw [hestimate] at h
      cases h
    -- Both parts succeed, and the message takes stage and sequence from the event.
    | ok estimate =>
      rw [hestimate] at h
      cases h
      exact ⟨rfl, rfl⟩

end EventStream

/-! ### The first message -/

/-- The source with its steps. -/
def EventSource.system (source : EventSource) : System source.State source.Action :=
  System.ofFun source.start source.next

/-- More and more events are published. -/
theorem EventSource.published_of_steps {source : EventSource} {s s' : source.State}
    (h : source.system.Steps s s') : source.published s <+: source.published s' := by
  induction h with
  | refl => exact List.prefix_refl _
  | tail _ hlast ih =>
    obtain ⟨a, ha⟩ := hlast
    exact ih.trans (source.grows ha)

/-- What a connection has read before it waits for events: the source as it was when the quote was
found and when `initial` was read, and the message for `initial`, or why there is none. -/
structure Readings (source : EventSource) where
  found : Option source.State
  initial : Option source.State
  greeting : Option (Except ApiError QuoteStatusEvent)

namespace EventStream

section

variable (source : EventSource) (quoteId : Uuid) (subject : String)

/-- The readings after a step. Only the three lookups of the beginning are noted, each with the
state of the source at that moment. -/
def note (readings : Readings source) (s : Connection source) : Action source → Readings source
  | .find _ => { readings with found := some s.source }
  | .latest _ => { readings with initial := some s.source }
  | .greet read _ =>
      match s.stream.stage with
      | .greeting initial =>
          { readings with greeting := some (message source quoteId subject s.source read initial) }
      | _ => readings
  | _ => readings

/-- The runs of a connection with its readings. -/
def observed : System (Connection source × Readings source) (Action source) :=
  (system source quoteId subject).recording ⟨none, none, none⟩ fun readings s a _ =>
    note source quoteId subject readings s a

/-- The connection has found the quote at `found`, and then read `initial` at `later`. The source
has moved on from the one state to the other, and from there to `now`. -/
structure Learned (readings : Readings source) (now : source.State) (initial : QuoteEventRecord)
    (found later : source.State) : Prop where
  foundAt : readings.found = some found
  initialAt : readings.initial = some later
  reads : ∃ read read' record, source.find found read quoteId subject = .ok record ∧
    source.latest later read' record quoteId subject = .ok initial
  before : source.system.Steps found later
  since : source.system.Steps later now

/-- What the connection has read so far, stage by stage. The subscription is younger than the
reading of `initial`, and this is where an event can be missed. -/
def Begins (s : Connection source) (readings : Readings source) : Prop :=
  match s.stream.stage with
  | .connecting | .refused _ => s.stream.greeting = none
  | .found record => s.stream.greeting = none ∧ ∃ found read, readings.found = some found ∧
      source.find found read quoteId subject = .ok record ∧ source.system.Steps found s.source
  | .upgrading initial => s.stream.greeting = none ∧
      ∃ found later, Learned source quoteId subject readings s.source initial found later
  | .greeting initial => s.stream.greeting = none ∧
      ∃ found later, Learned source quoteId subject readings s.source initial found later ∧
        (source.published later).length ≤ s.stream.subscribed
  | .waiting | .handling _ => ∃ initial found later result,
      Learned source quoteId subject readings s.source initial found later ∧
      (source.published later).length ≤ s.stream.subscribed ∧
      readings.greeting = some result ∧ s.stream.greeting = result.toOption.map (initial, ·)
  | .closed => ∀ p, s.stream.greeting = some p →
      ∃ found later, Learned source quoteId subject readings s.source p.1 found later ∧
        (source.published later).length ≤ s.stream.subscribed ∧
        readings.greeting = some (.ok p.2)

end

section

variable {source : EventSource} {quoteId : Uuid} {subject : String}

/-- The source goes on. -/
theorem Learned.step {readings : Readings source} {now now' : source.State}
    {initial : QuoteEventRecord} {found later : source.State} {a : source.Action}
    (h : Learned source quoteId subject readings now initial found later)
    (hstep : source.next now a = some now') :
    Learned source quoteId subject readings now' initial found later :=
  { h with since := h.since.tail ⟨a, hstep⟩ }

/-- The message for `initial` is not a reading of the source. -/
theorem Learned.greet {readings : Readings source} {now : source.State}
    {initial : QuoteEventRecord} {found later : source.State}
    (h : Learned source quoteId subject readings now initial found later)
    (greeting : Option (Except ApiError QuoteStatusEvent)) :
    Learned source quoteId subject { readings with greeting } now initial found later :=
  { h with }

/-- A step of the source keeps what the connection has read. -/
theorem Begins.outside {s : Connection source} {readings : Readings source} {a : source.Action}
    {after : source.State} (h : Begins source quoteId subject s readings)
    (hstep : source.next s.source a = some after) :
    Begins source quoteId subject { s with source := after } readings := by
  unfold Begins at h ⊢
  dsimp only
  -- The stream stands still, and what it has read is only older now.
  cases hstage : s.stream.stage with
  | connecting | refused _ =>
    rw [hstage] at h
    exact h
  | found record =>
    rw [hstage] at h
    obtain ⟨hnone, found, read, hfound, hfind, hsteps⟩ := h
    exact ⟨hnone, found, read, hfound, hfind, hsteps.tail ⟨a, hstep⟩⟩
  | upgrading initial =>
    rw [hstage] at h
    obtain ⟨hnone, found, later, hlearned⟩ := h
    exact ⟨hnone, found, later, hlearned.step hstep⟩
  | greeting initial =>
    rw [hstage] at h
    obtain ⟨hnone, found, later, hlearned, hle⟩ := h
    exact ⟨hnone, found, later, hlearned.step hstep, hle⟩
  | waiting | handling _ =>
    rw [hstage] at h
    obtain ⟨initial, found, later, result, hlearned, hle, hresult, hgreeting⟩ := h
    exact ⟨initial, found, later, result, hlearned.step hstep, hle, hresult, hgreeting⟩
  | closed =>
    rw [hstage] at h
    intro p hp
    obtain ⟨found, later, hlearned, hle, hresult⟩ := h p hp
    exact ⟨found, later, hlearned.step hstep, hle, hresult⟩

/-- The first message that was sent is for `initial`, which was read before the subscription. -/
theorem Begins.first {s : Connection source} {readings : Readings source}
    (h : Begins source quoteId subject s readings) {p : QuoteEventRecord × QuoteStatusEvent}
    (hp : s.stream.greeting = some p) :
    ∃ found later, Learned source quoteId subject readings s.source p.1 found later ∧
      (source.published later).length ≤ s.stream.subscribed ∧
      readings.greeting = some (.ok p.2) := by
  unfold Begins at h
  cases hstage : s.stream.stage with
  | connecting | refused _ =>
    rw [hstage] at h
    cases h.symm.trans hp
  -- Before the greeting there is no first message.
  | found _ | upgrading _ | greeting _ =>
    rw [hstage] at h
    cases h.1.symm.trans hp
  | waiting | handling _ =>
    rw [hstage] at h
    obtain ⟨initial, found, later, result, hlearned, hle, hresult, hgreeting⟩ := h
    rw [hp] at hgreeting
    cases result with
    | error error => cases hgreeting
    | ok m =>
      cases hgreeting
      exact ⟨found, later, hlearned, hle, hresult⟩
  | closed =>
    rw [hstage] at h
    exact h p hp

/-- A connection whose socket is closed keeps what it has read. -/
theorem Begins.close {s : Connection source} {readings : Readings source}
    (h : Begins source quoteId subject s readings) :
    Begins source quoteId subject { s with stream.stage := .closed } readings := by
  unfold Begins
  intro p hp
  exact h.first hp

/-- The connection finds the quote, or is refused. -/
theorem Begins.find {s s' : Connection source} {readings : Readings source} {read : source.Read}
    (h : Begins source quoteId subject s readings)
    (hstep : EventStream.step source quoteId subject s (.find read) = some s') :
    Begins source quoteId subject s' (note source quoteId subject readings s (.find read)) := by
  simp only [EventStream.step] at hstep
  split at hstep
  case h_2 => cases hstep
  next hstage =>
  unfold Begins at h
  rw [hstage] at h
  split at hstep
  · next record hfind =>
    cases hstep
    exact ⟨h, s.source, read, rfl, hfind, .refl⟩
  · cases hstep
    exact h

/-- The connection reads `initial` at a state that follows the one at which it found the quote, or
it is refused. -/
theorem Begins.latest {s s' : Connection source} {readings : Readings source} {read : source.Read}
    (h : Begins source quoteId subject s readings)
    (hstep : EventStream.step source quoteId subject s (.latest read) = some s') :
    Begins source quoteId subject s' (note source quoteId subject readings s (.latest read)) := by
  simp only [EventStream.step] at hstep
  split at hstep
  case h_2 => cases hstep
  next record hstage =>
  unfold Begins at h
  rw [hstage] at h
  obtain ⟨hnone, found, read', hfound, hfind, hsteps⟩ := h
  split at hstep
  · next initial hlatest =>
    cases hstep
    exact ⟨hnone, found, s.source, hfound, rfl, ⟨read', read, record, hfind, hlatest⟩, hsteps,
      .refl⟩
  · cases hstep
    exact hnone

/-- The connection subscribes at the end of what is published, which holds at least what was
published when it read `initial`. -/
theorem Begins.subscribe {s s' : Connection source} {readings : Readings source}
    (h : Begins source quoteId subject s readings)
    (hstep : EventStream.step source quoteId subject s .subscribe = some s') :
    Begins source quoteId subject s' (note source quoteId subject readings s .subscribe) := by
  simp only [EventStream.step] at hstep
  split at hstep
  case h_2 => cases hstep
  next initial hstage =>
  unfold Begins at h
  rw [hstage] at h
  obtain ⟨hnone, found, later, hlearned⟩ := h
  cases hstep
  exact ⟨hnone, found, later, hlearned,
    (EventSource.published_of_steps hlearned.since).length_le⟩

/-- The connection sends the message for `initial`. It goes on without one if there is none, and
ends if the message does not arrive. -/
theorem Begins.greet {s s' : Connection source} {readings : Readings source}
    {read : source.Read} {delivered : Bool}
    (h : Begins source quoteId subject s readings)
    (hstep : EventStream.step source quoteId subject s (.greet read delivered) = some s') :
    Begins source quoteId subject s'
      (note source quoteId subject readings s (.greet read delivered)) := by
  simp only [EventStream.step] at hstep
  split at hstep
  case h_2 => cases hstep
  next initial hstage =>
  simp only [note, hstage]
  have hbegins := h
  unfold Begins at h
  rw [hstage] at h
  obtain ⟨hnone, found, later, hlearned, hle⟩ := h
  split at hstep
  · next m hmessage =>
    split at hstep
    · cases hstep
      exact ⟨initial, found, later, .ok m, hlearned.greet _, hle, congrArg some hmessage, rfl⟩
    · cases hstep
      -- Nothing was sent on the socket.
      intro p hp
      cases hnone.symm.trans hp
  · next error hmessage =>
    cases hstep
    exact ⟨initial, found, later, .error error, hlearned.greet _, hle, congrArg some hmessage,
      hnone⟩

/-- What is received later does not touch the first message. -/
theorem Begins.recv {s s' : Connection source} {readings : Readings source}
    (h : Begins source quoteId subject s readings)
    (hstep : EventStream.step source quoteId subject s .recv = some s') :
    Begins source quoteId subject s' (note source quoteId subject readings s .recv) := by
  simp only [EventStream.step] at hstep
  split at hstep
  case h_2 => cases hstep
  next hstage =>
  unfold Begins at h
  rw [hstage] at h
  split at hstep
  · next event next hrecv =>
    cases hstep
    show Begins source quoteId subject _ readings
    unfold Begins
    cases Mine quoteId subject event with
    | true => exact h
    | false => exact h
  · cases hstep
    show Begins source quoteId subject _ readings
    unfold Begins
    dsimp only
    rw [hstage]
    exact h
  · cases hstep

/-- A later message leaves the first one as it is, or the socket is closed. -/
theorem Begins.send {s s' : Connection source} {readings : Readings source}
    {read : source.Read} {delivered : Bool}
    (h : Begins source quoteId subject s readings)
    (hstep : EventStream.step source quoteId subject s (.send read delivered) = some s') :
    Begins source quoteId subject s'
      (note source quoteId subject readings s (.send read delivered)) := by
  simp only [EventStream.step] at hstep
  split at hstep
  case h_2 => cases hstep
  next event hstage =>
  have hclosed := h.close
  unfold Begins at h
  rw [hstage] at h
  split at hstep
  · split at hstep
    · cases hstep
      exact h
    · cases hstep
      exact hclosed
  · cases hstep
    exact hclosed

/-- Every step keeps this. -/
theorem Begins.step {s s' : Connection source} {readings : Readings source} {a : Action source}
    (h : Begins source quoteId subject s readings)
    (hstep : step source quoteId subject s a = some s') :
    Begins source quoteId subject s' (note source quoteId subject readings s a) := by
  cases a with
  | outside a =>
    obtain ⟨after, hafter, rfl⟩ := Option.map_eq_some_iff.mp hstep
    exact h.outside hafter
  | find read => exact h.find hstep
  | noPermit =>
    simp only [EventStream.step] at hstep
    split at hstep
    case h_2 => cases hstep
    next hstage =>
    unfold Begins at h
    rw [hstage] at h
    cases hstep
    exact h.1
  | latest read => exact h.latest hstep
  | subscribe => exact h.subscribe hstep
  | greet read delivered => exact h.greet hstep
  | recv => exact h.recv hstep
  | send read delivered => exact h.send hstep
  | close =>
    simp only [EventStream.step] at hstep
    split at hstep
    · next initial hstage =>
      cases hstep
      exact h.close
    · next hstage =>
      cases hstep
      exact h.close
    · next event hstage =>
      cases hstep
      exact h.close
    · cases hstep

/-- It holds in every state of every run. -/
theorem begins_of_reachable {s : Connection source} {readings : Readings source}
    (hs : (observed source quoteId subject).Reachable (s, readings)) :
    Begins source quoteId subject s readings := by
  refine System.ReachableWith.induct
    (I := fun q : Connection source × Readings source => Begins source quoteId subject q.1 q.2)
    ?_ ?_ hs
  · rintro ⟨s, readings⟩ ⟨hinit, -⟩
    obtain rfl : s = start source := hinit
    exact rfl
  · rintro ⟨s, readings⟩ a ⟨s', readings'⟩ - ih - ⟨hstep, hreadings⟩
    cases hreadings
    exact ih.step hstep

end

end EventStream

end

end CanonicalApi
