import CanonicalApi.EventStream.Source
import CanonicalApi.Lib.Broadcast

/-!
# `CanonicalApi.EventStream`: the status stream of a quote

A WebSocket connection beside the handlers and workers. `quote_events` finds the quote and reads
its latest event, `initial`. The connection is upgraded after that, and `stream_quote_events`
subscribes to the broadcast channel, sends the message for `initial`, and then one for each
event of the quote that it receives. The record of a message is read when it is sent.

Any step of the source may come between two steps of the stream: the stream waits for a
lookup, for the socket or for the channel.
-/

set_option autoImplicit false

namespace CanonicalApi

open Transition (System)
open Broadcast (Received)

section

variable [CanonicalLib]

/-- Where `quote_events` and `stream_quote_events` wait. A stage carries what was read for the next
one. A stream is `closed` when its socket is, whatever the reason. -/
inductive StreamStage where
  | connecting
  | found (record : QuoteRecord)
  | refused (error : ApiError)
  | upgrading (initial : QuoteEventRecord)
  | greeting (initial : QuoteEventRecord)
  | waiting
  | handling (event : QuoteEventRecord)
  | closed

/-- The stages before the subscription. -/
def StreamStage.connects : StreamStage → Bool
  | connecting | found _ | refused _ | upgrading _ => true
  | _ => false

/-- The stages in which the socket is open. -/
def StreamStage.isOpen : StreamStage → Bool
  | greeting _ | waiting | handling _ => true
  | _ => false

/-- A connection. `subscribed` and `next` are the numbers of the first event that is published
after the subscription and of the one that is received next. `received` are the events that
were received, and `lagged` says that the receiver has fallen behind. The messages come with
their events. -/
structure EventStream where
  stage : StreamStage := .connecting
  subscribed : Nat := 0
  next : Nat := 0
  lagged : Bool := false
  received : List QuoteEventRecord := []
  greeting : Option (QuoteEventRecord × QuoteStatusEvent) := none
  messages : List (QuoteEventRecord × QuoteStatusEvent) := []

/-- The capacity of the channel. -/
def eventCapacity : Nat := 256

/-- The error of a connection without a permit. -/
def websocketCapacityReached : ApiError :=
  .serviceUnavailable "websocket_capacity_reached" "quote event capacity is temporarily unavailable"

namespace EventStream

/-- The messages that were sent, with their events. -/
def sent (stream : EventStream) : List (QuoteEventRecord × QuoteStatusEvent) :=
  stream.greeting.toList ++ stream.messages

/-- The source and the stream beside it. -/
structure Connection (source : EventSource) where
  source : source.State
  stream : EventStream := {}

/-- A step of the source or of the stream. `delivered` tells whether the socket took the message,
and `read` is what a lookup in the database draws from outside. -/
inductive Action (source : EventSource) where
  | outside (a : source.Action)
  | find (read : source.Read)
  | noPermit
  | latest (read : source.Read)
  | subscribe
  | greet (read : source.Read) (delivered : Bool)
  | recv
  | send (read : source.Read) (delivered : Bool)
  | close

/-- The event belongs to the quote and the owner of the stream. -/
def Mine (quoteId : Uuid) (subject : String) (event : QuoteEventRecord) : Bool :=
  event.quoteId = quoteId ∧ event.ownerSubject = subject

section

variable (source : EventSource) (quoteId : Uuid) (subject : String)

/-- The message for an event: the record is read now. -/
def message (s : source.State) (read : source.Read) (event : QuoteEventRecord) :
    Except ApiError QuoteStatusEvent := do
  let record ← source.find s read quoteId subject
  quoteStatusEvent event record

/-- The step function. A stage allows the actions that the code can take at that point, and
`outside` is allowed in every stage: the source does not wait for its streams. -/
def step (s : Connection source) : Action source → Option (Connection source)
  | .outside a => (source.next s.source a).map fun after => { s with source := after }
  | .find read =>
      match s.stream.stage with
      | .connecting =>
          match source.find s.source read quoteId subject with
          | .ok record => some { s with stream.stage := .found record }
          | .error error => some { s with stream.stage := .refused error }
      | _ => none
  | .noPermit =>
      match s.stream.stage with
      | .found _ => some { s with stream.stage := .refused websocketCapacityReached }
      | _ => none
  | .latest read =>
      match s.stream.stage with
      | .found record =>
          match source.latest s.source read record quoteId subject with
          | .ok initial => some { s with stream.stage := .upgrading initial }
          | .error error => some { s with stream.stage := .refused error }
      | _ => none
  | .subscribe =>
      match s.stream.stage with
      | .upgrading initial =>
          let next := (source.published s.source).length
          some { s with stream := { s.stream with
            stage := .greeting initial, subscribed := next, next } }
      | _ => none
  | .greet read delivered =>
      match s.stream.stage with
      | .greeting initial =>
          match message source quoteId subject s.source read initial with
          | .ok message =>
              if delivered = true then
                some { s with stream := { s.stream with
                  stage := .waiting, greeting := some (initial, message) } }
              else some { s with stream.stage := .closed }
          | .error _ => some { s with stream.stage := .waiting }
      | _ => none
  | .recv =>
      match s.stream.stage with
      | .waiting =>
          match Broadcast.recv eventCapacity (source.published s.source) s.stream.next with
          | (.value event, next) =>
              some { s with stream := { s.stream with
                stage := if Mine quoteId subject event = true then .handling event else .waiting
                next
                received := s.stream.received ++ [event] } }
          | (.lagged, next) => some { s with stream := { s.stream with next, lagged := true } }
          | (.pending, _) => none
      | _ => none
  | .send read delivered =>
      match s.stream.stage with
      | .handling event =>
          match message source quoteId subject s.source read event with
          | .ok message =>
              if delivered = true then
                some { s with stream := { s.stream with
                  stage := .waiting, messages := s.stream.messages ++ [(event, message)] } }
              else some { s with stream.stage := .closed }
          | .error _ => some { s with stream.stage := .closed }
      | _ => none
  | .close =>
      match s.stream.stage with
      | .greeting _ | .waiting | .handling _ => some { s with stream.stage := .closed }
      | _ => none

/-- What a step does: every step of the function is one of these. The proofs about runs go by its
cases and do not unfold the function. -/
inductive Moves (s : Connection source) : Action source → Connection source → Prop where
  | outside {a : source.Action} {after : source.State} :
      source.next s.source a = some after → Moves s (.outside a) { s with source := after }
  | connects {a : Action source} {stage : StreamStage} :
      s.stream.stage.connects = true → stage.connects = true →
      Moves s a { s with stream.stage := stage }
  | subscribes {initial : QuoteEventRecord} : s.stream.stage = .upgrading initial →
      Moves s .subscribe { s with stream := { s.stream with
        stage := .greeting initial
        subscribed := (source.published s.source).length
        next := (source.published s.source).length } }
  | greets {read : source.Read} {initial : QuoteEventRecord} {message : QuoteStatusEvent} :
      s.stream.stage = .greeting initial →
      EventStream.message source quoteId subject s.source read initial = .ok message →
      Moves s (.greet read true) { s with stream := { s.stream with
        stage := .waiting, greeting := some (initial, message) } }
  | skips {read : source.Read} {delivered : Bool} {initial : QuoteEventRecord} :
      s.stream.stage = .greeting initial →
      Moves s (.greet read delivered) { s with stream.stage := .waiting }
  | receives {event : QuoteEventRecord} {next : Nat} : s.stream.stage = .waiting →
      Broadcast.recv eventCapacity (source.published s.source) s.stream.next =
        (.value event, next) →
      Moves s .recv { s with stream := { s.stream with
        stage := if Mine quoteId subject event = true then .handling event else .waiting
        next
        received := s.stream.received ++ [event] } }
  | lags {next : Nat} : s.stream.stage = .waiting →
      Broadcast.recv eventCapacity (source.published s.source) s.stream.next = (.lagged, next) →
      Moves s .recv { s with stream := { s.stream with next, lagged := true } }
  | sends {read : source.Read} {event : QuoteEventRecord} {message : QuoteStatusEvent} :
      s.stream.stage = .handling event →
      EventStream.message source quoteId subject s.source read event = .ok message →
      Moves s (.send read true) { s with stream := { s.stream with
        stage := .waiting, messages := s.stream.messages ++ [(event, message)] } }
  | closes {a : Action source} : s.stream.stage.isOpen = true →
      Moves s a { s with stream.stage := .closed }

variable {source quoteId subject} in
/-- The step function makes these steps. -/
theorem moves_of_step {s s' : Connection source} {a : Action source}
    (h : step source quoteId subject s a = some s') : Moves source quoteId subject s a s' := by
  -- One case for each action; the stage decides whether the action is possible, and what was read
  -- or received decides where it leads.
  cases a with
  | outside a =>
    obtain ⟨after, hafter, rfl⟩ := Option.map_eq_some_iff.mp h
    exact .outside hafter
  | find read =>
    simp only [step] at h
    split at h
    · next hstage =>
      split at h <;> cases h <;> exact .connects (by rw [hstage]; rfl) rfl
    · cases h
  | noPermit =>
    simp only [step] at h
    split at h
    · next hstage =>
      cases h
      exact .connects (by rw [hstage]; rfl) rfl
    · cases h
  | latest read =>
    simp only [step] at h
    split at h
    · next hstage =>
      split at h <;> cases h <;> exact .connects (by rw [hstage]; rfl) rfl
    · cases h
  | subscribe =>
    simp only [step] at h
    split at h
    · next initial hstage =>
      cases h
      exact .subscribes hstage
    · cases h
  | greet read delivered =>
    simp only [step] at h
    split at h
    · next initial hstage =>
      split at h
      · next message hmessage =>
        split at h
        · next hdelivered =>
          cases h
          subst hdelivered
          exact .greets hstage hmessage
        · cases h
          exact .closes (by rw [hstage]; rfl)
      · cases h
        exact .skips hstage
    · cases h
  | recv =>
    simp only [step] at h
    split at h
    · next hstage =>
      split at h
      · next event next hrecv =>
        cases h
        exact .receives hstage hrecv
      · next next hrecv =>
        cases h
        exact .lags hstage hrecv
      · cases h
    · cases h
  | send read delivered =>
    simp only [step] at h
    split at h
    · next event hstage =>
      split at h
      · next message hmessage =>
        split at h
        · next hdelivered =>
          cases h
          subst hdelivered
          exact .sends hstage hmessage
        · cases h
          exact .closes (by rw [hstage]; rfl)
      · cases h
        exact .closes (by rw [hstage]; rfl)
    · cases h
  | close =>
    simp only [step] at h
    split at h
    · next initial hstage =>
      cases h
      exact .closes (by rw [hstage]; rfl)
    · next hstage =>
      cases h
      exact .closes (by rw [hstage]; rfl)
    · next event hstage =>
      cases h
      exact .closes (by rw [hstage]; rfl)
    · cases h

/-- The connection at the start. -/
def start : Connection source := { source := source.start }

/-- The transition system of the connection. -/
def system : System (Connection source) (Action source) :=
  System.ofFun (start source) (step source quoteId subject)

end

end EventStream

end

end CanonicalApi
