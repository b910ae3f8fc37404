import CanonicalApi.Observation.Service

/-!
# `CanonicalApi.Observation.Memory`: storing an observation in memory

`storeMemory` is the store of a service without a database. A mutex guards the store, and what
comes before it reads no shared state, so the calls of `ingest` in any order are a sequence of
calls of `ingestMemory`.

`storeMemory_cases` says everything that a call can do.
-/

set_option autoImplicit false

namespace CanonicalApi

open Transition
open Outcome (okOr)

/-- `MEMORY_CAPACITY`. -/
def memoryCapacity : Nat := 10000

/-- The key of an event: owner subject, source id and event id. -/
abbrev EventKey : Type := String × String × String

/-- `MemoryRecord`. -/
structure MemoryRecord where
  sourceSequence : Int64
  payloadSha256 : String
  receiptId : String
  receivedAt : String
deriving DecidableEq

/-- `StreamCursor`. -/
structure StreamCursor where
  sourceSequence : Int64
  recordSha256 : String
deriving DecidableEq

/-- `MemoryStore`. -/
structure MemoryStore where
  events : EventKey → Option MemoryRecord
  streams : ObservationCell → Option StreamCursor
  order : List EventKey

/-- `MemoryStore::default`. -/
def MemoryStore.empty : MemoryStore where
  events _ := none
  streams _ := none
  order := []

/-- The key under which an admitted observation is stored. -/
def AdmittedObservation.eventKey (admitted : AdmittedObservation) : EventKey :=
  (admitted.transport.ownerSubject, admitted.event.sourceId, admitted.event.eventId)

/-- The stream of an admitted observation. -/
def AdmittedObservation.stream (admitted : AdmittedObservation) : ObservationCell :=
  ⟨admitted.transport.ownerSubject, admitted.event.sourceId⟩

/-- The sequence number and the digest that the next record of a stream refers to. -/
def priorOfStream (cursor : Option StreamCursor) : Int64 × String :=
  match cursor with
  | some cursor => (cursor.sourceSequence, cursor.recordSha256)
  | none => (0, zeroRecordDigest)

section

variable [CryptoCrates]

/-- `store_memory`, with the store after it. An error leaves the store as it was. A repetition is
recognized before the sequence number is looked at, and the capacity is checked last. -/
def storeMemory (admitted : AdmittedObservation) (memory : MemoryStore) :
    Except IngestError (StorageOutcome × MemoryStore) :=
  match memory.events admitted.eventKey with
  | some existing =>
      if existing.payloadSha256 = admitted.payloadSha256 ∧
          existing.sourceSequence = admitted.event.sourceSequence then
        .ok ({ duplicate := true
               receiptId := existing.receiptId
               receivedAt := existing.receivedAt }, memory)
      else .error .eventConflict
  | none => do
      let prior := priorOfStream (memory.streams admitted.stream)
      let expected ← okOr .sequenceConflict (checkedSucc prior.1)
      if admitted.event.sourceSequence ≠ expected then .error .sequenceConflict
      else if memory.order.length ≥ memoryCapacity then .error .storageUnavailable
      else
        let recordSha256 := recordDigest prior.2 admitted.payloadSha256 admitted.event.eventId
          admitted.event.sourceSequence
        return (
          { duplicate := false
            receiptId := admitted.candidate.receiptId
            receivedAt := admitted.candidate.receivedAt },
          { events := Function.update memory.events admitted.eventKey (some {
              sourceSequence := admitted.event.sourceSequence
              payloadSha256 := admitted.payloadSha256
              receiptId := admitted.candidate.receiptId
              receivedAt := admitted.candidate.receivedAt })
            streams := Function.update memory.streams admitted.stream (some {
              sourceSequence := admitted.event.sourceSequence
              recordSha256 })
            order := memory.order ++ [admitted.eventKey] })

/-- Everything `store_memory` can do with a result: answer with the receipt of the stored
event, or store a new event as the next one of its stream. -/
theorem storeMemory_cases {admitted : AdmittedObservation} {memory memory' : MemoryStore}
    {stored : StorageOutcome} (h : storeMemory admitted memory = .ok (stored, memory')) :
    (∃ existing, memory.events admitted.eventKey = some existing ∧
      existing.payloadSha256 = admitted.payloadSha256 ∧
      existing.sourceSequence = admitted.event.sourceSequence ∧
      stored = ⟨true, existing.receiptId, existing.receivedAt⟩ ∧ memory' = memory) ∨
    (memory.events admitted.eventKey = none ∧
      checkedSucc (priorOfStream (memory.streams admitted.stream)).1 =
        some admitted.event.sourceSequence ∧
      stored = ⟨false, admitted.candidate.receiptId, admitted.candidate.receivedAt⟩ ∧
      memory'.events = Function.update memory.events admitted.eventKey
        (some ⟨admitted.event.sourceSequence, admitted.payloadSha256,
          admitted.candidate.receiptId, admitted.candidate.receivedAt⟩) ∧
      memory'.streams = Function.update memory.streams admitted.stream
        (some ⟨admitted.event.sourceSequence,
          recordDigest (priorOfStream (memory.streams admitted.stream)).2
            admitted.payloadSha256 admitted.event.eventId admitted.event.sourceSequence⟩)) := by
  unfold storeMemory at h
  cases hfind : memory.events admitted.eventKey with
  -- A stored event is answered from the store, if it is the same one.
  | some existing =>
    rw [hfind] at h
    dsimp only at h
    split at h
    · next hsame =>
      cases h
      exact .inl ⟨existing, rfl, hsame.1, hsame.2, rfl, rfl⟩
    · cases h
  -- A new event has the next number, and the store has room for it.
  | none =>
    rw [hfind] at h
    obtain ⟨expected, hexpected, h⟩ := (Outcome.bind_eq_ok_iff _ _ _).mp h
    obtain ⟨heq, h⟩ := (Outcome.ite_error_eq_ok_iff _ _ _ _).mp h
    obtain ⟨-, h⟩ := (Outcome.ite_error_eq_ok_iff _ _ _ _).mp h
    rw [Outcome.okOr_eq_ok_iff, ← not_not.mp heq] at hexpected
    cases h
    exact .inr ⟨rfl, hexpected, rfl, rfl, rfl⟩

variable [TimeCrate] [UrlCrate] [IngestDecoder]

/-- `ingest` in a service without a database, with the store after it. What the store returns is
made into a receipt. -/
def ingestMemory (delivery : Delivery) (memory : MemoryStore) :
    Except IngestError ObservationReceipt × MemoryStore :=
  match admission delivery with
  | .error error => (.error error, memory)
  | .ok admitted =>
      match storeMemory admitted memory with
      | .error error => (.error error, memory)
      | .ok (stored, memory') => (.ok (receiptOf admitted stored), memory')

/-- The calls of `ingest` in such a service. -/
def memoryIngest : System MemoryStore Delivery :=
  System.ofFun .empty fun memory delivery => some (ingestMemory delivery memory).2

end

end CanonicalApi
