import CanonicalApi.Observation.Memory

/-!
# `CanonicalApi.Observation.Equivalence`: the two stores give the same answers

`storeMemory` keeps a map of events and a cursor for each stream, `storeDatabase` derives both
from the rows of the table. `twinStores` runs both on the same admitted observations, one after
the other, on a database that never fails. `Agree` relates the two stores: the event map is
what the rows say event by event, and the cursor is the sequence number and the digest of the
last row.

`Agree.store` is the step lemma: on stores that agree, both give the same outcome, and the
stores after it agree again. It needs room in memory, which has a capacity that the table has
not.
-/

set_option autoImplicit false

namespace CanonicalApi

open Transaction Transition

/-! ### Both stores -/

/-- An admitted observation. `ingest` bounds the body before it stores. -/
structure AuthenticatedObservation extends AdmittedObservation where
  bounded : bodyLen ≤ maxBodyBytes

/-- What a record says of its event, without the time of receipt. -/
def MemoryRecord.identity (record : MemoryRecord) : String × Int64 × String :=
  (record.payloadSha256, record.sourceSequence, record.receiptId)

/-- What a row says of its event, without the time of receipt. -/
def ObservationRow.identity (row : ObservationRow) : String × Int64 × String :=
  (row.payloadSha256, row.sourceSequence, row.receiptId)

/-- The last sequence number and record digest of a stream in memory. -/
def MemoryStore.last (memory : MemoryStore) (stream : ObservationCell) : Option (Int64 × String) :=
  (memory.streams stream).map fun cursor => (cursor.sourceSequence, cursor.recordSha256)

/-- The last sequence number and record digest of a stream in the table. -/
def lastInTable (db : ObservationDb) (stream : ObservationCell) : Option (Int64 × String) :=
  (ObservationTable.cursor (db stream)).map fun row => (row.sourceSequence, row.recordSha256)

section

variable [CryptoCrates]

/-- `store_memory` with the store after it. -/
def storeInMemory (admitted : AdmittedObservation) (memory : MemoryStore) :
    Except IngestError StorageOutcome × MemoryStore :=
  match storeMemory admitted memory with
  | .ok (stored, memory') => (.ok stored, memory')
  | .error error => (.error error, memory)

variable [Postgres]

/-- `store_database` with the table after it, when no other transaction runs. A rollback
restores the table. Without a result the database failed. -/
def storeInTable (admitted : AdmittedObservation) (db : ObservationDb) :
    Option (Except IngestError StorageOutcome × ObservationDb) :=
  match observationEngine.evaluate () db (storeDatabase admitted.transport admitted.event
      admitted.payloadSha256 admitted.bodyLen admitted.candidate) with
  | some (.ok stored, db') => some (.ok stored, db')
  | some (.error error, _) => some (.error error, db)
  | none => none

/-- The outcome accepts an event. -/
def accepts : Except IngestError StorageOutcome → Bool
  | .ok stored => !stored.duplicate
  | .error _ => false

/-- Both stores, and the number of events accepted so far. -/
structure TwinStores where
  db : ObservationDb
  memory : MemoryStore
  accepted : Nat

namespace TwinStores

/-- Both stores empty. -/
def start : TwinStores where
  db _ := []
  memory := .empty
  accepted := 0

/-- Both stores take the next observation. -/
def next (s : TwinStores) (observation : AuthenticatedObservation) : Option TwinStores :=
  (storeInTable observation.toAdmittedObservation s.db).map fun (result, db) =>
    { db
      memory := (storeInMemory observation.toAdmittedObservation s.memory).2
      accepted := if accepts result then s.accepted + 1 else s.accepted }

end TwinStores

/-- The runs of both stores on the same observations. -/
def twinStores : System TwinStores AuthenticatedObservation :=
  System.ofFun .start TwinStores.next

/-! ### What the transaction does when it runs alone -/

/-- A result of the transaction, with the table that is left. -/
theorem runs_of_storeInTable {admitted : AdmittedObservation} {db db' : ObservationDb}
    {result : Except IngestError StorageOutcome}
    (h : storeInTable admitted db = some (result, db')) :
    ∃ after, observationEngine.Runs db (storeDatabase admitted.transport admitted.event
      admitted.payloadSha256 admitted.bodyLen admitted.candidate) result after ∧
      (∀ stored, result = .ok stored → db' = after) ∧
      ∀ error, result = .error error → db' = db := by
  unfold storeInTable at h
  split at h
  · next stored after heval =>
    cases h
    exact ⟨_, observationEngine.runs_of_evaluate heval, fun _ _ => rfl, fun _ he => nomatch he⟩
  · next error after heval =>
    cases h
    exact ⟨_, observationEngine.runs_of_evaluate heval, fun _ hs => (nomatch hs), fun _ _ => rfl⟩
  · cases h

omit [Postgres] in
/-- `store_memory` on an event that it knows. -/
theorem storeInMemory_known {admitted : AdmittedObservation} {memory : MemoryStore}
    {record : MemoryRecord} (h : memory.events admitted.eventKey = some record) :
    storeInMemory admitted memory =
      (if record.payloadSha256 = admitted.payloadSha256 ∧
          record.sourceSequence = admitted.event.sourceSequence then
        .ok ⟨true, record.receiptId, record.receivedAt⟩
      else .error .eventConflict, memory) := by
  unfold storeInMemory storeMemory
  rw [h]
  dsimp only
  split
  · next stored memory' hstore =>
    split at hstore
    · next hsame =>
      cases hstore
      rw [if_pos hsame]
    · cases hstore
  · next error hstore =>
    split at hstore
    · cases hstore
    · next hdiffer =>
      cases hstore
      rw [if_neg hdiffer]

omit [Postgres] in
/-- `store_memory` on a new event that is not the next one of its stream. -/
theorem storeInMemory_gap {admitted : AdmittedObservation} {memory : MemoryStore}
    (h : memory.events admitted.eventKey = none)
    (hnext : checkedSucc (priorOfStream (memory.streams admitted.stream)).1
      ≠ some admitted.event.sourceSequence) :
    storeInMemory admitted memory = (.error .sequenceConflict, memory) := by
  have hstore : storeMemory admitted memory = .error .sequenceConflict := by
    unfold storeMemory
    rw [h]
    dsimp only
    cases hsucc : checkedSucc (priorOfStream (memory.streams admitted.stream)).1 with
    | none => rfl
    | some expected =>
      rw [hsucc, ne_eq, Option.some.injEq] at hnext
      rw [Outcome.okOr_some, Outcome.ok_bind, if_pos fun heq => hnext heq.symm]
  rw [storeInMemory, hstore]

omit [Postgres] in
/-- `store_memory` on the next event of a stream, with room for it. -/
theorem storeInMemory_next {admitted : AdmittedObservation} {memory : MemoryStore}
    (h : memory.events admitted.eventKey = none)
    (hnext : checkedSucc (priorOfStream (memory.streams admitted.stream)).1
      = some admitted.event.sourceSequence)
    (hroom : memory.order.length < memoryCapacity) :
    ∃ memory', storeInMemory admitted memory =
        (.ok ⟨false, admitted.candidate.receiptId, admitted.candidate.receivedAt⟩, memory') ∧
      storeMemory admitted memory = .ok
        (⟨false, admitted.candidate.receiptId, admitted.candidate.receivedAt⟩, memory') ∧
      memory'.order = memory.order ++ [admitted.eventKey] := by
  have hstore : ∃ memory', storeMemory admitted memory = .ok
      (⟨false, admitted.candidate.receiptId, admitted.candidate.receivedAt⟩, memory') ∧
        memory'.order = memory.order ++ [admitted.eventKey] := by
    unfold storeMemory
    rw [h]
    dsimp only
    rw [hnext, Outcome.okOr_some, Outcome.ok_bind, if_neg (by simp),
      if_neg (Nat.not_le.mpr hroom)]
    exact ⟨_, rfl, rfl⟩
  obtain ⟨memory', hstore, horder⟩ := hstore
  exact ⟨memory', by rw [storeInMemory, hstore], hstore, horder⟩

/-! ### Agreement -/

/-- What both stores answer alike: the error, or whether the event is a duplicate and its
receipt. The texts of the receipt times may differ. -/
def SameOutcome : Except IngestError StorageOutcome → Except IngestError StorageOutcome → Prop
  | .ok stored, .ok stored' =>
      stored.duplicate = stored'.duplicate ∧ stored.receiptId = stored'.receiptId
  | .error error, .error error' => error = error'
  | _, _ => False

/-- The stores hold the same events, with the same cursors. What is compared of an event is its
identity: the table keeps more columns than the map has fields. -/
structure Agree (db : ObservationDb) (memory : MemoryStore) : Prop where
  ledger : Ledger db
  events : ∀ ownerSubject sourceId eventId,
    (memory.events (ownerSubject, sourceId, eventId)).map MemoryRecord.identity
      = ((db ⟨ownerSubject, sourceId⟩).find? fun row => row.eventId = eventId).map
          ObservationRow.identity
  streams : ∀ stream, memory.last stream = lastInTable db stream

namespace Agree

variable {db : ObservationDb} {memory : MemoryStore}

omit [Postgres] in
/-- Empty stores agree. -/
theorem empty : Agree (fun _ => []) .empty where
  ledger _ := StreamLedger.nil
  events _ _ _ := rfl
  streams _ := rfl

omit [Postgres] in
/-- The next observation of a stream refers to the same record in both stores. -/
theorem prior_eq (h : Agree db memory) (stream : ObservationCell) :
    priorOfStream (memory.streams stream) = priorOf (ObservationTable.cursor (db stream)) := by
  have hlast := h.streams stream
  unfold MemoryStore.last lastInTable at hlast
  cases hmemory : memory.streams stream with
  | none =>
    rw [hmemory, Option.map_none] at hlast
    rw [Option.map_eq_none_iff.mp hlast.symm]
    rfl
  | some cursor =>
    rw [hmemory, Option.map_some] at hlast
    obtain ⟨row, hrow, hpair⟩ := Option.map_eq_some_iff.mp hlast.symm
    rw [hrow]
    exact hpair.symm

omit [Postgres] in
/-- An event is in memory exactly when it is in the table. -/
theorem event_of_row (h : Agree db memory) {admitted : AdmittedObservation} {row : ObservationRow}
    (hfind : (db admitted.stream).find? (fun row => row.eventId = admitted.event.eventId)
      = some row) :
    ∃ record, memory.events admitted.eventKey = some record ∧
      record.identity = row.identity := by
  have hevents := h.events admitted.transport.ownerSubject admitted.event.sourceId
    admitted.event.eventId
  have hfind' : (db ⟨admitted.transport.ownerSubject, admitted.event.sourceId⟩).find?
      (fun row => row.eventId = admitted.event.eventId) = some row := hfind
  rw [hfind', Option.map_some] at hevents
  exact Option.map_eq_some_iff.mp hevents

omit [Postgres] in
/-- An event that the table does not have is not in the memory store either. -/
theorem no_event (h : Agree db memory) {admitted : AdmittedObservation}
    (hfind : (db admitted.stream).find? (fun row => row.eventId = admitted.event.eventId)
      = none) : memory.events admitted.eventKey = none := by
  have hevents := h.events admitted.transport.ownerSubject admitted.event.sourceId
    admitted.event.eventId
  have hfind' : (db ⟨admitted.transport.ownerSubject, admitted.event.sourceId⟩).find?
      (fun row => row.eventId = admitted.event.eventId) = none := hfind
  rw [hfind', Option.map_none] at hevents
  exact Option.map_eq_none_iff.mp hevents

omit [Postgres] in
/-- Both stores take a new event. -/
theorem append (h : Agree db memory) {admitted : AdmittedObservation} {row : ObservationRow}
    {memory' : MemoryStore}
    (hrow : Appends (db admitted.stream) admitted.event admitted.payloadSha256 row)
    (hreceipt : row.receiptId = admitted.candidate.receiptId)
    (hevents : memory'.events = Function.update memory.events admitted.eventKey
      (some ⟨admitted.event.sourceSequence, admitted.payloadSha256,
        admitted.candidate.receiptId, admitted.candidate.receivedAt⟩))
    (hstreams : memory'.streams = Function.update memory.streams admitted.stream
      (some ⟨admitted.event.sourceSequence,
        recordDigest (priorOfStream (memory.streams admitted.stream)).2
          admitted.payloadSha256 admitted.event.eventId admitted.event.sourceSequence⟩)) :
    Agree (Function.update db admitted.stream (db admitted.stream ++ [row])) memory' where
  ledger := by
    intro stream
    by_cases hstream : stream = admitted.stream
    · rw [hstream, Function.update_self]
      exact (h.ledger _).appends hrow
    · rw [Function.update_of_ne hstream]
      exact h.ledger stream
  events := by
    intro ownerSubject sourceId eventId
    rw [hevents]
    by_cases hstream : (⟨ownerSubject, sourceId⟩ : ObservationCell) = admitted.stream
    · rw [hstream, Function.update_self, List.find?_append]
      cases hstream
      by_cases hevent : eventId = admitted.event.eventId
      · -- The new event itself: the stream had no row for it.
        rw [hevent, hrow.fresh]
        have hkey : (admitted.transport.ownerSubject, admitted.event.sourceId,
            admitted.event.eventId) = admitted.eventKey := rfl
        rw [hkey, Function.update_self]
        simp [hrow.eventId, MemoryRecord.identity, ObservationRow.identity,
          hrow.payloadSha256, hrow.sourceSequence, hreceipt]
      · have hkey : (admitted.transport.ownerSubject, admitted.event.sourceId, eventId)
            ≠ admitted.eventKey := fun heq => hevent (by cases heq; rfl)
        have hother : [row].find? (fun row => row.eventId = eventId) = none := by
          simpa [hrow.eventId] using fun heq => hevent heq.symm
        rw [Function.update_of_ne hkey, hother, Option.or_none]
        exact h.events _ _ _
    · have hkey : (ownerSubject, sourceId, eventId) ≠ admitted.eventKey :=
        fun heq => hstream (by cases heq; rfl)
      rw [Function.update_of_ne hstream, Function.update_of_ne hkey]
      exact h.events _ _ _
  streams := by
    intro stream
    unfold MemoryStore.last lastInTable
    rw [hstreams]
    by_cases hstream : stream = admitted.stream
    · have hlast := ((h.ledger _).appends hrow).cursor_eq
      rw [List.getLast?_concat] at hlast
      rw [hstream, Function.update_self, Function.update_self, hlast, Option.map_some,
        Option.map_some, hrow.digest, hrow.priorRecordSha256, hrow.payloadSha256,
        hrow.sourceSequence, hrow.eventId, h.prior_eq]
    · rw [Function.update_of_ne hstream, Function.update_of_ne hstream]
      exact h.streams stream

/-- One observation on stores that agree, with room in memory: the outcomes are the same, the
stores agree again, and an error changes neither. -/
theorem store (h : Agree db memory) (hroom : memory.order.length < memoryCapacity)
    {observation : AuthenticatedObservation} {result : Except IngestError StorageOutcome}
    {db' : ObservationDb}
    (hrun : storeInTable observation.toAdmittedObservation db = some (result, db')) :
    let inMemory := storeInMemory observation.toAdmittedObservation memory
    SameOutcome result inMemory.1 ∧ Agree db' inMemory.2 ∧
      inMemory.2.order.length = (if accepts result then memory.order.length + 1
        else memory.order.length) ∧
      ∀ error, result = .error error →
        (error = .eventConflict ∨ error = .sequenceConflict) ∧ db' = db ∧
          inMemory.2 = memory := by
  intro inMemory
  obtain ⟨after, hruns, hok, herror⟩ := runs_of_storeInTable hrun
  rcases storeDatabase_results hruns with ⟨row, hfind, hdiffer, rfl, rfl⟩ |
    ⟨row, hfind, hpayload, hsequence, rfl, rfl⟩ | ⟨hfind, hnext, rfl, rfl⟩ |
    ⟨hlong, -, -⟩ | ⟨row, happends, hreceipt, -, rfl, rfl⟩
  · -- The event is stored with other contents.
    obtain ⟨record, hrecord, hidentity⟩ := h.event_of_row hfind
    obtain ⟨hp, hs, -⟩ : record.payloadSha256 = row.payloadSha256 ∧
        record.sourceSequence = row.sourceSequence ∧ record.receiptId = row.receiptId := by
      simpa [MemoryRecord.identity, ObservationRow.identity] using hidentity
    have hmemory : inMemory = (.error .eventConflict, memory) := by
      show storeInMemory _ _ = _
      rw [storeInMemory_known hrecord, hp, hs, if_neg hdiffer]
    rw [hmemory, herror _ rfl]
    refine ⟨rfl, h, rfl, ?_⟩
    rintro error ⟨⟩
    exact ⟨.inl rfl, rfl, rfl⟩
  · -- The event is stored as it is given.
    obtain ⟨record, hrecord, hidentity⟩ := h.event_of_row hfind
    obtain ⟨hp, hs, hr⟩ : record.payloadSha256 = row.payloadSha256 ∧
        record.sourceSequence = row.sourceSequence ∧ record.receiptId = row.receiptId := by
      simpa [MemoryRecord.identity, ObservationRow.identity] using hidentity
    have hmemory : inMemory = (.ok ⟨true, record.receiptId, record.receivedAt⟩, memory) := by
      show storeInMemory _ _ = _
      rw [storeInMemory_known hrecord, hp, hs, if_pos ⟨hpayload, hsequence⟩]
    rw [hmemory, hok _ rfl]
    refine ⟨⟨rfl, hr.symm⟩, h, rfl, ?_⟩
    rintro error ⟨⟩
  · -- The event is new, and not the next one of its stream.
    rw [← h.prior_eq] at hnext
    have hmemory : inMemory = (.error .sequenceConflict, memory) :=
      storeInMemory_gap (h.no_event hfind) hnext
    rw [hmemory, herror _ rfl]
    refine ⟨rfl, h, rfl, ?_⟩
    rintro error ⟨⟩
    exact ⟨.inr rfl, rfl, rfl⟩
  · -- No admitted body is that long.
    have hbounded := observation.bounded
    unfold maxBodyBytes at hbounded
    omega
  · -- The event is the next one of its stream.
    have hnext := happends.next
    rw [← h.prior_eq ⟨observation.transport.ownerSubject, observation.event.sourceId⟩] at hnext
    have hnew : memory.events observation.eventKey = none := h.no_event happends.fresh
    obtain ⟨memory', hmemory, hstore, horder⟩ := storeInMemory_next hnew hnext hroom
    have hmemory : inMemory = (.ok ⟨false, observation.candidate.receiptId,
        observation.candidate.receivedAt⟩, memory') := hmemory
    rcases storeMemory_cases hstore with ⟨_, hknown, -⟩ | ⟨-, -, -, hevents, hstreams⟩
    · rw [hnew] at hknown
      cases hknown
    · rw [hmemory, hok _ rfl]
      refine ⟨⟨rfl, rfl⟩, h.append happends hreceipt hevents hstreams, ?_, ?_⟩
      · rw [horder, List.length_append]
        rfl
      · rintro error ⟨⟩

end Agree

/-- In every run with room in memory the stores agree. -/
theorem agree_of_reachable {s : TwinStores} (hs : twinStores.Reachable s)
    (hroom : s.accepted < memoryCapacity) :
    Agree s.db s.memory ∧ s.memory.order.length = s.accepted := by
  refine hs.induct (I := fun s => s.accepted < memoryCapacity →
    Agree s.db s.memory ∧ s.memory.order.length = s.accepted) ?_ ?_ hroom
  · rintro s rfl -
    exact ⟨.empty, rfl⟩
  · intro s observation s' _ ih _ hstep hroom'
    obtain ⟨⟨result, db'⟩, hrun, rfl⟩ := Option.map_eq_some_iff.mp
      (show s.next observation = some s' from hstep)
    have hroom : s.accepted < memoryCapacity := by
      dsimp only at hroom'
      split at hroom' <;> omega
    obtain ⟨hagree, hlength⟩ := ih hroom
    obtain ⟨-, hagree', hlength', -⟩ := hagree.store (by omega) hrun
    refine ⟨hagree', ?_⟩
    dsimp only
    rw [hlength', hlength]

/-- In every sequence of admitted observations, on a database that does not fail and with
fewer accepted events than memory has room for, the next observation has the same outcome in
both stores: the same error, or the same duplicate flag and receipt id. Afterwards the last
sequence number and digest of every stream are the same, and an error changes neither store. -/
theorem stores_equivalent {s : TwinStores} (hs : twinStores.Reachable s)
    (hfew : s.accepted < memoryCapacity) {observation : AuthenticatedObservation}
    {result : Except IngestError StorageOutcome} {db' : ObservationDb}
    (hrun : storeInTable observation.toAdmittedObservation s.db = some (result, db')) :
    let inMemory := storeInMemory observation.toAdmittedObservation s.memory
    SameOutcome result inMemory.1 ∧
      (∀ stream, inMemory.2.last stream = lastInTable db' stream) ∧
      ∀ error, result = .error error →
        (error = .eventConflict ∨ error = .sequenceConflict) ∧ db' = s.db ∧
          inMemory.2 = s.memory := by
  obtain ⟨hagree, hlength⟩ := agree_of_reachable hs hfew
  obtain ⟨hsame, hagree', -, herror⟩ := hagree.store (by omega) hrun
  exact ⟨hsame, hagree'.streams, herror⟩

end

/-! ### Two observations -/

section

attribute [local instance] testTime testUrl testDecoder testCrypto testServer

/-- An observation of one stream. -/
def testObservation (sequence : Int64) (eventId : String) : AuthenticatedObservation where
  transport := ⟨"key.customer-ci", "org:example"⟩
  event := testEvent sequence eventId
  payloadSha256 := sha256Label testBody
  bodyLen := testBody.length
  candidate := ⟨"rcpt_" ++ eventId, "2026-09-09T05:00:00Z"⟩
  bounded := by decide +kernel

/-- After the first event of a stream, an event with the same sequence number is refused in
both stores. -/
theorem stores_equivalent_test :
    ∃ s, twinStores.Reachable s ∧ s.accepted = 1 ∧
      (storeInMemory (testObservation 1 "event.test.00000002").toAdmittedObservation s.memory).2
        = s.memory := by
  have hrun : ((System.run TwinStores.next .start
      [testObservation 1 "event.test.00000001"]).map fun s => decide (s.accepted = 1) &&
        decide ((storeInTable (testObservation 1 "event.test.00000002").toAdmittedObservation
          s.db).map Prod.fst = some (.error .sequenceConflict))) = some true := by
    decide +kernel
  obtain ⟨s, hs, hvalues⟩ := System.exists_reachable_of_run _ _ hrun
  rw [Bool.and_eq_true, decide_eq_true_iff, decide_eq_true_iff, Option.map_eq_some_iff] at hvalues
  obtain ⟨haccepted, ⟨result, db'⟩, hrefused, hresult⟩ := hvalues
  have hresult : result = .error .sequenceConflict := hresult
  subst hresult
  obtain ⟨-, -, herror⟩ := stores_equivalent hs (by rw [haccepted]; decide) hrefused
  exact ⟨s, hs, haccepted, (herror _ rfl).2.2⟩

end

end CanonicalApi
