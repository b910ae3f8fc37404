import CanonicalApi.Lib.Chain
import CanonicalApi.Observation.Store

/-!
# `CanonicalApi.Observation.Ledger`: what one transaction does to a stream

`StreamLedger rows` says what the documentation promises of a stream: the sequence numbers are
1 to n without a gap, no event id occurs twice, every row refers to the digest of the row
before it, and every digest is the one that `record_digest` computes.

`storeDatabase_cases` says everything that the transaction can do, and
`StreamLedger.storeDatabase` concludes that it keeps `StreamLedger`. In such a stream the
cursor, the row with the largest sequence number, is the last row (`StreamLedger.cursor_eq`).
-/

set_option autoImplicit false

namespace CanonicalApi

open Transaction Transaction.Engine
open Chain (Linked tip)

/-- A successor that was checked does not overflow. -/
theorem checkedSucc_toInt {n m : Int64} (h : checkedSucc n = some m) :
    m.toInt = n.toInt + 1 := by
  unfold checkedSucc at h
  split at h
  · next hlt =>
    cases h
    have hge := n.le_toInt
    rw [Int64.toInt_add, show (1 : Int64).toInt = 1 from rfl]
    exact Int.bmod_eq_of_le (by omega) (by omega)
  · cases h

variable [CryptoCrates]

/-- The digest that a row stores is the one of its own fields. -/
def ObservationRow.DigestOk (row : ObservationRow) : Prop :=
  row.recordSha256 =
    recordDigest row.priorRecordSha256 row.payloadSha256 row.eventId row.sourceSequence

/-- The promises of a stream: its numbers have no gap, its ids no repetition, and its digests form a
chain from the zero digest on. -/
structure StreamLedger (rows : List ObservationRow) : Prop where
  /-- The row at position `k`, counted from 0, has the sequence number `k + 1`. -/
  sequence : ∀ k (hk : k < rows.length), rows[k].sourceSequence.toInt = k + 1
  /-- No event id occurs twice. -/
  distinct : (rows.map ObservationRow.eventId).Nodup
  /-- The first row refers to the zero digest, every other one to its predecessor. -/
  linked : Linked ObservationRow.priorRecordSha256 ObservationRow.recordSha256
    zeroRecordDigest rows
  /-- Every stored digest is right. -/
  digest : ∀ row ∈ rows, row.DigestOk

namespace StreamLedger

/-- An empty stream keeps every promise. -/
theorem nil : StreamLedger [] where
  sequence k hk := absurd hk (Nat.not_lt_zero k)
  distinct := List.nodup_nil
  linked := trivial
  digest _ hrow := nomatch hrow

variable {rows : List ObservationRow}

/-- The cursor of a stream is its last row. -/
theorem cursor_eq (h : StreamLedger rows) : ObservationTable.cursor rows = rows.getLast? := by
  cases hcursor : ObservationTable.cursor rows with
  | none =>
    rw [List.argmax_eq_none.mp hcursor]
    rfl
  | some row =>
    obtain ⟨k, hk, hrow⟩ := List.getElem_of_mem (List.argmax_mem hcursor)
    -- The last row has the sequence number n, and the cursor at least that.
    have hlast : rows.length - 1 < rows.length := by omega
    have hle := List.le_of_mem_argmax (List.getElem_mem hlast) hcursor
    rw [← hrow] at hle
    have hseq := h.sequence k hk
    have hseqLast := h.sequence (rows.length - 1) hlast
    have hk' : k = rows.length - 1 := by omega
    subst hk'
    rw [List.getLast?_eq_getElem?, List.getElem?_eq_getElem hlast, hrow]

/-- The sequence number and the digest that the next row of a stream refers to. -/
theorem priorOf_cursor (h : StreamLedger rows) :
    (priorOf (ObservationTable.cursor rows)).1.toInt = rows.length ∧
      (priorOf (ObservationTable.cursor rows)).2 =
        tip ObservationRow.recordSha256 zeroRecordDigest rows := by
  rw [h.cursor_eq]
  cases hlast : rows.getLast? with
  | none =>
    rw [List.getLast?_eq_none_iff.mp hlast]
    exact ⟨rfl, rfl⟩
  | some row =>
    have hne : rows ≠ [] := by
      rintro rfl
      cases hlast
    have hlen : rows.length - 1 < rows.length := by
      have := List.length_pos_of_ne_nil hne
      omega
    have hrow : rows[rows.length - 1] = row := by
      rw [List.getLast?_eq_getElem?, List.getElem?_eq_getElem hlen] at hlast
      exact Option.some.inj hlast
    refine ⟨?_, ?_⟩
    · have := h.sequence (rows.length - 1) hlen
      rw [hrow] at this
      show row.sourceSequence.toInt = _
      omega
    · show row.recordSha256 = _
      rw [tip, hlast]
      rfl

/-- A row that continues the stream keeps the promises. -/
theorem concat (h : StreamLedger rows) {row : ObservationRow}
    (hseq : row.sourceSequence.toInt = rows.length + 1)
    (hnew : row.eventId ∉ rows.map ObservationRow.eventId)
    (hprior : row.priorRecordSha256 =
      tip ObservationRow.recordSha256 zeroRecordDigest rows)
    (hdigest : row.DigestOk) : StreamLedger (rows ++ [row]) where
  sequence k hk := by
    rw [List.length_append, List.length_singleton] at hk
    by_cases hlt : k < rows.length
    · rw [List.getElem_append_left hlt]
      exact h.sequence k hlt
    · have hk' : k = rows.length := by omega
      subst hk'
      rw [List.getElem_concat_length rfl]
      exact hseq
  distinct := by
    rw [List.map_append, List.map_singleton]
    rw [List.nodup_append]
    refine ⟨h.distinct, by simp, ?_⟩
    intro a ha b hb
    rw [List.mem_singleton] at hb
    rintro rfl
    exact hnew (hb ▸ ha)
  linked := (Chain.linked_concat _ _ _ _ _).mpr ⟨h.linked, hprior⟩
  digest r hr := by
    rcases List.mem_append.mp hr with hr | hr
    · exact h.digest r hr
    · rw [List.mem_singleton.mp hr]
      exact hdigest

end StreamLedger

/-! ### The transaction -/

/-- The row that the transaction inserts into a stream with the rows `rows`. It is the whole effect
of an accepted event on the table. -/
structure Appends (rows : List ObservationRow) (event : ObservationEvent)
    (payloadSha256 : String) (row : ObservationRow) : Prop where
  /-- No row has the event id. -/
  fresh : rows.find? (fun row => row.eventId = event.eventId) = none
  /-- The sequence number of the event is the next one. -/
  next : checkedSucc (priorOf (ObservationTable.cursor rows)).1 = some event.sourceSequence
  eventId : row.eventId = event.eventId
  sourceSequence : row.sourceSequence = event.sourceSequence
  payloadSha256 : row.payloadSha256 = payloadSha256
  priorRecordSha256 : row.priorRecordSha256 = (priorOf (ObservationTable.cursor rows)).2
  digest : row.DigestOk

/-- A row that the transaction appends continues the stream. -/
theorem StreamLedger.appends {rows : List ObservationRow} {event : ObservationEvent}
    {payloadSha256 : String} {row : ObservationRow} (h : StreamLedger rows)
    (ha : Appends rows event payloadSha256 row) : StreamLedger (rows ++ [row]) := by
  obtain ⟨hseq, hprior⟩ := h.priorOf_cursor
  refine h.concat ?_ ?_ ?_ ha.digest
  · rw [ha.sourceSequence, checkedSucc_toInt ha.next, hseq]
  · rw [ha.eventId]
    intro hmem
    obtain ⟨row', hrow', hid⟩ := List.mem_map.mp hmem
    have := List.find?_eq_none.mp ha.fresh row' hrow'
    simp [hid] at this
  · rw [ha.priorRecordSha256, hprior]

variable [Postgres]

/-- Everything `store_database` can do, with the errors: refuse an event that is stored with
other contents, answer with the receipt of a stored event, refuse a sequence number that is
not the next one or a body that is too long, or append one row to the stream of the event. -/
theorem storeDatabase_results {transport : VerifiedTransport} {event : ObservationEvent}
    {payloadSha256 : String} {bodyLen : Nat} {candidate : ReceiptIdentity}
    {db db' : ObservationDb} {res : Except IngestError StorageOutcome}
    (h : observationEngine.Runs db
      (storeDatabase transport event payloadSha256 bodyLen candidate) res db') :
    let stream : ObservationCell := ⟨transport.ownerSubject, event.sourceId⟩
    (∃ row, (db stream).find? (fun row => row.eventId = event.eventId) = some row ∧
      ¬ (row.payloadSha256 = payloadSha256 ∧ row.sourceSequence = event.sourceSequence) ∧
      res = .error .eventConflict ∧ db' = db) ∨
    (∃ row, (db stream).find? (fun row => row.eventId = event.eventId) = some row ∧
      row.payloadSha256 = payloadSha256 ∧ row.sourceSequence = event.sourceSequence ∧
      res = .ok ⟨true, row.receiptId, Postgres.toChar row.receivedAt⟩ ∧ db' = db) ∨
    ((db stream).find? (fun row => row.eventId = event.eventId) = none ∧
      checkedSucc (priorOf (ObservationTable.cursor (db stream))).1
        ≠ some event.sourceSequence ∧
      res = .error .sequenceConflict ∧ db' = db) ∨
    (2 ^ 63 ≤ bodyLen ∧ res = .error .bodyTooLarge ∧ db' = db) ∨
    ∃ row, Appends (db stream) event payloadSha256 row ∧
      row.receiptId = candidate.receiptId ∧
      Postgres.timestamptz candidate.receivedAt = some row.receivedAt ∧
      res = .ok ⟨false, candidate.receiptId, candidate.receivedAt⟩ ∧
      db' = Function.update db stream (db stream ++ [row]) := by
  intro stream
  obtain ⟨_, _, hrun, h⟩ := observation_runs_stmt h
  cases hrun
  rw [observationEngine.overlay_noWrites] at h
  obtain ⟨_, w, hrun, h⟩ := observation_runs_stmt h
  have hw : w = writeNothing := by
    simp only [ObservationTable.run] at hrun
    split at hrun
    · cases hrun
      rfl
    · cases hrun
  subst hw
  rw [observationEngine.overlay_noWrites] at h
  obtain ⟨existing, _, hrun, h⟩ := observation_runs_stmt h
  cases hrun
  rw [observationEngine.overlay_noWrites] at h
  cases hfind : (db stream).find? (fun row => row.eventId = event.eventId) with
  | some row =>
    rw [hfind] at h
    dsimp only at h
    split at h
    · next hsame => exact .inr (.inl ⟨row, rfl, hsame.1, hsame.2, h.1, h.2⟩)
    · next hdiffer => exact .inl ⟨row, rfl, hdiffer, h.1, h.2⟩
  | none =>
    rw [hfind] at h
    obtain ⟨cursor, _, hrun, h⟩ := observation_runs_stmt h
    cases hrun
    rw [observationEngine.overlay_noWrites] at h
    rcases (observationEngine.runs_ofExcept_bind_iff _ _ _ _ _).mp h with
      ⟨e, he, hres, hdb⟩ | ⟨expected, hexpected, h⟩
    · -- The sequence number of the cursor has no successor.
      cases hsucc : checkedSucc (priorOf (ObservationTable.cursor (db stream))).1 with
      | some expected =>
        rw [hsucc] at he
        cases he
      | none =>
        rw [hsucc] at he
        cases he
        exact .inr (.inr (.inl ⟨rfl, (Option.some_ne_none _).symm, hres, hdb⟩))
    rw [Outcome.okOr_eq_ok_iff] at hexpected
    split at h
    · next hne =>
      refine .inr (.inr (.inl ⟨rfl, ?_, h.1, h.2⟩))
      rw [hexpected, ne_eq, Option.some.injEq]
      exact fun heq => hne heq.symm
    · next heq =>
      split at h
      · next hlength => exact .inr (.inr (.inr (.inl ⟨hlength, h.1, h.2⟩)))
      · obtain ⟨_, w, hrun, h⟩ := observation_runs_stmt h
        simp only [ObservationTable.run] at hrun
        split at hrun
        · next stored hstored =>
          cases hrun
          obtain ⟨observedAt, -, hstored⟩ := Option.bind_eq_some_iff.mp hstored
          obtain ⟨receivedAt, hreceivedAt, hstored⟩ := Option.bind_eq_some_iff.mp hstored
          cases hstored
          rw [← not_not.mp heq] at hexpected
          rw [observationEngine.overlay_writeCell] at h
          refine .inr (.inr (.inr (.inr ⟨_, ⟨hfind, hexpected, ?_, ?_, ?_, ?_, ?_⟩, rfl,
            hreceivedAt, h.1, h.2⟩)))
          · rfl
          · rfl
          · rfl
          · rfl
          · exact rfl
        · cases hrun

/-- Everything `store_database` can do: end in an error, find the event and answer with its
receipt, or append one row to the stream of the event. -/
theorem storeDatabase_cases {transport : VerifiedTransport} {event : ObservationEvent}
    {payloadSha256 : String} {bodyLen : Nat} {candidate : ReceiptIdentity}
    {db db' : ObservationDb} {res : Except IngestError StorageOutcome}
    (h : observationEngine.Runs db
      (storeDatabase transport event payloadSha256 bodyLen candidate) res db') :
    let stream : ObservationCell := ⟨transport.ownerSubject, event.sourceId⟩
    (∃ e, res = .error e) ∨
    (∃ row ∈ db stream, row.eventId = event.eventId ∧
      row.payloadSha256 = payloadSha256 ∧ row.sourceSequence = event.sourceSequence ∧
      res = .ok ⟨true, row.receiptId, Postgres.toChar row.receivedAt⟩ ∧ db' = db) ∨
    ∃ row, Appends (db stream) event payloadSha256 row ∧
      row.receiptId = candidate.receiptId ∧
      Postgres.timestamptz candidate.receivedAt = some row.receivedAt ∧
      res = .ok ⟨false, candidate.receiptId, candidate.receivedAt⟩ ∧
      db' = Function.update db stream (db stream ++ [row]) := by
  intro stream
  rcases storeDatabase_results h with ⟨_, -, -, hres, -⟩ | ⟨row, hfind, hpayload, hseq, hres, hdb⟩ |
    ⟨-, -, hres, -⟩ | ⟨-, hres, -⟩ | happends
  · exact .inl ⟨_, hres⟩
  · refine .inr (.inl ⟨row, List.mem_of_find?_eq_some hfind, ?_, hpayload, hseq, hres, hdb⟩)
    simpa using List.find?_some hfind
  · exact .inl ⟨_, hres⟩
  · exact .inl ⟨_, hres⟩
  · exact .inr (.inr happends)

/-- Every stream of the table keeps the promises. -/
def Ledger (db : ObservationDb) : Prop := ∀ c, StreamLedger (db c)

end CanonicalApi
