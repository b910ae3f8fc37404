import CanonicalApi.Observation.Memory

/-!
# `CanonicalApi.Observation.Tamper`: the last digest of a stream commits to the stream

A stream that the store built is a `BuiltStream`, in the database (`database_stream_built`) as
well as in memory (`memory_stream_built`). `recordPreimage_injective` says that the text which
`record_digest` hashes can be read in one way only: none of its fields contains a newline.

`last_digest_commits` concludes that two streams with the same last digest agree in every
event id and payload digest, where SHA-256 has no collision among the texts that were hashed
and never gives the zero digest.
-/

set_option autoImplicit false

namespace CanonicalApi

open Transaction Transition
open Chain (Linked tip)

/-! ### The preimage of a record digest -/

/-- The bytes of a text have a newline exactly where the text has one. -/
theorem newline_mem_bytes {value : String} : (10 : UInt8) ∈ bytes value ↔ '\n' ∈ value.toList :=
  mem_bytes_iff (c := '\n') (by decide)

/-- A digest text is one line. -/
theorem newline_notMem_label (digest : List UInt8) :
    '\n' ∉ ("sha256:" ++ hexLower digest).toList := by
  rw [String.toList_append, List.mem_append, not_or]
  refine ⟨by decide, fun h => ?_⟩
  have := isLowerHexChar_of_mem_hexLower h
  exact absurd this (by decide)

/-- A portable identifier is one line. -/
theorem newline_notMem_portable {value : String} (h : portableIdentifier value = true) :
    '\n' ∉ value.toList :=
  not_mem_of_all_bytes (b := 10) (identifierBytes_of_portableIdentifier h) (by decide)
    (by decide)

/-- A line in front of a text can be split off in one way only. -/
theorem line_injective {a b : String} {rest rest' : List UInt8} (ha : '\n' ∉ a.toList)
    (hb : '\n' ∉ b.toList) (h : bytes a ++ bytes "\n" ++ rest = bytes b ++ bytes "\n" ++ rest') :
    a = b ∧ rest = rest' := by
  have hnl : bytes "\n" = [10] := by decide
  rw [hnl, List.append_assoc, List.append_assoc] at h
  obtain ⟨hbytes, hrest⟩ := append_separator_injective
    (newline_mem_bytes.not.mpr ha) (newline_mem_bytes.not.mpr hb) h
  exact ⟨bytes_injective hbytes, hrest⟩

/-- The hashed text determines its first three fields. -/
theorem recordPreimage_injective {prior prior' payload payload' eventId eventId' : String}
    {n n' : Int64} (hprior : '\n' ∉ prior.toList) (hprior' : '\n' ∉ prior'.toList)
    (hpayload : '\n' ∉ payload.toList) (hpayload' : '\n' ∉ payload'.toList)
    (hevent : '\n' ∉ eventId.toList) (hevent' : '\n' ∉ eventId'.toList)
    (h : recordPreimage prior payload eventId n = recordPreimage prior' payload' eventId' n') :
    prior = prior' ∧ payload = payload' ∧ eventId = eventId' := by
  unfold recordPreimage at h
  simp only [List.flatMap_cons] at h
  have h := List.append_cancel_left h
  obtain ⟨h₁, h⟩ := line_injective hprior hprior' h
  obtain ⟨h₂, h⟩ := line_injective hpayload hpayload' h
  obtain ⟨h₃, -⟩ := line_injective hevent hevent' h
  exact ⟨h₁, h₂, h₃⟩

/-! ### Streams -/

/-- What a record digest covers of a stored observation, with the two digests. -/
structure StreamRecord where
  eventId : String
  sourceSequence : Int64
  payloadSha256 : String
  priorRecordSha256 : String
  recordSha256 : String
deriving DecidableEq

/-- The text that the digest of a record hashes. -/
def StreamRecord.preimage (record : StreamRecord) : List UInt8 :=
  recordPreimage record.priorRecordSha256 record.payloadSha256 record.eventId
    record.sourceSequence

/-- The record of a row. -/
def ObservationRow.record (row : ObservationRow) : StreamRecord where
  eventId := row.eventId
  sourceSequence := row.sourceSequence
  payloadSha256 := row.payloadSha256
  priorRecordSha256 := row.priorRecordSha256
  recordSha256 := row.recordSha256

section

variable [CryptoCrates]

/-- A stream that the store built from its first event on. It is what a verifier may assume of a
stream before anybody has altered it. -/
structure BuiltStream (records : List StreamRecord) : Prop where
  /-- The sequence numbers are 1 to n. -/
  sequence : ∀ k (hk : k < records.length), records[k].sourceSequence.toInt = k + 1
  /-- The event ids passed their check. -/
  eventId : ∀ record ∈ records, portableIdentifier record.eventId = true
  /-- The payload digests are digests of delivered bodies. -/
  payload : ∀ record ∈ records, ∃ body, record.payloadSha256 = sha256Label body
  /-- The first record refers to the zero digest, every other one to its predecessor. -/
  linked : Linked StreamRecord.priorRecordSha256 StreamRecord.recordSha256 zeroRecordDigest
    records
  /-- Every digest is the one of `record_digest`. -/
  digest : ∀ record ∈ records,
    record.recordSha256 = "sha256:" ++ hexLower (CryptoCrates.sha256 record.preimage)

namespace BuiltStream

/-- The empty stream is built. -/
theorem nil : BuiltStream [] where
  sequence _ hk := absurd hk (Nat.not_lt_zero _)
  eventId _ h := nomatch h
  payload _ h := nomatch h
  linked := trivial
  digest _ h := nomatch h

variable {records : List StreamRecord}

/-- The next record keeps a stream built. -/
theorem concat (h : BuiltStream records) {record : StreamRecord}
    (hsequence : record.sourceSequence.toInt = records.length + 1)
    (hevent : portableIdentifier record.eventId = true)
    (hpayload : ∃ body, record.payloadSha256 = sha256Label body)
    (hprior : record.priorRecordSha256 =
      tip StreamRecord.recordSha256 zeroRecordDigest records)
    (hdigest : record.recordSha256 = "sha256:" ++ hexLower (CryptoCrates.sha256 record.preimage)) :
    BuiltStream (records ++ [record]) where
  sequence k hk := by
    rw [List.length_append, List.length_singleton] at hk
    -- The records before keep their places.
    by_cases hlt : k < records.length
    · rw [List.getElem_append_left hlt]
      exact h.sequence k hlt
    · have hk' : k = records.length := by omega
      subst hk'
      rw [List.getElem_concat_length rfl]
      exact hsequence
  eventId := by
    intro r hr
    rcases List.mem_append.mp hr with hr | hr
    · exact h.eventId r hr
    · rw [List.mem_singleton.mp hr]
      exact hevent
  payload := by
    intro r hr
    rcases List.mem_append.mp hr with hr | hr
    · exact h.payload r hr
    · rw [List.mem_singleton.mp hr]
      exact hpayload
  linked := (Chain.linked_concat _ _ _ _ _).mpr ⟨h.linked, hprior⟩
  digest := by
    intro r hr
    rcases List.mem_append.mp hr with hr | hr
    · exact h.digest r hr
    · rw [List.mem_singleton.mp hr]
      exact hdigest

/-- No field of a record has a newline. -/
theorem lines (h : BuiltStream records) {record : StreamRecord} (hr : record ∈ records) :
    '\n' ∉ record.priorRecordSha256.toList ∧ '\n' ∉ record.payloadSha256.toList ∧
      '\n' ∉ record.eventId.toList := by
  refine ⟨?_, ?_, newline_notMem_portable (h.eventId record hr)⟩
  · rcases h.linked.prior_cases _ _ hr with hzero | ⟨r, hmem, hprior⟩
    · rw [hzero]
      decide
    · rw [hprior, h.digest r hmem]
      exact newline_notMem_label _
  · obtain ⟨body, hbody⟩ := h.payload record hr
    rw [hbody]
    exact newline_notMem_label _

/-- Records with equal digests agree in what the digest covers, where SHA-256 has no
collision. -/
theorem eq_of_digest_eq {records' : List StreamRecord} (h : BuiltStream records)
    (h' : BuiltStream records') {r r' : StreamRecord} (hr : r ∈ records) (hr' : r' ∈ records')
    (hinj : CryptoCrates.sha256 r.preimage = CryptoCrates.sha256 r'.preimage →
      r.preimage = r'.preimage)
    (heq : r.recordSha256 = r'.recordSha256) :
    (r.eventId, r.payloadSha256) = (r'.eventId, r'.payloadSha256) ∧
      r.priorRecordSha256 = r'.priorRecordSha256 := by
  rw [h.digest r hr, h'.digest r' hr', ← String.toList_inj, String.toList_append,
    String.toList_append] at heq
  have hhex := String.toList_inj.mp (List.append_cancel_left heq)
  have hpre := hinj (hexLower_injective hhex)
  obtain ⟨hprior, hpayload, hevent⟩ := h.lines hr
  obtain ⟨hprior', hpayload', hevent'⟩ := h'.lines hr'
  obtain ⟨h₁, h₂, h₃⟩ :=
    recordPreimage_injective hprior hprior' hpayload hpayload' hevent hevent' hpre
  rw [h₁, h₂, h₃]
  exact ⟨rfl, rfl⟩

end BuiltStream

/-- Tamper evidence. Let `xs` and `ys` be two streams that the store built, each with at least
one record, and let SHA-256 be injective on the texts that their records hash and give the
zero digest for none of them. If the last digests are equal, then the streams have the same
length and the same event id and payload digest at every position. -/
theorem last_digest_commits {xs ys : List StreamRecord} (hx : BuiltStream xs)
    (hy : BuiltStream ys) (hxne : xs ≠ []) (hyne : ys ≠ [])
    (hinj : Set.InjOn CryptoCrates.sha256 {m | ∃ r ∈ xs ++ ys, m = r.preimage})
    (hzero : ∀ r ∈ xs ++ ys,
      "sha256:" ++ hexLower (CryptoCrates.sha256 r.preimage) ≠ zeroRecordDigest)
    (hlast : (xs.getLast hxne).recordSha256 = (ys.getLast hyne).recordSha256) :
    xs.length = ys.length ∧ ∀ k (hk : k < xs.length) (hk' : k < ys.length),
      xs[k].eventId = ys[k].eventId ∧ xs[k].payloadSha256 = ys[k].payloadSha256 := by
  have htip : tip StreamRecord.recordSha256 zeroRecordDigest xs =
      tip StreamRecord.recordSha256 zeroRecordDigest ys := by
    rw [tip, tip, List.getLast?_eq_some_getLast hxne, List.getLast?_eq_some_getLast hyne]
    exact hlast
  -- Equal tips make the two chains equal from the last record back to the first, because no digest
  -- of a record is the zero digest.
  have hmap : xs.map (fun r => (r.eventId, r.payloadSha256)) =
      ys.map fun r => (r.eventId, r.payloadSha256) := by
    refine hx.linked.map_eq_of_tip_eq _ _ hy.linked ?_ ?_ ?_ htip
    · intro r hr
      rw [hx.digest r hr]
      exact hzero r (List.mem_append_left _ hr)
    · intro r hr
      rw [hy.digest r hr]
      exact hzero r (List.mem_append_right _ hr)
    · intro r hr r' hr' heq
      refine hx.eq_of_digest_eq hy hr hr' (fun h => ?_) heq
      exact hinj ⟨r, List.mem_append_left _ hr, rfl⟩ ⟨r', List.mem_append_right _ hr', rfl⟩ h
  -- The lists of what the records say are equal, so they agree in length and place by place.
  have hlength : xs.length = ys.length := by
    have := congrArg List.length hmap
    rwa [List.length_map, List.length_map] at this
  refine ⟨hlength, fun k hk hk' => ?_⟩
  have hat := congrArg (fun l => l[k]?) hmap
  simp only [List.getElem?_map, List.getElem?_eq_getElem hk, List.getElem?_eq_getElem hk',
    Option.map_some, Option.some.injEq, Prod.mk.injEq] at hat
  exact hat

end

section

/-- The digest of the fixture has 32 bytes. -/
theorem length_lengthDigest (m : List UInt8) :
    (UInt8.ofNat m.length :: List.replicate 31 1).length = 32 := rfl

/-- The signature of the fixture has 32 bytes. -/
theorem length_emptyMac : (List.replicate 32 (0 : UInt8)).length = 32 := rfl

/-- Digests that tell texts of different lengths apart. -/
@[reducible] def lengthCrypto : CryptoCrates where
  sha256 m := UInt8.ofNat m.length :: List.replicate 31 1
  hmac _ _ := List.replicate 32 0
  sha256_length m := length_lengthDigest m
  hmac_length _ _ := length_emptyMac

attribute [local instance] lengthCrypto

/-- The first record of a stream. -/
def firstRecord : StreamRecord where
  eventId := "event.test.1"
  sourceSequence := 1
  payloadSha256 := sha256Label [123, 125]
  priorRecordSha256 := zeroRecordDigest
  recordSha256 := recordDigest zeroRecordDigest (sha256Label [123, 125]) "event.test.1" 1

/-- The second record of the stream. -/
def secondRecord : StreamRecord where
  eventId := "event.test.0002"
  sourceSequence := 2
  payloadSha256 := sha256Label []
  priorRecordSha256 := firstRecord.recordSha256
  recordSha256 := recordDigest firstRecord.recordSha256 (sha256Label []) "event.test.0002" 2

/-- The two records of the fixture are a built stream. -/
theorem builtStream_test : BuiltStream [firstRecord, secondRecord] := by
  have hfirst : BuiltStream [firstRecord] :=
    BuiltStream.nil.concat (by decide) (by decide) ⟨[123, 125], rfl⟩ rfl rfl
  exact hfirst.concat (by decide) (by decide) ⟨[], rfl⟩ rfl rfl

/-- None of these digests is the zero digest. -/
theorem lengthCrypto_ne_zero (m : List UInt8) :
    "sha256:" ++ hexLower (CryptoCrates.sha256 m) ≠ zeroRecordDigest := by
  intro h
  have hzero : zeroRecordDigest = "sha256:" ++ hexLower (List.replicate 32 0) := by
    decide
  rw [hzero, ← String.toList_inj, String.toList_append, String.toList_append] at h
  have hbytes := hexLower_injective (String.toList_inj.mp (List.append_cancel_left h))
  -- The second byte is 1 in these digests and 0 in the zero digest.
  have hsecond : (CryptoCrates.sha256 m)[1]? = some 1 := rfl
  rw [hbytes] at hsecond
  cases hsecond

/-- The theorem at a stream of two records, built with a digest that tells the texts of the two
apart: the last digest determines the event and the payload of each. -/
theorem last_digest_commits_test :
    [firstRecord, secondRecord].length = [firstRecord, secondRecord].length ∧
      ∀ k (_ : k < [firstRecord, secondRecord].length)
        (_ : k < [firstRecord, secondRecord].length),
        [firstRecord, secondRecord][k].eventId = [firstRecord, secondRecord][k].eventId ∧
          [firstRecord, secondRecord][k].payloadSha256 =
            [firstRecord, secondRecord][k].payloadSha256 := by
  have hmem : ∀ r ∈ [firstRecord, secondRecord] ++ [firstRecord, secondRecord],
      r = firstRecord ∨ r = secondRecord := by
    intro r hr
    simp only [List.cons_append, List.nil_append, List.mem_cons, List.not_mem_nil, or_false] at hr
    tauto
  have hne : CryptoCrates.sha256 firstRecord.preimage ≠
      CryptoCrates.sha256 secondRecord.preimage := by
    decide +kernel
  refine last_digest_commits builtStream_test builtStream_test (List.cons_ne_nil _ _)
    (List.cons_ne_nil _ _) ?_ ?_ rfl
  · rintro m ⟨r, hr, rfl⟩ m' ⟨r', hr', rfl⟩ heq
    rcases hmem r hr with rfl | rfl <;> rcases hmem r' hr' with rfl | rfl
    · rfl
    · exact absurd heq hne
    · exact absurd heq.symm hne
    · rfl
  · exact fun r _ => lengthCrypto_ne_zero r.preimage

end

/-! ### The streams of the two stores -/

variable [CryptoCrates] [TimeCrate] [UrlCrate] [IngestDecoder]

/-- The fields of an admitted observation that a record digest covers. -/
theorem Admits.fields {delivery : Delivery} {admitted : AdmittedObservation}
    (h : Admits delivery admitted) : portableIdentifier admitted.event.eventId = true ∧
      ∃ body, admitted.payloadSha256 = sha256Label body :=
  ⟨(validateEvent_fields h.valid).1, delivery.body, h.payload⟩

section Database

variable [Postgres]

/-- Every row has an event id that passed its check and the digest of a delivered body. -/
def RowsAdmitted (db : ObservationDb) : Prop :=
  ∀ stream, ∀ row ∈ db stream, portableIdentifier row.eventId = true ∧
    ∃ body, row.payloadSha256 = sha256Label body

/-- A step keeps this: the only statement that adds a row inserts an admitted observation. -/
theorem rowsAdmitted_step {c c' : ingestService.Core} {a : ingestService.Action}
    (hstoring : StoringAdmitted c) (hc : RowsAdmitted c.db)
    (h : ingestService.AtomicStep c a c') : RowsAdmitted c'.db := by
  rcases ingest_step_cases h with hsame | ⟨pid, admitted, stored, row, -, hp, -, hrow, hdb⟩
  · rw [hsame]
    exact hc
  · intro stream r hr
    rw [hdb] at hr
    by_cases hs : stream = ⟨admitted.transport.ownerSubject, admitted.event.sourceId⟩
    · subst hs
      rw [Function.update_self] at hr
      rcases List.mem_append.mp hr with hr | hr
      · exact hc _ r hr
      · obtain ⟨delivery, hadmit⟩ := hstoring pid admitted hp
        rw [List.mem_singleton.mp hr, hrow.eventId, hrow.payloadSha256]
        exact (admits_of_admission hadmit).fields
    · rw [Function.update_of_ne hs] at hr
      exact hc stream r hr

/-- Every stream of the database is a built stream, however the deliveries interleave. -/
theorem database_stream_built {s : ingestService.State} (hs : ingestService.interleaved.Reachable s)
    (stream : ObservationCell) : BuiltStream ((s.db stream).map ObservationRow.record) := by
  have hrefines := Service.interleaved_refines_atomic ingestService_disciplined
  have hatomic : ∀ c, ingestService.atomic.Reachable c →
      Ledger c.db ∧ StoringAdmitted c ∧ RowsAdmitted c.db := by
    intro c hc
    refine hc.induct (I := fun c => Ledger c.db ∧ StoringAdmitted c ∧ RowsAdmitted c.db) ?_ ?_
    · rintro c rfl
      exact ⟨fun _ => StreamLedger.nil, fun _ _ h => (nomatch h), fun _ _ h => (nomatch h)⟩
    · intro c a c' _ ih _ hstep
      exact ⟨ledger_step ih.1 hstep, storingAdmitted_step ih.2.1 hstep,
        rowsAdmitted_step ih.2.1 ih.2.2 hstep⟩
  obtain ⟨hledger, -, hrows⟩ := hatomic _ (hrefines.reachable hs)
  have hstream := hledger stream
  refine ⟨?_, ?_, ?_, ?_, ?_⟩
  · intro k hk
    rw [List.getElem_map]
    exact hstream.sequence k (by simpa using hk)
  · intro record hrecord
    obtain ⟨row, hrow, rfl⟩ := List.mem_map.mp hrecord
    exact (hrows stream row hrow).1
  · intro record hrecord
    obtain ⟨row, hrow, rfl⟩ := List.mem_map.mp hrecord
    exact (hrows stream row hrow).2
  · exact Chain.linked_map.mpr hstream.linked
  · intro record hrecord
    obtain ⟨row, hrow, rfl⟩ := List.mem_map.mp hrecord
    exact hstream.digest row hrow

end Database

/-- The record that a call of `store_memory` appends to a stream, with the digest that it computes
and keeps as the cursor. -/
def memoryRecordOf (admitted : AdmittedObservation) (memory : MemoryStore) : StreamRecord where
  eventId := admitted.event.eventId
  sourceSequence := admitted.event.sourceSequence
  payloadSha256 := admitted.payloadSha256
  priorRecordSha256 := (priorOfStream (memory.streams admitted.stream)).2
  recordSha256 := recordDigest (priorOfStream (memory.streams admitted.stream)).2
    admitted.payloadSha256 admitted.event.eventId admitted.event.sourceSequence

/-- The records so far, stream by stream. The store itself keeps only the cursors. -/
def noteRecords (records : ObservationCell → List StreamRecord) (memory : MemoryStore)
    (delivery : Delivery) : ObservationCell → List StreamRecord :=
  match admission delivery with
  | .error _ => records
  | .ok admitted =>
      match storeMemory admitted memory with
      | .ok (⟨false, _, _⟩, _) => Function.update records admitted.stream
          (records admitted.stream ++ [memoryRecordOf admitted memory])
      | _ => records

/-- The store in memory, with its records on record. -/
def recordedMemory : System (MemoryStore × (ObservationCell → List StreamRecord)) Delivery :=
  memoryIngest.recording (fun _ => []) fun records memory delivery _ =>
    noteRecords records memory delivery

/-- The cursor of a stream points to its last record. -/
structure CursorOk (cursor : Option StreamCursor) (records : List StreamRecord) : Prop where
  sequence : (priorOfStream cursor).1.toInt = records.length
  digest : (priorOfStream cursor).2 = tip StreamRecord.recordSha256 zeroRecordDigest records

/-- Every stream in memory is a built stream, and its cursor points to the last record. -/
theorem memory_stream_built {p : MemoryStore × (ObservationCell → List StreamRecord)}
    (hp : recordedMemory.Reachable p) (stream : ObservationCell) :
    BuiltStream (p.2 stream) ∧ CursorOk (p.1.streams stream) (p.2 stream) := by
  refine hp.induct (I := fun p => ∀ stream,
    BuiltStream (p.2 stream) ∧ CursorOk (p.1.streams stream) (p.2 stream)) ?_ ?_ stream
  · rintro p ⟨hinit, hrecords⟩ stream
    have hempty : p.1 = MemoryStore.empty := hinit
    rw [hrecords, hempty]
    exact ⟨.nil, rfl, rfl⟩
  · intro p delivery p' _ ih _ hstep stream
    have hmemory : some (ingestMemory delivery p.1).2 = some p'.1 := hstep.1
    have hrecords : p'.2 = noteRecords p.2 p.1 delivery := hstep.2
    rw [hrecords, ← Option.some.inj hmemory]
    unfold noteRecords ingestMemory
    cases hadmit : admission delivery with
    | error _ => exact ih stream
    | ok admitted =>
      dsimp only
      cases hstore : storeMemory admitted p.1 with
      | error _ => exact ih stream
      | ok result =>
        obtain ⟨stored, memory'⟩ := result
        rcases storeMemory_cases hstore with
          ⟨existing, -, -, -, rfl, rfl⟩ | ⟨-, hnext, rfl, -, hstreams⟩
        · exact ih stream
        · dsimp only
          rw [hstreams]
          by_cases hs : stream = admitted.stream
          · subst hs
            rw [Function.update_self, Function.update_self]
            obtain ⟨hbuilt, hsequence, hdigest⟩ := ih admitted.stream
            have hseq := checkedSucc_toInt hnext
            obtain ⟨hevent, hpayload⟩ := (admits_of_admission hadmit).fields
            refine ⟨hbuilt.concat ?_ hevent hpayload hdigest rfl, ?_, ?_⟩
            · show admitted.event.sourceSequence.toInt = _
              omega
            · show admitted.event.sourceSequence.toInt = _
              rw [List.length_append, List.length_singleton]
              omega
            · rw [Chain.tip_concat]
              rfl
          · rw [Function.update_of_ne hs, Function.update_of_ne hs]
            exact ih stream

end CanonicalApi
