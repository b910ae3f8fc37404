import CanonicalApi.Lib.Interleaving
import CanonicalApi.Observation.Ledger
import Mathlib.Data.Set.Insert

/-!
# `CanonicalApi.Observation.Service`: concurrent deliveries of observations

`ObservationService::ingest` as a process: a delivery is admitted or refused, an admitted one
runs the transaction of `store_database`, and its outcome becomes a receipt or an error. Any
number of deliveries, on any number of replicas with any key rings, run against one database.
A statement can fail at any time, and a process can be killed at any time before it answers.

`observation_ledger` is the main result. In every reachable state of the interleaved system
every stream keeps the promises of `StreamLedger`, a stream only ever grows at its end, and a
call that ended in an error changed nothing. The results are proved for the atomic system and
carried over by `interleaved_refines_atomic`, since the transaction follows the lock
discipline.
-/

set_option autoImplicit false

namespace CanonicalApi

open Transaction Transition
open Outcome (okOr)

/-! ### Admission -/

/-- `MAX_BODY_BYTES`. -/
def maxBodyBytes : Nat := 262144

/-- `RECEIPT_SPEC`. -/
def receiptSpec : String := "canonical.readiness.observation.receipt.v1"

/-- `validate_content_type`. -/
def validateContentType (headers : HeaderMap) : Except IngestError Unit := do
  let value ← okOr .invalidRequest
    (((headers.get "content-type").bind headerToStr).map trim)
  let mediaType := trim (String.ofList (value.toList.takeWhile (· ≠ ';')))
  if mediaType.toList.map toAsciiLowercase = "application/json".toList then .ok ()
  else .error .invalidRequest

/-- A call of `ObservationService::ingest`, with the key ring of its replica, the clock, and
the fresh id of its receipt. -/
structure Delivery where
  keys : KeyRing
  pathSourceId : String
  headers : HeaderMap
  body : List UInt8
  now : Instant
  receipt : Uuid

/-- The parameters of `store_database`. -/
structure AdmittedObservation where
  transport : VerifiedTransport
  event : ObservationEvent
  payloadSha256 : String
  bodyLen : Nat
  candidate : ReceiptIdentity

/-- `ObservationReceipt`, the answer to an accepted event and to its repetition. The last two
members say what the service has not done: nobody has reviewed the observation. -/
structure ObservationReceipt where
  specVersion : String
  receiptId : String
  eventId : String
  sourceId : String
  sourceSequence : Int64
  status : String
  duplicate : Bool
  payloadSha256 : String
  receivedAt : String
  transportVerification : String
  substantiveReview : String
deriving DecidableEq

section

variable [TimeCrate] [UrlCrate] [IngestDecoder] [CryptoCrates]

/-- `ingest`, up to the storage. The order of the checks is that of the source: content type, size,
body, event, path, signature. A delivery that fails one of them never reaches the store. -/
def admission (delivery : Delivery) : Except IngestError AdmittedObservation := do
  validateContentType delivery.headers
  if delivery.body = [] then .error .invalidRequest
  else if delivery.body.length > maxBodyBytes then .error .bodyTooLarge
  else do
    let event ← okOr .invalidRequest (IngestDecoder.event delivery.body)
    validateEvent event delivery.now
    if delivery.pathSourceId ≠ event.sourceId then .error .invalidRequest
    else do
      let transport ← delivery.keys.verify delivery.headers delivery.body event delivery.now
      let receivedAt ← okOr .internal (TimeCrate.format delivery.now)
      return {
        transport
        event
        payloadSha256 := sha256Label delivery.body
        bodyLen := delivery.body.length
        candidate := {
          receiptId := "rcpt_" ++ String.ofList delivery.receipt.digits
          receivedAt } }

/-- What is known of an admitted observation. It holds exactly of the result of `admission`, and the
later proofs use it in place of the code. -/
structure Admits (delivery : Delivery) (admitted : AdmittedObservation) : Prop where
  nonempty : delivery.body ≠ []
  bounded : delivery.body.length ≤ maxBodyBytes
  decoded : IngestDecoder.event delivery.body = some admitted.event
  valid : validateEvent admitted.event delivery.now = .ok ()
  path : delivery.pathSourceId = admitted.event.sourceId
  verified : delivery.keys.verify delivery.headers delivery.body admitted.event delivery.now =
    .ok admitted.transport
  payload : admitted.payloadSha256 = sha256Label delivery.body
  length : admitted.bodyLen = delivery.body.length
  receipt : admitted.candidate.receiptId = "rcpt_" ++ String.ofList delivery.receipt.digits
  received : TimeCrate.format delivery.now = some admitted.candidate.receivedAt

/-- Every admitted observation passed all checks. -/
theorem admits_of_admission {delivery : Delivery} {admitted : AdmittedObservation}
    (h : admission delivery = .ok admitted) : Admits delivery admitted := by
  obtain ⟨_, -, h⟩ := (Outcome.bind_eq_ok_iff _ _ _).mp h
  -- The checks of the handler in their order.
  obtain ⟨hne, h⟩ := (Outcome.ite_error_eq_ok_iff _ _ _ _).mp h
  obtain ⟨hle, h⟩ := (Outcome.ite_error_eq_ok_iff _ _ _ _).mp h
  obtain ⟨event, hevent, h⟩ := (Outcome.bind_eq_ok_iff _ _ _).mp h
  obtain ⟨_, hvalid, h⟩ := (Outcome.bind_eq_ok_iff _ _ _).mp h
  obtain ⟨hpath, h⟩ := (Outcome.ite_error_eq_ok_iff _ _ _ _).mp h
  obtain ⟨transport, hverify, h⟩ := (Outcome.bind_eq_ok_iff _ _ _).mp h
  obtain ⟨text, hformat, h⟩ := (Outcome.bind_eq_ok_iff _ _ _).mp h
  rw [Outcome.okOr_eq_ok_iff] at hevent hformat
  cases h
  exact {
    nonempty := hne
    bounded := Nat.le_of_not_lt hle
    decoded := hevent
    valid := hvalid
    path := not_not.mp hpath
    verified := hverify
    payload := rfl
    length := rfl
    receipt := rfl
    received := hformat }

/-- A delivery that passes all checks is admitted. -/
theorem admission_of_admits {delivery : Delivery} {admitted : AdmittedObservation}
    (hcontent : validateContentType delivery.headers = .ok ()) (h : Admits delivery admitted) :
    admission delivery = .ok admitted := by
  refine (Outcome.bind_eq_ok_iff _ _ _).mpr ⟨(), hcontent, ?_⟩
  refine (Outcome.ite_error_eq_ok_iff _ _ _ _).mpr ⟨h.nonempty, ?_⟩
  refine (Outcome.ite_error_eq_ok_iff _ _ _ _).mpr ⟨Nat.not_lt.mpr h.bounded, ?_⟩
  refine (Outcome.bind_eq_ok_iff _ _ _).mpr
    ⟨_, (Outcome.okOr_eq_ok_iff _ _ _).mpr h.decoded, ?_⟩
  refine (Outcome.bind_eq_ok_iff _ _ _).mpr ⟨(), h.valid, ?_⟩
  refine (Outcome.ite_error_eq_ok_iff _ _ _ _).mpr ⟨not_not.mpr h.path, ?_⟩
  refine (Outcome.bind_eq_ok_iff _ _ _).mpr ⟨_, h.verified, ?_⟩
  refine (Outcome.bind_eq_ok_iff _ _ _).mpr
    ⟨_, (Outcome.okOr_eq_ok_iff _ _ _).mpr h.received, ?_⟩
  rw [← h.payload, ← h.length, ← h.receipt]
  rfl

/-- The receipt of a stored observation. A duplicate has the receipt id and the time of the first
call, as the store kept them. -/
def receiptOf (admitted : AdmittedObservation) (stored : StorageOutcome) :
    ObservationReceipt where
  specVersion := receiptSpec
  receiptId := stored.receiptId
  eventId := admitted.event.eventId
  sourceId := admitted.event.sourceId
  sourceSequence := admitted.event.sourceSequence
  status := if stored.duplicate then "duplicate" else "accepted"
  duplicate := stored.duplicate
  payloadSha256 := admitted.payloadSha256
  receivedAt := stored.receivedAt
  transportVerification := "signature-valid"
  substantiveReview := "unreviewed"

/-! ### The service -/

/-- Where a call of `ingest` is. -/
inductive IngestProc where
  | delivered (delivery : Delivery)
  | storing (admitted : AdmittedObservation)
  | answered (receipt : ObservationReceipt)
  | refused (error : IngestError)

variable [Postgres]

/-- The calls of `ingest` on one database. A call is admitted in a step of its own, which touches no
table, and then runs one transaction. A commit that reports an error has had no effect. -/
@[reducible] def ingestService : Service observationEngine IngestError StorageOutcome where
  Proc := IngestProc
  Event := Unit
  arrives
    | .delivered _ => true
    | _ => false
  final
    | .answered _ | .refused _ => true
    | _ => false
  body
    | .storing admitted =>
        some (storeDatabase admitted.transport admitted.event admitted.payloadSha256
          admitted.bodyLen admitted.candidate)
    | _ => none
  resume
    | .storing admitted, .ok stored => .answered (receiptOf admitted stored)
    | _, .ok _ => .refused .internal
    | _, .error error => .refused error
  advance
    | .delivered delivery, () =>
        match admission delivery with
        | .ok admitted => some (.storing admitted, none)
        | .error error => some (.refused error, none)
    | _, () => none
  fault := .database
  lossy := false
  start _ := []

/-- The transaction of every call follows the lock discipline. -/
theorem ingestService_disciplined : Service.Disciplined ingestService := by
  intro p prog hbody
  cases p with
  | storing admitted =>
    cases hbody
    exact locked_storeDatabase _ _ _ _ _
  | delivered _ => cases hbody
  | answered _ => cases hbody
  | refused _ => cases hbody

/-- A step that changes the table is the commit of a call that is then answered with a fresh
receipt. It appends one row to one stream. -/
theorem ingest_step_cases {c c' : ingestService.Core} {a : ingestService.Action}
    (h : ingestService.AtomicStep c a c') :
    c'.db = c.db ∨ ∃ pid admitted stored row,
      a = .finish pid ∧ c.procs pid = some (.storing admitted) ∧
      c'.procs pid = some (.answered (receiptOf admitted stored)) ∧
      let stream : ObservationCell :=
        ⟨admitted.transport.ownerSubject, admitted.event.sourceId⟩
      Appends (c.db stream) admitted.event admitted.payloadSha256 row ∧
        c'.db = Function.update c.db stream (c.db stream ++ [row]) := by
  rcases h.commits with hsame | ⟨pid, p, prog, stored, hp, hbody, hruns, hprocs⟩
  · exact .inl hsame
  rcases hprocs with ⟨ha, hprocs⟩ | ⟨hlossy, -, -⟩
  · cases p with
    | storing admitted =>
      cases hbody
      -- A commit either finds its event or appends it.
      rcases storeDatabase_cases hruns with
        ⟨e, he⟩ | ⟨_, -, -, -, -, -, hdb⟩ | ⟨row, hrow, -, -, -, hdb⟩
      · cases he
      · exact .inl hdb
      · refine .inr ⟨pid, admitted, stored, row, ha, hp, ?_, hrow, hdb⟩
        rw [hprocs, Service.put, Function.update_self]
    | delivered _ => cases hbody
    | answered _ => cases hbody
    | refused _ => cases hbody
  · cases hlossy

/-- Every call at its transaction holds an observation that was admitted. -/
def StoringAdmitted (c : ingestService.Core) : Prop :=
  ∀ pid admitted, c.procs pid = some (.storing admitted) →
    ∃ delivery, admission delivery = .ok admitted

/-- A step keeps this: a process begins to store only what `admission` has let through. -/
theorem storingAdmitted_step {c c' : ingestService.Core} {a : ingestService.Action}
    (hc : StoringAdmitted c) (h : ingestService.AtomicStep c a c') : StoringAdmitted c' := by
  intro pid admitted hp'
  -- After its transaction a call is answered or refused, whatever it held before.
  have hresume : ∀ (p : IngestProc) (res : Except IngestError StorageOutcome),
      IngestProc.storing admitted ≠ ingestService.resume p res := by
    intro p res heq
    cases p <;> cases res <;> cases heq
  cases h.origin hp' with
  | same hp => exact hc pid admitted hp
  | arrived _ harr => cases harr
  | resumed _ _ _ _ _ hres => exact absurd hres (hresume _ _)
  | faulted _ _ hres => exact absurd hres (hresume _ _)
  | @advanced p e child? _ hadv =>
    cases p with
    | delivered delivery =>
      dsimp only at hadv
      split at hadv
      · next admitted' hadmit =>
        cases hadv
        exact ⟨delivery, hadmit⟩
      · cases hadv
    | storing _ => cases hadv
    | answered _ => cases hadv
    | refused _ => cases hadv
  | @started parent p q e _ _ hadv =>
    cases p with
    | delivered delivery =>
      dsimp only at hadv
      split at hadv <;> cases hadv
    | storing _ => cases hadv
    | answered _ => cases hadv
    | refused _ => cases hadv

/-- A step keeps the promises of all streams. -/
theorem ledger_step {c c' : ingestService.Core} {a : ingestService.Action}
    (hc : Ledger c.db) (h : ingestService.AtomicStep c a c') : Ledger c'.db := by
  rcases ingest_step_cases h with hsame | ⟨pid, admitted, stored, row, -, -, -, hrow, hdb⟩
  · rw [hsame]
    exact hc
  · intro stream
    rw [hdb]
    by_cases hs : stream = ⟨admitted.transport.ownerSubject, admitted.event.sourceId⟩
    · subst hs
      rw [Function.update_self]
      exact (hc _).appends hrow
    · rw [Function.update_of_ne hs]
      exact hc stream

/-- A step only appends to streams. -/
theorem ledger_grows_step {c c' : ingestService.Core} {a : ingestService.Action}
    (h : ingestService.AtomicStep c a c') (stream : ObservationCell) :
    c.db stream <+: c'.db stream := by
  rcases ingest_step_cases h with hsame | ⟨pid, admitted, stored, row, -, -, -, hrow, hdb⟩
  · exact hsame ▸ List.prefix_rfl
  · rw [hdb]
    by_cases hs : stream = ⟨admitted.transport.ownerSubject, admitted.event.sourceId⟩
    · subst hs
      rw [Function.update_self]
      exact List.prefix_append _ _
    · exact (Function.update_of_ne hs _ _).symm ▸ List.prefix_rfl

/-- The calls so far that changed the table. -/
def noteWriters (writers : Set Nat) (db : ObservationDb) (pid : Nat) (db' : ObservationDb) :
    Set Nat :=
  {q | q ∈ writers ∨ q = pid ∧ db' ≠ db}

/-- Every call that changed the table is answered. -/
theorem writers_answered_step {c c' : ingestService.Core} {a : ingestService.Action}
    {writers : Set Nat}
    (hc : ∀ pid ∈ writers, ∃ receipt, c.procs pid = some (.answered receipt))
    (h : ingestService.AtomicStep c a c') :
    ∀ pid ∈ noteWriters writers c.db a.pid c'.db,
      ∃ receipt, c'.procs pid = some (.answered receipt) := by
  rintro pid (hpid | ⟨rfl, hchange⟩)
  · obtain ⟨receipt, hp⟩ := hc pid hpid
    exact ⟨receipt, h.stays hp rfl rfl fun _ => rfl⟩
  · rcases ingest_step_cases h with hsame | ⟨pid, admitted, stored, row, rfl, -, hp, -, -⟩
    · exact absurd hsame hchange
    · exact ⟨_, hp⟩

/-- The deliveries with the calls that changed the table on record. -/
def recordedIngest : System (ingestService.State × Set Nat) ingestService.Action :=
  ingestService.interleaved.recording ∅ fun writers s a s' =>
    noteWriters writers s.db a.pid s'.db

/-- The same for the atomic system. -/
def recordedAtomicIngest : System (ingestService.Core × Set Nat) ingestService.Action :=
  ingestService.atomic.recording ∅ fun writers c a c' =>
    noteWriters writers c.db a.pid c'.db

/-- In every reachable state the calls on record are answered. -/
theorem writers_answered {q : ingestService.Core × Set Nat}
    (hq : recordedAtomicIngest.Reachable q) :
    ∀ pid ∈ q.2, ∃ receipt, q.1.procs pid = some (.answered receipt) := by
  refine hq.induct
    (I := fun q => ∀ pid ∈ q.2, ∃ receipt, q.1.procs pid = some (.answered receipt)) ?_ ?_
  · rintro q ⟨-, hq⟩ pid hpid
    rw [hq] at hpid
    exact absurd hpid (Set.notMem_empty pid)
  · intro q a q' _ ih _ hs
    rw [hs.2]
    exact writers_answered_step ih hs.1

/-- The observation ledger, in every run of any number of concurrent deliveries.

- In every reachable state the rows of each stream have the sequence numbers 1 to n and
  distinct event ids, the first row refers to the zero digest and every later row to the
  digest of its predecessor, and every digest is the one of the row's own fields.
- Whatever happens later, the rows of a stream stay and new ones come after them.
- A call that ended in an error is not among those that changed the table. -/
theorem observation_ledger :
    (∀ s, ingestService.interleaved.Reachable s → ∀ stream,
      (∀ k (hk : k < (s.db stream).length),
        (s.db stream)[k].sourceSequence.toInt = k + 1) ∧
      ((s.db stream).map ObservationRow.eventId).Nodup ∧
      (∀ row, (s.db stream).head? = some row → row.priorRecordSha256 = zeroRecordDigest) ∧
      (∀ k (hk : k + 1 < (s.db stream).length),
        (s.db stream)[k + 1].priorRecordSha256 = (s.db stream)[k].recordSha256) ∧
      ∀ row ∈ s.db stream, row.recordSha256 =
        recordDigest row.priorRecordSha256 row.payloadSha256 row.eventId row.sourceSequence) ∧
    (∀ s s', ingestService.interleaved.Reachable s → ingestService.interleaved.Steps s s' →
      ∀ stream, s.db stream <+: s'.db stream) ∧
    ∀ p, recordedIngest.Reachable p → ∀ pid error,
      p.1.procs pid = some (.refused error) → pid ∉ p.2 := by
  have hrefines := Service.interleaved_refines_atomic ingestService_disciplined
  -- The invariant of each stream, over the atomic steps and carried to the interleaved ones by
  -- refinement.
  have hledger : ∀ c, ingestService.atomic.Reachable c → Ledger c.db := by
    intro c hc
    refine hc.induct (I := fun c => Ledger c.db) ?_ ?_
    · rintro c rfl stream
      exact StreamLedger.nil
    · exact fun _ _ _ _ ih _ hs => ledger_step ih hs
  refine ⟨?_, ?_, ?_⟩
  · intro s hs stream
    have h := hledger _ (hrefines.reachable hs) stream
    exact ⟨h.sequence, h.distinct, fun row hrow => h.linked.head _ _ hrow,
      fun k hk => h.linked.succ _ _ hk, h.digest⟩
  · intro s s' hs hsteps
    -- The prefix order composes over the steps of a run.
    refine System.Steps.rel (R := fun s s' => ∀ stream, s.db stream <+: s'.db stream)
      ?_ ?_ ?_ hsteps hs
    · exact fun s stream => List.prefix_rfl
    · exact fun _ _ _ h₁ h₂ stream => (h₁ stream).trans (h₂ stream)
    · intro s a s' hr hstep stream
      exact ledger_grows_step (hrefines.step s a s' hr hstep) stream
  · intro p hp pid error hrefused hmem
    -- The record of the writers runs beside both systems, so the refinement carries it along.
    have hrec : recordedIngest.Refines recordedAtomicIngest
        (Prod.map Service.State.toCore id) := hrefines.recording fun _ _ _ _ => rfl
    obtain ⟨receipt, hreceipt⟩ := writers_answered (hrec.reachable hp) pid hmem
    have : p.1.procs pid = some (.answered receipt) := hreceipt
    rw [hrefused] at this
    cases this

end

/-! ### A delivery that is stored -/

section

/-- Digests and signatures of zeros. -/
@[reducible] def testCrypto : CryptoCrates where
  sha256 _ := List.replicate 32 0
  hmac _ _ := List.replicate 32 0
  sha256_length _ := rfl
  hmac_length _ _ := rfl

/-- A server that takes exactly the texts without U+0000, at a fixed time. -/
@[reducible] def testServer : Postgres where
  acceptsText text := decide ('\x00' ∉ text.toList)
  hashText _ := 0
  timestamptz _ := some 1788930000000000
  toChar _ := "2026-09-09T05:00:00.000000Z"

attribute [local instance] testTime testUrl testDecoder testCrypto testServer

/-- The body of the first event: its JSON text, byte by byte. -/
def testBody : List UInt8 :=
  [123, 34, 115, 112, 101, 99, 86, 101, 114, 115, 105, 111, 110, 34, 58, 34, 99, 97, 110, 111,
    110, 105, 99, 97, 108, 46, 114, 101, 97, 100, 105, 110, 101, 115, 115, 46, 111, 98, 115, 101,
    114, 118, 97, 116, 105, 111, 110, 46, 118, 49, 34, 44, 34, 101, 118, 101, 110, 116, 73, 100,
    34, 58, 34, 101, 118, 101, 110, 116, 46, 116, 101, 115, 116, 46, 48, 48, 48, 48, 48, 48, 48,
    49, 34, 44, 34, 115, 111, 117, 114, 99, 101, 73, 100, 34, 58, 34, 115, 111, 117, 114, 99,
    101, 46, 99, 117, 115, 116, 111, 109, 101, 114, 45, 99, 105, 34, 44, 34, 115, 111, 117, 114,
    99, 101, 83, 101, 113, 117, 101, 110, 99, 101, 34, 58, 49, 44, 34, 111, 114, 103, 97, 110,
    105, 122, 97, 116, 105, 111, 110, 34, 58, 34, 111, 114, 103, 58, 101, 120, 97, 109, 112, 108,
    101, 34, 44, 34, 111, 98, 115, 101, 114, 118, 101, 100, 65, 116, 34, 58, 34, 50, 48, 50, 54,
    45, 48, 57, 45, 48, 57, 84, 48, 53, 58, 48, 48, 58, 48, 48, 90, 34, 44, 34, 97, 115, 115,
    101, 114, 116, 105, 111, 110, 115, 34, 58, 91, 123, 34, 102, 114, 97, 109, 101, 119, 111,
    114, 107, 73, 100, 34, 58, 34, 115, 111, 99, 50, 45, 116, 115, 99, 34, 44, 34, 99, 111, 110,
    116, 114, 111, 108, 73, 100, 34, 58, 34, 67, 67, 54, 46, 49, 34, 44, 34, 114, 101, 112, 111,
    114, 116, 101, 100, 83, 116, 97, 116, 117, 115, 34, 58, 34, 111, 98, 115, 101, 114, 118, 101,
    100, 34, 44, 34, 101, 118, 105, 100, 101, 110, 99, 101, 73, 100, 115, 34, 58, 91, 93, 125,
    93, 44, 34, 101, 118, 105, 100, 101, 110, 99, 101, 34, 58, 91, 93, 125]

/-- The first event of a stream, with a signature of zeros, as the fixture of the crypto crates
signs it. -/
def testDelivery : Delivery where
  keys := ⟨[("source.customer-ci", testKey)]⟩
  pathSourceId := "source.customer-ci"
  headers := [
    ("content-type", bytes "application/json"),
    ("x-canonical-webhook-id", bytes "event.test.00000001"),
    ("x-canonical-webhook-timestamp", bytes "1788930000"),
    ("x-canonical-webhook-signature",
      bytes "v1=0000000000000000000000000000000000000000000000000000000000000000")]
  body := testBody
  now := 1788930000000000000
  receipt := Uuid.nil

/-- The headers of the delivery sign every body for an event of its id, source and
organization. -/
theorem testDelivery_verify (body : List UInt8) {event : ObservationEvent}
    (hid : event.eventId = "event.test.00000001")
    (hsource : event.sourceId = "source.customer-ci")
    (horganization : event.organization = "org:example") :
    KeyRing.verify ⟨[("source.customer-ci", testKey)]⟩ testDelivery.headers body event
      testDelivery.now = .ok ⟨"key.customer-ci", "org:example"⟩ := by
  have hverify : KeyRing.verify ⟨[("source.customer-ci", testKey)]⟩ testDelivery.headers []
      (testEvent 1 "event.test.00000001") testDelivery.now =
        .ok ⟨"key.customer-ci", "org:example"⟩ := by
    decide +kernel
  unfold KeyRing.verify at hverify ⊢
  rw [hid, hsource, horganization]
  exact hverify

/-- The delivery is admitted and runs its transaction to the commit. -/
def testStored : List ingestService.Action :=
  [.arrive 0 (.delivered testDelivery), .advance 0 () 1, .begin 0, .stmt 0 (), .stmt 0 (),
    .stmt 0 (), .stmt 0 (), .stmt 0 (), .finish 0]

/-- A run that stores the test delivery. It is the first row of its stream, and so it continues the
digest of zeros. -/
theorem observation_ledger_test :
    ∃ s, ingestService.interleaved.Reachable s ∧
      ∃ row, (s.db ⟨"org:example", "source.customer-ci"⟩).head? = some row ∧
        row.priorRecordSha256 = zeroRecordDigest := by
  have hrun : ((System.run ingestService.next ingestService.initial testStored).map
      fun s => (s.db ⟨"org:example", "source.customer-ci"⟩).length == 1) = some true := by
    decide +kernel
  obtain ⟨s, hs, hlength⟩ := System.exists_reachable_of_run testStored _ hrun
  obtain ⟨-, -, hfirst, -⟩ :=
    observation_ledger.1 s hs ⟨"org:example", "source.customer-ci"⟩
  have hone := List.length_eq_one_iff.mp (eq_of_beq hlength)
  obtain ⟨row, hrow⟩ := hone
  have hhead : (s.db ⟨"org:example", "source.customer-ci"⟩).head? = some row := by
    rw [hrow]
    rfl
  exact ⟨s, hs, row, hhead, hfirst row hhead⟩

end

end CanonicalApi
