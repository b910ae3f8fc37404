import CanonicalApi.Lib.Replay
import CanonicalApi.Observation.Clock
import CanonicalApi.Observation.Memory
import Mathlib.Data.List.Nodup

/-!
# `CanonicalApi.Observation.Receipts`: receipts of repeated deliveries

Both stores are receivers in the sense of `Replay`: they answer a repeated event from what they
keep of the first answer. The store in memory keeps the receipt as it is. The database keeps
the receipt time as a `timestamptz` and writes it anew for every repetition.

An admitted repetition of an accepted delivery for the same owner is always answered from memory
(`storeMemory_repetition`). In the database its transaction can run to its end, and it is refused
only when a statement or the commit fails (`storeDatabase_repetition`).

`exact_replay_iff` adds what the answer is. A repetition for the same owner is always a duplicate
with the original receipt id. In memory its receipt time is the original one as well. In the
database it is the original one exactly when the fraction of the receive time has six digits.
-/

set_option autoImplicit false

namespace CanonicalApi

open Transaction Transition
open Outcome (okOr)

/-- A call of `ingest` that was answered with a receipt. -/
structure Answer where
  admitted : AdmittedObservation
  receipt : ObservationReceipt

/-- What the contract compares of an answer: the event, its content, and the receipt. -/
def Answer.entry (answer : Answer) : Replay.Entry EventKey (String × Int64) (String × String) where
  key := answer.admitted.eventKey
  content := (answer.admitted.payloadSha256, answer.admitted.event.sourceSequence)
  receipt := (answer.receipt.receiptId, answer.receipt.receivedAt)
  duplicate := answer.receipt.duplicate

/-- The receipt of an accepted observation is the one that the call made. -/
def Answer.Fresh (answer : Answer) : Prop :=
  answer.receipt.duplicate = false →
    answer.receipt.receiptId = answer.admitted.candidate.receiptId ∧
      answer.receipt.receivedAt = answer.admitted.candidate.receivedAt

section

variable [CryptoCrates] [TimeCrate] [UrlCrate] [IngestDecoder]

/-! ### The store in memory -/

/-- What the store in memory knows of each event. -/
def MemoryStore.view (memory : MemoryStore) :
    Replay.View EventKey (String × Int64) (String × String) := fun key =>
  (memory.events key).map fun record =>
    ((record.payloadSha256, record.sourceSequence), (record.receiptId, record.receivedAt))

/-- The answers after one more call. A call that is refused before the store, or by it, leaves no
answer. -/
def noteMemoryAnswer (answers : List Answer) (memory : MemoryStore) (delivery : Delivery) :
    List Answer :=
  match admission delivery with
  | .error _ => answers
  | .ok admitted =>
      match storeMemory admitted memory with
      | .error _ => answers
      | .ok (stored, _) => answers ++ [⟨admitted, receiptOf admitted stored⟩]

/-- The store in memory with all answers on record. -/
def memoryAnswers : System (MemoryStore × List Answer) Delivery :=
  memoryIngest.recording [] fun answers memory delivery _ =>
    noteMemoryAnswer answers memory delivery

/-- A call is answered from the store in memory, or leaves it as it is. -/
theorem memory_answer_step {memory memory' : MemoryStore} (answers : List Answer)
    {delivery : Delivery} (h : memoryIngest.step memory delivery memory') :
    memory' = memory ∧ noteMemoryAnswer answers memory delivery = answers ∨
    ∃ answer : Answer, noteMemoryAnswer answers memory delivery = answers ++ [answer] ∧
      answer.Fresh ∧ admission delivery = .ok answer.admitted ∧
      Replay.Step Eq memory.view answer.entry memory'.view := by
  have h : some (ingestMemory delivery memory).2 = some memory' := h
  rw [← Option.some.inj h]
  unfold noteMemoryAnswer ingestMemory
  -- A delivery that is refused before the store leaves both the store and the record as they are.
  cases hadmit : admission delivery with
  | error _ => exact .inl ⟨rfl, rfl⟩
  | ok admitted =>
    dsimp only
    cases hstore : storeMemory admitted memory with
    | error _ => exact .inl ⟨rfl, rfl⟩
    | ok result =>
      obtain ⟨stored, memory'⟩ := result
      refine .inr ⟨_, rfl, ?_⟩
      -- The key is stored already, and the receipt repeats it, or the delivery writes it.
      rcases storeMemory_cases hstore with
        ⟨existing, hfind, hpayload, hsequence, rfl, rfl⟩ | ⟨hfind, -, rfl, hevents, -⟩
      · refine ⟨nofun, rfl, .replay ?_⟩
        show Option.map _ (memory'.events admitted.eventKey) = _
        rw [hfind, Option.map_some, hpayload, hsequence]
        rfl
      · refine ⟨fun _ => ⟨rfl, rfl⟩, rfl, ?_⟩
        -- The new event changes the view at its own key only.
        have hview : memory'.view = Function.update memory.view admitted.eventKey
            (some ((admitted.payloadSha256, admitted.event.sourceSequence),
              (admitted.candidate.receiptId, admitted.candidate.receivedAt))) := by
          funext key
          show Option.map _ (memory'.events key) = _
          rw [hevents]
          by_cases hkey : key = admitted.eventKey
          · subst hkey
            rw [Function.update_self, Function.update_self]
            rfl
          · rw [Function.update_of_ne hkey, Function.update_of_ne hkey]
            rfl
        rw [hview]
        refine .accept ?_ rfl
        show Option.map _ (memory.events admitted.eventKey) = none
        rw [hfind]
        rfl

/-! ### The database -/

section Database

variable [Postgres]

/-- What the database knows of each event. A repetition is answered with the stored time in
the format of the statement. -/
def databaseView (db : ObservationDb) :
    Replay.View EventKey (String × Int64) (String × String) := fun key =>
  ((db ⟨key.1, key.2.1⟩).find? fun row => row.eventId = key.2.2).map fun row =>
    ((row.payloadSha256, row.sourceSequence), (row.receiptId, Postgres.toChar row.receivedAt))

omit [CryptoCrates] [TimeCrate] [UrlCrate] [IngestDecoder] in
/-- The view of the table at the key of an event is the row with its id in its stream. -/
theorem databaseView_eventKey (db : ObservationDb) (admitted : AdmittedObservation) :
    databaseView db admitted.eventKey =
      ((db admitted.stream).find? fun row => row.eventId = admitted.event.eventId).map fun row =>
        ((row.payloadSha256, row.sourceSequence),
          (row.receiptId, Postgres.toChar row.receivedAt)) := rfl

/-- How the database keeps a receipt: the id as it is, the time through its columns. -/
def KeptInDatabase (receipt kept : String × String) : Prop :=
  kept.1 = receipt.1 ∧
    ∃ micros, Postgres.timestamptz receipt.2 = some micros ∧ kept.2 = Postgres.toChar micros

/-- The answers after one more step of the service. -/
def noteAnswer (answers : List Answer) (procs : Nat → Option IngestProc)
    (a : ingestService.Action) (procs' : Nat → Option IngestProc) : List Answer :=
  match procs a.pid, procs' a.pid with
  | some (.storing admitted), some (.answered receipt) => answers ++ [⟨admitted, receipt⟩]
  | _, _ => answers

/-- The service with all answers on record. -/
def databaseAnswers : System (ingestService.State × List Answer) ingestService.Action :=
  ingestService.interleaved.recording [] fun answers s a s' =>
    noteAnswer answers s.procs a s'.procs

/-- The same for the atomic system. -/
def atomicAnswers : System (ingestService.Core × List Answer) ingestService.Action :=
  ingestService.atomic.recording [] fun answers c a c' => noteAnswer answers c.procs a c'.procs

omit [TimeCrate] [UrlCrate] [IngestDecoder] [Postgres] in
/-- In a stream without repeated event ids a row is found under its event id. -/
theorem StreamLedger.find?_eq {rows : List ObservationRow} (h : StreamLedger rows)
    {row : ObservationRow} (hrow : row ∈ rows) :
    rows.find? (fun r => r.eventId = row.eventId) = some row := by
  have hsome : (rows.find? fun r => r.eventId = row.eventId).isSome = true :=
    List.find?_isSome.mpr ⟨row, hrow, by simp⟩
  obtain ⟨found, hfound⟩ := Option.isSome_iff_exists.mp hsome
  have hid := List.find?_some hfound
  rw [decide_eq_true_eq] at hid
  rw [hfound, List.inj_on_of_nodup_map h.distinct (List.mem_of_find?_eq_some hfound) hrow hid]

omit [CryptoCrates] [TimeCrate] [UrlCrate] [IngestDecoder] in
/-- Storing a row adds its event to what the database knows. -/
theorem databaseView_append (db : ObservationDb) (admitted : AdmittedObservation)
    {row : ObservationRow} (hid : row.eventId = admitted.event.eventId)
    (hfresh : (db admitted.stream).find? (fun r => r.eventId = admitted.event.eventId) = none) :
    databaseView (Function.update db admitted.stream (db admitted.stream ++ [row])) =
      Function.update (databaseView db) admitted.eventKey
        (some ((row.payloadSha256, row.sourceSequence),
          (row.receiptId, Postgres.toChar row.receivedAt))) := by
  funext ⟨owner, source, eventId⟩
  -- Only the stream of the row changes, and in it only the key of its event, since the row stands
  -- at the end.
  by_cases hstream : (⟨owner, source⟩ : ObservationCell) = admitted.stream
  · cases hstream
    by_cases hevent : eventId = admitted.event.eventId
    · subst hevent
      have hfind : (db admitted.stream ++ [row]).find?
          (fun r => r.eventId = admitted.event.eventId) = some row := by
        rw [List.find?_append, hfresh, List.find?_singleton, if_pos (decide_eq_true hid)]
        rfl
      show Option.map _ ((Function.update db admitted.stream _ admitted.stream).find? _) =
        Function.update (databaseView db) admitted.eventKey _ admitted.eventKey
      rw [Function.update_self, Function.update_self, hfind]
      rfl
    · have hkey : (admitted.transport.ownerSubject, admitted.event.sourceId, eventId) ≠
          admitted.eventKey := fun heq => hevent (congrArg (·.2.2) heq)
      have hfind : (db admitted.stream ++ [row]).find? (fun r => r.eventId = eventId) =
          (db admitted.stream).find? (fun r => r.eventId = eventId) := by
        rw [List.find?_append, List.find?_singleton, if_neg, Option.or_none]
        rw [hid, decide_eq_true_eq]
        exact fun heq => hevent heq.symm
      rw [Function.update_of_ne hkey]
      show Option.map _ ((Function.update db admitted.stream _ admitted.stream).find? _) = _
      rw [Function.update_self, hfind]
      rfl
  · have hkey : (owner, source, eventId) ≠ admitted.eventKey := by
      intro heq
      cases heq
      exact hstream rfl
    rw [Function.update_of_ne hkey]
    show Option.map _ ((Function.update db admitted.stream _ ⟨owner, source⟩).find? _) = _
    rw [Function.update_of_ne hstream]
    rfl

/-- A call that waits for its storage is answered by the commit of its own transaction only, with
the receipt of what was stored. -/
theorem answered_runs {c c' : ingestService.Core} {a : ingestService.Action} {pid : Nat}
    {admitted : AdmittedObservation} {receipt : ObservationReceipt}
    (h : ingestService.AtomicStep c a c') (hp : c.procs pid = some (.storing admitted))
    (hp' : c'.procs pid = some (.answered receipt)) :
    ∃ stored, observationEngine.Runs c.db
        (storeDatabase admitted.transport admitted.event admitted.payloadSha256
          admitted.bodyLen admitted.candidate) (.ok stored) c'.db ∧
      receipt = receiptOf admitted stored := by
  cases h.origin hp' with
  | same hp'' => cases hp.symm.trans hp''
  | arrived _ harrives => cases harrives
  | @resumed _ _ res db' _ hp'' hbody hruns hdb hresume =>
    cases hp.symm.trans hp''
    cases hbody
    cases res with
    | ok stored =>
      cases hresume
      exact ⟨stored, hdb ▸ hruns, rfl⟩
    | error _ => cases hresume
  | faulted hp'' _ hresume =>
    cases hp.symm.trans hp''
    cases hresume
  | advanced hp'' hadvance =>
    cases hp.symm.trans hp''
    cases hadvance
  | @started _ p _ _ _ _ hadvance =>
    cases p with
    | delivered delivery =>
      dsimp only at hadvance
      split at hadvance <;> cases hadvance
    | storing _ => cases hadvance
    | answered _ => cases hadvance
    | refused _ => cases hadvance

/-- A step of the service answers one call from the database, or leaves what the database
knows and the answers as they are. -/
theorem database_answer_step {c c' : ingestService.Core} {a : ingestService.Action}
    (answers : List Answer) (hledger : Ledger c.db) (hstoring : StoringAdmitted c)
    (h : ingestService.AtomicStep c a c') :
    databaseView c'.db = databaseView c.db ∧
        noteAnswer answers c.procs a c'.procs = answers ∨
    ∃ answer : Answer, noteAnswer answers c.procs a c'.procs = answers ++ [answer] ∧
      answer.Fresh ∧ (∃ delivery, admission delivery = .ok answer.admitted) ∧
      Replay.Step KeptInDatabase (databaseView c.db) answer.entry (databaseView c'.db) := by
  by_cases hanswered : ∃ admitted receipt, c.procs a.pid = some (.storing admitted) ∧
      c'.procs a.pid = some (.answered receipt)
  · obtain ⟨admitted, receipt, hp, hp'⟩ := hanswered
    refine .inr ⟨⟨admitted, receipt⟩, by rw [noteAnswer, hp, hp'], ?_⟩
    obtain ⟨stored, hruns, rfl⟩ := answered_runs h hp hp'
    obtain ⟨delivery, hadmit⟩ := hstoring a.pid admitted hp
    rcases storeDatabase_cases hruns with
      ⟨e, he⟩ | ⟨row, hrow, hid, hpayload, hsequence, hres, hdb⟩ |
      ⟨row, hrow, hreceipt, hcast, hres, hdb⟩
    · cases he
    · cases hres
      rw [hdb]
      refine ⟨nofun, ⟨delivery, hadmit⟩, .replay ?_⟩
      have hfind := (hledger _).find?_eq hrow
      rw [hid] at hfind
      show databaseView c.db admitted.eventKey = _
      rw [databaseView_eventKey, AdmittedObservation.stream, hfind, Option.map_some, hpayload,
        hsequence]
      rfl
    · cases hres
      refine ⟨fun _ => ⟨rfl, rfl⟩, ⟨delivery, hadmit⟩, ?_⟩
      have hview := databaseView_append c.db admitted hrow.eventId hrow.fresh
      rw [hrow.payloadSha256, hrow.sourceSequence] at hview
      have hdb : c'.db =
        Function.update c.db admitted.stream (c.db admitted.stream ++ [row]) := hdb
      rw [hdb, hview]
      refine .accept ?_ ⟨hreceipt, row.receivedAt, hcast, rfl⟩
      rw [databaseView_eventKey, AdmittedObservation.stream, hrow.fresh]
      rfl
  · refine .inl ⟨?_, ?_⟩
    · rcases ingest_step_cases h with hsame | ⟨pid, admitted, stored, row, rfl, hp, hp', -⟩
      · rw [hsame]
      · exact absurd ⟨_, _, hp, hp'⟩ hanswered
    · unfold noteAnswer
      split
      · next admitted receipt hp hp' => exact absurd ⟨_, _, hp, hp'⟩ hanswered
      · rfl

end Database

/-! ### Repetitions -/

/-- `first` was accepted with the answer `x`, and `later` delivers the same body, and with it
the same event id and sequence number, and is admitted as `again`. -/
structure Repeats (x : Answer) (again : AdmittedObservation) (first later : Delivery) : Prop where
  firstAdmitted : admission first = .ok x.admitted
  accepted : x.receipt.duplicate = false
  laterAdmitted : admission later = .ok again
  body : later.body = first.body

/-- Both deliveries were verified for one owner. -/
def SameOwner (x : Answer) (again : AdmittedObservation) : Prop :=
  again.transport.ownerSubject = x.admitted.transport.ownerSubject

/-- The receipt of a repetition as the contract promises it. -/
def ReplaysExactly (first later : ObservationReceipt) : Prop :=
  later.duplicate = true ∧ later.receiptId = first.receiptId ∧
    later.receivedAt = first.receivedAt

/-- No two calls drew the same receipt id (`Uuid::new_v4`). -/
def ReceiptsDistinct (answers : List Answer) : Prop :=
  (answers.map fun answer => answer.admitted.candidate.receiptId).Nodup

/-- What is known of the answers of a store. -/
structure AnswersOk (kept : String × String → String × String → Prop)
    (view : Replay.View EventKey (String × Int64) (String × String)) (answers : List Answer) :
    Prop where
  consistent : Replay.Consistent kept view (answers.map Answer.entry)
  fresh : ∀ answer ∈ answers, answer.Fresh

section

variable {kept : String × String → String × String → Prop}
  {view view' : Replay.View EventKey (String × Int64) (String × String)} {answers : List Answer}
  {x : Answer} {again : AdmittedObservation} {first later : Delivery}

/-- A repetition brings the same event. -/
theorem Repeats.event (h : Repeats x again first later) : again.event = x.admitted.event := by
  have hdecoded := (admits_of_admission h.firstAdmitted).decoded
  have hdecoded' := (admits_of_admission h.laterAdmitted).decoded
  rw [h.body, hdecoded] at hdecoded'
  exact (Option.some.inj hdecoded').symm

/-- Its body has the same digest. -/
theorem Repeats.payload (h : Repeats x again first later) :
    again.payloadSha256 = x.admitted.payloadSha256 := by
  rw [(admits_of_admission h.laterAdmitted).payload, (admits_of_admission h.firstAdmitted).payload,
    h.body]

/-- Its length fits into the column. -/
theorem Repeats.bodyLen_lt (h : Repeats x again first later) : again.bodyLen < 2 ^ 63 := by
  have hadmits := admits_of_admission h.laterAdmitted
  have hbounded := hadmits.bounded
  unfold maxBodyBytes at hbounded
  rw [hadmits.length]
  exact Nat.lt_of_le_of_lt hbounded (by decide)

/-- For the same owner it is stored under the same key. -/
theorem Repeats.eventKey (h : Repeats x again first later) (howner : SameOwner x again) :
    again.eventKey = x.admitted.eventKey := by
  rw [AdmittedObservation.eventKey, AdmittedObservation.eventKey, h.event, howner]

omit [CryptoCrates] [TimeCrate] [UrlCrate] [IngestDecoder] in
/-- One more answer from the store. -/
theorem AnswersOk.answer (h : AnswersOk kept view answers) {answer : Answer}
    (hfresh : answer.Fresh) (hs : Replay.Step kept view answer.entry view') :
    AnswersOk kept view' (answers ++ [answer]) where
  consistent := by
    rw [List.map_append, List.map_singleton]
    exact hs.consistent h.consistent
  fresh a ha := by
    rcases List.mem_append.mp ha with ha | ha
    · exact h.fresh a ha
    · rw [List.mem_singleton.mp ha]
      exact hfresh

/-- A repetition for the same owner is a duplicate, and the store kept its receipt as that of
the first answer. -/
theorem AnswersOk.replayed (h : AnswersOk kept view answers) {i j : Nat} (hij : i < j)
    (hj : j < answers.length) {first later : Delivery}
    (hrepeats : Repeats answers[i] answers[j].admitted first later)
    (howner : SameOwner answers[i] answers[j].admitted) :
    answers[j].receipt.duplicate = true ∧
      kept (answers[i].receipt.receiptId, answers[i].receipt.receivedAt)
        (answers[j].receipt.receiptId, answers[j].receipt.receivedAt) := by
  have hkey : answers[i].entry.key = answers[j].entry.key := (hrepeats.eventKey howner).symm
  have hj' : j < (answers.map Answer.entry).length := by rwa [List.length_map]
  obtain ⟨hdup, -, hkept⟩ := h.consistent.replayed hij hj' (by
    rw [List.getElem_map, List.getElem_map]
    exact hkey)
  rw [List.getElem_map, List.getElem_map] at hkept
  rw [List.getElem_map] at hdup
  exact ⟨hdup, hkept hrepeats.accepted⟩

/-- A repetition for the same owner finds the content of its event in the store. -/
theorem AnswersOk.known (h : AnswersOk kept view answers) (hx : x ∈ answers)
    (hrepeats : Repeats x again first later) (howner : SameOwner x again) :
    ∃ receipt, view again.eventKey =
      some ((again.payloadSha256, again.event.sourceSequence), receipt) := by
  obtain ⟨receipt, hview, -⟩ := h.consistent.stored _ (List.mem_map_of_mem hx)
  refine ⟨receipt, ?_⟩
  rw [hrepeats.eventKey howner, hrepeats.payload, hrepeats.event]
  exact hview

omit [CryptoCrates] [TimeCrate] [UrlCrate] [IngestDecoder] in
/-- An exact repetition has the owner of the first answer, for the receipt id is that of an
acceptance for its owner. -/
theorem AnswersOk.sameOwner (h : AnswersOk kept view answers)
    (hid : ∀ r r', kept r r' → r'.1 = r.1) (hdistinct : ReceiptsDistinct answers) {x y : Answer}
    (hx : x ∈ answers) (hy : y ∈ answers) (haccepted : x.receipt.duplicate = false)
    (hexact : ReplaysExactly x.receipt y.receipt) : SameOwner x y.admitted := by
  obtain ⟨hdup, hreceipt, -⟩ := hexact
  obtain ⟨e, he, hfresh, hkey, -, hkept⟩ :=
    h.consistent.origin (List.mem_map_of_mem hy) hdup
  obtain ⟨z, hz, rfl⟩ := List.mem_map.mp he
  have hzid : y.receipt.receiptId = z.receipt.receiptId := hid _ _ hkept
  rw [hreceipt, (h.fresh x hx haccepted).1, (h.fresh z hz hfresh).1] at hzid
  have hxz : x = z := List.inj_on_of_nodup_map hdistinct hx hz hzid
  have hkey : z.admitted.eventKey = y.admitted.eventKey := hkey
  rw [SameOwner, hxz]
  exact (congrArg Prod.fst hkey).symm

end

/-- The answers of the store in memory. -/
theorem memoryAnswers_ok {p : MemoryStore × List Answer} (hp : memoryAnswers.Reachable p) :
    AnswersOk Eq p.1.view p.2 := by
  refine hp.induct (I := fun p => AnswersOk Eq p.1.view p.2) ?_ ?_
  · rintro ⟨memory, answers⟩ ⟨hmemory, hanswers⟩
    obtain rfl : memory = MemoryStore.empty := hmemory
    obtain rfl : answers = [] := hanswers
    exact ⟨Replay.Consistent.nil, fun _ h => (nomatch h)⟩
  · intro p delivery p' _ ih _ hstep
    have hanswers : p'.2 = noteMemoryAnswer p.2 p.1 delivery := hstep.2
    rcases memory_answer_step p.2 hstep.1 with
      ⟨hmemory, hnote⟩ | ⟨answer, hnote, hfresh, -, hs⟩
    · rw [hanswers, hnote, hmemory]
      exact ih
    · rw [hanswers, hnote]
      exact ih.answer hfresh hs

/-- The store in memory answers a repetition with a receipt, and stays as it is. -/
theorem storeMemory_repetition {p : MemoryStore × List Answer} (hp : memoryAnswers.Reachable p)
    {x : Answer} (hx : x ∈ p.2) {again : AdmittedObservation} {first later : Delivery}
    (hrepeats : Repeats x again first later) (howner : SameOwner x again) :
    ∃ receipt, ingestMemory later p.1 = (.ok receipt, p.1) ∧
      noteMemoryAnswer p.2 p.1 later = p.2 ++ [⟨again, receipt⟩] := by
  -- The answered event is in the store, with its payload and its sequence.
  obtain ⟨receipt, hview⟩ := (memoryAnswers_ok hp).known hx hrepeats howner
  obtain ⟨existing, hfind, hexisting⟩ := Option.map_eq_some_iff.mp hview
  obtain ⟨hpayload, hsequence⟩ := Prod.mk.inj (Prod.mk.inj hexisting).1
  have hstore : storeMemory again p.1 =
      .ok (⟨true, existing.receiptId, existing.receivedAt⟩, p.1) := by
    unfold storeMemory
    rw [hfind]
    exact if_pos ⟨hpayload, hsequence⟩
  refine ⟨receiptOf again ⟨true, existing.receiptId, existing.receivedAt⟩, ?_, ?_⟩
  · simp only [ingestMemory, hrepeats.laterAdmitted, hstore]
  · simp only [noteMemoryAnswer, hrepeats.laterAdmitted, hstore]

section

variable [Postgres]

/-- The server takes the text of the lock of every stream that has rows. -/
def StreamsLockable (db : ObservationDb) : Prop :=
  ∀ stream, db stream ≠ [] →
    Postgres.acceptsText (readinessLockText stream.ownerSubject stream.sourceId) = true

omit [TimeCrate] [UrlCrate] [IngestDecoder] in
/-- A transaction that ends has locked its stream. -/
theorem storeDatabase_locks {transport : VerifiedTransport} {event : ObservationEvent}
    {payloadSha256 : String} {bodyLen : Nat} {candidate : ReceiptIdentity}
    {db db' : ObservationDb} {res : Except IngestError StorageOutcome}
    (h : observationEngine.Runs db
      (storeDatabase transport event payloadSha256 bodyLen candidate) res db') :
    Postgres.acceptsText (readinessLockText transport.ownerSubject event.sourceId) = true := by
  obtain ⟨_, _, hrun, h⟩ := observation_runs_stmt h
  cases hrun
  obtain ⟨_, _, hrun, -⟩ := observation_runs_stmt h
  simp only [ObservationTable.run] at hrun
  split at hrun
  · next haccepts => exact haccepts
  · cases hrun

/-- Rows come into a stream by a transaction that locked it. -/
theorem streamsLockable_step {c c' : ingestService.Core} {a : ingestService.Action}
    (hc : StreamsLockable c.db) (h : ingestService.AtomicStep c a c') :
    StreamsLockable c'.db := by
  rcases h.commits with hsame | ⟨pid, p, prog, stored, hp, hbody, hruns, -⟩
  · rw [hsame]
    exact hc
  cases p with
  | storing admitted =>
    cases hbody
    have hlocks := storeDatabase_locks hruns
    rcases storeDatabase_cases hruns with
      ⟨e, he⟩ | ⟨_, -, -, -, -, -, hdb⟩ | ⟨row, -, -, -, -, hdb⟩
    · cases he
    · rw [hdb]
      exact hc
    · rw [hdb]
      intro stream hrows
      -- The transaction that wrote this stream has taken its lock.
      by_cases hstream : stream = ⟨admitted.transport.ownerSubject, admitted.event.sourceId⟩
      · rw [hstream]
        exact hlocks
      · rw [Function.update_of_ne hstream] at hrows
        exact hc stream hrows
  | delivered _ => cases hbody
  | answered _ => cases hbody
  | refused _ => cases hbody

/-- What holds of the service with a database in every reachable state. -/
structure DatabaseOk (c : ingestService.Core) (answers : List Answer) : Prop where
  ledger : Ledger c.db
  storing : StoringAdmitted c
  lockable : StreamsLockable c.db
  answersOk : AnswersOk KeptInDatabase (databaseView c.db) answers

/-- The service with a database, in every interleaving. -/
theorem databaseAnswers_ok {p : ingestService.State × List Answer}
    (hp : databaseAnswers.Reachable p) : DatabaseOk p.1.toCore p.2 := by
  have hrefines : databaseAnswers.Refines atomicAnswers (Prod.map Service.State.toCore id) :=
    (Service.interleaved_refines_atomic ingestService_disciplined).recording fun _ _ _ _ => rfl
  -- By induction over the runs in which each transaction is one step.
  have hatomic : ∀ q, atomicAnswers.Reachable q → DatabaseOk q.1 q.2 := by
    intro q hq
    refine hq.induct (I := fun q => DatabaseOk q.1 q.2) ?_ ?_
    · rintro ⟨c, answers⟩ ⟨hc, hanswers⟩
      obtain rfl : c = ⟨ingestService.start, fun _ => none⟩ := hc
      obtain rfl : answers = [] := hanswers
      exact {
        ledger := fun _ => StreamLedger.nil
        storing := fun _ _ h => (nomatch h)
        lockable := fun _ hrows => absurd rfl hrows
        answersOk := ⟨Replay.Consistent.nil, fun _ h => (nomatch h)⟩ }
    · intro q a q' _ ih _ hstep
      have hanswers : q'.2 = noteAnswer q.2 q.1.procs a q'.1.procs := hstep.2
      refine {
        ledger := ledger_step ih.ledger hstep.1
        storing := storingAdmitted_step ih.storing hstep.1
        lockable := streamsLockable_step ih.lockable hstep.1
        answersOk := ?_ }
      rcases database_answer_step q.2 ih.ledger ih.storing hstep.1 with
        ⟨hview, hnote⟩ | ⟨answer, hnote, hfresh, -, hs⟩
      · rw [hanswers, hnote, hview]
        exact ih.answersOk
      · rw [hanswers, hnote]
        exact ih.answersOk.answer hfresh hs
  exact hatomic _ (hrefines.reachable hp)

section

variable {admitted : AdmittedObservation} {db : ObservationDb} {row : ObservationRow}

omit [TimeCrate] [UrlCrate] [IngestDecoder] in
/-- A transaction that finds its event with the same content can run to its end. -/
theorem storeDatabase_replays
    (haccepts : Postgres.acceptsText (readinessLockText admitted.transport.ownerSubject
      admitted.event.sourceId) = true)
    (hfind : (db admitted.stream).find? (fun row => row.eventId = admitted.event.eventId) =
      some row)
    (hpayload : row.payloadSha256 = admitted.payloadSha256)
    (hsequence : row.sourceSequence = admitted.event.sourceSequence) :
    observationEngine.Runs db (storeDatabase admitted.transport admitted.event
      admitted.payloadSha256 admitted.bodyLen admitted.candidate)
      (.ok ⟨true, row.receiptId, Postgres.toChar row.receivedAt⟩) db := by
  refine (observationEngine.runs_stmt_bind_iff _ _ _ _ _).mpr
    ⟨(), db, (), writeNothing, rfl, .inl rfl, ?_⟩
  refine (observationEngine.runs_stmt_bind_iff _ _ _ _ _).mpr
    -- The lock is taken, since the server accepts its text.
    ⟨(), db, (), writeNothing, if_pos haccepts, .inl rfl, ?_⟩
  refine (observationEngine.runs_stmt_bind_iff _ _ _ _ _).mpr
    ⟨(), db, some row, writeNothing, ?_, .inl rfl, ?_⟩
  · show some ((db admitted.stream).find? _, writeNothing) = _
    rw [hfind]
  · show observationEngine.Runs db (if _ then _ else _) _ _
    rw [if_pos ⟨hpayload, hsequence⟩]
    exact ⟨rfl, rfl⟩

omit [TimeCrate] [UrlCrate] [IngestDecoder] in
/-- It does not end in an error. -/
theorem storeDatabase_not_refused {db' : ObservationDb}
    {res : Except IngestError StorageOutcome}
    (h : observationEngine.Runs db (storeDatabase admitted.transport admitted.event
      admitted.payloadSha256 admitted.bodyLen admitted.candidate) res db')
    (hlength : admitted.bodyLen < 2 ^ 63)
    (hfind : (db admitted.stream).find? (fun row => row.eventId = admitted.event.eventId) =
      some row)
    (hpayload : row.payloadSha256 = admitted.payloadSha256)
    (hsequence : row.sourceSequence = admitted.event.sourceSequence) :
    ∃ stored, res = .ok stored := by
  -- One case for each exit; only the replay fits the row that is there.
  rcases storeDatabase_results h with ⟨row', hfind', hdiffer, -⟩ | ⟨_, -, -, -, hres, -⟩ |
    ⟨hnone, -⟩ | ⟨hlong, -⟩ | ⟨_, happends, -⟩
  · obtain rfl := Option.some.inj (hfind.symm.trans hfind')
    exact absurd ⟨hpayload, hsequence⟩ hdiffer
  · exact ⟨_, hres⟩
  · cases hnone.symm.trans hfind
  · exact absurd hlong (Nat.not_le.mpr hlength)
  · cases happends.fresh.symm.trans hfind

end

/-- What becomes of a call that is at its transaction, and of the answers so far, when it moves: it
goes on, it is killed, it is refused because a statement or the commit fails, or it is answered. -/
inductive RepetitionStep (pid : Nat) (again : AdmittedObservation) (answers : List Answer) :
    ingestService.Action → Option IngestProc → List Answer → Prop where
  | begins : RepetitionStep pid again answers (.begin pid) (some (.storing again)) answers
  | goesOn : RepetitionStep pid again answers (.stmt pid ()) (some (.storing again)) answers
  | killed : RepetitionStep pid again answers (.kill pid) none answers
  | fails : RepetitionStep pid again answers (.fail pid) (some (.refused .database)) answers
  | answered (receipt : ObservationReceipt) :
      RepetitionStep pid again answers (.finish pid) (some (.answered receipt))
        (answers ++ [⟨again, receipt⟩])

/-- A call whose transaction does not end in an error moves like this. -/
theorem repetition_step {c c' : ingestService.Core} {a : ingestService.Action} {pid : Nat}
    {again : AdmittedObservation} (answers : List Answer)
    (hpid : c.procs pid = some (.storing again))
    (hresult : ∀ res db', observationEngine.Runs c.db (storeDatabase again.transport again.event
      again.payloadSha256 again.bodyLen again.candidate) res db' → ∃ stored, res = .ok stored)
    (h : ingestService.AtomicStep c a c') (ha : a.pid = pid) :
    RepetitionStep pid again answers a (c'.procs pid)
      (noteAnswer answers c.procs a c'.procs) := by
  -- Only the end of the transaction and its failure leave the state `storing`.
  subst ha
  unfold noteAnswer
  rw [hpid]
  cases a with
  | arrive pid call =>
    obtain ⟨-, hnone, -⟩ := h
    cases hnone.symm.trans hpid
  | begin pid =>
    obtain rfl := h
    have hpid : c'.procs pid = some (.storing again) := hpid
    simp only [Service.Action.pid, hpid]
    exact .begins
  | stmt pid input =>
    obtain rfl := h
    have hpid : c'.procs pid = some (.storing again) := hpid
    simp only [Service.Action.pid, hpid]
    exact .goesOn
  | finish pid =>
    obtain ⟨call, prog, res, db', hcall, hbody, hruns, rfl⟩ := h
    obtain rfl := Option.some.inj (hcall.symm.trans hpid)
    cases hbody
    -- The premise on the runs rules out an error here.
    obtain ⟨stored, rfl⟩ := hresult res db' hruns
    simp only [Service.Action.pid, Service.put, Function.update_self]
    exact .answered _
  | lose pid =>
    obtain ⟨hlossy, -⟩ := h
    -- The ingest loses no commit.
    cases hlossy
  | fail pid =>
    obtain ⟨call, prog, hcall, -, rfl⟩ := h
    obtain rfl := Option.some.inj (hcall.symm.trans hpid)
    simp only [Service.Action.pid, Service.put, Function.update_self]
    exact .fails
  | advance pid event child =>
    obtain ⟨call, _, _, hcall, hbody, -⟩ := h
    obtain rfl := Option.some.inj (hcall.symm.trans hpid)
    cases hbody
  | kill pid =>
    obtain ⟨call, -, -, rfl⟩ := h
    simp only [Service.Action.pid, Function.update_self]
    exact .killed

/-- The database answers a repetition with a receipt, unless a statement or the commit fails. Its
transaction can run to its end, and changes nothing. -/
theorem storeDatabase_repetition {p : ingestService.State × List Answer}
    (hp : databaseAnswers.Reachable p) {x : Answer} (hx : x ∈ p.2) {again : AdmittedObservation}
    {first later : Delivery} (hrepeats : Repeats x again first later)
    (howner : SameOwner x again) :
    (∃ stored, observationEngine.Runs p.1.db (storeDatabase again.transport again.event
      again.payloadSha256 again.bodyLen again.candidate) (.ok stored) p.1.db) ∧
    ∀ pid, p.1.procs pid = some (.storing again) →
      ∀ a p', databaseAnswers.step p a p' → a.pid = pid →
        RepetitionStep pid again p.2 a (p'.1.procs pid) p'.2 := by
  have hok := databaseAnswers_ok hp
  -- The answered event is in the view, and so in the table.
  obtain ⟨receipt, hview⟩ := hok.answersOk.known hx hrepeats howner
  rw [databaseView_eventKey] at hview
  obtain ⟨row, hfind, hrow⟩ := Option.map_eq_some_iff.mp hview
  obtain ⟨hpayload, hsequence⟩ := Prod.mk.inj (Prod.mk.inj hrow).1
  have hrows : p.1.db again.stream ≠ [] := List.ne_nil_of_mem (List.mem_of_find?_eq_some hfind)
  have hlength := hrepeats.bodyLen_lt
  -- Its stream has rows, so its lock text was accepted once and is now.
  have haccepts : Postgres.acceptsText (readinessLockText again.transport.ownerSubject
    again.event.sourceId) = true := hok.lockable again.stream hrows
  have hreplays := storeDatabase_replays haccepts hfind hpayload hsequence
  refine ⟨⟨_, hreplays⟩, ?_⟩
  intro pid hpid a p' ⟨hstep, hnote⟩ ha
  have hatomic := (Service.interleaved_refines_atomic ingestService_disciplined).step _ a _
    (System.reachable_of_recording hp) hstep
  rw [hnote]
  refine repetition_step p.2 hpid ?_ hatomic ha
  intro res db' hruns
  exact storeDatabase_not_refused hruns hlength hfind hpayload hsequence

/-- When a repetition is answered with the original receipt. Let a delivery be accepted, and
let a later call of `ingest` deliver the same body and be admitted, whatever happened in
between.

- In memory the call is answered with a receipt when both deliveries were verified for the same
  owner. The answer is a duplicate with the original id and receipt time exactly then.
- In the database, in every interleaving of the calls, the same holds unless a statement or the
  commit fails or the call is killed, where the receipt time is the original one exactly when in
  addition the fraction of the original receive time has six digits. -/
theorem exact_replay_iff {civil : Int → String} (hclock : ReceiptTimes civil) :
    (∀ p, memoryAnswers.Reachable p →
      (∀ x ∈ p.2, ∀ again first later, Repeats x again first later → SameOwner x again →
        ∃ receipt, ingestMemory later p.1 = (.ok receipt, p.1) ∧
          noteMemoryAnswer p.2 p.1 later = p.2 ++ [⟨again, receipt⟩]) ∧
      (ReceiptsDistinct p.2 → ∀ i j (_ : i < j) (_ : j < p.2.length) first later,
        Repeats p.2[i] p.2[j].admitted first later →
          (ReplaysExactly p.2[i].receipt p.2[j].receipt ↔
            SameOwner p.2[i] p.2[j].admitted))) ∧
    ∀ p, databaseAnswers.Reachable p →
      (∀ x ∈ p.2, ∀ again first later, Repeats x again first later → SameOwner x again →
        (∃ stored, observationEngine.Runs p.1.db (storeDatabase again.transport again.event
          again.payloadSha256 again.bodyLen again.candidate) (.ok stored) p.1.db) ∧
        ∀ pid, p.1.procs pid = some (.storing again) →
          ∀ a p', databaseAnswers.step p a p' → a.pid = pid →
            RepetitionStep pid again p.2 a (p'.1.procs pid) p'.2) ∧
      (ReceiptsDistinct p.2 → ∀ i j (_ : i < j) (_ : j < p.2.length) first later,
        Repeats p.2[i] p.2[j].admitted first later →
          (ReplaysExactly p.2[i].receipt p.2[j].receipt ↔
            SameOwner p.2[i] p.2[j].admitted ∧ SixDigits first.now)) := by
  constructor
  · intro p hp
    have hok := memoryAnswers_ok hp
    constructor
    · intro x hx again first later hrepeats howner
      exact storeMemory_repetition hp hx hrepeats howner
    · intro hdistinct i j hij hj first later hrepeats
      refine ⟨hok.sameOwner (fun _ _ h => congrArg Prod.fst h.symm) hdistinct
        (List.getElem_mem _) (List.getElem_mem _) hrepeats.accepted, fun howner => ?_⟩
      obtain ⟨hdup, hkept⟩ := hok.replayed hij hj hrepeats howner
      exact ⟨hdup, (congrArg Prod.fst hkept).symm, (congrArg Prod.snd hkept).symm⟩
  · intro p hp
    have hok := (databaseAnswers_ok hp).answersOk
    constructor
    · intro x hx again first later hrepeats howner
      exact storeDatabase_repetition hp hx hrepeats howner
    · intro hdistinct i j hij hj first later hrepeats
      -- The time of the first receipt is the formatted clock value of its call.
      have hformat : TimeCrate.format first.now = some p.2[i].receipt.receivedAt := by
        rw [(hok.fresh _ (List.getElem_mem _) hrepeats.accepted).2]
        exact (admits_of_admission hrepeats.firstAdmitted).received
      have htime : SameOwner p.2[i] p.2[j].admitted →
          p.2[j].receipt.duplicate = true ∧
          p.2[j].receipt.receiptId = p.2[i].receipt.receiptId ∧
          (p.2[j].receipt.receivedAt = p.2[i].receipt.receivedAt ↔ SixDigits first.now) := by
        intro howner
        obtain ⟨hdup, hid, micros, hcast, htext⟩ := hok.replayed hij hj hrepeats howner
        refine ⟨hdup, hid, ?_⟩
        rw [← hclock.reformatted_eq_iff hformat hcast, ← htext]
      refine ⟨fun hexact => ?_, fun ⟨howner, hdigits⟩ => ?_⟩
      · have howner := hok.sameOwner (fun _ _ h => h.1) hdistinct (List.getElem_mem _)
          (List.getElem_mem _) hrepeats.accepted hexact
        exact ⟨howner, (htime howner).2.2.mp hexact.2.2⟩
      · obtain ⟨hdup, hid, hiff⟩ := htime howner
        exact ⟨hdup, hid, hiff.mpr hdigits⟩

end

end

/-! ### A repetition of a delivery at a whole second -/

section

attribute [local instance] testTime testUrl testDecoder testCrypto testServer

deriving instance DecidableEq for AdmittedObservation, Answer

/-- The same delivery again, with a receipt id of its own. -/
def testRepetition : Delivery :=
  { testDelivery with receipt := ⟨1⟩ }

/-- Both deliveries, one after the other. -/
def testRepeated : List ingestService.Action :=
  testStored ++ [.arrive 1 (.delivered testRepetition), .advance 1 () 2, .begin 1, .stmt 1 (),
    .stmt 1 (), .stmt 1 (), .finish 1]

/-- What the store gets of a delivery. -/
def testAdmitted (receipt : Uuid) : AdmittedObservation where
  transport := ⟨"key.customer-ci", "org:example"⟩
  event := testEvent 1 "event.test.00000001"
  payloadSha256 := sha256Label testBody
  bodyLen := testBody.length
  candidate := ⟨"rcpt_" ++ String.ofList receipt.digits, "2026-09-09T05:00:00Z"⟩

/-- A delivery like the test delivery is admitted. -/
theorem testDelivery_admission (receipt : Uuid) :
    admission { testDelivery with receipt } = .ok (testAdmitted receipt) := by
  have hcontent : validateContentType testDelivery.headers = .ok () := by
    decide +kernel
  have hbounded : testBody.length ≤ maxBodyBytes := by
    decide +kernel
  have hvalid : validateEvent (testEvent 1 "event.test.00000001") testDelivery.now = .ok () := by
    decide +kernel
  exact admission_of_admits hcontent {
    nonempty := List.cons_ne_nil _ _
    bounded := hbounded
    decoded := rfl
    valid := hvalid
    path := rfl
    verified := testDelivery_verify testBody rfl rfl rfl
    payload := rfl
    length := rfl
    receipt := rfl
    received := rfl }

/-- An answer to it, where `text` is the receipt time. -/
def observationAnswer (receipt : Uuid) (duplicate : Bool) (text : String) : Answer where
  admitted := testAdmitted receipt
  receipt := receiptOf (testAdmitted receipt)
    ⟨duplicate, "rcpt_00000000000000000000000000000000", text⟩

/-- The answers of the database: the second one has the receipt time in another format. -/
theorem testRepeated_answers : ∃ p, databaseAnswers.Reachable p ∧
    p.2 = [observationAnswer ⟨0⟩ false "2026-09-09T05:00:00Z",
      observationAnswer ⟨1⟩ true "2026-09-09T05:00:00.000000Z"] := by
  have hrun : ((System.run (System.record ingestService.next fun answers s a s' =>
      noteAnswer answers s.procs a s'.procs) (ingestService.initial, []) testRepeated).map
        fun p => decide (p.2 = [observationAnswer ⟨0⟩ false "2026-09-09T05:00:00Z",
          observationAnswer ⟨1⟩ true "2026-09-09T05:00:00.000000Z"])) = some true := by
    decide +kernel
  obtain ⟨p, hp, hanswers⟩ := System.exists_reachable_of_run testRepeated _ hrun
  exact ⟨p, System.ReachableWith.of_record hp, of_decide_eq_true hanswers⟩

/-- The second delivery repeats the first one. -/
theorem testRepetition_repeats (text text' : String) :
    Repeats (observationAnswer ⟨0⟩ false text) (observationAnswer ⟨1⟩ true text').admitted
      testDelivery testRepetition where
  firstAdmitted := testDelivery_admission ⟨0⟩
  accepted := rfl
  laterAdmitted := testDelivery_admission ⟨1⟩
  body := rfl

/-- The two calls draw different receipt ids. -/
theorem observationAnswers_distinct (text text' : String) :
    ReceiptsDistinct [observationAnswer ⟨0⟩ false text, observationAnswer ⟨1⟩ true text'] := by
  have hdigits : Uuid.digits ⟨0⟩ ≠ Uuid.digits ⟨1⟩ := by decide
  refine List.nodup_cons.mpr ⟨?_, List.nodup_singleton _⟩
  rw [List.map_singleton, List.mem_singleton]
  intro h
  have h : "rcpt_" ++ String.ofList (Uuid.digits ⟨0⟩) =
    "rcpt_" ++ String.ofList (Uuid.digits ⟨1⟩) := h
  rw [← String.toList_inj, String.toList_append, String.toList_append, String.toList_ofList,
    String.toList_ofList] at h
  exact hdigits (List.append_cancel_left h)

/-- A repetition of an accepted delivery for the same owner, from the database: the receipt
time is not the original one. -/
theorem replay_reformatted :
    ¬ ∀ p, databaseAnswers.Reachable p → ∀ i j (_ : i < j) (_ : j < p.2.length) first later,
      Repeats p.2[i] p.2[j].admitted first later → SameOwner p.2[i] p.2[j].admitted →
        ReplaysExactly p.2[i].receipt p.2[j].receipt := by
  intro h
  obtain ⟨⟨s, answers⟩, hp, rfl⟩ := testRepeated_answers
  have hexact := h _ hp 0 1 Nat.one_pos Nat.one_lt_two testDelivery testRepetition
    (testRepetition_repeats _ _) rfl
  have htime : "2026-09-09T05:00:00.000000Z" = "2026-09-09T05:00:00Z" := hexact.2.2
  exact absurd htime (by decide)

/-- The two formats agree with these clocks. -/
theorem testClocks : ReceiptTimes fun _ => "2026-09-09T05:00:00" where
  point _ := by decide
  format now text h := by
    simp only [TimeCrate.format, Option.ite_none_right_eq_some, Option.some.injEq] at h
    obtain ⟨rfl, rfl⟩ := h
    decide
  cast now text micros h hcast _ := by
    simp only [TimeCrate.format, Option.ite_none_right_eq_some, Option.some.injEq] at h
    obtain ⟨rfl, -⟩ := h
    cases hcast
    decide
  toChar now text micros h hcast := by
    cases hcast
    decide

/-- In memory a repetition has the original receipt, and from the database one of a delivery
at a whole second has not. -/
theorem exact_replay_iff_test :
    (∃ p, memoryAnswers.Reachable p ∧ ∃ x ∈ p.2, ∃ y ∈ p.2,
      x.receipt.duplicate = false ∧ ReplaysExactly x.receipt y.receipt) ∧
    ∃ p, databaseAnswers.Reachable p ∧ ∃ x ∈ p.2, ∃ y ∈ p.2,
      Repeats x y.admitted testDelivery testRepetition ∧
        ¬ ReplaysExactly x.receipt y.receipt := by
  obtain ⟨hmemory, hdatabase⟩ := exact_replay_iff testClocks
  refine ⟨?_, ?_⟩
  · have hrun : ((System.run (System.record (fun memory delivery =>
        some (ingestMemory delivery memory).2) fun answers memory delivery _ =>
          noteMemoryAnswer answers memory delivery) (MemoryStore.empty, [])
            [testDelivery, testRepetition]).map fun p =>
          decide (p.2 = [observationAnswer ⟨0⟩ false "2026-09-09T05:00:00Z",
            observationAnswer ⟨1⟩ true "2026-09-09T05:00:00Z"])) = some true := by
      decide +kernel
    obtain ⟨⟨memory, answers⟩, hp, hanswers⟩ := System.exists_reachable_of_run _ _ hrun
    have hp := System.ReachableWith.of_record hp
    obtain rfl := of_decide_eq_true hanswers
    have hexact := ((hmemory _ hp).2 (observationAnswers_distinct _ _) 0 1 Nat.one_pos
      Nat.one_lt_two testDelivery testRepetition (testRepetition_repeats _ _)).mpr rfl
    exact ⟨_, hp, _, List.mem_cons_self, _, List.mem_cons_of_mem _ List.mem_cons_self, rfl,
      hexact⟩
  · obtain ⟨⟨s, answers⟩, hp, rfl⟩ := testRepeated_answers
    have hiff := (hdatabase _ hp).2 (observationAnswers_distinct _ _) 0 1 Nat.one_pos
      Nat.one_lt_two testDelivery testRepetition (testRepetition_repeats _ _)
    refine ⟨_, hp, _, List.mem_cons_self, _, List.mem_cons_of_mem _ List.mem_cons_self,
      testRepetition_repeats _ _, fun hexact => ?_⟩
    exact absurd (hiff.mp hexact).2 (by decide)

end

end CanonicalApi
