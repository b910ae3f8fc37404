import CanonicalApi.Observation.Store
import CanonicalApi.Quote.Tables

/-!
# `CanonicalApi.LockText`: the texts that the transactions lock on

Two transactions take an advisory lock on the hash of a text. `lock_idempotency` joins the
subject and the idempotency key with the character U+0000, and `store_database` joins the
owner and the source with a backslash and a zero. Both separators are outside the alphabets
of the parts, so both texts determine their parts (`LockCaller.text_injective`).

A PostgreSQL server with UTF8 encoding refuses every text that contains U+0000. `RefusesNul`
states this. Under it the texts of `store_database` are accepted and those of
`lock_idempotency` never are. A creation or retry of a quote then never runs to an end.
-/

set_option autoImplicit false

namespace CanonicalApi

open Transaction Transaction.Engine

/-- What the lock texts are built from. -/
inductive LockCaller where
  | quote (subject idempotencyKey : String)
  | observation (ownerSubject sourceId : String)
deriving DecidableEq, Repr

namespace LockCaller

/-- The text of the advisory lock. -/
def text : LockCaller → String
  | quote subject idempotencyKey => idempotencyLockText subject idempotencyKey
  | observation ownerSubject sourceId => readinessLockText ownerSubject sourceId

/-- The caller passed the checks in front of its transaction: a subject and a key for a
quote, and for an observation an event that `validate_event` admits under a source for which
`KeyRing::parse` read a key of the owner. -/
def Admitted [TimeCrate] [UrlCrate] [IngestDecoder] : LockCaller → Prop
  | quote subject idempotencyKey =>
      (∃ raw, validSubject raw = some subject) ∧ validIdempotencyKey idempotencyKey = true
  | observation ownerSubject sourceId =>
      (∃ document ring key, KeyRing.parse document = .ok ring ∧
        key ∈ ring.candidates sourceId ∧ key.ownerSubject = ownerSubject) ∧
      ∃ event now, validateEvent event now = .ok () ∧ event.sourceId = sourceId

end LockCaller

/-- The server takes exactly the texts without U+0000. -/
def RefusesNul [Postgres] : Prop :=
  ∀ text, Postgres.acceptsText text = true ↔ '\x00' ∉ text.toList

/-- A separator that occurs in neither part of a text determines the parts. -/
theorem parts_of_separator {a b a' b' : String} {c : Char} {tail : List Char}
    (ha : c ∉ a.toList) (hb : c ∉ tail ++ b.toList)
    (h : a.toList ++ c :: (tail ++ b.toList) = a'.toList ++ c :: (tail ++ b'.toList)) :
    a = a' ∧ b = b' := by
  obtain ⟨ha', -, hb'⟩ := (List.append_cons_inj_of_notMem ha hb).mp h
  refine ⟨String.toList_inj.mp ha', String.toList_inj.mp ?_⟩
  exact List.append_cancel_left hb'

/-- The lock text of an idempotency key, with U+0000 as the separator. -/
theorem toList_idempotencyLockText (subject idempotencyKey : String) :
    (idempotencyLockText subject idempotencyKey).toList =
      subject.toList ++ '\x00' :: ([] ++ idempotencyKey.toList) := by
  simp [idempotencyLockText]

/-- The lock text of an observation stream. Its separator is the two characters `\0`: the source
text of the statement escapes the backslash. -/
theorem toList_readinessLockText (ownerSubject sourceId : String) :
    (readinessLockText ownerSubject sourceId).toList =
      "readiness\\0".toList ++ (ownerSubject.toList ++ '\\' :: (['0'] ++ sourceId.toList)) := by
  simp [readinessLockText]

/-- The text of an observation has no U+0000. -/
theorem nul_not_mem_readinessLockText {ownerSubject sourceId : String}
    (ho : '\x00' ∉ ownerSubject.toList) (hs : '\x00' ∉ sourceId.toList) :
    '\x00' ∉ (readinessLockText ownerSubject sourceId).toList := by
  rw [toList_readinessLockText]
  have hlabel : '\x00' ∉ "readiness\\0".toList := by decide
  simp only [List.mem_append, List.mem_cons, List.not_mem_nil, or_false, not_or]
  exact ⟨hlabel, ho, by decide, by decide, hs⟩

/-- The text of a quote has one. -/
theorem nul_mem_idempotencyLockText (subject idempotencyKey : String) :
    '\x00' ∈ (idempotencyLockText subject idempotencyKey).toList := by
  rw [toList_idempotencyLockText]
  simp

section

variable [TimeCrate] [UrlCrate] [IngestDecoder]

/-- The parts of an admitted lock text contain neither separator. -/
theorem LockCaller.Admitted.alphabet {caller : LockCaller} (h : caller.Admitted) :
    match caller with
    -- Both were checked by the request, with alphabets that hold no U+0000.
    | quote subject idempotencyKey =>
        '\x00' ∉ subject.toList ∧ '\x00' ∉ idempotencyKey.toList
    -- The owner comes from the key document, the source from the event.
    | observation ownerSubject sourceId =>
        ('\x00' ∉ ownerSubject.toList ∧ '\\' ∉ ownerSubject.toList) ∧
          '\x00' ∉ sourceId.toList ∧ '\\' ∉ sourceId.toList := by
  cases caller with
  | quote subject idempotencyKey =>
    obtain ⟨⟨raw, hsubject⟩, hkey⟩ := h
    have hs := not_mem_of_subjectBytes (subjectBytes_of_validSubject hsubject)
    have hk := not_mem_of_identifierBytes (identifierBytes_of_validIdempotencyKey hkey)
    exact ⟨hs.1, hk.1⟩
  | observation ownerSubject sourceId =>
    obtain ⟨⟨document, ring, key, hring, hkey, howner⟩, event, now, hevent, hsource⟩ := h
    have ho : validOwnerSubject ownerSubject = true := by
      rw [← howner]
      exact KeyRing.parse_owner hring hkey
    have hs : portableIdentifier sourceId = true := by
      rw [← hsource]
      exact (validateEvent_fields hevent).2.1
    exact ⟨not_mem_of_subjectBytes (subjectBytes_of_validOwnerSubject ho),
      not_mem_of_identifierBytes (identifierBytes_of_portableIdentifier hs)⟩

/-- Admitted callers with the same lock text are the same. -/
theorem LockCaller.text_injective {caller caller' : LockCaller} (h : caller.Admitted)
    (h' : caller'.Admitted) (htext : caller.text = caller'.text) : caller = caller' := by
  have halpha := h.alphabet
  have halpha' := h'.alphabet
  have hlist : caller.text.toList = caller'.text.toList := by rw [htext]
  cases caller with
  | quote s k =>
    cases caller' with
    | quote s' k' =>
      rw [text, text, toList_idempotencyLockText, toList_idempotencyLockText] at hlist
      obtain ⟨rfl, rfl⟩ := parts_of_separator halpha.1 halpha.2 hlist
      rfl
    | observation o' i' =>
      -- One text has U+0000 and the other has none.
      have hno := nul_not_mem_readinessLockText halpha'.1.1 halpha'.2.1
      have hyes := nul_mem_idempotencyLockText s k
      rw [text, text] at hlist
      rw [hlist] at hyes
      exact absurd hyes hno
  | observation o i =>
    cases caller' with
    | quote s' k' =>
      have hno := nul_not_mem_readinessLockText halpha.1.1 halpha.2.1
      have hyes := nul_mem_idempotencyLockText s' k'
      rw [text, text] at hlist
      rw [← hlist] at hyes
      exact absurd hyes hno
    | observation o' i' =>
      rw [text, text, toList_readinessLockText, toList_readinessLockText] at hlist
      have htail : '\\' ∉ ['0'] ++ i.toList := by
        simp only [List.mem_append, List.mem_singleton, not_or]
        exact ⟨by decide, halpha.2.2⟩
      obtain ⟨rfl, rfl⟩ := parts_of_separator halpha.1.2 htail (List.append_cancel_left hlist)
      rfl

end

section

variable [CanonicalLib] [Postgres] {db db' : QuoteDb}

/-- When the server refuses the lock text, a creation does not run to an end. -/
theorem not_runs_createQuote {subject idempotencyKey : String}
    (h : Postgres.acceptsText (idempotencyLockText subject idempotencyKey) = false)
    (request : AcceptedQuoteRequest) (record : QuoteRecord)
    (res : Except StoreError CreateQuoteOutcome) :
    ¬ quoteEngine.Runs db (createQuote subject idempotencyKey request record) res db' := by
  rintro ⟨_, _, _, _, -, -, _, _, _, _, hlock, -⟩
  simp [QuoteTables.run, h] at hlock

/-- When the server refuses the lock text, a retry does not run to an end. -/
theorem not_runs_retryQuote {subject idempotencyKey : String}
    (h : Postgres.acceptsText (idempotencyLockText subject idempotencyKey) = false)
    (quoteId : Uuid) (res : Except StoreError RetryQuoteOutcome) :
    ¬ quoteEngine.Runs db (retryQuote subject quoteId idempotencyKey) res db' := by
  rintro ⟨_, _, _, _, -, -, _, _, _, _, hlock, -⟩
  simp [QuoteTables.run, h] at hlock

variable [TimeCrate] [UrlCrate] [IngestDecoder]

/-- On a server that refuses U+0000, the lock text of an admitted caller is accepted exactly
when it is one of `store_database`, and no creation or retry of a quote gets through its
transaction. The texts of both kinds determine the caller. -/
theorem lockText_accepted_iff_observation (hserver : RefusesNul) :
    (∀ caller : LockCaller, caller.Admitted →
      (Postgres.acceptsText caller.text = true ↔
        ∃ ownerSubject sourceId, caller = .observation ownerSubject sourceId)) ∧
    (∀ caller caller' : LockCaller, caller.Admitted → caller'.Admitted →
      caller.text = caller'.text → caller = caller') ∧
    (∀ subject idempotencyKey (request : AcceptedQuoteRequest) (record : QuoteRecord)
      (db db' : QuoteDb) (res : Except StoreError CreateQuoteOutcome),
      ¬ quoteEngine.Runs db (createQuote subject idempotencyKey request record) res db') ∧
    ∀ subject quoteId idempotencyKey (db db' : QuoteDb)
      (res : Except StoreError RetryQuoteOutcome),
      ¬ quoteEngine.Runs db (retryQuote subject quoteId idempotencyKey) res db' := by
  -- The lock text of a quote contains U+0000 whatever the subject and the key are.
  have hrefused : ∀ subject idempotencyKey,
      Postgres.acceptsText (idempotencyLockText subject idempotencyKey) = false := by
    intro subject idempotencyKey
    rw [← Bool.not_eq_true, hserver, not_not]
    exact nul_mem_idempotencyLockText subject idempotencyKey
  refine ⟨?_, fun _ _ h h' => LockCaller.text_injective h h', ?_, ?_⟩
  · intro caller h
    cases caller with
    | quote subject idempotencyKey =>
      rw [LockCaller.text, hrefused]
      simp
    | observation ownerSubject sourceId =>
      -- The texts of an admitted observation have no U+0000.
      obtain ⟨⟨ho, -⟩, hs, -⟩ := h.alphabet
      have haccepted := (hserver _).mpr (nul_not_mem_readinessLockText ho hs)
      exact ⟨fun _ => ⟨ownerSubject, sourceId, rfl⟩, fun _ => haccepted⟩
  · intro subject idempotencyKey request record db db' res
    exact not_runs_createQuote (hrefused subject idempotencyKey) request record res
  · intro subject quoteId idempotencyKey db db' res
    exact not_runs_retryQuote (hrefused subject idempotencyKey) quoteId res

end

section

/-- A server that takes exactly the texts without U+0000. -/
@[reducible] def nulRefusingServer : Postgres where
  acceptsText text := decide ('\x00' ∉ text.toList)
  hashText _ := 0
  timestamptz _ := none
  toChar _ := ""

attribute [local instance] nulRefusingServer fixtureLib testTime testUrl testDecoder

/-- Not every lock text is accepted: here is an admitted subject and an admitted key whose lock text
the server refuses, because of the U+0000 between the two. -/
theorem quote_lockText_refused :
    ¬ ∀ subject idempotencyKey, (∃ raw, validSubject raw = some subject) →
      validIdempotencyKey idempotencyKey = true →
      Postgres.acceptsText (LockCaller.quote subject idempotencyKey).text = true := by
  intro h
  have hrefused := h "customer-1" "quote-key-0001" ⟨"customer-1", by decide⟩ (by decide)
  exact absurd hrefused (by decide)

/-- Both callers are admitted. On a server that takes the texts without U+0000, the lock text of the
quote is refused and that of the observation is accepted. -/
theorem lockText_accepted_iff_observation_test :
    Postgres.acceptsText (LockCaller.quote "customer-1" "quote-key-0001").text = false ∧
    Postgres.acceptsText
      (LockCaller.observation "org:example" "source.customer-ci").text = true := by
  have hserver : RefusesNul := fun text => decide_eq_true_iff
  have hquote : (LockCaller.quote "customer-1" "quote-key-0001").Admitted :=
    ⟨⟨"customer-1", by decide⟩, by decide⟩
  have hobservation :
      (LockCaller.observation "org:example" "source.customer-ci").Admitted :=
    ⟨⟨"document", _, testKey, testRing_parse, by decide, rfl⟩,
      testEvent 1 "event.test.00000001", 1788930000000000000, by decide, rfl⟩
  have haccepted := (lockText_accepted_iff_observation hserver).1
  refine ⟨?_, (haccepted _ hobservation).mpr ⟨_, _, rfl⟩⟩
  rw [← Bool.not_eq_true, haccepted _ hquote]
  rintro ⟨_, _, h⟩
  cases h

end

end CanonicalApi
