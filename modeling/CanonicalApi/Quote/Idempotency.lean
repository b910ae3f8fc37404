import CanonicalApi.Quote.Service
import Mathlib.Data.List.Nodup

/-!
# `CanonicalApi.Quote.Idempotency`: the idempotency ledger in the database

A create and a retry take the advisory lock of their pair of subject and key before they read
the ledger, so a pair gets at most one ledger row, and the row comes with the acceptance of
one request. The lock text is hashed: two pairs may share a lock, which delays a request and
nothing else.

`OnLedger` ties a process to the row of its pair. `Accepting` says that a pair is accepted at
most once and starts at most one analysis; the pairs that have started one are a record
beside the states.
-/

set_option autoImplicit false

namespace CanonicalApi

open Transaction Transition

section

variable [CanonicalLib]

/-- The ledger rows of the pair of a request. -/
def MutationRequest.ledger (request : MutationRequest) (db : QuoteDb) : List StoredOperation :=
  db (.operations request.subject request.idempotencyKey)

/-- A process that has accepted, found or answered a quote has the ledger row of its pair,
with the id of this quote. -/
def QuoteProc.OnLedger (db : QuoteDb) : QuoteProc → Prop
  | accepted request job _ => ∃ operation ∈ request.ledger db,
      request.Matches operation ∧ job.record.quoteId = operation.quoteId
  | replayed request record => ∃ operation ∈ request.ledger db,
      request.Matches operation ∧ record.quoteId = operation.quoteId
  | answered request (.ok response) => ∃ operation ∈ request.ledger db,
      request.Matches operation ∧ response.quoteId = operation.quoteId.toText
  | _ => True

/-- Ledger rows that are only added keep a process on the ledger. -/
theorem QuoteProc.OnLedger.mono {db db' : QuoteDb} {p : QuoteProc} (h : p.OnLedger db)
    (hgrow : ∀ subject key, db (.operations subject key) <+: db' (.operations subject key)) :
    p.OnLedger db' := by
  cases p with
  | accepted request job event =>
    obtain ⟨operation, hmem, hrest⟩ := h
    exact ⟨operation, (hgrow _ _).subset hmem, hrest⟩
  | replayed request record =>
    obtain ⟨operation, hmem, hrest⟩ := h
    exact ⟨operation, (hgrow _ _).subset hmem, hrest⟩
  | answered request result =>
    cases result with
    | error e => trivial
    | ok response =>
      obtain ⟨operation, hmem, hrest⟩ := h
      exact ⟨operation, (hgrow _ _).subset hmem, hrest⟩
  | requested request => trivial
  | worker stage job => trivial

variable [Postgres]

/-! ### The ledger -/

/-- A step adds at most one ledger row, to a pair without one. -/
theorem ledger_step_cases {c c' : quoteService.Core} {a : quoteService.Action}
    (h : quoteService.AtomicStep c a c') (subject key : String) :
    c'.db (.operations subject key) = c.db (.operations subject key) ∨
      c.db (.operations subject key) = [] ∧
        ∃ operation, c'.db (.operations subject key) = [operation] := by
  rcases h.commits with hsame | ⟨pid, p, prog, x, -, hbody, hruns, -⟩
  · exact .inl (by rw [hsame])
  cases p with
  -- Only an accepted request writes a ledger, and it found this one empty.
  | requested request =>
    cases hbody
    rcases request.body_cases hruns with ⟨_, _, -, -, -, hdb, -⟩ |
      ⟨row, operation, _, _, haccept, -⟩
    · exact .inl (by rw [hdb])
    · obtain ⟨eventRow, hdb⟩ := haccept.tables
      rw [hdb]
      by_cases hpair : subject = request.subject ∧ key = request.idempotencyKey
      · obtain ⟨rfl, rfl⟩ := hpair
        refine .inr ⟨haccept.ledger, operation, ?_⟩
        rw [QuoteTables.accept_operations_self, haccept.ledger]
        rfl
      · exact .inl (QuoteTables.accept_operations_of_ne _ _ _ _ _ _ hpair)
  | worker stage job =>
    rcases stage.body_cases hbody hruns with ⟨-, _, _, _, row, -, hupdate⟩ | ⟨_, _, hdb, -⟩
    · obtain ⟨eventRow, hdb⟩ := hupdate.tables
      rw [hdb]
      exact .inl (by simp)
    · rw [hdb]
      exact .inl (by simp)
  | accepted _ _ _ => cases hbody
  | replayed _ _ => cases hbody
  | answered _ _ => cases hbody

/-- Ledger rows stay. -/
theorem ledger_grows_step_quote {c c' : quoteService.Core} {a : quoteService.Action}
    (h : quoteService.AtomicStep c a c') (subject key : String) :
    c.db (.operations subject key) <+: c'.db (.operations subject key) := by
  rcases ledger_step_cases h subject key with hsame | ⟨hnil, operation, -⟩
  · exact hsame ▸ List.prefix_rfl
  · rw [hnil]
    exact List.nil_prefix

/-- A pair has at most one ledger row. -/
theorem ledger_single_step {c c' : quoteService.Core} {a : quoteService.Action}
    (hc : ∀ subject key, (c.db (.operations subject key)).length ≤ 1)
    (h : quoteService.AtomicStep c a c') (subject key : String) :
    (c'.db (.operations subject key)).length ≤ 1 := by
  rcases ledger_step_cases h subject key with hsame | ⟨-, operation, hone⟩
  · rw [hsame]
    exact hc subject key
  · rw [hone]
    exact le_rfl

/-- A handler after its transaction is on the ledger that the transaction left. -/
theorem resume_onLedger {request : MutationRequest} {db db' : QuoteDb}
    {res : Except StoreError QuoteResult} (h : quoteEngine.Runs db request.body res db') :
    (request.resume res).OnLedger (quoteEngine.settle db db' res) := by
  cases res with
  | error e => trivial
  | ok x =>
    rcases request.body_cases h with ⟨operation, found, hhead, hmatch, hid, hdb, hresume⟩ |
      ⟨row, operation, job, event, haccept, hresume⟩
    · rw [hresume]
      refine ⟨operation, ?_, hmatch, hid⟩
      show operation ∈ db' (.operations request.subject request.idempotencyKey)
      rw [hdb]
      exact List.mem_of_head? hhead
    · -- A new operation stands at the end of the ledger.
      obtain ⟨eventRow, hdb⟩ := haccept.tables
      rw [hresume]
      refine ⟨operation, ?_, haccept.matched, haccept.job.trans haccept.operationId.symm⟩
      show operation ∈ db' (.operations request.subject request.idempotencyKey)
      rw [hdb, QuoteTables.accept_operations_self]
      exact List.mem_append_right _ (List.mem_singleton_self operation)

/-- A step keeps the processes on the ledger. -/
theorem onLedger_step {c c' : quoteService.Core} {a : quoteService.Action}
    (hc : ∀ pid p, c.procs pid = some p → p.OnLedger c.db)
    (h : quoteService.AtomicStep c a c') :
    ∀ pid p, c'.procs pid = some p → p.OnLedger c'.db := by
  -- The ledger only grows, so an entry that a process rests on stays.
  have hgrow := ledger_grows_step_quote h
  intro pid p' hp'
  -- Where the state of the process comes from.
  cases h.origin hp' with
  | same hp => exact (hc pid p' hp).mono hgrow
  | arrived _ harrives =>
    obtain ⟨request, rfl⟩ := quote_arrives harrives
    trivial
  | @resumed p prog res db' _ hp hbody hruns hdb hresume =>
    subst hresume
    rw [hdb]
    cases p with
    | requested request =>
      cases hbody
      exact resume_onLedger hruns
    | worker stage job => trivial
    | accepted _ _ _ => cases hbody
    | replayed _ _ => cases hbody
    | answered _ _ => cases hbody
  | @faulted p prog hp hbody hresume =>
    subst hresume
    cases p with
    | requested request => trivial
    | worker stage job => trivial
    | accepted _ _ _ => cases hbody
    | replayed _ _ => cases hbody
    | answered _ _ => cases hbody
  | advanced hp hadvance =>
    have hbefore := (hc _ _ hp).mono hgrow
    rcases quote_advance_cases hadvance with ⟨request, job, _, _, rfl, rfl, -⟩ |
      ⟨request, record, rfl, rfl, -⟩ | ⟨_, _, _, -, rfl, -⟩
    · obtain ⟨operation, hmem, hmatch, hid⟩ := hbefore
      refine ⟨operation, hmem, hmatch, ?_⟩
      rw [MutationResponse.quoteId_of, hid]
    · obtain ⟨operation, hmem, hmatch, hid⟩ := hbefore
      refine ⟨operation, hmem, hmatch, ?_⟩
      rw [MutationResponse.quoteId_of, hid]
    · trivial
  | started _ _ hadvance =>
    rcases quote_advance_cases hadvance with ⟨_, _, _, _, -, -, hchild⟩ | ⟨_, _, -, -, hchild⟩ |
      ⟨_, _, _, -, -, hchild⟩
    · cases hchild
      trivial
    · cases hchild
    · cases hchild

/-! ### Started analyses -/

/-- The pairs that have started an analysis so far: an accepted handler starts one when it
moves on with a worker as its child. -/
def noteStarted (log : List (String × String)) (procs : Nat → Option QuoteProc)
    (procs' : Nat → Option QuoteProc) : quoteService.Action → List (String × String)
  | .advance pid _ child =>
      match procs pid, procs' child with
      | some (.accepted request _ _), some (.worker _ _) => log ++ [request.pair]
      | _, _ => log
  | _ => log

/-- A pair is accepted at most once. `log` are the pairs whose analysis has started, so it cannot be
started a second time. -/
structure Accepting (c : quoteService.Core) (log : List (String × String)) : Prop where
  once : log.Nodup
  started : ∀ pair ∈ log, c.db (.operations pair.1 pair.2) ≠ []
  /-- A handler that was accepted and has not answered has not started its analysis. -/
  pending : ∀ pid request job event,
    c.procs pid = some (.accepted request job event) → request.pair ∉ log
  single : ∀ pid pid' request request' job job' event event',
    c.procs pid = some (.accepted request job event) →
    c.procs pid' = some (.accepted request' job' event') →
    request.pair = request'.pair → pid = pid'

/-- A handler is accepted when its pair has no ledger row. -/
theorem accepted_origin {c c' : quoteService.Core} {a : quoteService.Action}
    (h : quoteService.AtomicStep c a c') {pid : Nat} {request : MutationRequest}
    {job : AnalysisJob} {event : QuoteEventRecord}
    (hp : c'.procs pid = some (.accepted request job event)) :
    c.procs pid = some (.accepted request job event) ∨
      a = .finish pid ∧ request.ledger c.db = [] := by
  -- Only a transaction that ends can accept a request, and it accepts one whose key is new.
  cases h.origin hp with
  | same hsame => exact .inl hsame
  | arrived _ harrives => cases harrives
  | @resumed p prog res db' ha hbefore hbody hruns _ hresume =>
    cases p with
    | requested request' =>
      cases hbody
      cases res with
      | error e => cases hresume
      | ok x =>
        have hresume : QuoteProc.accepted request job event = request'.resume (.ok x) := hresume
        rcases request'.body_cases hruns with ⟨_, _, -, -, -, -, hreplay⟩ |
          ⟨_, _, _, _, haccept, hresume'⟩
        · rw [hreplay] at hresume
          cases hresume
        · rw [hresume'] at hresume
          cases hresume
          exact .inr ⟨ha, haccept.ledger⟩
    | worker stage job' => cases hresume
    | accepted _ _ _ => cases hbody
    | replayed _ _ => cases hbody
    | answered _ _ => cases hbody
  | @faulted p prog hbefore hbody hresume =>
    cases p with
    | requested request' => cases hresume
    | worker stage job' => cases hresume
    | accepted _ _ _ => cases hbody
    | replayed _ _ => cases hbody
    | answered _ _ => cases hbody
  | advanced _ hadvance =>
    rcases quote_advance_cases hadvance with ⟨_, _, _, _, -, hp, -⟩ | ⟨_, _, -, hp, -⟩ |
      ⟨_, _, _, -, hp, -⟩ <;> cases hp
  | started _ _ hadvance =>
    rcases quote_advance_cases hadvance with ⟨_, _, _, _, -, -, hp⟩ | ⟨_, _, -, -, hp⟩ |
      ⟨_, _, _, -, -, hp⟩ <;> cases hp

/-- A step either starts no analysis, or it is the move of an accepted handler, which has
answered then. -/
theorem noteStarted_cases {c c' : quoteService.Core} {a : quoteService.Action}
    (h : quoteService.AtomicStep c a c') (log : List (String × String)) :
    noteStarted log c.procs c'.procs a = log ∨ ∃ pid e child request job event response,
      a = .advance pid e child ∧ c.procs pid = some (.accepted request job event) ∧
      c'.procs pid = some (.answered request (.ok response)) ∧
      noteStarted log c.procs c'.procs a = log ++ [request.pair] := by
  cases a with
  | advance pid e child =>
    obtain ⟨p, p', child?, hp, -, hadvance, hchild, rfl⟩ := h
    -- The worker takes a free number.
    have hne : pid ≠ child := by
      rintro rfl
      rw [hp] at hchild
      cases hchild
    rcases quote_advance_cases hadvance with ⟨request, job, event, attemptId, rfl, rfl, rfl⟩ |
      ⟨request, record, rfl, rfl, rfl⟩ | ⟨attemptId, job, outcome, rfl, rfl, rfl⟩
    · refine .inr ⟨pid, e, child, request, job, event, .of job.record request.mutation, rfl, hp,
        ?_, ?_⟩
      · simp [Service.spawn, Service.put, Function.update_of_ne hne]
      · simp [noteStarted, hp, Service.spawn, Service.put]
    · exact .inl (by simp [noteStarted, hp])
    · exact .inl (by simp [noteStarted, hp])
  | arrive _ _ => exact .inl rfl
  | begin _ => exact .inl rfl
  | stmt _ _ => exact .inl rfl
  | finish _ => exact .inl rfl
  | lose _ => exact .inl rfl
  | fail _ => exact .inl rfl
  | kill _ => exact .inl rfl

/-- The move of an accepted handler starts its analysis. -/
theorem noteStarted_accepted {c c' : quoteService.Core} {pid child : Nat} {e : QuoteSignal}
    {request : MutationRequest} {job : AnalysisJob} {event : QuoteEventRecord}
    (h : quoteService.AtomicStep c (.advance pid e child) c')
    (hp : c.procs pid = some (.accepted request job event)) (log : List (String × String)) :
    noteStarted log c.procs c'.procs (.advance pid e child) = log ++ [request.pair] := by
  obtain ⟨p, p', child?, hp', -, hadvance, -, rfl⟩ := h
  cases hp.symm.trans hp'
  cases e with
  | called outcome => cases hadvance
  | proceed attemptId =>
    cases hadvance
    simp [noteStarted, hp, Service.spawn, Service.put]

/-- A step accepts no pair twice and starts no second analysis. -/
theorem accepting_step {c c' : quoteService.Core} {a : quoteService.Action}
    {log : List (String × String)} (hc : Accepting c log)
    (hledger : ∀ pid p, c.procs pid = some p → p.OnLedger c.db)
    (h : quoteService.AtomicStep c a c') :
    Accepting c' (noteStarted log c.procs c'.procs a) := by
  have hgrow : ∀ subject key, c.db (.operations subject key) ≠ [] →
      c'.db (.operations subject key) ≠ [] := by
    intro subject key hne hnil
    have hgrows := ledger_grows_step_quote h subject key
    rw [hnil] at hgrows
    exact hne (List.prefix_nil.mp hgrows)
  -- The pair of an accepted handler has a ledger row.
  have hrow : ∀ pid request job event, c.procs pid = some (.accepted request job event) →
      request.ledger c.db ≠ [] := by
    intro pid request job event hp hnil
    obtain ⟨operation, hmem, -⟩ := hledger pid _ hp
    rw [hnil] at hmem
    cases hmem
  have hsingle : ∀ pid pid' request request' job job' event event',
      c'.procs pid = some (.accepted request job event) →
      c'.procs pid' = some (.accepted request' job' event') →
      request.pair = request'.pair → pid = pid' := by
    intro pid pid' request request' job job' event event' hp hp' hpair
    have hcell : request.ledger c.db = request'.ledger c.db :=
      congrArg (fun pair : String × String => c.db (.operations pair.1 pair.2)) hpair
    rcases accepted_origin h hp with hold | ⟨ha, hnil⟩ <;>
      rcases accepted_origin h hp' with hold' | ⟨ha', hnil'⟩
    · exact hc.single pid pid' request request' job job' event event' hold hold' hpair
    · exact absurd (hcell.trans hnil') (hrow pid request job event hold)
    · exact absurd (hcell.symm.trans hnil) (hrow pid' request' job' event' hold')
    · rw [ha] at ha'
      cases ha'
      rfl
  have hpending : ∀ pid request job event,
      c'.procs pid = some (.accepted request job event) → request.pair ∉ log := by
    intro pid request job event hp hmem
    rcases accepted_origin h hp with hold | ⟨-, hnil⟩
    · exact hc.pending pid request job event hold hmem
    · exact hc.started _ hmem hnil
  rcases noteStarted_cases h log with
    hsame | ⟨pid, e, child, request, job, event, response, rfl, hp, hanswered, hnote⟩
  · rw [hsame]
    exact ⟨hc.once, fun pair hmem => hgrow _ _ (hc.started pair hmem), hpending, hsingle⟩
  · rw [hnote]
    refine ⟨?_, ?_, ?_, hsingle⟩
    · rw [← List.concat_eq_append]
      exact List.Nodup.concat (hc.pending pid request job event hp) hc.once
    · intro pair hmem
      rcases List.mem_append.mp hmem with hold | hnew
      · exact hgrow _ _ (hc.started pair hold)
      · rw [List.mem_singleton.mp hnew]
        exact hgrow _ _ (hrow pid request job event hp)
    · intro pid' request' job' event' hp' hmem
      rcases List.mem_append.mp hmem with hold | hnew
      · exact hpending pid' request' job' event' hp' hold
      · rcases accepted_origin h hp' with hold' | ⟨ha, -⟩
        · -- The handler that has just answered is the only one with this pair.
          have hpid := hc.single pid' pid request' request job' job event' event hold' hp
            (List.mem_singleton.mp hnew)
          rw [hpid, hanswered] at hp'
          cases hp'
        · cases ha

/-! ### The contract -/

/-- The service with the pairs that have started an analysis on record. -/
def recordedQuotes : System (quoteService.State × List (String × String)) quoteService.Action :=
  quoteService.interleaved.recording [] fun log s a s' => noteStarted log s.procs s'.procs a

/-- The same for the atomic service. -/
def recordedAtomicQuotes :
    System (quoteService.Core × List (String × String)) quoteService.Action :=
  quoteService.atomic.recording [] fun log c a c' => noteStarted log c.procs c'.procs a

/-- In every run of the atomic service, a handler that has found or made an operation is on the
ledger. -/
theorem onLedger_reachable {c : quoteService.Core} (hc : quoteService.atomic.Reachable c) :
    ∀ pid p, c.procs pid = some p → p.OnLedger c.db := by
  refine hc.induct (I := fun c => ∀ pid p, c.procs pid = some p → p.OnLedger c.db) ?_ ?_
  · rintro c rfl pid p ⟨⟩
  · exact fun _ _ _ _ ih _ hs => onLedger_step ih hs

/-- In every run of the atomic service, a pair has at most one row in the ledger. -/
theorem ledger_single {c : quoteService.Core} (hc : quoteService.atomic.Reachable c) :
    ∀ subject key, (c.db (.operations subject key)).length ≤ 1 := by
  refine hc.induct
    (I := fun c => ∀ subject key, (c.db (.operations subject key)).length ≤ 1) ?_ ?_
  · rintro c rfl subject key
    exact Nat.zero_le 1
  · exact fun _ _ _ _ ih _ hs => ledger_single_step ih hs

/-- The run lemma of `Accepting`, beside the record of the accepted pairs. -/
theorem accepting_reachable {q : quoteService.Core × List (String × String)}
    (hq : recordedAtomicQuotes.Reachable q) : Accepting q.1 q.2 := by
  refine hq.induct (I := fun q => Accepting q.1 q.2) ?_ ?_
  · rintro ⟨c, log⟩ ⟨rfl, rfl⟩
    constructor
    · exact List.nodup_nil
    · rintro pair ⟨⟩
    · rintro pid request job event ⟨⟩
    · rintro pid pid' request request' job job' event event' ⟨⟩
  · intro q a q' hr ih _ hs
    rw [hs.2]
    exact accepting_step ih (onLedger_reachable (System.reachable_of_recording hr)) hs.1

/-- The step of a handler whose pair belongs to something else: the tables stay as they are,
and the answer of its transaction is that the key was reused. -/
theorem reused_step {c c' : quoteService.Core} {a : quoteService.Action}
    (h : quoteService.AtomicStep c a c') {request : MutationRequest}
    {operation : StoredOperation} (hp : c.procs a.pid = some (.requested request))
    (hhead : (request.ledger c.db).head? = some operation)
    (hnot : ¬ request.Matches operation) :
    c'.db = c.db ∧ ∀ p', c'.procs a.pid = some p' →
      p' = .requested request ∨ p' = .answered request (.error idempotencyReused) ∨
      a = .fail a.pid ∧ p' = .answered request (.error storageUnavailable) := by
  -- Whatever the transaction does, it ends with the conflict.
  have hreused : ∀ {prog res db'}, quoteService.body (.requested request) = some prog →
      quoteEngine.Runs c.db prog res db' → res = .error .idempotencyKeyReused := by
    intro prog res db' hbody hruns
    cases hbody
    exact request.body_reused hhead hnot hruns
  have hself : ∀ {procs : Nat → Option QuoteProc} {pid : Nat} {q p' : QuoteProc},
      quoteService.put procs pid q pid = some p' → p' = q := by
    intro procs pid q p' hq
    rw [Service.put, Function.update_self] at hq
    exact (Option.some.inj hq).symm
  cases a with
  | arrive pid p =>
    obtain ⟨-, hnone, -⟩ := h
    have hnone : c.procs (Service.Action.arrive (S := quoteService) pid p).pid = none := hnone
    rw [hp] at hnone
    cases hnone
  | begin pid =>
    obtain rfl := h
    exact ⟨rfl, fun p' hp' => .inl (Option.some.inj (hp'.symm.trans hp))⟩
  | stmt pid i =>
    obtain rfl := h
    exact ⟨rfl, fun p' hp' => .inl (Option.some.inj (hp'.symm.trans hp))⟩
  | finish pid =>
    obtain ⟨p, prog, res, db', hp', hbody, hruns, rfl⟩ := h
    cases hp'.symm.trans hp
    obtain rfl := hreused hbody hruns
    exact ⟨rfl, fun p' hq => .inr (.inl (hself hq))⟩
  | lose pid =>
    -- A lost commit is one that succeeded, which this transaction cannot.
    obtain ⟨-, p, prog, x, db', hp', hbody, hruns, rfl⟩ := h
    cases hp'.symm.trans hp
    cases hreused hbody hruns
  | fail pid =>
    obtain ⟨p, prog, hp', hbody, rfl⟩ := h
    cases hp'.symm.trans hp
    exact ⟨rfl, fun p' hq => .inr (.inr ⟨rfl, hself hq⟩)⟩
  | advance pid e child =>
    obtain ⟨p, p', child?, hp', hbody, -, -, rfl⟩ := h
    cases hp'.symm.trans hp
    cases hbody
  | kill pid =>
    obtain ⟨p, -, -, rfl⟩ := h
    refine ⟨rfl, fun p' hq => ?_⟩
    have hq : Function.update c.procs pid none pid = some p' := hq
    rw [Function.update_self] at hq
    cases hq

/-- Idempotency with a database, in every run of any number of handlers and workers.

- Every pair of subject and key has at most one ledger row, and rows stay.
- A successful answer carries the quote id of the row of its pair, and the row belongs to a
  request like this one.
- No pair starts two analyses.
- A request whose pair belongs to something else leaves the tables as they are, and its
  transaction answers that the key was reused. Until that, it waits, is dropped, or fails. -/
theorem quote_idempotency :
    (∀ s, quoteService.interleaved.Reachable s →
      (∀ subject key, (s.db (.operations subject key)).length ≤ 1) ∧
      (∀ s', quoteService.interleaved.Steps s s' → ∀ subject key,
        s.db (.operations subject key) <+: s'.db (.operations subject key)) ∧
      ∀ pid request response, s.procs pid = some (.answered request (.ok response)) →
        ∃ operation, request.ledger s.db = [operation] ∧ request.Matches operation ∧
          response.quoteId = operation.quoteId.toText) ∧
    (∀ q, recordedQuotes.Reachable q → q.2.Nodup) ∧
    ∀ s a s', quoteService.interleaved.Reachable s → quoteService.interleaved.step s a s' →
      ∀ request operation, s.procs a.pid = some (.requested request) →
        operation ∈ request.ledger s.db → ¬ request.Matches operation →
        s'.db = s.db ∧ ∀ p', s'.procs a.pid = some p' →
          p' = .requested request ∨ p' = .answered request (.error idempotencyReused) ∨
          a = .fail a.pid ∧ p' = .answered request (.error storageUnavailable) := by
  have hrefines := Service.interleaved_refines_atomic quoteService_disciplined
  -- The only row of a pair.
  have honly : ∀ {s}, quoteService.interleaved.Reachable s →
      ∀ {request : MutationRequest} {operation}, operation ∈ request.ledger s.db →
        request.ledger s.db = [operation] := by
    intro s hs request operation hmem
    have hlength := ledger_single (hrefines.reachable hs) request.subject request.idempotencyKey
    obtain ⟨operation', hone⟩ : ∃ operation', request.ledger s.db = [operation'] :=
      List.length_eq_one_iff.mp (le_antisymm hlength (List.length_pos_of_mem hmem))
    rw [hone] at hmem ⊢
    rw [List.mem_singleton.mp hmem]
  refine ⟨?_, ?_, ?_⟩
  · intro s hs
    refine ⟨ledger_single (hrefines.reachable hs), ?_, ?_⟩
    · intro s' hsteps
      refine System.Steps.rel (R := fun s s' => ∀ subject key,
        s.db (.operations subject key) <+: s'.db (.operations subject key)) ?_ ?_ ?_ hsteps hs
      · exact fun s subject key => List.prefix_rfl
      · exact fun _ _ _ h₁ h₂ subject key => (h₁ subject key).trans (h₂ subject key)
      · intro s a s' hr hstep subject key
        exact ledger_grows_step_quote (hrefines.step s a s' hr hstep) subject key
    · intro pid request response hp
      obtain ⟨operation, hmem, hmatch, hid⟩ :=
        onLedger_reachable (hrefines.reachable hs) pid _ hp
      exact ⟨operation, honly hs hmem, hmatch, hid⟩
  · intro q hq
    have hrec : recordedQuotes.Refines recordedAtomicQuotes
        (Prod.map Service.State.toCore id) := hrefines.recording fun _ _ _ _ => rfl
    exact (accepting_reachable (hrec.reachable hq)).once
  · intro s a s' hs hstep request operation hp hmem hnot
    have hhead : (request.ledger s.db).head? = some operation := by
      rw [honly hs hmem]
      rfl
    exact reused_step (hrefines.step s a s' hs hstep) hp hhead hnot

end

section

attribute [local instance] fixtureLib openServer

/-- The handler at `pid` has answered with success. -/
def succeeded (s : quoteService.State) (pid : Nat) : Bool :=
  match s.procs pid with
  | some (.answered _ (.ok _)) => true
  | _ => false

/-- A create that runs to its answer. The id in the answer is that of the only ledger row of its
pair. -/
theorem quote_idempotency_test :
    ∃ s, quoteService.interleaved.Reachable s ∧ ∃ request response operation,
      s.procs 0 = some (.answered request (.ok response)) ∧
      request.ledger s.db = [operation] ∧
      response.quoteId = operation.quoteId.toText := by
  have hrun : ((System.run quoteService.next quoteService.initial testFailed).map
      fun s => succeeded s 0) = some true := by
    decide
  obtain ⟨s, hs, hanswered⟩ := System.exists_reachable_of_run testFailed _ hrun
  unfold succeeded at hanswered
  split at hanswered
  · next request response hp =>
    obtain ⟨-, -, hanswers⟩ := quote_idempotency.1 s hs
    obtain ⟨operation, hledger, -, hid⟩ := hanswers 0 request response hp
    exact ⟨s, hs, request, response, operation, hp, hledger, hid⟩
  · cases hanswered

end

end CanonicalApi
