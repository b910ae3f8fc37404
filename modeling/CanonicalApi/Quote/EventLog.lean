import CanonicalApi.Quote.Lifecycle

/-!
# `CanonicalApi.Quote.EventLog`: the events of a quote and the statuses of its row

Every transaction that writes the row of a quote appends one event with the new status. The
event gets its number from one identity sequence when it is inserted, so the order of the
numbers is the order of the inserts over all transactions, and a transaction that does not
commit leaves a gap.

`eventLog` is the service with two records: the last number that was drawn, and for each quote
the statuses that its row has had. `Replays` says that the events replay to these statuses and
are ascending. A running transaction that has inserted an event has the row lock of the quote,
which is what `quoteService_disciplined` gives: no other event of the quote is committed before
its own.
-/

set_option autoImplicit false

namespace CanonicalApi

open Transaction Transition
open SingleWriter (Write claimsOf claimsOf_eq)

/-! ### Ascending events -/

/-- The numbers of the events are positive, ascending, and not above `drawn`. -/
structure Numbered (drawn : Int) (rows : List EventRow) : Prop where
  ascending : rows.Pairwise fun row row' => row.sequenceId < row'.sequenceId
  bounds : ∀ row ∈ rows, 0 < row.sequenceId ∧ row.sequenceId ≤ drawn

namespace Numbered

variable {drawn drawn' : Int} {rows : List EventRow} {row : EventRow}

/-- Before the first event no number is drawn and no row is there. -/
theorem nil : Numbered drawn [] where
  ascending := .nil
  bounds _ h := nomatch h

/-- Numbers that are drawn and not used, as by a transaction that rolls back, leave gaps. -/
theorem mono (h : Numbered drawn rows) (hle : drawn ≤ drawn') : Numbered drawn' rows where
  ascending := h.ascending
  bounds row hrow := ⟨(h.bounds row hrow).1, (h.bounds row hrow).2.trans hle⟩

/-- An event with the next number comes last. -/
theorem append (h : Numbered drawn rows) (hpos : 0 ≤ drawn) (hnext : drawn < row.sequenceId) :
    Numbered row.sequenceId (rows ++ [row]) where
  ascending := by
    rw [List.pairwise_append]
    refine ⟨h.ascending, List.pairwise_singleton _ _, ?_⟩
    intro old hold new hnew
    rw [List.mem_singleton.mp hnew]
    have hle := (h.bounds old hold).2
    omega
  bounds old hold := by
    rcases List.mem_append.mp hold with hold | hold
    · obtain ⟨hlow, hhigh⟩ := h.bounds old hold
      omega
    · rw [List.mem_singleton.mp hold]
      omega

/-- The events are in the order of their numbers. -/
theorem sorted (h : Numbered drawn rows) :
    (rows.mergeSort fun row row' => row.sequenceId ≤ row'.sequenceId) = rows := by
  apply List.mergeSort_of_pairwise
  exact h.ascending.imp fun hlt => decide_eq_true hlt.le

/-- `ORDER BY sequence_id DESC LIMIT 1` selects the event that was appended last. -/
theorem latest (h : Numbered drawn rows) : QuoteTables.latest rows = rows.getLast? := by
  unfold QuoteTables.latest
  induction rows using List.reverseRecOn with
  | nil => rfl
  | append_singleton rows row ih =>
    have hinit : Numbered drawn rows := {
      ascending := (List.pairwise_append.mp h.ascending).1
      bounds := fun old hold => h.bounds old (List.mem_append_left _ hold) }
    rw [List.argmax_concat, ih hinit, List.getLast?_append]
    cases hlast : rows.getLast? with
    | none => rfl
    | some last =>
      have hlt := (List.pairwise_append.mp h.ascending).2.2 last
        (List.mem_of_getLast? hlast) row (List.mem_singleton_self _)
      simp [hlt]

/-- The events from the number of one of them on are this one and those after it. -/
theorem split (h : rows.Pairwise fun row row' => row.sequenceId < row'.sequenceId)
    (hrow : row ∈ rows) : ∃ before after, rows = before ++ row :: after ∧
      rows.filter (fun row' => row.sequenceId ≤ row'.sequenceId) = row :: after ∧
      rows.filter (fun row' => row.sequenceId < row'.sequenceId) = after := by
  obtain ⟨before, after, rfl⟩ := List.append_of_mem hrow
  obtain ⟨-, hrest, hbefore⟩ := List.pairwise_append.mp h
  obtain ⟨hafter, -⟩ := List.pairwise_cons.mp hrest
  have hlow : ∀ old ∈ before, old.sequenceId < row.sequenceId := fun old hold =>
    hbefore old hold row List.mem_cons_self
  refine ⟨before, after, rfl, ?_, ?_⟩
  · rw [List.filter_append, List.filter_eq_nil_iff.mpr, List.nil_append, List.filter_eq_self.mpr]
    · intro new hnew
      rcases List.mem_cons.mp hnew with rfl | hnew
      · exact decide_eq_true le_rfl
      · exact decide_eq_true (hafter new hnew).le
    · intro old hold hle
      exact absurd (of_decide_eq_true hle) (Int.not_le.mpr (hlow old hold))
  · rw [List.filter_append, List.filter_eq_nil_iff.mpr, List.nil_append,
      List.filter_cons_of_neg (by simp), List.filter_eq_self.mpr]
    · exact fun new hnew => decide_eq_true (hafter new hnew)
    · intro old hold hlt
      exact absurd (of_decide_eq_true hlt) (Int.not_lt.mpr (hlow old hold).le)

end Numbered

/-! ### What a commit appends -/

/-- The write of one row with its event. The event has the quote, the owner and the status of the
row, and no other row or list of events changes. -/
structure Logged (db db' : QuoteDb) (claim : Option (Uuid × String)) (row : QuoteRow)
    (event : EventRow) : Prop where
  written : db' (.quote row.id) = some row
  others : ∀ id, id ≠ row.id → db' (.quote id) = db (.quote id) ∧
    db' (.events id) = db (.events id)
  appended : db' (.events row.id) = db (.events row.id) ++ [event]
  quoteId : event.quoteId = row.id
  ownerSubject : event.ownerSubject = row.ownerSubject
  status : event.status = row.status
  kept : ∀ old, db (.quote row.id) = some old → old.ownerSubject = row.ownerSubject
  write : Write quoteProtocol (statusOf db) (statusOf db') claim row.id row.status

section

variable [CanonicalLib] [Postgres]

omit [CanonicalLib] [Postgres] in
/-- `QuoteTables.progress` as a `Logged`. -/
theorem Logged.of {db db' : QuoteDb} {claim : Option (Uuid × String)} {row : QuoteRow}
    {event : EventRow}
    (hquotes : ∀ id, db' (.quote id) = QuoteTables.progress db row event (.quote id))
    (hevents : ∀ id, db' (.events id) = QuoteTables.progress db row event (.events id))
    (hid : event.quoteId = row.id) (howner : event.ownerSubject = row.ownerSubject)
    (hstatus : event.status = row.status)
    (hkept : ∀ old, db (.quote row.id) = some old → old.ownerSubject = row.ownerSubject)
    (hbefore : ((statusOf db row.id = none ∨ statusOf db row.id = some "failed") ∧
        row.status = "queued") ∨
      ∃ status, claim = some (row.id, status) ∧ StatusEdge status row.status) :
    Logged db db' claim row event := by
  have hwritten : db' (.quote row.id) = some row := by
    rw [hquotes, QuoteTables.progress_quote_self]
  -- Only the row of the event is written.
  have hothers : ∀ id, id ≠ row.id → db' (.quote id) = db (.quote id) := fun id hne => by
    rw [hquotes, QuoteTables.progress_quote_of_ne _ _ _ hne]
  refine {
    written := hwritten
    others := fun id hne => ⟨hothers id hne, ?_⟩
    appended := ?_
    quoteId := hid
    ownerSubject := howner
    status := hstatus
    kept := hkept
    write := ⟨statusOf_eq hwritten, fun id hne => by rw [statusOf, hothers id hne, statusOf], ?_⟩ }
  · rw [hevents]
    simp [QuoteTables.progress, hne]
  · rw [hevents]
    simp [QuoteTables.progress]
  · rcases hbefore with ⟨hnone | hfailed, hqueued⟩ | hclaim
    · exact .inl ⟨.inl hnone, hqueued⟩
    · exact .inl ⟨.inr ⟨"failed", hfailed, rfl⟩, hqueued⟩
    · exact .inr hclaim

/-- A request that commits leaves the quotes and their events alone, or queues one quote with
its event. -/
theorem MutationRequest.body_logged {request : MutationRequest} {db db' : QuoteDb}
    {x : QuoteResult} (h : quoteEngine.Runs db request.body (.ok x) db') :
    db' = db ∨ ∃ row event, Logged db db' none row event := by
  obtain ⟨subject, key, mutation, settings⟩ := request
  cases mutation with
  | create accepted timestamp fresh =>
    rcases (quoteEngine.runs_bind_iff _ _ _ _ _).mp h with
      ⟨e, -, he⟩ | ⟨outcome, db₁, hcreate, hx, rfl⟩
    · cases he
    -- An error or a replay writes nothing; a new quote logs its first event.
    rcases createQuote_cases hcreate with ⟨e, he, -⟩ | ⟨_, _, -, -, -, -, -, hdb⟩ |
      ⟨context, event, found, row, eventRow, -, -, hid, howner, hstatus, hnone, hrow, hevent, rfl⟩
    · cases he
    · exact .inl hdb
    · refine .inr ⟨row, eventRow, Logged.of (fun id => QuoteTables.accept_quote _ _ _ _ _ _ id)
        (fun id => by simp [QuoteTables.accept]) ?_ ?_ ?_ ?_ (.inl ⟨.inl ?_, ?_⟩)⟩
      · rw [hevent.quoteId, hid, hrow.id]
      · rw [hevent.ownerSubject, howner, hrow.ownerSubject]
        rfl
      · rw [hevent.status, hstatus, hrow.status]
      · intro old hold
        rw [hrow.id, hnone] at hold
        cases hold
      · rw [statusOf, hrow.id, hnone]
        rfl
      · rw [hrow.status]
        rfl
  | retry quoteId =>
    rcases (quoteEngine.runs_bind_iff _ _ _ _ _).mp h with
      ⟨e, -, he⟩ | ⟨outcome, db₁, hretry, hx, rfl⟩
    · cases he
    -- A replayed retry writes nothing; a new one logs that the quote is queued again.
    rcases retryQuote_cases hretry with ⟨e, he, -⟩ | ⟨_, _, -, -, -, -, -, hdb⟩ |
      ⟨context, event, found, row, now, eventRow, -, -, hid, howner, hstatus, hquote, hfailed, -,
        hevent, rfl⟩
    · cases he
    · exact .inl hdb
    · obtain ⟨hrow, hrowid, hsubject⟩ := quoteOf_eq_some hquote
      subst hrowid
      refine .inr ⟨_, eventRow, Logged.of (fun id => QuoteTables.accept_quote _ _ _ _ _ _ id)
        (fun id => by simp [QuoteTables.accept]) ?_ ?_ ?_ ?_ (.inl ⟨.inr ?_, rfl⟩)⟩
      · rw [hevent.quoteId, hid]
        rfl
      · rw [hevent.ownerSubject, howner, ← hsubject]
        rfl
      · rw [hevent.status, hstatus]
        rfl
      · intro old hold
        have hold : db (.quote row.id) = some old := hold
        rw [hrow] at hold
        cases hold
        rfl
      · rw [← hfailed]
        exact statusOf_eq hrow

/-- An update by a worker appends the event of its record. -/
theorem worker_update_logged {job : AnalysisJob} {db db' : QuoteDb} {x : QuoteResult}
    {claim : Option (Uuid × String)} {status : String}
    (hclaim : claim = some (job.record.quoteId, status))
    (hedge : StatusEdge status job.record.status)
    (h : quoteEngine.Runs db (do
      let (event, record) ← updateQuote job.record
      return QuoteResult.updated event record) (.ok x) db') :
    ∃ row event, Logged db db' claim row event := by
  rcases (quoteEngine.runs_bind_iff _ _ _ _ _).mp h with
    ⟨e, -, he⟩ | ⟨⟨event, found⟩, db₁, hupdate, hx, rfl⟩
  · cases he
  rcases updateQuote_cases hupdate with ⟨e, he⟩ | ⟨event', found', old, now, eventRow, -, -, -, -,
    -, -, hquote, hevent, rfl⟩
  · cases he
  obtain ⟨hold, holdid, howner⟩ := quoteOf_eq_some hquote
  -- The event repeats the id, the owner and the status of the updated row.
  refine ⟨_, eventRow, Logged.of (fun _ => rfl) (fun _ => rfl) ?_ ?_ ?_ ?_
    (.inr ⟨status, ?_, hedge⟩)⟩
  · rw [hevent.quoteId, ← holdid]
    rfl
  · rw [hevent.ownerSubject, ← howner]
    rfl
  · rw [hevent.status]
    rfl
  · intro row hrow
    have hrow : db (.quote old.id) = some row := hrow
    rw [holdid, hold] at hrow
    cases hrow
    rfl
  · rw [hclaim, ← holdid]
    rfl

/-- A commit leaves the quotes and their events alone, or it writes one row with its event. -/
theorem commit_logged {p : QuoteProc} {prog : QuoteTx QuoteResult} {db db' : QuoteDb}
    {x : QuoteResult} (hsound : p.Sound) (hbody : quoteService.body p = some prog)
    (h : quoteEngine.Runs db prog (.ok x) db') :
    (∀ id, db' (.quote id) = db (.quote id) ∧ db' (.events id) = db (.events id)) ∨
      ∃ row event, Logged db db' p.claim row event := by
  cases p with
  | requested request =>
    cases hbody
    rcases request.body_logged h with rfl | hlogged
    · exact .inl fun _ => ⟨rfl, rfl⟩
    · exact .inr hlogged
  | worker stage job =>
    cases stage with
    -- Only the two stages of a worker that update the quote append an event.
    | marking attemptId configured =>
      cases hbody
      obtain ⟨-, hanalyzing⟩ := hsound
      refine .inr (worker_update_logged rfl ?_ h)
      rw [hanalyzing]
      exact .start
    | recording attemptId =>
      cases hbody
      exact .inr (worker_update_logged rfl hsound.2 h)
    | starting attemptId =>
      cases hbody
      obtain ⟨-, attempt, -, rfl⟩ := worker_start_cases h
      exact .inl fun _ => ⟨by simp, by simp⟩
    | finishing attemptId =>
      cases hbody
      obtain ⟨-, attempt, -, rfl⟩ := worker_finish_cases h
      exact .inl fun _ => ⟨by simp, by simp⟩
    | calling attemptId => cases hbody
    | done => cases hbody
  | accepted _ _ _ => cases hbody
  | replayed _ _ => cases hbody
  | answered _ _ => cases hbody

/-- So does a step. -/
theorem step_logged {c c' : quoteService.Core} {a : quoteService.Action} (hc : Lifecycle c)
    (h : quoteService.AtomicStep c a c') :
    (∀ id, c'.db (.quote id) = c.db (.quote id) ∧ c'.db (.events id) = c.db (.events id)) ∨
      ∃ row event, Logged c.db c'.db (claimsOf QuoteProc.claim c.procs a.pid) row event := by
  rcases h.commits with hsame | ⟨pid, p, prog, x, hp, hbody, hruns, hend⟩
  · exact .inl fun id => by rw [hsame]; exact ⟨rfl, rfl⟩
  · have hpid : a.pid = pid := by
      rcases hend with ⟨rfl, -⟩ | ⟨-, rfl, -⟩ <;> rfl
    have hclaim : claimsOf QuoteProc.claim c.procs a.pid = p.claim := by
      rw [hpid]
      exact claimsOf_eq hp
    rw [hclaim]
    exact commit_logged (hc.sound pid p hp) hbody hruns

/-! ### The numbers -/

/-- The next statement of the transaction of `pid` inserts an event. -/
def appends (s : quoteService.State) (pid : Nat) : Bool :=
  match s.flights pid with
  | some ⟨.exec (.insertEvent _ _ _ _) _, _⟩ => true
  | _ => false

/-- The number that a step draws from the identity sequence. -/
def drawn? (s : quoteService.State) : quoteService.Action → Option Int
  | .stmt pid i => if appends s pid = true then some i.sequence else none
  | _ => none

/-- The numbers of the events, committed or not, were drawn in the order of the events. -/
structure Drawn (s : quoteService.State) (drawn : Int) : Prop where
  positive : 0 ≤ drawn
  committed : ∀ id, Numbered drawn (s.db (.events id))
  pending : ∀ pid f id rows, s.flights pid = some f → f.writes (.events id) = some rows →
    Numbered drawn rows

omit [CanonicalLib] in
/-- Only the insert of an event writes events, and it appends one with the next number. -/
theorem QuoteTables.run_events {st : QuoteStmt} {i : QuoteInput} {db : QuoteDb}
    {r : QuoteReply st} {w : QuoteWrites} {id : Uuid} {rows : List EventRow}
    (h : QuoteTables.run st i db = some (r, w)) (hw : w (.events id) = some rows) :
    (∃ owner status details, st = .insertEvent id owner status details) ∧
      ∃ row : EventRow, row.sequenceId = i.sequence ∧ rows = db (.events id) ++ [row] := by
  -- A statement that writes one cell writes the events only if that cell is the events,
  have hother : ∀ {c : QuoteCell} {value : c.Val},
      writeCell c value (.events id) = some rows → c = .events id := fun hwrite =>
    (eq_of_writeCell_ne_none (hwrite ▸ Option.some_ne_none rows)).symm
  -- and an update of a quote row writes no events.
  have hupdate : ∀ {quoteId subject now change}, (QuoteTables.updateRow db quoteId subject now
      change).2 (.events id) ≠ some rows := by
    intro quoteId subject now change hwrite
    have hcell := QuoteTables.updateRow_ne_none (hwrite ▸ Option.some_ne_none rows)
    cases hcell
  cases st with
  -- The insertion appends a row with the number drawn for it.
  | insertEvent quoteId owner status details =>
    cases h
    cases hother hw
    rw [writeCell, Function.update_self] at hw
    cases hw
    exact ⟨⟨owner, status, details, rfl⟩, _, rfl, rfl⟩
  -- Of the other statements none writes the events, whether it writes nothing or another cell.
  | setSubject _ =>
    cases h
    cases hw
  | advisoryLock _ =>
    simp only [QuoteTables.run] at h
    split at h
    · cases h
      cases hw
    · cases h
  | selectOperation _ _ =>
    cases h
    cases hw
  | selectContext _ =>
    cases h
    cases hw
  | insertQuote row =>
    simp only [QuoteTables.run] at h
    split at h
    · cases h
    · cases h
      cases hother hw
  | insertOperation _ _ _ =>
    cases h
    cases hother hw
  | selectQuote _ _ _ =>
    cases h
    cases hw
  | requeueQuote quoteId subject =>
    have h := congrArg Prod.snd (Option.some.inj h)
    subst h
    exact absurd hw hupdate
  | updateQuote quoteId owner status analysis errorCode =>
    have h := congrArg Prod.snd (Option.some.inj h)
    subst h
    exact absurd hw hupdate
  | selectLatestEvent _ _ =>
    cases h
    cases hw
  | insertAttempt attemptId _ _ _ =>
    simp only [QuoteTables.run] at h
    split at h
    · cases h
    · cases h
      cases hother hw
  | finishAttempt attemptId _ _ _ _ =>
    simp only [QuoteTables.run] at h
    split at h
    · split at h
      · cases h
        cases hother hw
      · cases h
        cases hw
    · cases h
      cases hw

/-- More numbers were drawn. -/
theorem Drawn.mono {s : quoteService.State} {drawn drawn' : Int} (h : Drawn s drawn)
    (hle : drawn ≤ drawn') : Drawn s drawn' where
  positive := h.positive.trans hle
  committed id := (h.committed id).mono hle
  pending pid f id rows hf hw := (h.pending pid f id rows hf hw).mono hle

/-- The events as a transaction with the writes `w` sees them. -/
theorem Drawn.overlay {s : quoteService.State} {drawn : Int} (h : Drawn s drawn) {pid : Nat}
    {f : Service.Flight quoteEngine StoreError QuoteResult} (hf : s.flights pid = some f)
    (id : Uuid) : Numbered drawn (quoteEngine.overlay f.writes s.db (.events id)) := by
  cases hw : f.writes (.events id) with
  | none =>
    rw [Engine.overlay, hw]
    exact h.committed id
  | some rows =>
    rw [Engine.overlay, hw]
    exact h.pending pid f id rows hf hw

/-- The end of a transaction, with its writes or without. -/
theorem Drawn.conclude {s : quoteService.State} {drawn : Int} (h : Drawn s drawn) {pid : Nat}
    {p : QuoteProc} {db : QuoteDb} (hdb : ∀ id, Numbered drawn (db (.events id))) :
    Drawn (quoteService.conclude s pid p db) drawn where
  positive := h.positive
  committed := hdb
  pending pid' f id rows hf hw := by
    have hf : Function.update s.flights pid none pid' = some f := hf
    by_cases hne : pid' = pid
    · rw [hne, Function.update_self] at hf
      cases hf
    · rw [Function.update_of_ne hne] at hf
      exact h.pending pid' f id rows hf hw

/-- A statement draws the next number if it inserts an event. -/
theorem Drawn.stmt {s s' : quoteService.State} {drawn : Int} {pid : Nat} {i : QuoteInput}
    (h : Drawn s drawn) (hnext : ∀ number ∈ drawn? s (.stmt pid i), drawn < number)
    (hs : quoteService.next s (.stmt pid i) = some s') :
    Drawn s' ((drawn? s (.stmt pid i)).getD drawn) := by
  simp only [Service.next] at hs
  split at hs
  case h_2 => cases hs
  next st k w hf =>
  split at hs
  case h_2 => cases hs
  next r w₁ hrun =>
  split at hs
  case isFalse => cases hs
  cases hs
  -- The sequence never goes back, so that all bounds are kept.
  have hle : drawn ≤ (drawn? s (.stmt pid i)).getD drawn := by
    cases hnumber : drawn? s (.stmt pid i) with
    -- The statement writes no events of this quote, so its flight has those from before.
    | none => exact le_rfl
    | some number => exact (hnext number hnumber).le
  have hmono := h.mono hle
  refine ⟨hmono.positive, hmono.committed, ?_⟩
  intro pid' f id rows hf' hw
  have hf' : Function.update s.flights pid (some ⟨k r, quoteEngine.merge w w₁⟩) pid' = some f :=
    hf'
  by_cases hne : pid' = pid
  · rw [hne, Function.update_self] at hf'
    cases hf'
    cases hw₁ : w₁ (.events id) with
    | none =>
      have hw : (w₁ (.events id)).or (w (.events id)) = some rows := hw
      rw [hw₁, Option.none_or] at hw
      exact hmono.pending pid _ id rows hf hw
    | some rows' =>
      have hw : (w₁ (.events id)).or (w (.events id)) = some rows := hw
      rw [hw₁] at hw
      cases hw
      obtain ⟨⟨owner, status, details, rfl⟩, row, hsequence, rfl⟩ := QuoteTables.run_events hrun hw₁
      have hdrawn : drawn? s (.stmt pid i) = some row.sequenceId := by
        rw [drawn?, appends, hf, hsequence]
        rfl
      rw [hdrawn]
      exact (h.overlay hf id).append h.positive (hnext _ hdrawn)
  · rw [Function.update_of_ne hne] at hf'
    exact hmono.pending pid' f id rows hf' hw

/-- A step keeps the events in the order of their numbers. -/
theorem Drawn.next {s s' : quoteService.State} {drawn : Int} {a : quoteService.Action}
    (h : Drawn s drawn) (hnext : ∀ number ∈ drawn? s a, drawn < number)
    (hs : quoteService.next s a = some s') : Drawn s' ((drawn? s a).getD drawn) := by
  cases a with
  -- A statement is the only action that draws a number.
  | stmt pid i => exact h.stmt hnext hs
  | arrive pid p =>
    simp only [Service.next, Option.ite_none_right_eq_some, Option.some.injEq] at hs
    obtain ⟨-, rfl⟩ := hs
    exact ⟨h.positive, h.committed, h.pending⟩
  | begin pid =>
    simp only [Service.next] at hs
    split at hs
    · next prog hbody hnone =>
      cases hs
      -- The new transaction has not written yet.
      refine ⟨h.positive, h.committed, fun pid' f id rows hf hw => ?_⟩
      have hf : Function.update s.flights pid (some ⟨prog, quoteEngine.noWrites⟩) pid' = some f :=
        hf
      by_cases hne : pid' = pid
      · rw [hne, Function.update_self] at hf
        cases hf
        cases hw
      · rw [Function.update_of_ne hne] at hf
        exact h.pending pid' f id rows hf hw
    · cases hs
  | finish pid =>
    simp only [Service.next] at hs
    split at hs
    · next hf =>
      cases hs
      -- The end of a transaction moves its pending rows to the committed ones.
      exact h.conclude fun id => h.overlay hf id
    · cases hs
      exact h.conclude h.committed
    · cases hs
  | lose pid =>
    simp only [Service.next] at hs
    split at hs
    · next hf =>
      cases hs
      exact h.conclude fun id => h.overlay hf id
    · cases hs
  | fail pid =>
    simp only [Service.next] at hs
    split at hs
    · cases hs
      exact h.conclude h.committed
    · cases hs
  | advance pid e child =>
    simp only [Service.next] at hs
    split at hs
    · split at hs
      · simp only [Option.ite_none_right_eq_some, Option.some.injEq] at hs
        obtain ⟨-, rfl⟩ := hs
        exact ⟨h.positive, h.committed, h.pending⟩
      · cases hs
    · cases hs
  | kill pid =>
    simp only [Service.next] at hs
    split at hs
    · simp only [Option.ite_none_right_eq_some, Option.some.injEq] at hs
      obtain ⟨-, rfl⟩ := hs
      refine ⟨h.positive, h.committed, fun pid' f id rows hf hw => ?_⟩
      have hf : Function.update s.flights pid none pid' = some f := hf
      by_cases hne : pid' = pid
      · rw [hne, Function.update_self] at hf
        cases hf
      · rw [Function.update_of_ne hne] at hf
        exact h.pending pid' f id rows hf hw
    · cases hs

/-! ### The log -/

/-- The last number that was drawn, and the statuses that the row of each quote has had. -/
structure LogRecord where
  drawn : Int
  statuses : Uuid → List String

/-- Nothing has happened. -/
def LogRecord.start : LogRecord where
  drawn := 0
  statuses _ := []

/-- The statuses after the tables changed from `db` to `db'`. -/
def noteStatuses (statuses : Uuid → List String) (db db' : QuoteDb) (id : Uuid) : List String :=
  if statusOf db' id = statusOf db id then statuses id
  else statuses id ++ (statusOf db' id).toList

/-- The record after a step. -/
def LogRecord.note (record : LogRecord) (s : quoteService.State) (a : quoteService.Action)
    (s' : quoteService.State) : LogRecord where
  drawn := (drawn? s a).getD record.drawn
  statuses := noteStatuses record.statuses s.db s'.db

/-- The service with its record. -/
def eventLog : System (quoteService.State × LogRecord) quoteService.Action :=
  quoteService.interleaved.recording .start LogRecord.note

/-- The identity sequence only gives numbers that are larger than all before. -/
def DrawsNext (q : quoteService.State × LogRecord) (a : quoteService.Action) : Prop :=
  ∀ number ∈ drawn? q.1 a, q.2.drawn < number

instance (q : quoteService.State × LogRecord) (a : quoteService.Action) :
    Decidable (DrawsNext q a) :=
  inferInstanceAs (Decidable (∀ number ∈ drawn? q.1 a, q.2.drawn < number))

/-- The events of each quote replay to the statuses of its row. -/
structure Replayed (db : QuoteDb) (statuses : Uuid → List String) : Prop where
  events : ∀ id, (db (.events id)).map EventRow.status = statuses id
  current : ∀ id, (statuses id).getLast? = statusOf db id
  first : ∀ id status, (statuses id).head? = some status → status = "queued"
  owned : ∀ id row event, db (.quote id) = some row → event ∈ db (.events id) →
    event.quoteId = id ∧ event.ownerSubject = row.ownerSubject

omit [CanonicalLib] [Postgres] in
/-- A row with its event keeps the log. -/
theorem Replayed.logged {db db' : QuoteDb} {statuses : Uuid → List String}
    {claim : Option (Uuid × String)} {row : QuoteRow} {event : EventRow}
    (h : Replayed db statuses) (hlogged : Logged db db' claim row event)
    (hchanges : statusOf db row.id ≠ some row.status)
    (hentry : statusOf db row.id = none → row.status = "queued") :
    Replayed db' (noteStatuses statuses db db') := by
  have hstatus : statusOf db' row.id = some row.status := statusOf_eq hlogged.written
  have hnew : noteStatuses statuses db db' row.id = statuses row.id ++ [row.status] := by
    rw [noteStatuses, hstatus, if_neg (Ne.symm hchanges)]
    rfl
  have hother : ∀ id, id ≠ row.id → noteStatuses statuses db db' id = statuses id ∧
      statusOf db' id = statusOf db id := by
    intro id hne
    have hsame : statusOf db' id = statusOf db id := by
      rw [statusOf, (hlogged.others id hne).1, statusOf]
    exact ⟨if_pos hsame, hsame⟩
  constructor
  · intro id
    by_cases hid : id = row.id
    · rw [hid, hnew, hlogged.appended, List.map_append, h.events, List.map_singleton,
        hlogged.status]
    · rw [(hother id hid).1, (hlogged.others id hid).2]
      exact h.events id
  · intro id
    by_cases hid : id = row.id
    · rw [hid, hnew, hstatus, List.getLast?_concat]
    · rw [(hother id hid).1, (hother id hid).2]
      exact h.current id
  · intro id status hstatus
    by_cases hid : id = row.id
    · rw [hid, hnew] at hstatus
      cases hlist : statuses row.id with
      | nil =>
        rw [hlist] at hstatus
        cases hstatus
        -- The row is new.
        apply hentry
        rw [← h.current, hlist]
        rfl
      | cons old rest =>
        rw [hlist] at hstatus
        cases hstatus
        exact h.first row.id status (by rw [hlist]; rfl)
    · rw [(hother id hid).1] at hstatus
      exact h.first id status hstatus
  · intro id row' event' hrow' hevent'
    by_cases hid : id = row.id
    · rw [hid, hlogged.written] at hrow'
      cases hrow'
      rw [hid, hlogged.appended] at hevent'
      rcases List.mem_append.mp hevent' with hold | hnew
      · -- An old event has an old row, with the same owner.
        cases hquote : db (.quote row.id) with
        | none =>
          have hcurrent := h.current row.id
          rw [statusOf, hquote, Option.map_none, List.getLast?_eq_none_iff, ← h.events,
            List.map_eq_nil_iff] at hcurrent
          rw [hcurrent] at hold
          cases hold
        | some old =>
          obtain ⟨hquoteId, howner⟩ := h.owned row.id old event' hquote hold
          exact ⟨hquoteId.trans hid.symm, howner.trans (hlogged.kept old hquote)⟩
      · rw [List.mem_singleton.mp hnew]
        exact ⟨hlogged.quoteId.trans hid.symm, hlogged.ownerSubject⟩
    · rw [(hlogged.others id hid).1] at hrow'
      rw [(hlogged.others id hid).2] at hevent'
      exact h.owned id row' event' hrow' hevent'

/-- A step keeps the log. -/
theorem replayed_step {c c' : quoteService.Core} {a : quoteService.Action}
    {statuses : Uuid → List String} (hc : Lifecycle c) (h : Replayed c.db statuses)
    (hstep : quoteService.AtomicStep c a c') :
    Replayed c'.db (noteStatuses statuses c.db c'.db) := by
  rcases step_logged hc hstep with hsame | ⟨row, event, hlogged⟩
  · -- No quote changes, and so nothing is noted.
    have hstatus : ∀ id, statusOf c'.db id = statusOf c.db id := fun id => by
      rw [statusOf, (hsame id).1, statusOf]
    have hnote : noteStatuses statuses c.db c'.db = statuses := by
      funext id
      exact if_pos (hstatus id)
    rw [hnote]
    exact {
      events := fun id => by rw [(hsame id).2, h.events]
      current := fun id => by rw [hstatus, h.current]
      first := h.first
      owned := fun id row event hrow hevent =>
        h.owned id row event ((hsame id).1 ▸ hrow) ((hsame id).2 ▸ hevent) }
  · -- One quote takes an edge of the lifecycle, and its event is appended with it.
    have hne : ∀ old new, StatusEdge old new → old ≠ new := by
      intro old new hedge
      cases hedge <;> decide
    have hedge : ∀ status, ¬ StatusEdge status status := fun status hedge =>
      hne status status hedge rfl
    have hentry : ¬ quoteProtocol.idle quoteProtocol.entry := by
      show ¬ "queued" = "failed"
      decide
    refine h.logged hlogged (hlogged.write.changes hc.exclusive hedge hentry) ?_
    · intro hnone
      rcases hlogged.write.before with ⟨-, hqueued⟩ | ⟨old, hclaim, -⟩
      · exact hqueued
      · rw [hc.exclusive.expected _ _ _ hclaim] at hnone
        cases hnone

/-- The events replay in every reachable state. -/
theorem replayed_reachable {s : quoteService.State} {record : LogRecord}
    (h : eventLog.Reachable (s, record)) : Replayed s.db record.statuses := by
  have hrefines := Service.interleaved_refines_atomic quoteService_disciplined
  refine h.induct (I := fun q => Replayed q.1.db q.2.statuses) ?_ ?_
  · rintro ⟨s, record⟩ ⟨rfl, rfl⟩
    exact {
      events := fun _ => rfl
      current := fun _ => rfl
      first := fun _ _ h => nomatch h
      owned := fun _ _ _ h => nomatch h }
  · rintro ⟨s, record⟩ a ⟨s', record'⟩ hr hreplayed - ⟨hstep, hrecord⟩
    have hs : quoteService.interleaved.Reachable s := System.reachable_of_recording hr
    have hc := lifecycle_reachable (hrefines.reachable hs)
    dsimp only at hrecord
    subst hrecord
    exact replayed_step hc hreplayed (hrefines.step s a s' hs hstep)

/-- The log in every reachable state. -/
theorem eventLog_reachable {s : quoteService.State} {record : LogRecord}
    (h : eventLog.ReachableWith DrawsNext (s, record)) :
    Drawn s record.drawn ∧ Replayed s.db record.statuses := by
  refine ⟨h.induct (I := fun q => Drawn q.1 q.2.drawn) ?_ ?_, replayed_reachable h.reachable⟩
  · rintro ⟨s, record⟩ ⟨rfl, rfl⟩
    exact ⟨le_rfl, fun _ => .nil, fun _ _ _ _ hf => nomatch hf⟩
  · rintro ⟨s, record⟩ a ⟨s', record'⟩ hr hdrawn hnext ⟨hstep, hrecord⟩
    dsimp only at hrecord
    subst hrecord
    exact hdrawn.next hnext hstep

omit [CanonicalLib] in
/-- `latest_event` finds the event that was appended last. -/
theorem latestEvent_eq {db : QuoteDb} {drawn : Int} {id : Uuid} {row : QuoteRow}
    {rows : List EventRow} {event : EventRow} (input : QuoteInput)
    (hevents : db (.events id) = rows ++ [event]) (hnumbered : Numbered drawn (db (.events id)))
    (howned : ∀ e ∈ db (.events id), e.quoteId = id ∧ e.ownerSubject = row.ownerSubject) :
    ∃ found, quoteEngine.evaluate input db (latestEvent row.ownerSubject id)
        = some (.ok found, db) ∧
      found.quoteId = id ∧ found.status = event.status := by
  -- All events of the quote have its owner, so that the filter keeps them.
  have hfilter : ((db (.events id)).filter fun e =>
      e.quoteId = id ∧ e.ownerSubject = row.ownerSubject) = db (.events id) := by
    rw [List.filter_eq_self]
    exact fun e he => decide_eq_true (howned e he)
  -- They are numbered in order, and the last one has the greatest number.
  have hlatest : QuoteTables.latest (db (.events id)) = some event := by
    rw [hnumbered.latest, hevents, List.getLast?_concat]
  have hmem : event ∈ db (.events id) := by
    rw [hevents]
    exact List.mem_append_right _ (List.mem_singleton_self _)
  have hpos := (hnumbered.bounds event hmem).1
  obtain ⟨found, hparse, hid, hstatus⟩ : ∃ found, eventFromRow event = .ok found ∧
      found.quoteId = event.quoteId ∧ found.status = event.status := by
    rw [eventFromRow, if_neg (by omega)]
    exact ⟨_, rfl, rfl, rfl⟩
  refine ⟨found, ?_, hid.trans (howned event hmem).1, hstatus⟩
  show quoteEngine.evaluate input db (do
    let row ← QuoteTx.okOr .quoteNotFound (QuoteTables.latest ((db (.events id)).filter fun e =>
      e.quoteId = id ∧ e.ownerSubject = row.ownerSubject))
    Program.ofExcept (eventFromRow row)) = _
  rw [hfilter, hlatest]
  show quoteEngine.evaluate input db (Program.ofExcept (eventFromRow event)) = _
  rw [hparse]
  rfl

omit [CanonicalLib] in
/-- What the event of a row is. -/
theorem eventFromRow_ok {row : EventRow} {event : QuoteEventRecord}
    (h : eventFromRow row = .ok event) :
    (event.sequence : Int) = row.sequenceId ∧ event.status = row.status ∧
      event.quoteId = row.quoteId ∧ event.ownerSubject = row.ownerSubject := by
  unfold eventFromRow at h
  split at h
  · cases h
  · next hsequence =>
    cases h
    exact ⟨Int.toNat_of_nonneg (Int.not_lt.mp hsequence), rfl, rfl, rfl⟩

omit [CanonicalLib] in
/-- `latest_event` finds a committed event of the quote and owner with the largest number. -/
theorem latestEvent_ok {db db' : QuoteDb} {input : QuoteInput} {subject : String}
    {quoteId : Uuid} {event : QuoteEventRecord}
    (h : quoteEngine.evaluate input db (latestEvent subject quoteId) = some (.ok event, db')) :
    ∃ row ∈ db (.events quoteId), eventFromRow row = .ok event ∧
      row.quoteId = quoteId ∧ row.ownerSubject = subject ∧
      ∀ row' ∈ db (.events quoteId), row'.quoteId = quoteId → row'.ownerSubject = subject →
        row'.sequenceId ≤ row.sequenceId := by
  have h : quoteEngine.evaluate input db (do
      let row ← QuoteTx.okOr .quoteNotFound (QuoteTables.latest ((db (.events quoteId)).filter
        fun e => e.quoteId = quoteId ∧ e.ownerSubject = subject))
      Program.ofExcept (eventFromRow row)) = some (.ok event, db') := h
  cases hlatest : QuoteTables.latest ((db (.events quoteId)).filter fun e =>
      e.quoteId = quoteId ∧ e.ownerSubject = subject) with
  | none =>
    rw [hlatest] at h
    cases h
  -- The row that was found is among the filtered ones, and none of these is later.
  | some row =>
    rw [hlatest] at h
    have h : quoteEngine.evaluate input db (Program.ofExcept (eventFromRow row)) =
        some (.ok event, db') := h
    obtain ⟨hmem, hmine⟩ := List.mem_filter.mp (List.argmax_mem hlatest)
    obtain ⟨hid, howner⟩ := of_decide_eq_true hmine
    refine ⟨row, hmem, ?_, hid, howner, fun row' hmem' hid' howner' => ?_⟩
    · cases hparse : eventFromRow row with
      | error error =>
        rw [hparse] at h
        cases h
      | ok found =>
        rw [hparse] at h
        cases h
        rfl
    · exact Int.not_lt.mp (List.not_lt_of_mem_argmax
        (List.mem_filter.mpr ⟨hmem', decide_eq_true ⟨hid', howner'⟩⟩) hlatest)

/-- A step of the service keeps the committed events and may append one. -/
theorem events_prefix_of_step {s s' : quoteService.State} {a : quoteService.Action}
    (hs : quoteService.interleaved.Reachable s) (h : quoteService.interleaved.step s a s')
    (id : Uuid) : s.db (.events id) <+: s'.db (.events id) := by
  have hrefines := Service.interleaved_refines_atomic quoteService_disciplined
  have hc := lifecycle_reachable (hrefines.reachable hs)
  rcases step_logged hc (hrefines.step s a s' hs h) with hsame | ⟨row, event, hlogged⟩
  · exact (hsame id).2 ▸ List.prefix_refl _
  · by_cases hid : id = row.id
    · subst hid
      exact hlogged.appended ▸ List.prefix_append _ _
    · exact (hlogged.others id hid).2 ▸ List.prefix_refl _

/-- The events of a quote, in the order of their numbers, are the statuses that its row has had,
one event for each change of the status and in the order of the commits. The first one is
queued, the last one is the status of the row, and `latest_event` finds it. -/
theorem event_log_replays (s : quoteService.State) (record : LogRecord)
    (h : eventLog.ReachableWith DrawsNext (s, record)) (id : Uuid) :
    (((s.db (.events id)).mergeSort fun e e' => e.sequenceId ≤ e'.sequenceId).map
      EventRow.status = record.statuses id) ∧
    ((s.db (.events id)).map EventRow.sequenceId).Nodup ∧
    (∀ status, (record.statuses id).head? = some status → status = "queued") ∧
    (record.statuses id).getLast? = statusOf s.db id ∧
    ∀ row, s.db (.quote id) = some row → ∀ input, ∃ event,
      quoteEngine.evaluate input s.db (latestEvent row.ownerSubject id) = some (.ok event, s.db) ∧
      event.quoteId = id ∧ event.status = row.status := by
  obtain ⟨hdrawn, hreplayed⟩ := eventLog_reachable h
  have hnumbered := hdrawn.committed id
  refine ⟨?_, ?_, hreplayed.first id, hreplayed.current id, ?_⟩
  · -- The events are stored in the order of their numbers, so sorting changes nothing.
    rw [hnumbered.sorted]
    exact hreplayed.events id
  · rw [List.nodup_iff_pairwise_ne, List.pairwise_map]
    exact hnumbered.ascending.imp fun hlt => hlt.ne
  · intro row hrow input
    have hcurrent := hreplayed.current id
    rw [statusOf_eq hrow, ← hreplayed.events] at hcurrent
    -- A quote has a status, so it has a last event, which is the latest one.
    obtain ⟨rows, event, hevents⟩ : ∃ rows event, s.db (.events id) = rows ++ [event] := by
      rcases List.eq_nil_or_concat (s.db (.events id)) with hnil | ⟨rows, event, hevents⟩
      · rw [hnil] at hcurrent
        cases hcurrent
      · exact ⟨rows, event, hevents.trans List.concat_eq_append⟩
    rw [hevents, List.map_append, List.map_singleton, List.getLast?_concat] at hcurrent
    obtain ⟨found, hfound, hid, hstatus⟩ := latestEvent_eq input hevents hnumbered
      fun e he => hreplayed.owned id row e hrow he
    exact ⟨found, hfound, hid, hstatus.trans (Option.some.inj hcurrent)⟩

end

section

attribute [local instance] fixtureLib openServer

/-- A transaction of `n` statements that draws the number `sequence`. -/
def testNumbered (pid n : Nat) (sequence : Int) : List quoteService.Action :=
  .begin pid :: List.replicate n (.stmt pid ⟨some CanonicalContext.requestOnly, 0, sequence⟩) ++
    [.finish pid]

/-- The first create draws the number 1 and fails. The second one draws the number 2, and its
worker the number 3. -/
def testGap : List quoteService.Action :=
  [.arrive 0 (.requested testCreate), .begin 0] ++
    List.replicate 7 (.stmt 0 ⟨some CanonicalContext.requestOnly, 0, 1⟩) ++
    [.fail 0, .arrive 1 (.requested testCreate)] ++ testNumbered 1 7 2 ++
    .advance 1 (.proceed ⟨9⟩) 2 :: testNumbered 2 3 3

/-- A run in which the sequence skips a number. The events of the quote are numbered 2 and 3, and
sorted by their numbers they are the statuses of its row. -/
theorem event_log_replays_test :
    ∃ s record, eventLog.ReachableWith DrawsNext (s, record) ∧
      record.statuses testQuote = ["queued", "analyzing"] ∧
      (s.db (.events testQuote)).map EventRow.sequenceId = [2, 3] ∧
      ((s.db (.events testQuote)).mergeSort fun e e' => e.sequenceId ≤ e'.sequenceId).map
        EventRow.status = ["queued", "analyzing"] := by
  have hrun : ((System.run (System.guarded DrawsNext
      (System.record quoteService.next LogRecord.note)) (quoteService.initial, .start)
      testGap).map fun q => (q.2.statuses testQuote == ["queued", "analyzing"]) &&
        ((q.1.db (.events testQuote)).map EventRow.sequenceId == [2, 3])) = some true := by
    decide
  obtain ⟨⟨s, record⟩, hq, hview⟩ := System.exists_reachable_of_run testGap _ hrun
  rw [Bool.and_eq_true, beq_iff_eq, beq_iff_eq] at hview
  obtain ⟨hstatuses, hnumbers⟩ := hview
  have hq : eventLog.ReachableWith DrawsNext (s, record) := .of_record (.of_guarded hq)
  exact ⟨s, record, hq, hstatuses, hnumbers,
    (event_log_replays s record hq testQuote).1.trans hstatuses⟩

end

end CanonicalApi
