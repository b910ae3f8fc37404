import CanonicalApi.Memory.Consistency
import Mathlib.Data.List.Nodup

/-!
# `CanonicalApi.Memory.Idempotency`: the idempotency map without a database

A new request makes its entry before its quote is stored, and it makes it after the guard
under which it found none. So two creates with one key can both be new, and a replay can find
an entry whose quote is not stored yet.

The record beside the states lists the entries whose handler has stored the quote and started
the analysis; both happen in one poll. The workers of a run are those that the entries of the
record have started, one for each (`exists_analyses`). An entry is ensured when it is listed or
its handler waits at this poll. `create_idempotency` is about the runs without the race
(`CreatesApart`).
-/

set_option autoImplicit false

namespace CanonicalApi

open Transition (System)
open Tasks (Due Ensured note)

section

variable [CanonicalLib]

/-- The entry of a handler that waits to store the record of a new request, when it is one of
the entries in question. -/
def MemoryTask.acceptance? (P : MemoryOperation → Bool) :
    MemoryTask → Option ((String × String) × MemoryOperation)
  | handler request (.storing record (some _)) =>
      if P (request.operation record) then some (request.pair, request.operation record)
      else none
  | _ => none

/-- The operation is a create. -/
def MemoryOperation.isCreate : MemoryOperation → Bool
  | create _ _ => true
  | assessment _ _ | retry _ => false

/-- The pair has the entry of a quote. -/
def AppState.HasEntry (state : AppState) (pair : String × String) : Prop :=
  ∃ operation quoteId, state.idempotency pair = some operation ∧
    operation.quoteId? = some quoteId

/-! ### The entries -/

/-- The quote of the entry of a new request is the one of its record. -/
theorem MutationRequest.Prepared.operation {request : MutationRequest} {state : AppState}
    {record : QuoteRecord} (h : request.Prepared state record) :
    (request.operation record).quoteId? = some record.quoteId := by
  rw [MutationRequest.operation]
  split
  · rfl
  · next quoteId hmutation =>
    obtain ⟨hid, -⟩ := h.retry quoteId hmutation
    rw [hid]
    rfl

/-- A request replays only its own kind of entry. -/
theorem replays_quoteId {request : MutationRequest} {operation : MemoryOperation}
    {quoteId : Uuid} (h : request.replays operation = some quoteId) :
    operation.quoteId? = some quoteId := by
  unfold MutationRequest.replays at h
  split at h
  · split at h
    · exact h
    · cases h
  · split at h
    · next heq =>
      rw [heq]
      exact h
    · cases h
  · cases h

/-- A create replays only the entry of a create with the same payload. -/
theorem replays_create {request : MutationRequest} {operation : MemoryOperation}
    {accepted : AcceptedQuoteRequest} {timestamp : String} {fresh quoteId : Uuid}
    (hmutation : request.mutation = .create accepted timestamp fresh)
    (h : request.replays operation = some quoteId) :
    operation = .create quoteId accepted.wire.toValue := by
  unfold MutationRequest.replays at h
  rw [hmutation] at h
  cases operation with
  | create _ existing =>
    dsimp only at h
    split at h
    · next heq =>
      cases h
      rw [heq]
    · cases h
  | assessment _ _ => cases h
  | retry _ => cases h

/-- The entries of quotes stay as they are. -/
def SameEntries (state state' : AppState) : Prop :=
  ∀ pair operation quoteId, operation.quoteId? = some quoteId →
    (state'.idempotency pair = some operation ↔ state.idempotency pair = some operation)

/-- A change that leaves the map as it is leaves its entries. -/
theorem SameEntries.of_eq {state state' : AppState}
    (h : state'.idempotency = state.idempotency) : SameEntries state state' := by
  intro pair operation quoteId _
  rw [h]

/-- A poll leaves the entries of quotes alone, or it makes the entry of a new request. -/
theorem Polled.entries {state state' : AppState} {task task' : MemoryTask}
    {child? : Option MemoryTask} (h : Polled state task state' task' child?) :
    SameEntries state state' ∨ ∃ request record event,
      task = .handler request (.claiming record event) ∧
      task' = .handler request (.storing record (some event)) ∧ child? = none ∧
      state' = state.insertOperation request.pair (request.operation record) := by
  cases h.effect with
  | silent _ hsilent => exact .inl (.of_eq hsilent.idempotency)
  | stores _ hstores => exact .inl (.of_eq hstores.idempotency)
  | claims htask htask' hchild hstate => exact .inr ⟨_, _, _, htask, htask', hchild, hstate⟩
  | assesses _ hkeeps => exact .inl hkeeps.operations

/-- The effect of a step on the entries of quotes: none, or a new request makes its entry and
waits to store its record. -/
theorem entries_step {s s' : memoryTasks.State} {a : memoryTasks.Action}
    (h : memoryTasks.next s a = some s') :
    SameEntries s.shared s'.shared ∨ ∃ pid input child request record event,
      a = .poll pid input child ∧ s.tasks pid = some (.handler request (.claiming record event)) ∧
      s'.tasks pid = some (.handler request (.storing record (some event))) ∧
      s'.shared = s.shared.insertOperation request.pair (request.operation record) := by
  have hstep := Tasks.step_of_next h
  cases hstep with
  | arrive harrives _ =>
    rcases memory_arrives harrives with ⟨_, -, -, hissues⟩ | ⟨_, -, hissues⟩
    · exact .inl (.of_eq hissues.idempotency)
    · exact .inl (.of_eq hissues.idempotency)
  | @poll pid child input p p' q? shared hp hchild hpoll =>
    -- The entry is inserted when the handler claims its pair, and nowhere else.
    rcases (polled_of_poll hpoll).entries with
      hsame | ⟨request, record, event, rfl, rfl, rfl, rfl⟩
    · exact .inl hsame
    · exact .inr ⟨pid, input, child, request, record, event, rfl, hp, Function.update_self ..,
        rfl⟩
  | drop _ _ => exact .inl (.of_eq rfl)

/-- The pairs with an entry keep one. -/
theorem hasEntry_step {s s' : memoryTasks.State} {a : memoryTasks.Action} (hs : Consistent s)
    (h : memoryTasks.next s a = some s') {pair : String × String}
    (hentry : s.shared.HasEntry pair) : s'.shared.HasEntry pair := by
  obtain ⟨operation, quoteId, hold, hquote⟩ := hentry
  rcases entries_step h with hsame | ⟨pid, _, _, request, record, event, -, hp, -, hshared⟩
  · exact ⟨operation, quoteId, (hsame pair operation quoteId hquote).mpr hold, hquote⟩
  · have hprepared : request.Prepared s.shared record := hs.knows pid _ hp
    rw [hshared]
    by_cases hpair : pair = request.pair
    · subst hpair
      exact ⟨_, _, Function.update_self .., hprepared.operation⟩
    · refine ⟨operation, quoteId, ?_, hquote⟩
      show Function.update s.shared.idempotency request.pair _ pair = _
      rw [Function.update_of_ne hpair, hold]

/-! ### Ensured entries -/

section

variable {P : MemoryOperation → Bool}

/-- Who waits to store the record of an entry. -/
theorem due_acceptance {s : memoryTasks.State} {pid : Nat}
    {x : (String × String) × MemoryOperation} :
    Due (MemoryTask.acceptance? P) s pid x ↔ ∃ request record event,
      s.tasks pid = some (.handler request (.storing record (some event))) ∧
      P (request.operation record) = true ∧ x = (request.pair, request.operation record) := by
  rw [Tasks.due_iff]
  constructor
  · rintro ⟨p, hp, hx⟩
    -- An answer is due in the stage that stores a quote with its event.
    unfold MemoryTask.acceptance? at hx
    split at hx
    · next request record event =>
      split at hx
      · next hP =>
        cases hx
        exact ⟨request, record, event, hp, hP, rfl⟩
      · cases hx
    · cases hx
  · rintro ⟨request, record, event, hp, hP, rfl⟩
    exact ⟨_, hp, if_pos hP⟩

/-- A task that waits to store the record of an entry waited there before, or it has just made
the entry. -/
theorem due_origin {s s' : memoryTasks.State} {a : memoryTasks.Action}
    (h : memoryTasks.next s a = some s') {pid : Nat} {x : (String × String) × MemoryOperation}
    (hdue : Due (MemoryTask.acceptance? P) s' pid x) :
    Due (MemoryTask.acceptance? P) s pid x ∧ (∀ input child, a ≠ .poll pid input child) ∨
      ∃ input child request record event, a = .poll pid input child ∧
        s.tasks pid = some (.handler request (.claiming record event)) ∧
        P (request.operation record) = true ∧ x = (request.pair, request.operation record) ∧
        s'.shared = s.shared.insertOperation request.pair (request.operation record) := by
  obtain ⟨request, record, event, hp', hP, rfl⟩ := due_acceptance.mp hdue
  rcases handler_origin h hp' nofun with ⟨hp, hpoll⟩ | ⟨input, child, p, _, ha, hp, hpolled⟩
  · exact .inl ⟨due_acceptance.mpr ⟨request, record, event, hp, hP, rfl⟩, hpoll⟩
  · obtain ⟨rfl, hshared⟩ := hpolled.claimed
    exact .inr ⟨input, child, request, record, event, ha, hp, hP, rfl, hshared⟩

/-- What holds of the entries on the record in every run. -/
structure Listed (P : MemoryOperation → Bool) (s : memoryTasks.State)
    (log : List ((String × String) × MemoryOperation)) : Prop where
  claimed : ∀ x, Ensured (MemoryTask.acceptance? P) s log x → s.shared.HasEntry x.1
  owned : ∀ x ∈ log, ∃ quoteId, x.2.quoteId? = some quoteId ∧ s.shared.Owned quoteId x.1.1

/-- A step keeps the entries that are ensured on the map, and the quotes of those on the
record owned. -/
theorem listed_step {s s' : memoryTasks.State} {a : memoryTasks.Action}
    {log : List ((String × String) × MemoryOperation)} (hs : Consistent s)
    (hlog : Listed P s log) (h : memoryTasks.next s a = some s') :
    Listed P s' (note (MemoryTask.acceptance? P) log s a) where
  claimed x hx := by
    rcases hx with hmem | ⟨pid, hdue⟩
    · refine hasEntry_step hs h (hlog.claimed x ?_)
      rcases Tasks.mem_note.mp hmem with hold | ⟨pid, _, _, -, hdue⟩
      · exact .inl hold
      · exact .inr ⟨pid, hdue⟩
    · -- A poll that is due was due before, or its handler has just claimed the key.
      rcases due_origin h hdue with ⟨hold, -⟩ |
        ⟨_, _, request, record, event, -, hp, -, rfl, hshared⟩
      · exact hasEntry_step hs h (hlog.claimed x (.inr ⟨pid, hold⟩))
      · have hprepared : request.Prepared s.shared record := hs.knows pid _ hp
        rw [hshared]
        exact ⟨_, _, Function.update_self .., hprepared.operation⟩
  owned x hx := by
    rcases Tasks.mem_note.mp hx with hold | ⟨pid, input, child, rfl, hdue⟩
    · obtain ⟨quoteId, hquote, howned⟩ := hlog.owned x hold
      exact ⟨quoteId, hquote, owned_step hs h howned⟩
    · obtain ⟨request, record, event, hp, -, rfl⟩ := due_acceptance.mp hdue
      have hprepared : request.Prepared s.shared record := hs.knows pid _ hp
      have howned := (stores_step h hp rfl).owned
      rw [hprepared.owner] at howned
      exact ⟨record.quoteId, hprepared.operation, howned⟩

/-- The entries in question on the map are ensured. -/
def EntriesEnsured (P : MemoryOperation → Bool) (s : memoryTasks.State)
    (log : List ((String × String) × MemoryOperation)) : Prop :=
  ∀ pair operation quoteId, P operation = true → operation.quoteId? = some quoteId →
    s.shared.idempotency pair = some operation →
    Ensured (MemoryTask.acceptance? P) s log (pair, operation)

/-- A step keeps the entries on the map ensured, unless it drops the last handler that ensures
one of them. -/
theorem entriesEnsured_step {s s' : memoryTasks.State} {a : memoryTasks.Action}
    {log : List ((String × String) × MemoryOperation)} (hlog : EntriesEnsured P s log)
    (hdrop : ∀ pid x, a = .drop pid → Due (MemoryTask.acceptance? P) s pid x →
      s.shared.idempotency x.1 = some x.2 →
      x ∈ log ∨ ∃ pid', pid' ≠ pid ∧ Due (MemoryTask.acceptance? P) s pid' x)
    (h : memoryTasks.next s a = some s') :
    EntriesEnsured P s' (note (MemoryTask.acceptance? P) log s a) := by
  intro pair operation quoteId hP hquote hentry
  -- An entry that was there is on the log or due, unless its task is dropped.
  have hkept : s.shared.idempotency pair = some operation →
      Ensured (MemoryTask.acceptance? P) s' (note (MemoryTask.acceptance? P) log s a)
        (pair, operation) := by
    intro hold
    exact (hlog pair operation quoteId hP hquote hold).step (Tasks.step_of_next h)
      fun pid ha hdue => hdrop pid _ ha hdue hold
  -- A new entry is that of a handler that claims, and this handler is due.
  rcases entries_step h with hsame | ⟨pid, _, _, request, record, event, -, -, hp', hshared⟩
  · exact hkept ((hsame pair operation quoteId hquote).mp hentry)
  · rw [hshared] at hentry
    have hentry : Function.update s.shared.idempotency request.pair
        (some (request.operation record)) pair = some operation := hentry
    by_cases hpair : pair = request.pair
    · subst hpair
      rw [Function.update_self] at hentry
      cases hentry
      exact .inr ⟨pid, due_acceptance.mpr ⟨request, record, event, hp', hP, rfl⟩⟩
    · rw [Function.update_of_ne hpair] at hentry
      exact hkept hentry

end

/-! ### The analyses -/

/-- The quote that a worker analyzes. -/
def MemoryTask.analyzed? : MemoryTask → Option Uuid
  | worker _ job => some job.record.quoteId
  | _ => none

/-- The workers of a run, each with the entry of the request that has started it. The worker
analyzes the quote of this entry. -/
abbrev Analyses (s : memoryTasks.State)
    (starts : List (Nat × ((String × String) × MemoryOperation))) : Prop :=
  Tasks.StartedBy MemoryTask.analyzed? (fun entry => entry.2.quoteId?) s starts

/-- A worker analyzes one quote to its end, and no other task becomes a worker. -/
theorem Polled.analyzed {state state' : AppState} {task task' : MemoryTask}
    {child? : Option MemoryTask} (h : Polled state task state' task' child?) :
    task'.analyzed? = task.analyzed? := by
  cases h with
  | refuses _ _ => rfl
  | replays _ _ => rfl
  | creates _ _ _ _ => rfl
  | checks _ => rfl
  | rereads _ => rfl
  | requeues _ _ _ _ _ _ => rfl
  | claims => rfl
  | answers _ => rfl
  | accepts _ => rfl
  | halts _ => rfl
  | starts _ => rfl
  | marks _ => rfl
  | abandons _ => rfl
  | fails _ => rfl
  | concludes _ => exact congrArg some (concludeAnalysis_quoteId _ _)
  | records _ => rfl
  | assesses _ => rfl

/-- The poll that stores the record of a new request starts its worker. -/
theorem Polled.accepted {state state' : AppState} {task' : MemoryTask}
    {child? : Option MemoryTask} {request : MutationRequest} {record : QuoteRecord}
    {event : QuoteEventRecord}
    (h : Polled state (.handler request (.storing record (some event))) state' task' child?) :
    child? = some (.worker (.created request.settings.geminiConfigured)
      (.of request.settings record CanonicalContext.requestOnly request.mutation)) := by
  cases h with
  | refuses hreads _ => cases hreads
  | accepts _ => rfl

/-- A new request starts the worker of its quote, and nothing else starts one. -/
theorem starts_analyses : Tasks.Starts (T := memoryTasks)
    (MemoryTask.acceptance? fun _ => true) MemoryTask.analyzed?
    (fun entry => entry.2.quoteId?) where
  arrive harrives := by
    rcases memory_arrives harrives with ⟨_, rfl, -, -⟩ | ⟨_, rfl, -⟩
    · rfl
    · rfl
  drop {p} hdrop := by
    cases p with
    | handler _ _ => rfl
    | worker _ _ => cases hdrop
    | assessing _ => rfl
    | assessed _ => rfl
  keep hpoll := (polled_of_poll hpoll).analyzed
  start {s pid p p' input shared q?} hs hp hpoll := by
    have hpolled := polled_of_poll hpoll
    cases hx : MemoryTask.acceptance? (fun _ => true) p with
    | none =>
      refine .inl ⟨rfl, ?_⟩
      cases q? with
      | none => rfl
      | some child =>
        obtain ⟨request, record, event, rfl, -, -, -⟩ := hpolled.child
        cases hx
    | some x =>
      have hdue : Due (MemoryTask.acceptance? fun _ => true) s pid x := by
        rw [Tasks.due_iff]
        exact ⟨p, hp, hx⟩
      obtain ⟨request, record, event, hp₁, -, rfl⟩ := due_acceptance.mp hdue
      cases hp.symm.trans hp₁
      -- The handler knows that its record is the one of the quote of the entry.
      have hprepared : request.Prepared s.shared record :=
        (consistent_reachable hs).knows pid _ hp
      refine .inr ⟨_, _, record.quoteId, rfl, hpolled.accepted, hprepared.operation, ?_⟩
      rw [MemoryTask.analyzed?, AnalysisJob.of_record]

/-- The entries of some new requests are among those of all. -/
theorem acceptance_filter (P : MemoryOperation → Bool) :
    MemoryTask.acceptance? P = fun task =>
      (MemoryTask.acceptance? (fun _ => true) task).filter fun entry => P entry.2 := by
  funext task
  cases task with
  | handler request stage =>
    cases stage with
    | storing record event =>
      cases event with
      | none => rfl
      | some event =>
        rw [MemoryTask.acceptance?, MemoryTask.acceptance?, if_pos rfl, Option.filter_some]
    | lookup => rfl
    | reading _ => rfl
    | checking => rfl
    | claiming _ _ => rfl
    | answered _ => rfl
  | worker _ _ => rfl
  | assessing _ => rfl
  | assessed _ => rfl

/-- In every run, the entries on the record are those that have started a worker, in this
order, one for each worker. -/
theorem exists_analyses {P : MemoryOperation → Bool}
    {q : memoryTasks.State × List ((String × String) × MemoryOperation)}
    (hq : (Tasks.recorded (MemoryTask.acceptance? P)).Reachable q) :
    ∃ starts, Analyses q.1 starts ∧
      (starts.map Prod.snd).filter (fun entry => P entry.2) = q.2 := by
  rw [acceptance_filter] at hq
  exact Tasks.exists_startedBy starts_analyses _ hq

/-- The task of an entry is a worker of the quote of this entry. -/
theorem Analyses.worker {s : memoryTasks.State}
    {starts : List (Nat × ((String × String) × MemoryOperation))} (h : Analyses s starts)
    {pid : Nat} {entry : (String × String) × MemoryOperation} (hmem : (pid, entry) ∈ starts)
    {quoteId : Uuid} (hquote : entry.2.quoteId? = some quoteId) :
    ∃ stage job, s.tasks pid = some (.worker stage job) ∧ job.record.quoteId = quoteId := by
  obtain ⟨_, hanalyzed, hnamed⟩ := h.live _ hmem
  cases hquote.symm.trans hnamed
  obtain ⟨task, hp, htask⟩ := Option.bind_eq_some_iff.mp hanalyzed
  cases task with
  | handler _ _ => cases htask
  | worker stage job =>
    cases htask
    exact ⟨stage, job, hp, rfl⟩
  | assessing _ => cases htask
  | assessed _ => cases htask

/-! ### Creates without the race -/

/-- The entries of creates whose quote is stored, as a record. -/
abbrev creation? : MemoryTask → Option ((String × String) × MemoryOperation) :=
  MemoryTask.acceptance? MemoryOperation.isCreate

/-- The creates do not get in each other's way: when a create makes its entry, its key is still
free; when a replay reads its quote, no handler waits to store this quote for the first time;
and no create is dropped between its entry and its quote. -/
structure CreatesApart (s : memoryTasks.State) (a : memoryTasks.Action) : Prop where
  claims : ∀ pid input child request record event, a = .poll pid input child →
    s.tasks pid = some (.handler request (.claiming record event)) →
    (request.operation record).isCreate = true → s.shared.idempotency request.pair = none
  reads : ∀ pid input child request quoteId, a = .poll pid input child →
    s.tasks pid = some (.handler request (.reading quoteId)) →
    ∀ pid' x, Due creation? s pid' x → x.2.quoteId? ≠ some quoteId
  drops : ∀ pid x, a = .drop pid → ¬ Due creation? s pid x

/-- What holds in every run of creates without the race. Whatever a create was answered, replays or
is about to read, its entry is on the log or will be added by a poll that is due. -/
structure Created (s : memoryTasks.State) (log : List ((String × String) × MemoryOperation)) :
    Prop where
  listed : Listed MemoryOperation.isCreate s log
  entries : EntriesEnsured MemoryOperation.isCreate s log
  reading : ∀ pid request quoteId accepted timestamp fresh,
    s.tasks pid = some (.handler request (.reading quoteId)) →
    request.mutation = .create accepted timestamp fresh →
    Ensured creation? s log (request.pair, .create quoteId accepted.wire.toValue)
  replaying : ∀ pid request record accepted timestamp fresh,
    s.tasks pid = some (.handler request (.storing record none)) →
    request.mutation = .create accepted timestamp fresh →
    (request.pair, .create record.quoteId accepted.wire.toValue) ∈ log
  answered : ∀ pid request response accepted timestamp fresh,
    s.tasks pid = some (.handler request (.answered (.ok response))) →
    request.mutation = .create accepted timestamp fresh →
    ∃ quoteId, (request.pair, .create quoteId accepted.wire.toValue) ∈ log ∧
      response.quoteId = quoteId.toText
  available : ∀ pid request accepted timestamp fresh,
    request.mutation = .create accepted timestamp fresh →
    s.tasks pid ≠ some (.handler request (.answered (.error storageUnavailable)))
  once : (log.map Prod.fst).Nodup
  pending : ∀ pid x, Due creation? s pid x → x.1 ∉ log.map Prod.fst
  single : ∀ pid pid' x x', Due creation? s pid x → Due creation? s pid' x' → x.1 = x'.1 →
    pid = pid'
  stored : ∀ quoteId record, s.shared.quotes quoteId = some record →
    ∃ x ∈ log, x.2.quoteId? = some quoteId

section

variable {s s' : memoryTasks.State} {a : memoryTasks.Action}
  {log : List ((String × String) × MemoryOperation)}

/-- An ensured create stays ensured. -/
theorem ensured_create_step (hapart : CreatesApart s a) (h : memoryTasks.next s a = some s')
    {x : (String × String) × MemoryOperation} (hx : Ensured creation? s log x) :
    Ensured creation? s' (note creation? log s a) x :=
  hx.step (Tasks.step_of_next h) fun pid ha hdue => absurd hdue (hapart.drops pid x ha)

/-- A replay that reads its quote finds the entry on the record. -/
theorem read_listed (hc : Created s log) {pid child : Nat} {input : MemoryInput}
    (hapart : CreatesApart s (.poll pid input child)) {request : MutationRequest}
    {quoteId : Uuid} {accepted : AcceptedQuoteRequest} {timestamp : String} {fresh : Uuid}
    (hp : s.tasks pid = some (.handler request (.reading quoteId)))
    (hmutation : request.mutation = .create accepted timestamp fresh) :
    (request.pair, .create quoteId accepted.wire.toValue) ∈ log := by
  rcases hc.reading pid request quoteId accepted timestamp fresh hp hmutation with
    hmem | ⟨pid', hdue⟩
  · exact hmem
  · exact absurd rfl (hapart.reads pid input child request quoteId rfl hp pid' _ hdue)

/-- A create that makes its entry finds no other create with its key. -/
theorem claim_alone (hc : Created s log) {pid child : Nat} {input : MemoryInput}
    (hapart : CreatesApart s (.poll pid input child)) {request : MutationRequest}
    {record : QuoteRecord} {event : QuoteEventRecord}
    (hp : s.tasks pid = some (.handler request (.claiming record event)))
    (hcreate : (request.operation record).isCreate = true)
    {x : (String × String) × MemoryOperation} (hx : Ensured creation? s log x) :
    x.1 ≠ request.pair := by
  rintro hpair
  obtain ⟨operation, quoteId, hentry, -⟩ := hc.listed.claimed x hx
  rw [hpair, hapart.claims pid input child request record event rfl hp hcreate] at hentry
  cases hentry

/-- The entry of a create. -/
theorem operation_create {request : MutationRequest} (record : QuoteRecord)
    {accepted : AcceptedQuoteRequest} {timestamp : String} {fresh : Uuid}
    (hmutation : request.mutation = .create accepted timestamp fresh) :
    request.operation record = .create record.quoteId accepted.wire.toValue := by
  rw [MutationRequest.operation, hmutation]

/-- A step without the race keeps the answers of the creates. -/
theorem created_answered (hc : Created s log) (h : memoryTasks.next s a = some s') :
    ∀ pid request response accepted timestamp fresh,
      s'.tasks pid = some (.handler request (.answered (.ok response))) →
      request.mutation = .create accepted timestamp fresh →
      ∃ quoteId, (request.pair, .create quoteId accepted.wire.toValue) ∈
          note creation? log s a ∧ response.quoteId = quoteId.toText := by
  intro pid request response accepted timestamp fresh hp' hmutation
  rcases handler_origin h hp' nofun with ⟨hp, -⟩ | ⟨input, child, p, _, ha, hp, hpolled⟩
  · obtain ⟨quoteId, hmem, hid⟩ :=
      hc.answered pid request response accepted timestamp fresh hp hmutation
    exact ⟨quoteId, Tasks.mem_note.mpr (.inl hmem), hid⟩
  · obtain ⟨record, event, rfl, rfl⟩ := hpolled.succeeded
    refine ⟨record.quoteId, Tasks.mem_note.mpr ?_, MutationResponse.quoteId_of _ _⟩
    -- Without an event the answer is a replay, with one it is due now.
    cases event with
    | none => exact .inl (hc.replaying pid request record accepted timestamp fresh hp hmutation)
    | some event =>
      have hoperation := operation_create record hmutation
      refine .inr ⟨pid, input, child, ha, due_acceptance.mpr
        ⟨request, record, event, hp, ?_, by rw [hoperation]⟩⟩
      rw [hoperation]
      rfl

/-- A step without the race never finds the storage unavailable. -/
theorem created_available (hc : Created s log) (hapart : CreatesApart s a)
    (h : memoryTasks.next s a = some s') :
    ∀ pid request accepted timestamp fresh,
      request.mutation = .create accepted timestamp fresh →
      s'.tasks pid ≠ some (.handler request (.answered (.error storageUnavailable))) := by
  intro pid request accepted timestamp fresh hmutation hp'
  rcases handler_origin h hp' nofun with ⟨hp, -⟩ | ⟨input, child, p, _, rfl, hp, hpolled⟩
  · exact hc.available pid request accepted timestamp fresh hmutation hp
  · obtain ⟨quoteId, rfl, hnone⟩ := hpolled.unavailable
    -- The quote is stored, since its entry is on the record.
    obtain ⟨quoteId', hquote, record, hrecord, -⟩ :=
      hc.listed.owned _ (read_listed hc hapart hp hmutation)
    cases hquote
    rw [hnone] at hrecord
    cases hrecord

/-- A step without the race keeps the entries of the replays ensured. -/
theorem created_reading (hc : Created s log) (hapart : CreatesApart s a)
    (h : memoryTasks.next s a = some s') :
    ∀ pid request quoteId accepted timestamp fresh,
      s'.tasks pid = some (.handler request (.reading quoteId)) →
      request.mutation = .create accepted timestamp fresh →
      Ensured creation? s' (note creation? log s a)
        (request.pair, .create quoteId accepted.wire.toValue) := by
  intro pid request quoteId accepted timestamp fresh hp' hmutation
  refine ensured_create_step hapart h ?_
  rcases handler_origin h hp' nofun with ⟨hp, -⟩ | ⟨_, _, p, _, -, -, hpolled⟩
  · exact hc.reading pid request quoteId accepted timestamp fresh hp hmutation
  · obtain ⟨operation, hentry, hreplays⟩ := hpolled.replayed
    obtain rfl := replays_create hmutation hreplays
    exact hc.entries _ _ quoteId rfl rfl hentry

/-- A step without the race keeps the replays on the record. -/
theorem created_replaying (hs : Consistent s) (hc : Created s log) (hapart : CreatesApart s a)
    (h : memoryTasks.next s a = some s') :
    ∀ pid request record accepted timestamp fresh,
      s'.tasks pid = some (.handler request (.storing record none)) →
      request.mutation = .create accepted timestamp fresh →
      (request.pair, .create record.quoteId accepted.wire.toValue) ∈ note creation? log s a := by
  intro pid request record accepted timestamp fresh hp' hmutation
  refine Tasks.mem_note.mpr (.inl ?_)
  rcases handler_origin h hp' nofun with ⟨hp, -⟩ | ⟨input, child, p, _, rfl, hp, hpolled⟩
  · exact hc.replaying pid request record accepted timestamp fresh hp hmutation
  · obtain ⟨quoteId, rfl, hrecord⟩ := hpolled.copy
    rw [hs.keyed quoteId record hrecord]
    exact read_listed hc hapart hp hmutation

/-- Two creates with one key do not wait at their stores together. -/
theorem created_single (hc : Created s log) (hapart : CreatesApart s a)
    (h : memoryTasks.next s a = some s') :
    ∀ pid pid' x x', Due creation? s' pid x → Due creation? s' pid' x' → x.1 = x'.1 →
      pid = pid' := by
  intro pid pid' x x' hdue hdue' hpair
  -- At most one of the two claimed in this step, and it was alone then.
  rcases due_origin h hdue with ⟨hold, -⟩ | ⟨_, _, request, record, event, ha, hp, hP, rfl, -⟩ <;>
    rcases due_origin h hdue' with ⟨hold', -⟩ |
      ⟨_, _, request', record', event', ha', hp', hP', rfl, -⟩
  · exact hc.single pid pid' x x' hold hold' hpair
  · subst ha'
    exact absurd hpair (claim_alone hc hapart hp' hP' (.inr ⟨pid, hold⟩))
  · subst ha
    exact absurd hpair.symm (claim_alone hc hapart hp hP (.inr ⟨pid', hold'⟩))
  · rw [ha] at ha'
    cases ha'
    rfl

/-- A create that waits at its store is the first one with its key. -/
theorem created_pending (hc : Created s log) (hapart : CreatesApart s a)
    (h : memoryTasks.next s a = some s') :
    ∀ pid x, Due creation? s' pid x → x.1 ∉ (note creation? log s a).map Prod.fst := by
  intro pid x hdue hmem
  obtain ⟨x', hx', hpair⟩ := List.mem_map.mp hmem
  -- What is in the log now was there before or is due now.
  have hensured : Ensured creation? s log x' := by
    rcases Tasks.mem_note.mp hx' with hold | ⟨pid', _, _, -, hdue'⟩
    · exact .inl hold
    · exact .inr ⟨pid', hdue'⟩
  rcases due_origin h hdue with ⟨hold, hpoll⟩ | ⟨_, _, request, record, event, ha, hp, hP, rfl, -⟩
  · rcases Tasks.mem_note.mp hx' with hlisted | ⟨pid', input, child, ha, hdue'⟩
    · exact hc.pending pid x hold (hpair ▸ List.mem_map_of_mem hlisted)
    · obtain rfl := hc.single pid' pid x' x hdue' hold hpair
      exact hpoll input child ha
  · subst ha
    exact claim_alone hc hapart hp hP hensured hpair

/-- A step without the race lists no key twice. -/
theorem created_once (hc : Created s log) : ((note creation? log s a).map Prod.fst).Nodup := by
  rcases Tasks.note_cases log s a with hsame | ⟨pid, _, _, x, -, hdue, hnote⟩
  · rw [hsame]
    exact hc.once
  · rw [hnote, List.map_append, List.map_singleton, ← List.concat_eq_append]
    exact List.Nodup.concat (hc.pending pid x hdue) hc.once

/-- A quote is stored for the first time by the handler of its create. -/
theorem created_stored (hs : Consistent s) (hc : Created s log)
    (h : memoryTasks.next s a = some s') :
    ∀ quoteId record, s'.shared.quotes quoteId = some record →
      ∃ x ∈ note creation? log s a, x.2.quoteId? = some quoteId := by
  intro quoteId record hrecord
  -- A quote that was stored before has its entry already.
  have hkept : ∀ old, s.shared.quotes quoteId = some old →
      ∃ x ∈ note creation? log s a, x.2.quoteId? = some quoteId := by
    intro old hold
    obtain ⟨x, hx, hquote⟩ := hc.stored quoteId old hold
    exact ⟨x, Tasks.mem_note.mpr (.inl hx), hquote⟩
  rcases quotes_step h with ⟨hsame, -⟩ | ⟨pid, input, child, p, new, rfl, hp, hstored, hstores⟩
  · rw [hsame] at hrecord
    exact hkept record hrecord
  · rw [hstores.quotes] at hrecord
    by_cases hid : quoteId = new.quoteId
    · subst hid
      rcases (hs.knows pid p hp).stored hstored with ⟨old, hold, -⟩ |
        ⟨-, request, event, rfl, hfresh⟩
      · exact hkept old hold
      · -- A quote under a new id is stored by a create, and this poll adds its entry.
        cases hmutation : request.mutation with
        | create accepted timestamp fresh =>
          have hoperation := operation_create new hmutation
          refine ⟨(request.pair, request.operation new), Tasks.mem_note.mpr
            (.inr ⟨pid, input, child, rfl, due_acceptance.mpr
              ⟨request, new, event, hp, ?_, rfl⟩⟩), ?_⟩
          · rw [hoperation]
            rfl
          · rw [hoperation]
            rfl
        | retry _ =>
          rw [hmutation] at hfresh
          cases hfresh
    · rw [Function.update_of_ne hid] at hrecord
      exact hkept record hrecord

/-- The step lemma of `Created`, from one lemma for each field. -/
theorem created_step (hs : Consistent s) (hc : Created s log) (hapart : CreatesApart s a)
    (h : memoryTasks.next s a = some s') : Created s' (note creation? log s a) where
  listed := listed_step hs hc.listed h
  entries := entriesEnsured_step hc.entries
    (fun pid x ha hdue _ => absurd hdue (hapart.drops pid x ha)) h
  reading := created_reading hc hapart h
  replaying := created_replaying hs hc hapart h
  answered := created_answered hc h
  available := created_available hc hapart h
  once := created_once hc
  pending := created_pending hc hapart h
  single := created_single hc hapart h
  stored := created_stored hs hc h

end

/-- The run lemma of `Created`. The record beside the states grows with each poll that stores the
quote of a create. -/
theorem created_reachable {q : memoryTasks.State × List ((String × String) × MemoryOperation)}
    (hq : (Tasks.recorded creation?).ReachableWith (fun q a => CreatesApart q.1 a) q) :
    Created q.1 q.2 := by
  refine hq.induct (I := fun q => Created q.1 q.2) ?_ ?_
  · -- At the start there is neither an entry nor a handler.
    rintro ⟨s, log⟩ ⟨rfl, rfl⟩
    constructor
    · constructor
      · rintro x (hmem | ⟨pid, hdue⟩)
        · cases hmem
        · cases hdue
      · rintro x ⟨⟩
    · rintro pair operation quoteId - - ⟨⟩
    · rintro pid request quoteId accepted timestamp fresh ⟨⟩
    · rintro pid request record accepted timestamp fresh ⟨⟩
    · rintro pid request response accepted timestamp fresh ⟨⟩
    · rintro pid request accepted timestamp fresh - ⟨⟩
    · exact List.nodup_nil
    · rintro pid x ⟨⟩
    · rintro pid pid' x x' ⟨⟩
    · rintro quoteId record ⟨⟩
  · rintro ⟨s, log⟩ a ⟨s', log'⟩ hq ih hg ⟨hstep, hnote⟩
    have hnote : log' = note creation? log s a := hnote
    subst hnote
    have hs := (Tasks.reachableWith_of_recorded hq).reachable
    exact created_step (consistent_reachable hs) ih hg hstep

/-- Creates without a database, in every run in which they do not get in each other's way.

- A key stores at most one new quote and starts at most one analysis for it, and every stored
  quote comes from there. The analyses are the workers of the run: those that creates have
  started are the entries of the record, one for each.
- All successful answers to creates with one key name the same quote.
- No create finds the storage unavailable. -/
theorem create_idempotency (s : memoryTasks.State)
    (log : List ((String × String) × MemoryOperation))
    (h : (Tasks.recorded creation?).ReachableWith (fun q a => CreatesApart q.1 a) (s, log)) :
    (log.map Prod.fst).Nodup ∧
    (∃ starts, Analyses s starts ∧
      (starts.map Prod.snd).filter (fun entry => entry.2.isCreate) = log) ∧
    (∀ quoteId record, s.shared.quotes quoteId = some record →
      ∃ x ∈ log, x.2.quoteId? = some quoteId) ∧
    (∀ pid pid' request request' response response' accepted accepted' timestamp timestamp'
        fresh fresh',
      s.tasks pid = some (.handler request (.answered (.ok response))) →
      s.tasks pid' = some (.handler request' (.answered (.ok response'))) →
      request.mutation = .create accepted timestamp fresh →
      request'.mutation = .create accepted' timestamp' fresh' →
      request.pair = request'.pair → response.quoteId = response'.quoteId) ∧
    ∀ pid request accepted timestamp fresh,
      request.mutation = .create accepted timestamp fresh →
      s.tasks pid ≠ some (.handler request (.answered (.error storageUnavailable))) := by
  have hc : Created s log := created_reachable h
  refine ⟨hc.once, exists_analyses h.reachable, hc.stored, ?_, hc.available⟩
  intro pid pid' request request' response response' accepted accepted' timestamp timestamp' fresh
    fresh' hp hp' hmutation hmutation' hpair
  obtain ⟨quoteId, hmem, hid⟩ :=
    hc.answered pid request response accepted timestamp fresh hp hmutation
  obtain ⟨quoteId', hmem', hid'⟩ :=
    hc.answered pid' request' response' accepted' timestamp' fresh' hp' hmutation'
  -- Both answers rest on entries of one pair, and the log has only one.
  have hsame := List.inj_on_of_nodup_map hc.once hmem hmem' hpair
  rw [Prod.mk.injEq, MemoryOperation.create.injEq] at hsame
  rw [hid, hid', hsame.2.1]

/-! ### A replay in time, and two creates at once -/

/-- A check for `CreatesApart`: a replay waits until its quote is stored, no create claims a key
that is taken, and none is dropped that is about to add its entry. -/
def createsApart (s : memoryTasks.State) : memoryTasks.Action → Bool
  | .arrive _ _ => true
  | .poll pid _ _ =>
      match s.tasks pid with
      | some (.handler request (.claiming _ _)) => (s.shared.idempotency request.pair).isNone
      | some (.handler _ (.reading quoteId)) => (s.shared.quotes quoteId).isSome
      | _ => true
  | .drop pid => ((s.tasks pid).bind creation?).isNone

/-- The check implies the condition. A handler that waits to store a quote for the first time owns
an id that no stored quote has, so a replay whose quote is stored does not race with it. -/
theorem CreatesApart.of_check {s : memoryTasks.State} {a : memoryTasks.Action}
    (hs : Consistent s) (h : createsApart s a = true) : CreatesApart s a where
  claims pid input child request record event ha hp _ := by
    subst ha
    simp only [createsApart, hp] at h
    exact Option.isNone_iff_eq_none.mp h
  reads pid input child request quoteId ha hp pid' x hdue hquote := by
    subst ha
    simp only [createsApart, hp] at h
    -- A handler that waits to store this quote for the first time would own its free id.
    obtain ⟨request', record, event, hp', hcreate, rfl⟩ := due_acceptance.mp hdue
    have hprepared : request'.Prepared s.shared record := hs.knows pid' _ hp'
    rw [hprepared.operation] at hquote
    cases hquote
    cases hmutation : request'.mutation with
    | create accepted timestamp fresh =>
      obtain ⟨hid, hnone⟩ := hprepared.create accepted timestamp fresh hmutation
      rw [hid, hnone] at h
      cases h
    | retry _ =>
      rw [MutationRequest.operation, hmutation] at hcreate
      cases hcreate
  drops pid x ha hdue := by
    subst ha
    have h : ((s.tasks pid).bind creation?).isNone = true := h
    rw [Tasks.Due] at hdue
    rw [hdue] at h
    cases h

end

section

attribute [local instance] fixtureLib

/-- The key and the quote of a create that is answered with success, be it new or a replay. -/
def answeredCreate (s : memoryTasks.State) (pid : Nat) : Option ((String × String) × String) :=
  match s.tasks pid with
  | some (.handler request (.answered (.ok response))) =>
      match request.mutation with
      | .create _ _ _ => some (request.pair, response.quoteId)
      | .retry _ => none
  | _ => none

/-- What the check finds is a create with this answer. -/
theorem answeredCreate_eq {s : memoryTasks.State} {pid : Nat} {pair : String × String}
    {quoteId : String} (h : answeredCreate s pid = some (pair, quoteId)) :
    ∃ request response accepted timestamp fresh,
      s.tasks pid = some (.handler request (.answered (.ok response))) ∧
      request.mutation = .create accepted timestamp fresh ∧ request.pair = pair ∧
      response.quoteId = quoteId := by
  unfold answeredCreate at h
  split at h
  · next request response hp =>
    split at h
    · next accepted timestamp fresh hmutation =>
      cases h
      exact ⟨request, response, accepted, timestamp, fresh, hp, hmutation, rfl, rfl⟩
    · cases h
  · cases h

/-- The key of the creates. -/
def testPair : String × String := ("customer-1", "quote-key-0001")

/-- A create, and its replay. -/
def testReplayed : List memoryTasks.Action :=
  [.arrive 0 (.handler (memoryCreate testQuote) .lookup), testPoll 0 9, testPoll 0 9,
    testPoll 0 1, .arrive 2 (.handler (memoryCreate ⟨8⟩) .lookup), testPoll 2 9, testPoll 2 9,
    testPoll 2 9]

/-- A create and a replay of it, in a run that keeps the creates of one pair apart. Both are
answered, with the same quote. -/
theorem create_idempotency_test :
    ∃ s log quoteId quoteId',
      (Tasks.recorded creation?).ReachableWith (fun q a => CreatesApart q.1 a) (s, log) ∧
      answeredCreate s 0 = some (testPair, quoteId) ∧
      answeredCreate s 2 = some (testPair, quoteId') ∧ quoteId = quoteId' := by
  have hrun : (System.run (System.guarded (fun q a => createsApart q.1 a = true)
      (Tasks.nextRecorded creation?)) (memoryTasks.initial, []) testReplayed).map (fun q =>
        (answeredCreate q.1 0).map Prod.fst == some testPair &&
          (answeredCreate q.1 2).map Prod.fst == some testPair) = some true := by
    decide
  obtain ⟨⟨s, log⟩, hq, hview⟩ := System.exists_reachable_of_run _ _ hrun
  rw [Bool.and_eq_true, beq_iff_eq, beq_iff_eq, Option.map_eq_some_iff,
    Option.map_eq_some_iff] at hview
  obtain ⟨⟨⟨pair, quoteId⟩, hfirst, rfl⟩, ⟨pair', quoteId'⟩, hsecond, hpair⟩ := hview
  obtain rfl : pair' = testPair := hpair
  have hq : (Tasks.recorded creation?).ReachableWith (fun q a => CreatesApart q.1 a) (s, log) :=
    (Tasks.recorded_of_next _ (.of_guarded hq)).mono fun q a hq hg =>
      .of_check (consistent_reachable (Tasks.reachableWith_of_recorded hq)) hg
  obtain ⟨request, response, _, _, _, hp, hmutation, hpair, hid⟩ := answeredCreate_eq hfirst
  obtain ⟨request', response', _, _, _, hp', hmutation', hpair', hid'⟩ := answeredCreate_eq hsecond
  obtain ⟨-, -, -, hanswers, -⟩ := create_idempotency s log hq
  have hsame := hanswers 0 2 request request' response response' _ _ _ _ _ _ hp hp' hmutation
    hmutation' (hpair.trans hpair'.symm)
  exact ⟨s, log, quoteId, quoteId', hq, hfirst, hsecond, hid.symm.trans (hsame.trans hid')⟩

/-- Two creates that both find the key free before either makes its entry. -/
def testCreates : List memoryTasks.Action :=
  [.arrive 0 (.handler (memoryCreate testQuote) .lookup),
    .arrive 1 (.handler (memoryCreate ⟨8⟩) .lookup), testPoll 0 9, testPoll 1 9, testPoll 0 9,
    testPoll 1 9, testPoll 0 2, testPoll 1 3]

/-- A create, and its replay between its entry and its quote. -/
def testEarly : List memoryTasks.Action :=
  [.arrive 0 (.handler (memoryCreate testQuote) .lookup), testPoll 0 9, testPoll 0 9,
    .arrive 2 (.handler (memoryCreate ⟨8⟩) .lookup), testPoll 2 9, testPoll 2 9]

/-- The handler is a create that is answered with storage_unavailable. -/
def unavailable (s : memoryTasks.State) (pid : Nat) : Bool :=
  match s.tasks pid with
  | some (.handler request (.answered (.error error))) =>
      error = storageUnavailable ∧ request.mutation.fresh?.isSome
  | _ => false

/-- Two creates with one key store two quotes, start two analyses, the workers 2 and 3, and
are answered with different quotes; and a replay of a create is told that the storage is
unavailable. -/
theorem two_creates :
    (∃ s log quoteId quoteId', (Tasks.recorded creation?).Reachable (s, log) ∧
      log.map Prod.fst = [testPair, testPair] ∧
      (s.tasks 2).bind MemoryTask.analyzed? = some testQuote ∧
      (s.tasks 3).bind MemoryTask.analyzed? = some ⟨8⟩ ∧
      answeredCreate s 0 = some (testPair, quoteId) ∧
      answeredCreate s 1 = some (testPair, quoteId') ∧ quoteId ≠ quoteId') ∧
    ∃ s, memoryTasks.system.Reachable s ∧ unavailable s 2 = true ∧
      s.shared.idempotency testPair = some (.create testQuote fixtureRequest.toValue) := by
  constructor
  · -- Both creates find the key free before either claims it.
    have hrun : (System.run (Tasks.nextRecorded creation?) (memoryTasks.initial, [])
        testCreates).map (fun q => (q.2.map Prod.fst == [testPair, testPair]) &&
          ((q.1.tasks 2).bind MemoryTask.analyzed? == some testQuote) &&
          ((q.1.tasks 3).bind MemoryTask.analyzed? == some ⟨8⟩) &&
          (answeredCreate q.1 0 == some (testPair, testQuote.toText)) &&
          (answeredCreate q.1 1 == some (testPair, (⟨8⟩ : Uuid).toText))) = some true := by
      decide
    obtain ⟨⟨s, log⟩, hq, hview⟩ := System.exists_reachable_of_run _ _ hrun
    simp only [Bool.and_eq_true, beq_iff_eq] at hview
    obtain ⟨⟨⟨⟨hlog, hworker⟩, hworker'⟩, hfirst⟩, hsecond⟩ := hview
    refine ⟨s, log, _, _, Tasks.recorded_of_next _ hq, hlog, hworker, hworker', hfirst, hsecond,
      ?_⟩
    decide
  · -- A replay reads its quote between the claim and the store of the first create.
    have hrun : (System.run memoryTasks.next memoryTasks.initial testEarly).map (fun s =>
        unavailable s 2 && (s.shared.idempotency testPair ==
          some (.create testQuote fixtureRequest.toValue))) = some true := by
      decide
    obtain ⟨s, hs, hview⟩ := System.exists_reachable_of_run _ _ hrun
    rw [Bool.and_eq_true, beq_iff_eq] at hview
    exact ⟨s, hs, hview⟩

end

end CanonicalApi
