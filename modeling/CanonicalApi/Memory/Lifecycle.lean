import CanonicalApi.Memory.Consistency

/-!
# `CanonicalApi.Memory.Lifecycle`: the status of a quote without a database

A handler stores its record whatever is stored by then. Between its read of the quote and this
store lies at least one await, so the store can undo the work of a worker, and two retries can
both have seen the quote as failed. With a database the row is locked in between.

The argument of `SingleWriter` goes through for the runs in which the quote still has the
status that the handler read, when it stores its record (`UpToDate`). It is made once, for any
`Protocol.Map` from the statuses: the lifecycle needs all of them, and that a quote has one
worker only needs to tell failed quotes from the others, so that there only the handlers that
read `failed` must be up to date (`RetriesUpToDate`).
-/

set_option autoImplicit false

namespace CanonicalApi

open Transition (System)
open SingleWriter (Protocol Exclusive Succession Write claimsOf claimsOf_eq succession_put
  succession_spawn succession_remove)

section

variable [CanonicalLib]

/-- The status of a quote. -/
def AppState.status (state : AppState) (id : Uuid) : Option String :=
  (state.quotes id).map QuoteRecord.status

/-- The status of a stored quote is the one of its record. -/
theorem AppState.status_eq {state : AppState} {id : Uuid} {record : QuoteRecord}
    (h : state.quotes id = some record) : state.status id = some record.status := by
  rw [status, h]
  rfl

/-- The status that a handler has read before it stores `record`. A create has read nothing, a retry
has seen a failed quote, and a replay stores the copy that it has read. -/
def MutationRequest.relied (request : MutationRequest) (record : QuoteRecord) :
    Option QuoteEventRecord → Option String
  | none => some record.status
  | some _ =>
      match request.mutation with
      | .create _ _ _ => none
      | .retry _ => some "failed"

/-- When the step is the store of a handler: its quote, and the status that the handler has
read. -/
def relies (s : memoryTasks.State) : memoryTasks.Action → Option (Uuid × String)
  | .poll pid _ _ =>
      match s.tasks pid with
      | some (.handler request (.storing record event)) =>
          (request.relied record event).map fun status => (record.quoteId, status)
      | _ => none
  | _ => none

/-- When a handler stores its record, the quote has the status that the handler read. -/
def UpToDate (s : memoryTasks.State) (a : memoryTasks.Action) : Prop :=
  ∀ x ∈ relies s a, s.shared.status x.1 = some x.2

instance (s : memoryTasks.State) (a : memoryTasks.Action) : Decidable (UpToDate s a) :=
  inferInstanceAs (Decidable (∀ x ∈ relies s a, s.shared.status x.1 = some x.2))

/-- When a handler that has read the quote as failed stores its record, the quote is failed. -/
def RetriesUpToDate (s : memoryTasks.State) (a : memoryTasks.Action) : Prop :=
  ∀ x ∈ relies s a, x.2 = "failed" → s.shared.status x.1 = some "failed"

instance (s : memoryTasks.State) (a : memoryTasks.Action) : Decidable (RetriesUpToDate s a) :=
  inferInstanceAs
    (Decidable (∀ x ∈ relies s a, x.2 = "failed" → s.shared.status x.1 = some "failed"))

/-- The store of a handler relies on the status that it has read. -/
theorem relies_eq {s : memoryTasks.State} {pid child : Nat} {input : MemoryInput}
    {request : MutationRequest} {record : QuoteRecord} {event : Option QuoteEventRecord}
    {status : String} (hp : s.tasks pid = some (.handler request (.storing record event)))
    (hrelied : request.relied record event = some status) :
    relies s (.poll pid input child) = some (record.quoteId, status) := by
  simp only [relies, hp, hrelied, Option.map_some]

/-- A handler that relies on a status has read a quote, which is still stored. -/
theorem relies_stored {s : memoryTasks.State} {a : memoryTasks.Action} (hs : Consistent s)
    {x : Uuid × String} (hx : x ∈ relies s a) : ∃ stored, s.shared.status x.1 = some stored := by
  have howned : ∀ {id subject}, s.shared.Owned id subject →
      ∃ stored, s.shared.status id = some stored := by
    rintro id subject ⟨record, hrecord, -⟩
    exact ⟨record.status, AppState.status_eq hrecord⟩
  cases a with
  | arrive pid p => cases hx
  | drop pid => cases hx
  | poll pid input child =>
    simp only [relies] at hx
    split at hx
    · next request record event hp =>
      obtain ⟨status, hrelied, rfl⟩ := Option.map_eq_some_iff.mp hx
      cases event with
      -- A replay has read the quote that it stores again.
      | none =>
        have hread : s.shared.Owned record.quoteId record.ownerSubject := hs.knows pid _ hp
        exact howned hread
      | some event =>
        have hprepared : request.Prepared s.shared record := hs.knows pid _ hp
        rw [MutationRequest.relied] at hrelied
        split at hrelied
        · cases hrelied
        · -- A retry has checked that the quote is there and belongs to the subject.
          next quoteId hmutation =>
          obtain ⟨hid, hread⟩ := hprepared.retry quoteId hmutation
          rw [hid]
          exact howned hread
    · cases hx

/-! ### Records -/

/-- The records that a task holds are valid, and the next status of a worker follows an
edge. -/
def MemoryTask.Sound : MemoryTask → Prop
  | handler _ (.claiming record _) | handler _ (.storing record (some _)) =>
      record.Valid ∧ record.status = "queued"
  | handler _ (.storing record none) => record.Valid
  | worker (.marking _ _) job => job.record.Valid ∧ job.record.status = "analyzing"
  | worker (.recording _) job => job.record.Valid ∧ StatusEdge "analyzing" job.record.status
  | _ => True

/-- Every record is valid. -/
structure Sound (s : memoryTasks.State) : Prop where
  tasks : ∀ pid p, s.tasks pid = some p → p.Sound
  quotes : ∀ id record, s.shared.quotes id = some record → record.Valid

/-- What a task stores is valid. -/
theorem MemoryTask.Sound.stored {task : MemoryTask} {record : QuoteRecord} (h : task.Sound)
    (hstored : task.stored? = some record) : record.Valid := by
  cases task with
  | handler request stage =>
    cases stage with
    -- Only the stages that store hold a record to be stored.
    | storing record' event =>
      cases hstored
      cases event with
      | none => exact h
      | some event => exact h.1
    | lookup => cases hstored
    | reading _ => cases hstored
    | checking => cases hstored
    | claiming _ _ => cases hstored
    | answered _ => cases hstored
  | worker stage job =>
    cases stage with
    | marking _ _ =>
      cases hstored
      exact h.1
    | recording _ =>
      cases hstored
      exact h.1
    | created _ => cases hstored
    | calling => cases hstored
    | done => cases hstored
  | assessing _ => cases hstored
  | assessed _ => cases hstored

/-- A task at its next await point holds valid records. -/
theorem sound_polled {state state' : AppState} {task task' : MemoryTask}
    {child? : Option MemoryTask}
    (hquotes : ∀ id record, state.quotes id = some record → record.Valid) (htask : task.Sound)
    (h : Polled state task state' task' child?) : task'.Sound := by
  cases h with
  | refuses _ _ => trivial
  | replays _ _ => trivial
  | creates _ _ hrecord _ =>
    subst hrecord
    exact ⟨newRecord_valid _ _ _ _ _, rfl⟩
  | checks _ => trivial
  -- A replay takes up a stored record, which is valid.
  | rereads hrecord => exact hquotes _ _ hrecord
  | requeues _ _ _ _ hrecord _ =>
    subst hrecord
    exact ⟨ValidState.queued, rfl⟩
  | claims => exact htask
  | answers _ => trivial
  | accepts _ => trivial
  | halts _ => trivial
  | @starts configured job updatedAt event _ _ => exact ⟨startAnalysis_valid job.record, rfl⟩
  | marks _ => trivial
  | abandons _ => trivial
  -- A record in analysis has no result yet, so it can fail.
  | @fails configured event event' job updatedAt _ _ =>
    obtain ⟨hvalid, hanalyzing⟩ := htask
    refine ⟨notConfigured_valid ?_, StatusEdge.fail⟩
    by_contra hsome
    have hcompleted := hvalid.analysis.mpr hsome
    rw [hanalyzing] at hcompleted
    exact absurd hcompleted (by decide)
  | @concludes job outcome updatedAt event _ _ =>
    exact ⟨concludeAnalysis_valid job.record outcome, concludeAnalysis_edge job.record outcome⟩
  | records _ => trivial
  | assesses _ => trivial

/-- A step keeps every record valid. -/
theorem memory_sound_step {s s' : memoryTasks.State} {a : memoryTasks.Action} (hs : Sound s)
    (h : memoryTasks.next s a = some s') : Sound s' where
  tasks pid p' hp' := by
    cases (Tasks.step_of_next h).origin hp' with
    | same hp _ _ => exact hs.tasks pid p' hp
    | arrived _ _ harrives =>
      rcases memory_arrives harrives with ⟨_, rfl, -, -⟩ | ⟨_, rfl, -⟩
      · trivial
      · trivial
    | polled _ hp hpoll => exact sound_polled hs.quotes (hs.tasks _ _ hp) (polled_of_poll hpoll)
    | started _ _ _ hpoll =>
      obtain ⟨_, _, _, -, -, -, rfl⟩ := (polled_of_poll hpoll).child
      trivial
  quotes id record hrecord := by
    rcases quotes_step h with ⟨hsame, -⟩ | ⟨pid, input, child, p, stored, rfl, hp, hstored, hstores⟩
    · rw [hsame] at hrecord
      exact hs.quotes id record hrecord
    · rw [hstores.quotes] at hrecord
      -- The quote that was stored comes from a sound task; the others are unchanged.
      by_cases hid : id = stored.quoteId
      · subst hid
        rw [Function.update_self] at hrecord
        cases hrecord
        exact (hs.tasks pid p hp).stored hstored
      · rw [Function.update_of_ne hid] at hrecord
        exact hs.quotes id record hrecord

/-- The run lemma of `Sound`: what is stored and what waits to be stored is valid, in every run. -/
theorem memory_sound_reachable {s : memoryTasks.State} (hs : memoryTasks.system.Reachable s) :
    Sound s := by
  refine hs.induct (I := Sound) ?_ ?_
  · rintro s rfl
    constructor
    · rintro pid p ⟨⟩
    · rintro id record ⟨⟩
  · exact fun _ _ _ _ ih _ h => memory_sound_step ih h

/-! ### Claims -/

/-- The quote that a worker will write, and the status that it has until then. -/
def MemoryTask.claim : MemoryTask → Option (Uuid × String)
  | worker (.created _) job | worker (.marking _ _) job => some (job.record.quoteId, "queued")
  | worker .calling job | worker (.recording _) job => some (job.record.quoteId, "analyzing")
  | _ => none

section

variable {σ : Type}

/-- The claim of a task under a map of the statuses. -/
def MemoryTask.claimAs (f : String → σ) (task : MemoryTask) : Option (Uuid × σ) :=
  task.claim.map fun (id, status) => (id, f status)

/-- The status of a quote under a map of the statuses. -/
def AppState.statusAs (f : String → σ) (state : AppState) (id : Uuid) : Option σ :=
  (state.status id).map f

/-- When a handler stores its record, the map does not tell the status of the quote from the
one that the handler read, or it takes a failed quote over as a new one. -/
def Timely (Q : Protocol σ) (f : String → σ) (s : memoryTasks.State) (a : memoryTasks.Action) :
    Prop :=
  ∀ x ∈ relies s a, ∃ stored, s.shared.status x.1 = some stored ∧
    (f stored = f x.2 ∨ stored = "failed" ∧ f x.2 = Q.entry)

variable {Q : Protocol σ} {f : String → σ}

/-- The statuses after a store. -/
theorem statusAs_stores {state state' : AppState} {record : QuoteRecord}
    (h : state.Stores state' record) :
    state'.statusAs f =
      Function.update (state.statusAs f) record.quoteId (some (f record.status)) := by
  funext id
  by_cases hid : id = record.quoteId
  · subst hid
    rw [Function.update_self, AppState.statusAs, AppState.status, h.quotes, Function.update_self]
    rfl
  · rw [Function.update_of_ne hid, AppState.statusAs, AppState.status, h.quotes,
      Function.update_of_ne hid]
    rfl

/-- The statuses depend on the stored quotes alone. -/
theorem statusAs_of_quotes {state state' : AppState} (h : state'.quotes = state.quotes) :
    state'.statusAs f = state.statusAs f := by
  funext id
  rw [AppState.statusAs, AppState.status, h]
  rfl

/-- The store of a record is a `Write`. -/
theorem write_of_stores {state state' : AppState} {record : QuoteRecord}
    {claim : Option (Uuid × σ)} (h : state.Stores state' record)
    (hbefore : (state.statusAs f record.quoteId = none ∨
        ∃ old, state.statusAs f record.quoteId = some old ∧ Q.idle old) ∧
          f record.status = Q.entry ∨
      ∃ old, claim = some (record.quoteId, old) ∧ Q.edge old (f record.status)) :
    Write Q (state.statusAs f) (state'.statusAs f) claim record.quoteId (f record.status) where
  written := by rw [statusAs_stores h, Function.update_self]
  others id hid := by rw [statusAs_stores h, Function.update_of_ne hid]
  before := hbefore

/-- What a step does to the statuses and the claims: it leaves the statuses alone and at most
one heir takes the claim of the task that moves, or it writes the status of one quote. -/
inductive StatusMove (Q : Protocol σ) (f : String → σ) (s s' : memoryTasks.State) : Prop where
  | quiet (pid heir : Nat) : s'.shared.statusAs f = s.shared.statusAs f →
      Succession (claimsOf (MemoryTask.claimAs f) s.tasks)
        (claimsOf (MemoryTask.claimAs f) s'.tasks) pid heir
        (claimsOf (MemoryTask.claimAs f) s.tasks pid) → StatusMove Q f s s'
  | write (pid heir : Nat) (claim : Option (Uuid × σ)) {id : Uuid} {new : σ} :
      Write Q (s.shared.statusAs f) (s'.shared.statusAs f)
        (claimsOf (MemoryTask.claimAs f) s.tasks pid) id new →
      Succession (claimsOf (MemoryTask.claimAs f) s.tasks)
        (claimsOf (MemoryTask.claimAs f) s'.tasks) pid heir claim →
      (claim = none ∨ claim = some (id, new) ∧ ¬ Q.idle new) → StatusMove Q f s s'

/-- A handler stores the copy of a record. It writes the status that the quote has, or it
takes a failed quote over. -/
theorem answers_move (hf : quoteProtocol.Map Q f) {s : memoryTasks.State} {pid : Nat}
    {input : MemoryInput} {child : Nat} (htimely : Timely Q f s (.poll pid input child))
    {request : MutationRequest} {record : QuoteRecord} {shared : AppState} {p' : MemoryTask}
    (hp : s.tasks pid = some (.handler request (.storing record none)))
    (hstores : s.shared.Stores shared record) (hclaim : p'.claim = none) :
    StatusMove Q f s ⟨shared, Function.update s.tasks pid (some p')⟩ := by
  have hclaim : p'.claimAs f = none := by rw [MemoryTask.claimAs, hclaim, Option.map_none]
  -- The replay stores the status that is there, or the entry status over a failed one.
  obtain ⟨stored, hstored, hsame | ⟨rfl, hentry⟩⟩ := htimely _ (relies_eq hp rfl)
  · refine .quiet pid pid ?_ (succession_put (.inl hclaim))
    show shared.statusAs f = s.shared.statusAs f
    rw [statusAs_stores hstores]
    refine Function.update_eq_self_iff.mpr ?_
    rw [AppState.statusAs, hstored, Option.map_some, hsame]
  · refine .write pid pid none (write_of_stores hstores ?_)
      (succession_put (.inl hclaim)) (.inl rfl)
    refine .inl ⟨.inr ⟨f "failed", ?_, (hf.idle _).mpr rfl⟩, hentry⟩
    rw [AppState.statusAs, hstored, Option.map_some]

/-- A new request stores its record and starts a worker, which has the claim from then on. The
quote is new, or it is failed as the retry has read it. -/
theorem accepts_move (hf : quoteProtocol.Map Q f) {s : memoryTasks.State} {pid : Nat}
    {input : MemoryInput} {child : Nat} (hs : Consistent s) (hsound : Sound s)
    (htimely : Timely Q f s (.poll pid input child)) {request : MutationRequest}
    {record : QuoteRecord} {event : QuoteEventRecord} {shared : AppState} {p' q : MemoryTask}
    (hp : s.tasks pid = some (.handler request (.storing record (some event))))
    (hstores : s.shared.Stores shared record) (hclaim : p'.claim = none)
    (hchild : q.claim = some (record.quoteId, "queued")) :
    StatusMove Q f s
      ⟨shared, Function.update (Function.update s.tasks pid (some p')) child (some q)⟩ := by
  obtain ⟨-, hqueued⟩ : record.Valid ∧ record.status = "queued" := hsound.tasks pid _ hp
  have hprepared : request.Prepared s.shared record := hs.knows pid _ hp
  have hentry : f record.status = Q.entry := by
    rw [hqueued]
    exact hf.entry
  have hclaim : p'.claimAs f = none := by rw [MemoryTask.claimAs, hclaim, Option.map_none]
  have hheir : q.claimAs f = some (record.quoteId, f record.status) := by
    rw [MemoryTask.claimAs, hchild, hqueued]
    rfl
  have hbusy : ¬ Q.idle (f record.status) := by
    rw [hf.idle, hqueued]
    show ¬ "queued" = "failed"
    decide
  -- The handler stores the record and hands its claim to the worker that it starts.
  refine .write pid child _ (write_of_stores hstores (.inl ⟨?_, hentry⟩))
    (succession_spawn hclaim (.inr hheir)) (.inr ⟨rfl, hbusy⟩)
  cases hmutation : request.mutation with
  | create accepted timestamp fresh =>
    -- A create makes the quote, which enters the protocol as queued.
    obtain ⟨hid, hnone⟩ := hprepared.create accepted timestamp fresh hmutation
    left
    rw [AppState.statusAs, AppState.status, hid, hnone]
    rfl
  | retry quoteId =>
    have hrelied : request.relied record (some event) = some "failed" := by
      rw [MutationRequest.relied, hmutation]
    -- A retry needs that the quote is still failed, which is where the step must be timely.
    obtain ⟨stored, hstored, hfailed⟩ := htimely _ (relies_eq hp hrelied)
    refine .inr ⟨f stored, ?_, ?_⟩
    · rw [AppState.statusAs, hstored, Option.map_some]
    · rcases hfailed with hsame | ⟨rfl, -⟩
      · rw [hsame]
        exact (hf.idle _).mpr rfl
      · exact (hf.idle _).mpr rfl

/-- A worker stores its record, with which its claim goes on or ends. -/
theorem worker_move (hf : quoteProtocol.Map Q f) {s : memoryTasks.State} {pid : Nat}
    {p p' : MemoryTask} {record : QuoteRecord} {old : String} {shared : AppState}
    (hp : s.tasks pid = some p) (hstores : s.shared.Stores shared record)
    (hclaim : p.claim = some (record.quoteId, old)) (hedge : StatusEdge old record.status)
    (hnext : p'.claim = none ∨
      p'.claim = some (record.quoteId, record.status) ∧ record.status ≠ "failed") :
    StatusMove Q f s ⟨shared, Function.update s.tasks pid (some p')⟩ := by
  -- The worker holds the claim with the status that it leaves.
  have hbefore : claimsOf (MemoryTask.claimAs f) s.tasks pid = some (record.quoteId, f old) := by
    rw [claimsOf_eq hp, MemoryTask.claimAs, hclaim]
    rfl
  refine .write pid pid _
    (write_of_stores hstores (.inr ⟨f old, hbefore, hf.edge _ _ hedge⟩))
    (succession_put (.inr rfl)) ?_
  rcases hnext with hnone | ⟨hsome, hbusy⟩
  · left
    rw [MemoryTask.claimAs, hnone, Option.map_none]
  · refine .inr ⟨?_, fun hidle => hbusy ((hf.idle _).mp hidle)⟩
    rw [MemoryTask.claimAs, hsome]
    rfl

/-- Every timely step is one of these. -/
theorem status_move (hf : quoteProtocol.Map Q f) {s s' : memoryTasks.State}
    {a : memoryTasks.Action} (hs : Consistent s) (hsound : Sound s) (htimely : Timely Q f s a)
    (h : memoryTasks.next s a = some s') : StatusMove Q f s s' := by
  -- The task `pid` goes on as `p'`, with its claim or without, and the quotes are as before.
  have hquiet : ∀ {pid : Nat} {p p' : MemoryTask} {shared : AppState},
      s.tasks pid = some p → shared.quotes = s.shared.quotes →
      (p'.claim = none ∨ p'.claim = p.claim) →
      StatusMove Q f s ⟨shared, Function.update s.tasks pid (some p')⟩ := by
    intro pid p p' shared hp hquotes hclaim
    refine .quiet pid pid (statusAs_of_quotes hquotes) (succession_put ?_)
    rw [claimsOf_eq hp, MemoryTask.claimAs, MemoryTask.claimAs]
    rcases hclaim with hnone | hsame
    · left
      rw [hnone, Option.map_none]
    · right
      rw [hsame]
  cases Tasks.step_of_next h with
  | @arrive pid p shared harrives _ =>
    rcases memory_arrives harrives with ⟨_, rfl, -, hissues⟩ | ⟨_, rfl, hissues⟩
    · exact .quiet pid pid (statusAs_of_quotes hissues.quotes) (succession_put (.inl rfl))
    · exact .quiet pid pid (statusAs_of_quotes hissues.quotes) (succession_put (.inl rfl))
  | @drop pid p hp _ => exact .quiet pid pid rfl succession_remove
  | @poll pid child input p p' q? shared hp _ hpoll =>
    have hpolled := polled_of_poll hpoll
    cases hpolled with
    | refuses _ _ => exact hquiet hp rfl (.inl rfl)
    | replays _ _ => exact hquiet hp rfl (.inl rfl)
    | creates _ _ _ hsilent => exact hquiet hp hsilent.quotes (.inl rfl)
    | checks _ => exact hquiet hp rfl (.inl rfl)
    | rereads _ => exact hquiet hp rfl (.inl rfl)
    | requeues _ _ _ _ _ hsilent => exact hquiet hp hsilent.quotes (.inl rfl)
    | claims => exact hquiet hp rfl (.inl rfl)
    | answers hstores => exact answers_move hf htimely hp hstores rfl
    | @accepts request record event _ hstores =>
      refine accepts_move hf hs hsound htimely hp hstores rfl ?_
      show some ((AnalysisJob.of _ _ _ _).record.quoteId, "queued") = _
      rw [AnalysisJob.of_record]
    | halts _ => exact hquiet hp rfl (.inl rfl)
    | starts hsilent => exact hquiet hp hsilent.quotes (.inr rfl)
    | @marks configured event job _ hstores =>
      obtain ⟨-, hanalyzing⟩ := hsound.tasks pid _ hp
      refine worker_move hf hp hstores rfl (hanalyzing ▸ .start) (.inr ⟨?_, ?_⟩)
      · rw [hanalyzing]
        rfl
      · rw [hanalyzing]
        decide
    | abandons hstores =>
      obtain ⟨-, hanalyzing⟩ := hsound.tasks pid _ hp
      exact worker_move hf hp hstores rfl (hanalyzing ▸ .start) (.inl rfl)
    | @fails configured event event' job updatedAt _ hstores =>
      obtain ⟨-, hanalyzing⟩ := hsound.tasks pid _ hp
      refine worker_move hf hp hstores rfl (hanalyzing ▸ .start) (.inr ⟨?_, ?_⟩)
      · rw [hanalyzing]
        rfl
      · rw [hanalyzing]
        decide
    | @concludes job outcome updatedAt event _ hsilent =>
      refine hquiet hp hsilent.quotes (.inr ?_)
      show some ((concludeAnalysis job.record outcome).quoteId, "analyzing") = _
      rw [concludeAnalysis_quoteId]
      rfl
    | records hstores =>
      obtain ⟨-, hedge⟩ := hsound.tasks pid _ hp
      exact worker_move hf hp hstores rfl hedge (.inl rfl)
    | assesses hkeeps => exact hquiet hp hkeeps.quotes (.inl rfl)

/-- No quote has two workers, and the status of a quote with a worker is the one that the
worker relies on. -/
def Attended (Q : Protocol σ) (f : String → σ) (s : memoryTasks.State) : Prop :=
  Exclusive Q (s.shared.statusAs f) (claimsOf (MemoryTask.claimAs f) s.tasks)

/-- A timely step keeps the claims of the workers apart. The cases are the effects of the step on
the stored quotes; the protocol allows each write by the claim of its task. -/
theorem attended_step (hf : quoteProtocol.Map Q f) {s s' : memoryTasks.State}
    {a : memoryTasks.Action} (hs : Consistent s) (hsound : Sound s) (htimely : Timely Q f s a)
    (hattended : Attended Q f s) (h : memoryTasks.next s a = some s') : Attended Q f s' := by
  cases status_move hf hs hsound htimely h with
  | quiet _ _ hstatus hsuccession =>
    rw [Attended, hstatus]
    exact hattended.succeed hsuccession
  | write _ _ _ hwrite hsuccession hclaim => exact hattended.write hwrite hsuccession hclaim

/-- The run lemma of `Attended`, for a condition `G` that makes every step timely. -/
theorem attended_reachable (hf : quoteProtocol.Map Q f)
    {G : memoryTasks.State → memoryTasks.Action → Prop}
    (hG : ∀ s a, Consistent s → Sound s → G s a → Timely Q f s a) {s : memoryTasks.State}
    (hs : memoryTasks.system.ReachableWith G s) : Attended Q f s := by
  refine hs.induct (I := Attended Q f) ?_ ?_
  · rintro s rfl
    exact SingleWriter.exclusive_of_no_claims fun _ => rfl
  · intro s a s' hs ih hg h
    have hconsistent := consistent_reachable hs.reachable
    have hsound := memory_sound_reachable hs.reachable
    exact attended_step hf hconsistent hsound (hG s a hconsistent hsound hg) ih h

end

/-! ### No update is lost -/

omit [CanonicalLib] in
/-- The protocol of the statuses themselves. -/
theorem quoteProtocol_map : quoteProtocol.Map quoteProtocol id where
  edge _ _ h := h
  idle _ := Iff.rfl
  entry := rfl

/-- Seen as they are, the statuses are the statuses. -/
theorem statusAs_id (state : AppState) : state.statusAs id = state.status := by
  funext quoteId
  rw [AppState.statusAs, Option.map_id]
  rfl

/-- Steps that are up to date are timely, with all statuses told apart. -/
theorem UpToDate.timely {s : memoryTasks.State} {a : memoryTasks.Action} (h : UpToDate s a) :
    Timely quoteProtocol id s a :=
  fun x hx => ⟨x.2, h x hx, .inl rfl⟩

/-- A replay that waits at its store holds an analysis only if it is stored. -/
def Copies (s : memoryTasks.State) : Prop :=
  ∀ pid request record analysis, s.tasks pid = some (.handler request (.storing record none)) →
    record.analysis = some analysis → ∃ stored,
      s.shared.quotes record.quoteId = some stored ∧ stored.analysis = some analysis

/-- The status of a quote with an analysis. -/
theorem QuoteRecord.Valid.completed {record : QuoteRecord} {analysis : JsonValue}
    (h : record.Valid) (hanalysis : record.analysis = some analysis) :
    record.status = "completed" := by
  refine h.analysis.mpr ?_
  rw [hanalysis]
  nofun

/-- A step that is up to date drops no analysis: the only task that still stores a record of a
completed quote is a replay, whose copy has the same analysis. -/
theorem analysis_step {s s' : memoryTasks.State} {a : memoryTasks.Action} (hs : Consistent s)
    (hsound : Sound s) (hattended : Attended quoteProtocol id s) (hcopies : Copies s)
    (hcurrent : UpToDate s a) (h : memoryTasks.next s a = some s') {quoteId : Uuid}
    {record : QuoteRecord} {analysis : JsonValue}
    (hrecord : s.shared.quotes quoteId = some record)
    (hanalysis : record.analysis = some analysis) :
    ∃ record', s'.shared.quotes quoteId = some record' ∧ record'.analysis = some analysis := by
  rcases quotes_step h with ⟨hsame, -⟩ | ⟨pid, input, child, p, new, rfl, hp, hstored, hstores⟩
  · exact ⟨record, by rw [hsame, hrecord], hanalysis⟩
  by_cases hid : quoteId = new.quoteId
  · subst hid
    refine ⟨new, by rw [hstores.quotes, Function.update_self], ?_⟩
    have hstatus : s.shared.status new.quoteId = some "completed" := by
      rw [AppState.status_eq hrecord, (hsound.quotes _ record hrecord).completed hanalysis]
    -- A worker at its store relies on another status.
    have hworker : ∀ status, p.claim = some (new.quoteId, status) → status = "completed" := by
      intro status hclaim
      have hclaims : claimsOf (MemoryTask.claimAs id) s.tasks pid = some (new.quoteId, status) := by
        rw [claimsOf_eq hp, MemoryTask.claimAs, hclaim]
        rfl
      have hexpected := hattended.expected pid new.quoteId status hclaims
      rw [statusAs_id, hstatus] at hexpected
      exact (Option.some.inj hexpected).symm
    cases p with
    | handler request stage =>
      cases stage with
      | storing record' event =>
        cases hstored
        cases event with
        | none =>
          have hvalid : new.Valid := hsound.tasks pid _ hp
          have hread := hcurrent _ (relies_eq hp rfl)
          rw [hstatus] at hread
          have hcompleted : new.status = "completed" := (Option.some.inj hread).symm
          obtain ⟨copy, hcopy⟩ := Option.ne_none_iff_exists'.mp (hvalid.analysis.mp hcompleted)
          obtain ⟨stored, hquote, hsame⟩ := hcopies pid request new copy hp hcopy
          rw [hrecord] at hquote
          cases hquote
          rw [hcopy, ← hsame, hanalysis]
        | some event =>
          have hprepared : request.Prepared s.shared new := hs.knows pid _ hp
          cases hmutation : request.mutation with
          | create accepted timestamp fresh =>
            obtain ⟨hfresh, hnone⟩ := hprepared.create accepted timestamp fresh hmutation
            rw [← hfresh, hrecord] at hnone
            cases hnone
          | retry retried =>
            have hrelied : request.relied new (some event) = some "failed" := by
              rw [MutationRequest.relied, hmutation]
            have hread : s.shared.status new.quoteId = some "failed" :=
              hcurrent _ (relies_eq hp hrelied)
            rw [hstatus] at hread
            exact absurd (Option.some.inj hread) (by decide)
      | lookup => cases hstored
      | reading _ => cases hstored
      | checking => cases hstored
      | claiming _ _ => cases hstored
      | answered _ => cases hstored
    | worker stage job =>
      cases stage with
      | marking _ _ =>
        cases hstored
        exact absurd (hworker "queued" rfl) (by decide)
      | recording _ =>
        cases hstored
        exact absurd (hworker "analyzing" rfl) (by decide)
      | created _ => cases hstored
      | calling => cases hstored
      | done => cases hstored
    | assessing _ => cases hstored
    | assessed _ => cases hstored
  · refine ⟨record, ?_, hanalysis⟩
    rw [hstores.quotes, Function.update_of_ne hid, hrecord]

/-- What holds in every state of a run that is up to date. -/
structure Current (s : memoryTasks.State) : Prop where
  attended : Attended quoteProtocol id s
  copies : Copies s

/-- A step that is up to date keeps `Current`: nobody holds a copy that is older than what is
stored. -/
theorem current_step {s s' : memoryTasks.State} {a : memoryTasks.Action} (hs : Consistent s)
    (hsound : Sound s) (hc : Current s) (hcurrent : UpToDate s a)
    (h : memoryTasks.next s a = some s') : Current s' where
  attended := attended_step quoteProtocol_map hs hsound hcurrent.timely hc.attended h
  copies pid request record analysis hp' hanalysis := by
    -- The copy was held before, or it was just read.
    have hstored : ∃ stored, s.shared.quotes record.quoteId = some stored ∧
        stored.analysis = some analysis := by
      rcases handler_origin h hp' nofun with ⟨hp, -⟩ | ⟨_, _, p, _, -, -, hpolled⟩
      · exact hc.copies pid request record analysis hp hanalysis
      · obtain ⟨quoteId, -, hrecord⟩ := hpolled.copy
        refine ⟨record, ?_, hanalysis⟩
        rw [hs.keyed quoteId record hrecord, hrecord]
    obtain ⟨stored, hquote, hsame⟩ := hstored
    exact analysis_step hs hsound hc.attended hc.copies hcurrent h hquote hsame

/-- The run lemma of `Current`. -/
theorem current_reachable {s : memoryTasks.State}
    (hs : memoryTasks.system.ReachableWith UpToDate s) : Current s := by
  refine hs.induct (I := Current) ?_ ?_
  · rintro s rfl
    constructor
    · exact SingleWriter.exclusive_of_no_claims fun _ => rfl
    · rintro pid request record analysis ⟨⟩
  · intro s a s' hs ih hg h
    exact current_step (consistent_reachable hs.reachable) (memory_sound_reachable hs.reachable)
      ih hg h

/-- In every run in which a handler that stores its record finds the status that it has read,
each step leaves the status of every quote or moves it along an edge of the lifecycle, and no
step drops a stored analysis. -/
theorem memory_lifecycle (s s' : memoryTasks.State) (a : memoryTasks.Action)
    (hs : memoryTasks.system.ReachableWith UpToDate s) (hcurrent : UpToDate s a)
    (h : memoryTasks.system.step s a s') :
    (∀ quoteId, StatusStep (s.shared.status quoteId) (s'.shared.status quoteId)) ∧
    ∀ quoteId record analysis, s.shared.quotes quoteId = some record →
      record.analysis = some analysis →
      ∃ record', s'.shared.quotes quoteId = some record' ∧ record'.analysis = some analysis := by
  have hconsistent := consistent_reachable hs.reachable
  have hsound := memory_sound_reachable hs.reachable
  have hc := current_reachable hs
  refine ⟨fun quoteId => ?_, fun quoteId record analysis hrecord hanalysis => ?_⟩
  · rw [← statusAs_id, ← statusAs_id]
    -- A step is quiet, or it writes one status along an edge.
    cases status_move quoteProtocol_map hconsistent hsound hcurrent.timely h with
    | quiet _ _ hstatus _ =>
      rw [hstatus]
      exact .same
    | write _ _ _ hwrite _ _ => exact statusStep_of_move (hwrite.move hc.attended quoteId)
  · exact analysis_step hconsistent hsound hc.attended hc.copies hcurrent h hrecord hanalysis

end

/-! ### A retry in time, and a replay that goes back -/

section

attribute [local instance] fixtureLib

/-- The quote fails, and the handler 2 retries it, up to its store. -/
def testRetried : List memoryTasks.Action :=
  testAnalysis testOutcome ++ [.arrive 2 (.handler (memoryRetry "retry-key-0001") .lookup),
    testPoll 2 9, testPoll 2 9, testPoll 2 9]

/-- A retry after a failure, in a run where every store is up to date. The store finds the quote
failed and queues it, which is a step of the lifecycle. -/
theorem memory_lifecycle_test :
    ∃ s s', memoryTasks.system.ReachableWith UpToDate s ∧
      memoryTasks.system.step s (testPoll 2 3) s' ∧
      s.shared.status testQuote = some "failed" ∧ s'.shared.status testQuote = some "queued" ∧
      StatusStep (s.shared.status testQuote) (s'.shared.status testQuote) := by
  have hrun : (System.run (System.guarded UpToDate memoryTasks.next) memoryTasks.initial
      testRetried).map (fun s => decide (UpToDate s (testPoll 2 3)) &&
        (s.shared.status testQuote == some "failed") &&
        (memoryTasks.next s (testPoll 2 3)).map (fun s' => s'.shared.status testQuote) ==
          some (some "queued")) = some true := by
    decide
  obtain ⟨s, hs, hview⟩ := System.exists_reachable_of_run testRetried _ hrun
  rw [Bool.and_eq_true, Bool.and_eq_true, decide_eq_true_eq, beq_iff_eq, beq_iff_eq] at hview
  obtain ⟨⟨hcurrent, hfailed⟩, hafter⟩ := hview
  obtain ⟨s', hstep, hqueued⟩ := Option.map_eq_some_iff.mp hafter
  have hs : memoryTasks.system.ReachableWith UpToDate s := .of_guarded hs
  obtain ⟨hstatus, -⟩ := memory_lifecycle s s' (testPoll 2 3) hs hcurrent hstep
  exact ⟨s, s', hs, hstep, hfailed, hqueued, hstatus testQuote⟩

/-- The handler 0 creates `testQuote`. The handler 2 replays the create and reads the quote as
queued. Then the worker 1 completes the quote. -/
def testReplay : List memoryTasks.Action :=
  [.arrive 0 (.handler (memoryCreate testQuote) .lookup), testPoll 0 9, testPoll 0 9,
    testPoll 0 1, .arrive 2 (.handler (memoryCreate ⟨8⟩) .lookup), testPoll 2 9, testPoll 2 9,
    testPoll 1 9, testPoll 1 9,
    .poll 1 (.called testAnswer (some "2026-09-09T05:00:00Z")) 9, testPoll 1 9]

/-- A replay of the create reads the quote while it is queued, and stores it after the worker has
completed it. The quote is queued again, and its analysis is gone. -/
theorem stale_replay :
    ∃ s s', memoryTasks.system.Reachable s ∧ memoryTasks.system.step s (testPoll 2 9) s' ∧
      (∃ record, s.shared.quotes testQuote = some record ∧ record.status = "completed" ∧
        record.analysis = some emptyRiskAnalysis) ∧
      (∃ record, s'.shared.quotes testQuote = some record ∧ record.status = "queued" ∧
        record.analysis = none) ∧
      ¬ StatusStep (s.shared.status testQuote) (s'.shared.status testQuote) := by
  -- The run is evaluated on what the statement reads of the quote.
  let view (s : memoryTasks.State) :=
    (s.shared.quotes testQuote).map fun record => (record.status, record.analysis)
  have hrun : (System.run memoryTasks.next memoryTasks.initial testReplay).map (fun s =>
      (view s == some ("completed", some emptyRiskAnalysis)) &&
        (memoryTasks.next s (testPoll 2 9)).map view == some (some ("queued", none))) =
      some true := by
    decide
  obtain ⟨s, hs, hview⟩ := System.exists_reachable_of_run testReplay _ hrun
  rw [Bool.and_eq_true, beq_iff_eq, beq_iff_eq] at hview
  obtain ⟨hbefore, hafter⟩ := hview
  obtain ⟨s', hstep, hafter⟩ := Option.map_eq_some_iff.mp hafter
  obtain ⟨record, hrecord, hcompleted⟩ := Option.map_eq_some_iff.mp hbefore
  obtain ⟨record', hrecord', hqueued⟩ := Option.map_eq_some_iff.mp hafter
  rw [Prod.mk.injEq] at hcompleted hqueued
  refine ⟨s, s', hs, hstep, ⟨record, hrecord, hcompleted⟩, ⟨record', hrecord', hqueued⟩, ?_⟩
  rw [AppState.status_eq hrecord, AppState.status_eq hrecord', hcompleted.1, hqueued.1]
  decide

end

end CanonicalApi
