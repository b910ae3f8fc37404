import CanonicalApi.EventStream.Completeness

/-!
# `CanonicalApi.EventStream.Consistency`: one message of a stream

`quote_status_event` takes the stage of a message from an event, and its estimate and problem
from the record of the quote, which is read again when the message is sent. `SelfConsistent` is
what a client expects of one message. It holds exactly when the event and the record show the
`SamePhase` (`selfConsistent_iff`): both ready, both failed, or neither. So it holds of all
messages in the runs in which each message finds the record in the phase of its event, and any
other message breaks it (`messages_consistent_when`).
-/

set_option autoImplicit false

namespace CanonicalApi

open Transition (System)

section

variable [CanonicalLib]

namespace EventStream

/-- A message is terminal exactly when it is ready or failed, it has an estimate exactly when it
is ready, and a problem exactly when it is failed. -/
def SelfConsistent (m : QuoteStatusEvent) : Prop :=
  (m.terminal = true ↔ m.stage = .ready ∨ m.stage = .failed) ∧
  (m.estimate.isSome = true ↔ m.stage = .ready) ∧
  (m.problem.isSome = true ↔ m.stage = .failed)

/-- A status that is shown as ready. -/
def IsReady (status : String) : Prop := status = "completed" ∨ status = "ready"

instance (status : String) : Decidable (IsReady status) :=
  inferInstanceAs (Decidable (_ ∨ _))

/-- The event and the record are both ready, both failed, or neither. -/
def SamePhase (event : QuoteEventRecord) (record : QuoteRecord) : Prop :=
  (IsReady event.status ↔ IsReady record.status) ∧
  (event.status = "failed" ↔ record.status = "failed")

instance (event : QuoteEventRecord) (record : QuoteRecord) : Decidable (SamePhase event record) :=
  inferInstanceAs (Decidable (_ ∧ _))

omit [CanonicalLib] in
/-- When a status is shown as ready and as failed. -/
theorem eventStage_eq_ok {status : String} {stage : EventStage}
    (h : eventStage status = .ok stage) :
    (stage = .ready ↔ IsReady status) ∧ (stage = .failed ↔ status = "failed") := by
  unfold eventStage at h
  unfold IsReady
  -- One case for each status that the source compares, in its order.
  split at h
  · next hstatus =>
    cases h
    simp [hstatus]
  · split at h
    · next hstatus =>
      cases h
      simp [hstatus]
    · split at h
      · next hstatus =>
        cases h
        simp [hstatus]
      · split at h
        · next hstatus =>
          cases h
          simp [hstatus]
        · split at h
          · next hstatus =>
            cases h
            rcases hstatus with hstatus | hstatus <;> simp [hstatus]
          · split at h
            · next hstatus =>
              cases h
              simp [hstatus]
            · cases h

/-- A record has an estimate exactly when it is shown as ready. -/
theorem quoteEstimate_isSome {record : QuoteRecord} {estimate : Option QuoteEstimate}
    (h : quoteEstimate record = .ok estimate) :
    estimate.isSome = true ↔ IsReady record.status := by
  unfold quoteEstimate at h
  unfold IsReady
  split at h
  · next hother =>
    cases h
    simp [hother]
  · next hready =>
    rw [not_and_or, not_not, not_not] at hready
    refine iff_of_true ?_ hready
    -- A finished quote has an estimate, or the projection has failed.
    cases hobject : Outcome.okOr invalidAnalysis (record.analysis.bind JsonValue.asObject) with
    | error error =>
      rw [hobject] at h
      cases h
    | ok object =>
      rw [hobject] at h
      cases hvalue : estimateOf record object with
      | error error =>
        have h : (estimateOf record object >>= fun estimate => pure (some estimate)) =
          .ok estimate := h
        rw [hvalue] at h
        cases h
      | ok value =>
        have h : (estimateOf record object >>= fun estimate => pure (some estimate)) =
          .ok estimate := h
        rw [hvalue] at h
        cases h
        rfl

/-- A record has a problem exactly when it has failed. -/
theorem quoteFailureProblem_isSome (record : QuoteRecord) :
    (quoteFailureProblem record).isSome = true ↔ record.status = "failed" := by
  unfold quoteFailureProblem
  split
  · next hfailed => simp [hfailed]
  · next hother => simp [hother]

/-- A message is consistent exactly when its event and its record show the same phase. -/
theorem selfConsistent_iff {event : QuoteEventRecord} {record : QuoteRecord}
    {m : QuoteStatusEvent} (h : quoteStatusEvent event record = .ok m) :
    SelfConsistent m ↔ SamePhase event record := by
  unfold quoteStatusEvent at h
  cases hstage : eventStage event.status with
  | error error =>
    rw [hstage] at h
    cases h
  | ok stage =>
    rw [hstage] at h
    cases hestimate : quoteEstimate record with
    | error error =>
      rw [hestimate] at h
      cases h
    | ok estimate =>
      rw [hestimate] at h
      cases h
      -- The stage comes from the event, the estimate and the problem come from the record.
      obtain ⟨hready, hfailed⟩ := eventStage_eq_ok hstage
      have hestimate := quoteEstimate_isSome hestimate
      have hproblem := quoteFailureProblem_isSome record
      constructor
      · intro hm
        exact ⟨hready.symm.trans (hm.2.1.symm.trans hestimate),
          hfailed.symm.trans (hm.2.2.symm.trans hproblem)⟩
      · intro hphase
        exact ⟨decide_eq_true_iff, hestimate.trans (hphase.1.symm.trans hready.symm),
          hproblem.trans (hphase.2.symm.trans hfailed.symm)⟩

section

variable {source : EventSource} {quoteId : Uuid} {subject : String}

/-- The event of the message that the step sends, with the reading that the message is built from.
The first message is sent by `greet` and every other one by `send`. -/
def Action.sends (s : Connection source) : Action source → Option (QuoteEventRecord × source.Read)
  | .greet read true =>
      match s.stream.stage with
      | .greeting initial => some (initial, read)
      | _ => none
  | .send read true =>
      match s.stream.stage with
      | .handling event => some (event, read)
      | _ => none
  | _ => none

/-- The condition on a step: a message that is sent finds the quote in the phase of its event. -/
def InPhase (quoteId : Uuid) (subject : String) (s : Connection source) (a : Action source) :
    Prop :=
  ∀ event read record m, a.sends s = some (event, read) →
    source.find s.source read quoteId subject = .ok record →
    quoteStatusEvent event record = .ok m → SamePhase event record

/-- The condition, as it is computed: of the event that is sent and of the record that is read. -/
theorem inPhase_iff (quoteId : Uuid) (subject : String) (s : Connection source)
    (a : Action source) :
    InPhase quoteId subject s a ↔ ∀ sends ∈ a.sends s,
      ∀ record ∈ (source.find s.source sends.2 quoteId subject).toOption,
        (quoteStatusEvent sends.1 record).isOk = true → SamePhase sends.1 record := by
  constructor
  · -- A message that cannot be built is not sent, and asks nothing.
    rintro h ⟨event, read⟩ hsends record hfind hok
    dsimp only at hfind hok
    cases hread : source.find s.source read quoteId subject with
    | error error =>
      rw [hread] at hfind
      cases hfind
    | ok found =>
      rw [hread] at hfind
      cases hfind
      cases hmessage : quoteStatusEvent event record with
      | error error =>
        rw [hmessage] at hok
        cases hok
      | ok m => exact h event read record m hsends hread hmessage
  · intro h event read record m hsends hfind hmessage
    refine h (event, read) hsends record ?_ ?_
    · dsimp only
      rw [hfind]
      rfl
    · dsimp only
      rw [hmessage]
      rfl

instance (quoteId : Uuid) (subject : String) (s : Connection source) (a : Action source) :
    Decidable (InPhase quoteId subject s a) :=
  decidable_of_iff' _ (inPhase_iff quoteId subject s a)

/-- A step sends nothing, or one message of an event and the record of this moment. -/
theorem sent_of_step {s s' : Connection source} {a : Action source}
    (h : step source quoteId subject s a = some s') :
    (∀ p ∈ s'.stream.sent, p ∈ s.stream.sent ∨
      ∃ read record, a.sends s = some (p.1, read) ∧
        source.find s.source read quoteId subject = .ok record ∧
        quoteStatusEvent p.1 record = .ok p.2) ∧
    ∀ event read record m, a.sends s = some (event, read) →
      source.find s.source read quoteId subject = .ok record →
      quoteStatusEvent event record = .ok m → (event, m) ∈ s'.stream.sent := by
  have hmessage : ∀ {event read record m},
      source.find s.source read quoteId subject = .ok record →
      quoteStatusEvent event record = .ok m →
      message source quoteId subject s.source read event = .ok m := by
    intro event read record m hfind hprojected
    unfold message
    rw [hfind]
    exact hprojected
  refine ⟨fun p hp => ?_, fun event read record m hsends hfind hprojected => ?_⟩
  · -- Only a greeting and a sent message add something, projected from what the step reads.
    cases moves_of_step h with
    | outside | connects | subscribes | skips | receives | lags | closes => exact .inl hp
    | @greets read initial m hstage hm =>
      obtain ⟨record, hfind, hprojected⟩ := projected_of_message hm
      rcases List.mem_append.mp hp with hgreeting | hold
      · cases List.mem_singleton.mp hgreeting
        refine .inr ⟨read, record, ?_, hfind, hprojected⟩
        simp only [Action.sends, hstage]
      · exact .inl (List.mem_append_right _ hold)
    | @sends read event m hstage hm =>
      obtain ⟨record, hfind, hprojected⟩ := projected_of_message hm
      have hp : p ∈ s.stream.sent ++ [(event, m)] := by
        rw [EventStream.sent, List.append_assoc]
        exact hp
      rcases List.mem_append.mp hp with hold | hnew
      · exact .inl hold
      · cases List.mem_singleton.mp hnew
        refine .inr ⟨read, record, ?_, hfind, hprojected⟩
        simp only [Action.sends, hstage]
  · -- Conversely, where the record is found and can be projected, `step` takes the branch that
    -- sends.
    cases a with
    | greet read' delivered =>
      cases delivered with
      | false => cases hsends
      | true =>
        simp only [Action.sends] at hsends
        split at hsends
        · next initial hstage =>
          cases hsends
          simp only [step, hstage, hmessage hfind hprojected, if_true, Option.some.injEq] at h
          subst h
          exact List.mem_append_left _ (List.mem_singleton.mpr rfl)
        · cases hsends
    | send read' delivered =>
      cases delivered with
      | false => cases hsends
      | true =>
        simp only [Action.sends] at hsends
        split at hsends
        · next event hstage =>
          cases hsends
          simp only [step, hstage, hmessage hfind hprojected, if_true, Option.some.injEq] at h
          subst h
          exact List.mem_append_right _
            (List.mem_append_right _ (List.mem_singleton.mpr rfl))
        · cases hsends
    | outside | find | noPermit | latest | subscribe | recv | close => cases hsends

end

end EventStream

variable [Postgres]

open EventStream in
/-- When the messages of a stream are consistent, in either mode. In every run in which each
message finds the quote in the phase of its event, all messages are. Any other step that sends a
message sends one that is not. -/
theorem messages_consistent_when (mode : StorageMode) (quoteId : Uuid) (subject : String) :
    (∀ s, (system mode.source quoteId subject).ReachableWith (InPhase quoteId subject) s →
      ∀ p ∈ s.stream.sent, SelfConsistent p.2) ∧
    ∀ s a s', step mode.source quoteId subject s a = some s' →
      ¬ InPhase quoteId subject s a → ∃ p ∈ s'.stream.sent, ¬ SelfConsistent p.2 := by
  refine ⟨fun s hs => ?_, fun s a s' h hphase => ?_⟩
  · refine System.ReachableWith.induct (I := fun s => ∀ p ∈ s.stream.sent, SelfConsistent p.2)
      (fun s h0 => ?_) (fun s a s' _ ih hphase h => ?_) hs
    · obtain rfl := h0
      exact fun p hp => absurd hp List.not_mem_nil
    · intro p hp
      have hstep : step mode.source quoteId subject s a = some s' := h
      rcases (sent_of_step hstep).1 p hp with hold | ⟨read, record, hsends, hfind, hprojected⟩
      · exact ih p hold
      · exact (selfConsistent_iff hprojected).mpr
          (hphase p.1 read record p.2 hsends hfind hprojected)
  · simp only [InPhase, not_forall] at hphase
    obtain ⟨event, read, record, m, hsends, hfind, hprojected, hother⟩ := hphase
    exact ⟨(event, m), (sent_of_step h).2 event read record m hsends hfind hprojected,
      fun hm => hother ((selfConsistent_iff hprojected).mp hm)⟩

end

section

attribute [local instance] fixtureLib openServer

open EventStream

/-- The stream that subscribes while the model is called meets the condition: `analyzing` without a
problem, and then `failed` with one. -/
theorem messages_consistent_when_test :
    ∃ s, (system StorageMode.memory.source testQuote "customer-1").ReachableWith
        (InPhase testQuote "customer-1") s ∧
      (s.stream.sent.map fun p => (p.2.stage, p.2.problem.isSome)) =
        [(.analyzing, false), (.failed, true)] ∧
      ∀ p ∈ s.stream.sent, SelfConsistent p.2 := by
  have hrun : ∃ s, (System.ofFun (start StorageMode.memory.source)
      (System.guarded (InPhase testQuote "customer-1")
        (step StorageMode.memory.source testQuote "customer-1"))).Reachable s ∧
      decide ((s.stream.sent.map fun p => (p.2.stage, p.2.problem.isSome)) =
        [(.analyzing, false), (.failed, true)]) = true :=
    System.exists_reachable_of_run testSubscribed _ (by decide)
  obtain ⟨s, hs, hsent⟩ := hrun
  have hs : (system StorageMode.memory.source testQuote "customer-1").ReachableWith
      (InPhase testQuote "customer-1") s := .of_guarded hs
  exact ⟨s, hs, of_decide_eq_true hsent,
    (messages_consistent_when .memory testQuote "customer-1").1 s hs⟩

/-- The stream that finds the quote while the model is called sends the stage `analyzing` with
the problem of the failed quote. -/
theorem stream_mixes_moments :
    ¬ ∀ s, (system StorageMode.memory.source testQuote "customer-1").Reachable s →
      ∀ p ∈ s.stream.sent, SelfConsistent p.2 := by
  intro hclaim
  have hrun : ∃ s, (system StorageMode.memory.source testQuote "customer-1").Reachable s ∧
      s.stream.sent.any (fun p => p.2.problem.isSome && decide (p.2.stage = .analyzing)) = true :=
    System.exists_reachable_of_run testMissed
      (fun (s : Connection StorageMode.memory.source) =>
        s.stream.sent.any fun p => p.2.problem.isSome && decide (p.2.stage = .analyzing))
      (by decide)
  obtain ⟨s, hs, hsent⟩ := hrun
  obtain ⟨p, hp, hmixed⟩ := List.any_eq_true.mp hsent
  rw [Bool.and_eq_true, decide_eq_true_iff] at hmixed
  have hfailed := (hclaim s hs p hp).2.2.mp hmixed.1
  rw [hmixed.2] at hfailed
  cases hfailed

end

end CanonicalApi
