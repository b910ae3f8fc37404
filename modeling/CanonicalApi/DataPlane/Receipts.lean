import CanonicalApi.DataPlane
import CanonicalApi.Lib.Transition

/-!
# `CanonicalApi.DataPlane.Receipts`: the receipts of the asynchronous path

A receipt moves along six edges: it is published, processed and then succeeds or fails, and a
failed one is published again or given up. So a receipt can fail and be published any number of
times. `Counted` relates its status and its `attempt` to all statuses that it has entered;
`Counted.transition` is the step lemma, and `receipt_runs` carries it along a run.
-/

set_option autoImplicit false

namespace CanonicalApi

open Transition (System)

namespace DataPlane

/-! ### One transition -/

/-- The six edges. -/
theorem canTransitionTo_cases {status next : AsyncStatus}
    (h : status.canTransitionTo next = true) :
    status = .pending ∧ next = .published ∨ status = .published ∧ next = .processing ∨
      status = .processing ∧ next = .succeeded ∨ status = .processing ∧ next = .failed ∨
      status = .failed ∧ next = .published ∨ status = .failed ∧ next = .deadLetter := by
  cases status <;> cases next <;> simp_all [AsyncStatus.canTransitionTo]

/-- A transition that succeeds follows an edge and changes the status and the attempt. -/
theorem transition_eq_ok_iff {receipt receipt' : AsyncReceipt} {next : AsyncStatus} :
    receipt.transition next = .ok receipt' ↔
      receipt.status.canTransitionTo next = true ∧
        receipt' = { receipt with
          status := next
          attempt := saturatingAdd receipt.attempt (if next = .processing then 1 else 0) } := by
  unfold AsyncReceipt.transition
  cases hedge : receipt.status.canTransitionTo next
  · simp
  · simp [eq_comm]

/-- A receipt that has succeeded or was given up stays as it is. -/
theorem transition_of_final {receipt : AsyncReceipt}
    (h : receipt.status = .succeeded ∨ receipt.status = .deadLetter) (next : AsyncStatus) :
    receipt.transition next = .error (.invalidStatusTransition receipt.status next) := by
  have hedge : receipt.status.canTransitionTo next = false := by
    rcases h with h | h
    · rw [h]
      rfl
    · rw [h]
      rfl
  rw [AsyncReceipt.transition, if_pos hedge]

/-! ### Runs -/

/-- A transition as a step: nothing where it fails. -/
def next (receipt : AsyncReceipt) (status : AsyncStatus) : Option AsyncReceipt :=
  (receipt.transition status).toOption

/-- The transition system makes the transitions that the code allows. -/
theorem next_eq_some_iff {receipt receipt' : AsyncReceipt} {status : AsyncStatus} :
    next receipt status = some receipt' ↔ receipt.transition status = .ok receipt' := by
  unfold next
  cases receipt.transition status <;> simp [Except.toOption]

/-- What the statuses that a receipt has entered since `start` say about it. -/
structure Counted (start : AsyncReceipt) (entered : List AsyncStatus) (receipt : AsyncReceipt) :
    Prop where
  attempt : receipt.attempt = min u16Max (entered.count .processing)
  published : entered.count .published =
    entered.count .processing + if receipt.status = .published then 1 else 0
  failed : entered.count .processing =
    entered.count .failed +
      if receipt.status = .processing ∨ receipt.status = .succeeded then 1 else 0
  succeeded : .succeeded ∈ entered ↔ receipt.status = .succeeded
  deadLetter : .deadLetter ∈ entered ↔ receipt.status = .deadLetter
  operationId : receipt.operationId = start.operationId
  dedupeKey : receipt.dedupeKey = start.dedupeKey
  metadata : receipt.metadata = start.metadata

/-- A new receipt has passed no status yet. -/
theorem Counted.start {receipt : AsyncReceipt} (hstatus : receipt.status = .pending)
    (hattempt : receipt.attempt = 0) : Counted receipt [] receipt := by
  refine ⟨by simp [hattempt], by simp [hstatus], by simp [hstatus], by simp [hstatus],
    by simp [hstatus], rfl, rfl, rfl⟩

/-- One more entry. -/
theorem count_concat (entered : List AsyncStatus) (status s : AsyncStatus) :
    (entered ++ [status]).count s = entered.count s + if status = s then 1 else 0 := by
  simp [List.count_append, List.count_singleton]

/-- Every transition keeps this. -/
theorem Counted.transition {start receipt receipt' : AsyncReceipt} {entered : List AsyncStatus}
    (hs : Counted start entered receipt) {status : AsyncStatus}
    (h : receipt.transition status = .ok receipt') :
    Counted start (entered ++ [status]) receipt' := by
  obtain ⟨hedge, rfl⟩ := transition_eq_ok_iff.mp h
  have hattempt := hs.attempt
  have hpublished := hs.published
  have hfailed := hs.failed
  have hsucceeded := hs.succeeded
  have hdeadLetter := hs.deadLetter
  have hattempt' : saturatingAdd receipt.attempt (if status = .processing then 1 else 0) =
      min u16Max ((entered ++ [status]).count .processing) := by
    rw [count_concat, hattempt, saturatingAdd]
    omega
  refine ⟨hattempt', ?_, ?_, ?_, ?_, hs.operationId, hs.dedupeKey, hs.metadata⟩
  -- The four facts about the status, edge by edge.
  all_goals
    simp only [count_concat, List.mem_append, List.mem_singleton]
    rcases canTransitionTo_cases hedge with ⟨hfrom, rfl⟩ | ⟨hfrom, rfl⟩ | ⟨hfrom, rfl⟩ |
      ⟨hfrom, rfl⟩ | ⟨hfrom, rfl⟩ | ⟨hfrom, rfl⟩ <;>
    simp [hfrom] at hpublished hfailed hsucceeded hdeadLetter ⊢ <;>
    omega

end DataPlane

open DataPlane

/-- The runs of a receipt. After any finite sequence of successful transitions from a pending
receipt with attempt 0, `attempt` is the number of entries into `Processing`, at most 65535. There
are as many entries into `Published` as into `Processing` or one more, and at most as many into
`Failed`. The other fields are as they were. No transition from `Succeeded` or `DeadLetter`
succeeds, so no run enters both. -/
theorem receipt_runs {receipt final : AsyncReceipt} (hstatus : receipt.status = .pending)
    (hattempt : receipt.attempt = 0) {entered : List AsyncStatus}
    (h : System.run next receipt entered = some final) :
    final.attempt = min 65535 (entered.count .processing) ∧
    (entered.count .published = entered.count .processing ∨
      entered.count .published = entered.count .processing + 1) ∧
    entered.count .failed ≤ entered.count .processing ∧
    final.operationId = receipt.operationId ∧ final.dedupeKey = receipt.dedupeKey ∧
    final.metadata = receipt.metadata ∧
    (final.status = .succeeded ∨ final.status = .deadLetter → ∀ status,
      final.transition status = .error (.invalidStatusTransition final.status status)) ∧
    ¬ (.succeeded ∈ entered ∧ .deadLetter ∈ entered) := by
  -- `Counted` is kept by each transition, and every clause is read off its end.
  have hcounted : Counted receipt entered final := by
    refine System.run_induct (I := Counted receipt) (fun past s a s' hs h => ?_)
      (Counted.start hstatus hattempt) h
    exact hs.transition (next_eq_some_iff.mp h)
  refine ⟨hcounted.attempt, ?_, ?_, hcounted.operationId, hcounted.dedupeKey, hcounted.metadata,
    fun hfinal status => transition_of_final hfinal status, ?_⟩
  · have hpublished := hcounted.published
    split at hpublished
    · exact .inr hpublished
    · exact .inl hpublished
  · rw [hcounted.failed]
    omega
  · intro ⟨hsucceeded, hdeadLetter⟩
    rw [hcounted.succeeded] at hsucceeded
    rw [hcounted.deadLetter, hsucceeded] at hdeadLetter
    cases hdeadLetter

/-- A receipt that fails once and succeeds with the second attempt. It counts two attempts, and it
cannot be published any more. -/
theorem receipt_runs_test :
    ∃ final : AsyncReceipt, final.status = .succeeded ∧ final.attempt = min 65535 2 ∧
      final.transition .published = .error (.invalidStatusTransition .succeeded .published) := by
  have hrun : System.run next ⟨"op-01", "tenant-01:req-01", .pending, 0, []⟩
      [.published, .processing, .failed, .published, .processing, .succeeded] =
        some ⟨"op-01", "tenant-01:req-01", .succeeded, 2, []⟩ := rfl
  have hruns := receipt_runs rfl rfl hrun
  exact ⟨_, rfl, hruns.1, hruns.2.2.2.2.2.2.1 (.inl rfl) .published⟩

end CanonicalApi
