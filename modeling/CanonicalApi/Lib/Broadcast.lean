import Mathlib.Data.List.Infix
import Mathlib.Data.List.Lattice

/-!
# `CanonicalApi.Lib.Broadcast`: a broadcast channel

A channel that keeps the last `capacity` values for each of its receivers. It is the list of
all values sent on it, and a receiver is the number of the next value that it will read. A
receiver that has fallen behind by more than the capacity is told so once and goes on with the
oldest value that is kept.

`Reception` is what a receiver has got since it subscribed: its values come in the order in
which they were sent and each once, and none is missing as long as it has not fallen behind.
-/

set_option autoImplicit false

namespace Broadcast

variable {α : Type}

/-- What a receiver is told. -/
inductive Received (α : Type) where
  | value (a : α)
  | lagged
  | pending
deriving DecidableEq, Repr

/-- Receive, with the number of the next value. -/
def recv (capacity : Nat) (sent : List α) (next : Nat) : Received α × Nat :=
  if next + capacity < sent.length then (.lagged, sent.length - capacity)
  else
    match sent[next]? with
    | some a => (.value a, next + 1)
    | none => (.pending, next)

/-- The values from number `start` to before number `next`. -/
def between (sent : List α) (start next : Nat) : List α := (sent.take next).drop start

/-- The values from `start` on are those before `mid` and those from `mid` on. -/
theorem between_append_drop {sent : List α} {start mid : Nat} (hstart : start ≤ mid)
    (hmid : mid ≤ sent.length) : between sent start mid ++ sent.drop mid = sent.drop start := by
  have hle : start ≤ (sent.take mid).length := by
    rw [List.length_take]
    exact Nat.le_min.mpr ⟨hstart, hstart.trans hmid⟩
  rw [between, ← List.drop_append_of_le_length hle, List.take_append_drop]

/-- What a receiver has got since it subscribed at `start`. -/
structure Reception (sent : List α) (start next : Nat) (lagged : Bool) (got : List α) : Prop where
  started : start ≤ next
  bounded : next ≤ sent.length
  ordered : got.Sublist (between sent start next)
  complete : lagged = false → got = between sent start next

/-- A receiver that subscribes now. -/
theorem reception_subscribe (sent : List α) :
    Reception sent sent.length sent.length false [] :=
  ⟨Nat.le_refl _, Nat.le_refl _, List.nil_sublist _, fun _ => by simp [between]⟩

/-- More values are sent. -/
theorem Reception.send {sent sent' : List α} {start next : Nat} {lagged : Bool} {got : List α}
    (h : Reception sent start next lagged got) (hsent : sent <+: sent') :
    Reception sent' start next lagged got := by
  obtain ⟨more, rfl⟩ := hsent
  have hsame : between (sent ++ more) start next = between sent start next := by
    rw [between, between, List.take_append_of_le_length h.bounded]
  refine ⟨h.started, ?_, hsame ▸ h.ordered, hsame ▸ h.complete⟩
  rw [List.length_append]
  exact Nat.le_add_right_of_le h.bounded

/-- A value is received. -/
theorem Reception.value {capacity : Nat} {sent : List α} {start next next' : Nat}
    {lagged : Bool} {got : List α} {a : α} (h : Reception sent start next lagged got)
    (hrecv : recv capacity sent next = (.value a, next')) :
    Reception sent start next' lagged (got ++ [a]) := by
  unfold recv at hrecv
  split at hrecv
  · cases hrecv
  · split at hrecv
    · next b hb =>
      cases hrecv
      obtain ⟨hlt, -⟩ := List.getElem?_eq_some_iff.mp hb
      -- The interval that was read grows by the value.
      have hnext : between sent start (next + 1) = between sent start next ++ [a] := by
        rw [between, between, List.take_add_one, hb, List.drop_append_of_le_length]
        · rfl
        · rw [List.length_take]
          exact Nat.le_min.mpr ⟨h.started, h.started.trans h.bounded⟩
      refine ⟨Nat.le_succ_of_le h.started, hlt, ?_, fun hlagged => ?_⟩
      · rw [hnext]
        exact h.ordered.append_right [a]
      · rw [hnext, h.complete hlagged]
    · cases hrecv

/-- The receiver is told that it has fallen behind. -/
theorem Reception.lagged {capacity : Nat} {sent : List α} {start next next' : Nat}
    {lagged : Bool} {got : List α} (h : Reception sent start next lagged got)
    (hrecv : recv capacity sent next = (.lagged, next')) :
    Reception sent start next' true got := by
  unfold recv at hrecv
  split at hrecv
  · next hbehind =>
    cases hrecv
    have hle : next ≤ sent.length - capacity := by omega
    refine ⟨h.started.trans hle, Nat.sub_le _ _, ?_, nofun⟩
    exact h.ordered.trans ((List.take_sublist_take_left hle).drop start)
  · split at hrecv <;> cases hrecv

/-- A receiver with nothing pending that has not fallen behind has got all values since it
subscribed. -/
theorem Reception.pending {capacity : Nat} {sent : List α} {start next next' : Nat}
    {got : List α} (h : Reception sent start next false got)
    (hrecv : recv capacity sent next = (.pending, next')) : got = sent.drop start := by
  unfold recv at hrecv
  split at hrecv
  · cases hrecv
  · split at hrecv
    · cases hrecv
    · next hnone =>
      have hend : next = sent.length :=
        Nat.le_antisymm h.bounded (List.getElem?_eq_none_iff.mp hnone)
      rw [h.complete rfl, between, hend, List.take_length]

/-- What a receiver has got is in the order in which it was sent since it subscribed. -/
theorem Reception.sublist {sent : List α} {start next : Nat} {lagged : Bool} {got : List α}
    (h : Reception sent start next lagged got) : got.Sublist (sent.drop start) :=
  h.ordered.trans ((List.take_sublist next sent).drop start)

end Broadcast
