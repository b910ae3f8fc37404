import CanonicalApi.Admission

/-!
# `CanonicalApi.Admission.Capacity`: no subject is ever evicted

A call reads the clock before it takes the lock, so the readings of a run can come in any order.
Then the queues are not sorted, and a front that has not expired keeps expired entries alive
behind it. `Held` is what survives: the queue of all subjects is a suffix of the admitted calls,
and the queue of a subject holds some of its calls in that suffix.

`held_windowsAfter` proves it of every run, and `eviction_never_runs` reads the bounds off it:
the map has at most 500 subjects, and the code that evicts one at 4096 is dead.
-/

set_option autoImplicit false

namespace CanonicalApi

open Window (Covers timesOf timesOfKey retain)

/-- The calls whose timestamps `all_subjects` holds after the run. Timestamps leave the queue at
its front only. -/
def queuedCalls (calls : List (String × Nat)) : List (String × Nat) :=
  (admittedCalls .empty calls).drop
    ((admittedCalls .empty calls).length - (windowsAfter .empty calls).allSubjects.length)

/-- The windows hold the calls of the log, and no more of them than the limit. -/
structure Held (log : List (String × Nat)) (windows : SubmissionWindows) : Prop where
  covers : Covers log windows.allSubjects windows.bySubject
  few : windows.allSubjects.length ≤ quoteSubmissionsGlobalPerWindow

section

variable {log : List (String × Nat)} {windows : SubmissionWindows}

/-- Before the first call nothing is held. -/
theorem Held.empty : Held [] .empty where
  covers := .empty
  few := Nat.zero_le _

/-- The windows as a call finds them after it has discarded what has expired. -/
def SubmissionWindows.expire (windows : SubmissionWindows) (now : Nat) : SubmissionWindows where
  allSubjects := discardExpired windows.allSubjects now
  bySubject := retain (fun timestamps => discardExpired timestamps now) windows.bySubject

/-- Expiry keeps the newest calls: what the windows hold afterwards are the calls of a final part
of the log. -/
theorem Held.expire (h : Held log windows) (now : Nat) :
    ∃ log', log' <:+ log ∧ Held log' (windows.expire now) := by
  refine ⟨_, List.dropWhile_suffix _, h.covers.prune fun timestamp =>
    decide (quoteSubmissionWindow ≤ now - timestamp), ?_⟩
  exact Nat.le_trans (List.dropWhile_sublist _).length_le h.few

/-- There is always room for one more subject. -/
theorem Held.makeRoom_eq (h : Held log windows) (subject : String) :
    makeRoom windows.bySubject subject = windows.bySubject := by
  have hkeys := h.covers.keys_le
  have hfew := h.few
  have hroom : ¬ windows.bySubject.keys.length ≥ quoteSubmissionMaxSubjects := by
    unfold quoteSubmissionsGlobalPerWindow at hfew
    unfold quoteSubmissionMaxSubjects
    omega
  rw [makeRoom, if_neg fun hfull => hroom hfull.2]

/-- One call, with any reading of the clock. What it holds afterwards is a suffix of what it
held, with the call itself when it is admitted. -/
theorem Held.check (h : Held log windows) (subject : String) (now : Nat) :
    ∃ log', Held log' (checkSubmission windows subject now).2 ∧
      log' <:+ if (checkSubmission windows subject now).1 = .ok () then log ++ [(subject, now)]
        else log := by
  obtain ⟨log', hsuffix, hpruned⟩ := h.expire now
  have hroom := hpruned.makeRoom_eq subject
  have hsublist := hpruned.covers.getD_lookup subject
  -- The global limit is checked first, and a refusal by it leaves the pruned windows.
  cases hglobal : limited quoteSubmissionsGlobalPerWindow (windows.expire now).allSubjects now with
  | some refusal =>
    have hcheck : checkSubmission windows subject now =
        (.error refusal, windows.expire now) := by
      simp only [SubmissionWindows.expire] at hglobal
      simp only [checkSubmission, hglobal, SubmissionWindows.expire]
    rw [hcheck, if_neg (by simp)]
    exact ⟨log', hpruned, hsuffix⟩
  | none =>
    have hlength := (limited_eq_none_iff (by decide) _ _).mp hglobal
    -- What the map holds for the subject is part of its times in the log.
    generalize hts : ((windows.expire now).bySubject.lookup subject).getD [] =
      timestamps at hsublist
    cases hsubject : limited quoteSubmissionsPerWindow timestamps now with
    | some refusal =>
      have hcheck : checkSubmission windows subject now = (.error refusal,
          ⟨(windows.expire now).allSubjects,
            (windows.expire now).bySubject.insert subject timestamps⟩) := by
        simp only [SubmissionWindows.expire] at hglobal hroom hts
        simp only [checkSubmission, hglobal, hroom, hts, hsubject, SubmissionWindows.expire]
      have hne : timestamps ≠ [] := by
        intro hnil
        rw [hnil] at hsubject
        cases hsubject
      rw [hcheck, if_neg (by simp)]
      exact ⟨log', ⟨hpruned.covers.insert hpruned.covers.all hsublist hne fun _ _ => rfl,
        hpruned.few⟩, hsuffix⟩
    | none =>
      have hcheck : checkSubmission windows subject now = (.ok (),
          ⟨(windows.expire now).allSubjects ++ [now],
            (windows.expire now).bySubject.insert subject
              (timestamps ++ [now])⟩) := by
        simp only [SubmissionWindows.expire] at hglobal hroom hts
        simp only [checkSubmission, hglobal, hroom, hts, hsubject, SubmissionWindows.expire]
      rw [hcheck, if_pos rfl]
      -- An admitted call is added to the queue, to the times of its subject and to the log.
      refine ⟨log' ++ [(subject, now)], ⟨hpruned.covers.insert ?_ ?_ (by simp) ?_, ?_⟩, ?_⟩
      · rw [Window.timesOf_append, hpruned.covers.all]
      · rw [Window.timesOfKey_append_self]
        exact hsublist.append (List.Sublist.refl _)
      · intro key hkey
        exact Window.timesOfKey_append_of_ne (Ne.symm hkey) now
      · rw [List.length_append, List.length_singleton]
        exact hlength
      · obtain ⟨front, rfl⟩ := hsuffix
        exact ⟨front, (List.append_assoc ..).symm⟩

end

/-- In every run the windows hold the calls of the queue. -/
theorem held_windowsAfter (calls : List (String × Nat)) :
    Held (queuedCalls calls) (windowsAfter .empty calls) := by
  -- The windows hold an end of the log of admitted calls, by induction on the calls from the last
  -- one.
  have hsuffix : ∃ log, Held log (windowsAfter .empty calls) ∧
      log <:+ admittedCalls .empty calls := by
    induction calls using List.reverseRecOn with
    | nil => exact ⟨[], .empty, List.suffix_refl _⟩
    | append_singleton before call ih =>
      obtain ⟨subject, now⟩ := call
      obtain ⟨log, hheld, hlog⟩ := ih
      obtain ⟨log', hheld', hlog'⟩ := hheld.check subject now
      rw [windowsAfter_append, admittedCalls_append]
      refine ⟨log', hheld', hlog'.trans ?_⟩
      by_cases hadmitted :
          (checkSubmission (windowsAfter .empty before) subject now).1 = .ok ()
      · rw [if_pos hadmitted, if_pos hadmitted]
        obtain ⟨front, hfront⟩ := hlog
        exact ⟨front, by rw [← hfront, List.append_assoc]⟩
      · rw [if_neg hadmitted, if_neg hadmitted]
        exact hlog
  obtain ⟨log, hheld, hlog⟩ := hsuffix
  have hlength : (windowsAfter .empty calls).allSubjects.length = log.length := by
    rw [hheld.covers.all, timesOf, List.length_map]
  -- Which end it is follows from the number of entries.
  have hqueued : queuedCalls calls = log := by
    rw [queuedCalls, hlength]
    exact (List.suffix_iff_eq_drop.mp hlog).symm
  rw [hqueued]
  exact hheld

/-- The eviction of a subject is dead code, whatever the clock says. After every run the queue of
all subjects holds the timestamps of some of the last admitted calls, at most 500, and the queue
of a subject is a subsequence of those that the subject pushed. All queues of subjects together
are no longer than the queue of all, and the next call finds room in the map for its subject. -/
theorem eviction_never_runs (calls : List (String × Nat)) (subject : String) (now : Nat) :
    (windowsAfter .empty calls).allSubjects = timesOf (queuedCalls calls) ∧
    (∀ key timestamps, timestamps ∈ (windowsAfter .empty calls).bySubject.lookup key →
      timestamps.Sublist (timesOfKey key (queuedCalls calls))) ∧
    ((windowsAfter .empty calls).bySubject.entries.map fun e => e.2.length).sum ≤
      (windowsAfter .empty calls).allSubjects.length ∧
    (windowsAfter .empty calls).allSubjects.length ≤ 500 ∧
    ((windowsAfter .empty calls).expire now).bySubject.keys.length < 4096 ∧
    makeRoom ((windowsAfter .empty calls).expire now).bySubject subject =
      ((windowsAfter .empty calls).expire now).bySubject := by
  have hheld := held_windowsAfter calls
  obtain ⟨log', -, hpruned⟩ := hheld.expire now
  -- After the expiry every key holds a live time, and there are at most 500 of these.
  have hkeys := hpruned.covers.keys_le
  have hfew : ((windowsAfter .empty calls).expire now).allSubjects.length ≤ 500 := hpruned.few
  exact ⟨hheld.covers.all, fun key timestamps h => (hheld.covers.byKey key timestamps h).1,
    hheld.covers.sum_length_le, hheld.few, by omega, hpruned.makeRoom_eq subject⟩

end CanonicalApi
