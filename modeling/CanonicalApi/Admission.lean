import CanonicalApi.Lib.Window
import Mathlib.Data.List.MinMax
import Mathlib.Order.WithBot

/-!
# `CanonicalApi.Admission`: the limiter of submissions

`check_submission` of `lib.rs`, on the submission windows that all subjects share. Times are
readings of the monotonic clock in nanoseconds. The entries of the `HashMap` are kept in the
order in which they were written last. The order of a `HashMap` is not specified, and the only
code that could depend on it, the eviction of a subject, never runs here.

`Exact.check` computes one call from the log of the admitted calls. A run is a list of
calls, and `check_submission_exact` says that the limiter decides it as an exact log of the
last ten minutes would.
-/

set_option autoImplicit false

namespace CanonicalApi

open Window (live timesOf timesOfKey retain Tracks Ordered)

/-- `QUOTE_SUBMISSIONS_PER_WINDOW`. -/
def quoteSubmissionsPerWindow : Nat := 5

/-- `QUOTE_SUBMISSIONS_GLOBAL_PER_WINDOW`. -/
def quoteSubmissionsGlobalPerWindow : Nat := 500

/-- `QUOTE_SUBMISSION_WINDOW`: ten minutes. -/
def quoteSubmissionWindow : Nat := 10 * 60 * 1000000000

/-- `QUOTE_SUBMISSION_MAX_SUBJECTS`. -/
def quoteSubmissionMaxSubjects : Nat := 4096

/-- `SubmissionWindows`. -/
structure SubmissionWindows where
  allSubjects : List Nat
  bySubject : AList fun _ : String => List Nat

/-- `SubmissionWindows::default`. -/
def SubmissionWindows.empty : SubmissionWindows := ⟨[], ∅⟩

/-- `RateLimited`. -/
structure RateLimited where
  retryAfterSeconds : Nat
deriving DecidableEq, Repr

/-- `discard_expired`. -/
def discardExpired (timestamps : List Nat) (now : Nat) : List Nat :=
  timestamps.dropWhile fun timestamp => quoteSubmissionWindow ≤ now - timestamp

/-- `retry_after_seconds`. -/
def retryAfterSeconds (earliest now : Nat) : Nat :=
  (quoteSubmissionWindow - (now - earliest)) / 1000000000 + 1

/-- The refusal of a queue that has reached its limit. -/
def limited (limit : Nat) (timestamps : List Nat) (now : Nat) : Option RateLimited :=
  match timestamps.head? with
  | some earliest =>
      if timestamps.length ≥ limit then some ⟨retryAfterSeconds earliest now⟩ else none
  | none => none

/-- The subject whose first timestamp is the smallest (`min_by_key`). -/
def evictedSubject (bySubject : AList fun _ : String => List Nat) : Option String :=
  (bySubject.entries.argmin fun e => (e.2.head? : WithBot Nat)).map Sigma.fst

/-- Make room for the subject: when the map is full and the subject is not in it, another one
is removed. -/
def makeRoom (bySubject : AList fun _ : String => List Nat) (subject : String) :
    AList fun _ : String => List Nat :=
  if subject ∉ bySubject ∧ bySubject.keys.length ≥ quoteSubmissionMaxSubjects then
    match evictedSubject bySubject with
    | some evicted => bySubject.erase evicted
    | none => bySubject
  else bySubject

/-- `check_submission`, at the time `now`, with the windows after it. The limit of all subjects is
asked first, and a refusal there leaves no entry for the subject. The windows of the call are
cleaned of expired times in every case. -/
def checkSubmission (windows : SubmissionWindows) (subject : String) (now : Nat) :
    Except RateLimited Unit × SubmissionWindows :=
  let allSubjects := discardExpired windows.allSubjects now
  let bySubject := retain (fun timestamps => discardExpired timestamps now) windows.bySubject
  match limited quoteSubmissionsGlobalPerWindow allSubjects now with
  | some refusal => (.error refusal, ⟨allSubjects, bySubject⟩)
  | none =>
      let bySubject := makeRoom bySubject subject
      let timestamps := (bySubject.lookup subject).getD []
      match limited quoteSubmissionsPerWindow timestamps now with
      | some refusal => (.error refusal, ⟨allSubjects, bySubject.insert subject timestamps⟩)
      | none =>
          (.ok (), ⟨allSubjects ++ [now], bySubject.insert subject (timestamps ++ [now])⟩)

/-! ### One call -/

/-- A queue is within its limit just when it has fewer times than the limit. An empty queue is
never refused, so the limit must not be 0. -/
theorem limited_eq_none_iff {limit : Nat} (hlimit : 0 < limit) (timestamps : List Nat)
    (now : Nat) : limited limit timestamps now = none ↔ timestamps.length < limit := by
  cases timestamps with
  | nil => simpa [limited] using hlimit
  | cons earliest timestamps =>
    simp only [limited, List.head?_cons, ge_iff_le, ite_eq_right_iff, reduceCtorEq, imp_false]
    omega

/-- The submissions of the last ten minutes. -/
def recent (log : List (String × Nat)) (now : Nat) : List (String × Nat) :=
  log.filter fun e => now < e.2 + quoteSubmissionWindow ∧ e.2 ≤ now

/-- The answer to a call, from the log of the submissions that were admitted before. This is what
the limiter is for: the windows do not occur in it, and `check_submission_exact` says that the
windows answer the same. -/
def answerOf (log : List (String × Nat)) (subject : String) (now : Nat) : Except RateLimited Unit :=
  match limited quoteSubmissionsGlobalPerWindow (live quoteSubmissionWindow now (timesOf log)) now,
      limited quoteSubmissionsPerWindow
        (live quoteSubmissionWindow now (timesOfKey subject log)) now with
  | some refusal, _ => .error refusal
  | none, some refusal => .error refusal
  | none, none => .ok ()

/-- The log after a call. -/
def extend (log : List (String × Nat)) (subject : String) (now : Nat) : List (String × Nat) :=
  if answerOf log subject now = .ok () then log ++ [(subject, now)] else log

/-- The windows hold what is left of the log at the time `now`. -/
structure Exact (now : Nat) (log : List (String × Nat)) (windows : SubmissionWindows) : Prop where
  tracks : Tracks quoteSubmissionWindow now log windows.allSubjects windows.bySubject
  ordered : Ordered log
  past : ∀ t ∈ timesOf log, t ≤ now

section

variable {log : List (String × Nat)} {windows : SubmissionWindows} {now now' : Nat}

/-- Before the first call the windows are empty, at any time. -/
theorem Exact.empty : Exact now [] .empty where
  tracks := .empty
  ordered := .nil
  past _ h := nomatch h

/-- A submission at the current time keeps the log ordered. -/
theorem Exact.ordered_append (h : Exact now log windows) (hle : now ≤ now') (subject : String) :
    Ordered (log ++ [(subject, now')]) ∧
      ∀ t ∈ timesOf (log ++ [(subject, now')]), t ≤ now' := by
  have hpast : ∀ t ∈ timesOf log, t ≤ now' := fun t ht => Nat.le_trans (h.past t ht) hle
  unfold Ordered
  rw [Window.timesOf_append]
  constructor
  · refine List.pairwise_append.mpr ⟨h.ordered, List.pairwise_singleton _ _, ?_⟩
    simpa using hpast
  · simpa [or_imp, forall_and] using hpast

/-- Below the limit for all subjects there is room in the map. -/
theorem makeRoom_eq {bySubject : AList fun _ : String => List Nat}
    (h : bySubject.keys.length < quoteSubmissionsGlobalPerWindow) (subject : String) :
    makeRoom bySubject subject = bySubject := by
  have hroom : ¬ bySubject.keys.length ≥ quoteSubmissionMaxSubjects := by
    unfold quoteSubmissionsGlobalPerWindow at h
    unfold quoteSubmissionMaxSubjects
    omega
  rw [makeRoom, if_neg fun hfull => hroom hfull.2]

/-- One call: the answer is the one from the log, and the windows follow the log. -/
theorem Exact.check (h : Exact now log windows) (hle : now ≤ now') (subject : String) :
    (checkSubmission windows subject now').1 = answerOf log subject now' ∧
      Exact now' (extend log subject now') (checkSubmission windows subject now').2 := by
  have hwidth : 0 < quoteSubmissionWindow := by decide
  have hpast : ∀ t ∈ timesOf log, t ≤ now' := fun t ht => Nat.le_trans (h.past t ht) hle
  have hpruned : Tracks quoteSubmissionWindow now' log (discardExpired windows.allSubjects now')
      (retain (fun timestamps => discardExpired timestamps now') windows.bySubject) :=
    h.tracks.prune hwidth h.ordered hle
  have hall := hpruned.all
  cases hglobal : limited quoteSubmissionsGlobalPerWindow
      (discardExpired windows.allSubjects now') now' with
  | some refusal =>
    have hcheck : checkSubmission windows subject now' = (.error refusal,
        ⟨discardExpired windows.allSubjects now',
          retain (fun timestamps => discardExpired timestamps now') windows.bySubject⟩) := by
      simp only [checkSubmission, hglobal]
    have hanswer : answerOf log subject now' = .error refusal := by
      simp only [answerOf, ← hall, hglobal]
    rw [hcheck, extend, hanswer, if_neg (by simp)]
    exact ⟨rfl, hpruned, h.ordered, hpast⟩
  | none =>
    -- The map is not full, so no subject is evicted.
    have hlength := (limited_eq_none_iff (by decide) _ _).mp hglobal
    have hroom := makeRoom_eq (Nat.lt_of_le_of_lt hpruned.keys_le hlength) subject
    cases hsubject : limited quoteSubmissionsPerWindow
        (live quoteSubmissionWindow now' (timesOfKey subject log)) now' with
    | some refusal =>
      have hcheck : checkSubmission windows subject now' = (.error refusal,
          ⟨discardExpired windows.allSubjects now',
            (retain (fun timestamps => discardExpired timestamps now') windows.bySubject).insert
              subject (live quoteSubmissionWindow now' (timesOfKey subject log))⟩) := by
        simp only [checkSubmission, hglobal, hroom, hpruned.getD_lookup, hsubject]
      have hanswer : answerOf log subject now' = .error refusal := by
        simp only [answerOf, ← hall, hglobal, hsubject]
      have hne : live quoteSubmissionWindow now' (timesOfKey subject log) ≠ [] := by
        intro hnil
        rw [hnil] at hsubject
        cases hsubject
      rw [hcheck, extend, hanswer, if_neg (by simp)]
      exact ⟨rfl, hpruned.rewrite hne, h.ordered, hpast⟩
    | none =>
      have hcheck : checkSubmission windows subject now' = (.ok (),
          ⟨discardExpired windows.allSubjects now' ++ [now'],
            (retain (fun timestamps => discardExpired timestamps now') windows.bySubject).insert
              subject (live quoteSubmissionWindow now' (timesOfKey subject log) ++ [now'])⟩) := by
        simp only [checkSubmission, hglobal, hroom, hpruned.getD_lookup, hsubject]
      have hanswer : answerOf log subject now' = .ok () := by
        simp only [answerOf, ← hall, hglobal, hsubject]
      obtain ⟨hordered, hpast'⟩ := h.ordered_append hle subject
      rw [hcheck, extend, hanswer, if_pos rfl]
      exact ⟨rfl, hpruned.push hwidth subject, hordered, hpast'⟩

/-- The answer from a log that lies in the past: the limits count the last ten minutes. -/
theorem answerOf_ok_iff (hpast : ∀ t ∈ timesOf log, t ≤ now) (subject : String) :
    answerOf log subject now = .ok () ↔
      (recent log now).length < quoteSubmissionsGlobalPerWindow ∧
        ((recent log now).filter fun e => e.1 = subject).length < quoteSubmissionsPerWindow := by
  have hrecent : recent log now = log.filter fun e => now < e.2 + quoteSubmissionWindow := by
    refine List.filter_congr fun e he => ?_
    have := hpast e.2 (List.mem_map_of_mem he)
    simp [this]
  rw [hrecent, ← Window.length_live_timesOf, ← Window.length_live_timesOfKey,
    ← limited_eq_none_iff (by decide) _ now, ← limited_eq_none_iff (by decide) _ now]
  unfold answerOf
  split <;> simp [*]

end

/-! ### Runs -/

/-- The windows after a list of calls, each a subject with the time of its call. -/
def windowsAfter (windows : SubmissionWindows) (calls : List (String × Nat)) :
    SubmissionWindows :=
  calls.foldl (fun windows call => (checkSubmission windows call.1 call.2).2) windows

/-- The answers to a list of calls. -/
def decisions (windows : SubmissionWindows) :
    List (String × Nat) → List (Except RateLimited Unit)
  | [] => []
  | (subject, now) :: calls =>
      (checkSubmission windows subject now).1 ::
        decisions (checkSubmission windows subject now).2 calls

/-- The calls that are admitted. -/
def admittedCalls (windows : SubmissionWindows) :
    List (String × Nat) → List (String × Nat)
  | [] => []
  | (subject, now) :: calls =>
      let rest := admittedCalls (checkSubmission windows subject now).2 calls
      if (checkSubmission windows subject now).1 = .ok () then (subject, now) :: rest else rest

section

variable {windows windows' : SubmissionWindows} {calls before after : List (String × Nat)}
  {log : List (String × Nat)} {now now' : Nat}

/-- The windows after one call more are those that this call leaves. -/
theorem windowsAfter_append (windows : SubmissionWindows) (before : List (String × Nat))
    (subject : String) (now : Nat) :
    windowsAfter windows (before ++ [(subject, now)]) =
      (checkSubmission (windowsAfter windows before) subject now).2 :=
  List.foldl_append

/-- One call more is admitted or refused by the windows that the calls before it have left. -/
theorem admittedCalls_append (windows : SubmissionWindows) (before : List (String × Nat))
    (subject : String) (now : Nat) :
    admittedCalls windows (before ++ [(subject, now)]) =
      if (checkSubmission (windowsAfter windows before) subject now).1 = .ok () then
        admittedCalls windows before ++ [(subject, now)]
      else admittedCalls windows before := by
  induction before generalizing windows with
  | nil => rfl
  -- The first call changes the windows from which the rest of the calls start.
  | cons call before ih =>
    obtain ⟨subject', time⟩ := call
    have hstep : windowsAfter windows ((subject', time) :: before) =
        windowsAfter (checkSubmission windows subject' time).2 before := rfl
    rw [hstep, List.cons_append, admittedCalls, admittedCalls, ih]
    by_cases hfirst : (checkSubmission windows subject' time).1 = .ok () <;>
      by_cases hlast : (checkSubmission (windowsAfter (checkSubmission windows subject' time).2
        before) subject now).1 = .ok () <;>
      simp [hfirst, hlast]

/-- After an ordered run the windows hold what is left of the admitted calls. -/
theorem exact_windowsAfter (hcalls : Ordered calls) (hpast : ∀ t ∈ timesOf calls, t ≤ now) :
    ∃ last ≤ now, Exact last (admittedCalls .empty calls) (windowsAfter .empty calls) := by
  induction calls using List.reverseRecOn generalizing now with
  | nil => exact ⟨now, Nat.le_refl now, .empty⟩
  | append_singleton before call ih =>
    obtain ⟨subject, time⟩ := call
    rw [Ordered, Window.timesOf_append, List.pairwise_append] at hcalls
    rw [Window.timesOf_append, List.forall_mem_append] at hpast
    obtain ⟨hbefore, -, hle⟩ := hcalls
    obtain ⟨last, hlast, hexact⟩ := ih hbefore fun t ht => hle t ht time List.mem_cons_self
    obtain ⟨hanswer, hnext⟩ := hexact.check hlast subject
    refine ⟨time, hpast.2 time List.mem_cons_self, ?_⟩
    rw [windowsAfter_append, admittedCalls_append, hanswer]
    exact hnext

/-- Windows that hold the same log decide the same. -/
theorem decisions_congr (h : Exact now log windows) (h' : Exact now' log windows')
    (hcalls : Ordered calls) (hlater : ∀ t ∈ timesOf calls, now ≤ t ∧ now' ≤ t) :
    decisions windows calls = decisions windows' calls := by
  induction calls generalizing now now' log windows windows' with
  | nil => rfl
  | cons call calls ih =>
    obtain ⟨subject, time⟩ := call
    obtain ⟨hle, hle'⟩ := hlater time List.mem_cons_self
    obtain ⟨hanswer, hnext⟩ := h.check hle subject
    obtain ⟨hanswer', hnext'⟩ := h'.check hle' subject
    obtain ⟨htimes, hrest⟩ := List.pairwise_cons.mp hcalls
    rw [decisions, decisions, hanswer, hanswer',
      ih hnext hnext' hrest fun t ht => ⟨htimes t ht, htimes t ht⟩]

/-- The limiter is an exact sliding window. In every run whose clock does not go backwards, a
call is admitted exactly when fewer than 500 calls were admitted in the last ten minutes, and
fewer than 5 of them by the same subject. A call that is refused leaves every later decision as
it would be without the call. -/
theorem check_submission_exact {subject : String}
    (hcalls : Ordered (before ++ (subject, now) :: after)) :
    ((checkSubmission (windowsAfter .empty before) subject now).1 = .ok () ↔
      (recent (admittedCalls .empty before) now).length < 500 ∧
        ((recent (admittedCalls .empty before) now).filter
          fun e => e.1 = subject).length < 5) ∧
    ((checkSubmission (windowsAfter .empty before) subject now).1 ≠ .ok () →
      decisions (windowsAfter .empty (before ++ [(subject, now)])) after =
        decisions (windowsAfter .empty before) after) := by
  rw [Ordered, timesOf, List.map_append, List.map_cons, List.pairwise_append,
    List.pairwise_cons] at hcalls
  obtain ⟨hbefore, ⟨hlater, hafter⟩, hle⟩ := hcalls
  have hpast : ∀ t ∈ timesOf before, t ≤ now := fun t ht => hle t ht now List.mem_cons_self
  -- After the calls before, the windows are exact for their log at the time of the last of them.
  obtain ⟨last, hlast, hexact⟩ := exact_windowsAfter hbefore hpast
  obtain ⟨hanswer, hnext⟩ := hexact.check hlast subject
  constructor
  · rw [hanswer]
    exact answerOf_ok_iff (fun t ht => Nat.le_trans (hexact.past t ht) hlast) subject
  · intro hrefused
    rw [hanswer] at hrefused
    rw [extend, if_neg hrefused, ← windowsAfter_append] at hnext
    -- Both windows are exact for one log, since the refused call is not on it, so later calls
    -- cannot tell them apart.
    exact decisions_congr hnext hexact hafter fun t ht =>
      ⟨hlater t ht, Nat.le_trans hlast (hlater t ht)⟩

/-- Five calls of one subject are admitted at once. The sixth, one time unit later, is refused,
since all five lie in its window. -/
theorem check_submission_exact_test :
    (checkSubmission (windowsAfter .empty (List.replicate 5 ("a", 0))) "a" 1).1 ≠ .ok () := by
  have hcalls : Ordered (List.replicate 5 ("a", 0) ++ ("a", 1) :: []) := by
    unfold Ordered
    decide
  intro hadmitted
  have hcounts := (check_submission_exact hcalls).1.mp hadmitted
  exact absurd hcounts.2 (by decide)

end

end CanonicalApi
