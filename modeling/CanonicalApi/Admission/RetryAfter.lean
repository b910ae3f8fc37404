import CanonicalApi.Admission

/-!
# `CanonicalApi.Admission.RetryAfter`: the wait that a refusal asks for

A refusal names the whole seconds until the first timestamp of the queue that caused it expires,
rounded up past the next second. The queue is the one of all subjects or the one of the subject,
so `refusedBy` keeps the limit beside the refusal.

A queue never holds more timestamps than its limit (`Within`). So a queue that refuses has room
as soon as its first timestamp expires, provided that no call is admitted meanwhile, and has none
before. `limited_later` is this fact about one queue. `retry_after_tight` is the fact about runs.
-/

set_option autoImplicit false

namespace CanonicalApi

open Window (live timesOf timesOfKey retain Ordered)

/-- The two limits of `check_submission`. -/
inductive SubmissionLimit where
  | global
  | perSubject
deriving DecidableEq, Repr

/-- The limit that refuses a call, with its refusal, as `checkSubmission` finds it in the windows.
`none` means that the call is admitted. -/
def refusedBy (windows : SubmissionWindows) (subject : String) (now : Nat) :
    Option (SubmissionLimit × RateLimited) :=
  let allSubjects := discardExpired windows.allSubjects now
  let bySubject := retain (fun timestamps => discardExpired timestamps now) windows.bySubject
  match limited quoteSubmissionsGlobalPerWindow allSubjects now with
  | some refusal => some (.global, refusal)
  | none =>
      let timestamps := ((makeRoom bySubject subject).lookup subject).getD []
      (limited quoteSubmissionsPerWindow timestamps now).map fun refusal => (.perSubject, refusal)

/-- A call is refused when one of the limits refuses it, and with its refusal. -/
theorem checkSubmission_refusedBy (windows : SubmissionWindows) (subject : String) (now : Nat) :
    (checkSubmission windows subject now).1 =
      match refusedBy windows subject now with
      | some (_, refusal) => .error refusal
      | none => .ok () := by
  cases hglobal : limited quoteSubmissionsGlobalPerWindow
      (discardExpired windows.allSubjects now) now with
  | some refusal => simp only [checkSubmission, refusedBy, hglobal]
  | none =>
    cases hsubject : limited quoteSubmissionsPerWindow
        (((makeRoom (retain (fun timestamps => discardExpired timestamps now) windows.bySubject)
          subject).lookup subject).getD []) now <;>
      simp only [checkSubmission, refusedBy, hglobal, hsubject, Option.map_some, Option.map_none]

/-! ### One queue -/

section

variable {limit now later : Nat} {times : List Nat} {refusal : RateLimited}

/-- A queue that is not over its limit and refuses a call refuses the next ones until its first
timestamp expires, and then no more. The seconds of the refusal are those that are left, rounded
up past the next second. -/
theorem limited_later (hsorted : times.Pairwise (· ≤ ·)) (hpast : ∀ t ∈ times, t ≤ now)
    (hwithin : (live quoteSubmissionWindow now times).length ≤ limit) (hpos : 0 < limit)
    (hle : now ≤ later)
    (hrefused : limited limit (live quoteSubmissionWindow now times) now = some refusal) :
    1 ≤ refusal.retryAfterSeconds ∧ refusal.retryAfterSeconds ≤ 601 ∧
      (now + refusal.retryAfterSeconds * 1000000000 ≤ later →
        limited limit (live quoteSubmissionWindow later times) later = none) ∧
      (later < now + (refusal.retryAfterSeconds - 1) * 1000000000 →
        ∃ refusal', limited limit (live quoteSubmissionWindow later times) later =
          some refusal') := by
  have hlater : live quoteSubmissionWindow later times =
      live quoteSubmissionWindow later (live quoteSubmissionWindow now times) :=
    (Window.live_live hle times).symm
  have hqueue : (live quoteSubmissionWindow now times).Pairwise (· ≤ ·) :=
    Window.live_sorted hsorted
  have hmem : ∀ t ∈ live quoteSubmissionWindow now times, t ≤ now ∧
      now < t + quoteSubmissionWindow := by
    intro t ht
    obtain ⟨ht, hlive⟩ := Window.mem_live.mp ht
    exact ⟨hpast t ht, hlive⟩
  rw [hlater]
  generalize live quoteSubmissionWindow now times = queue at *
  cases queue with
  | nil => cases hrefused
  | cons earliest queue =>
    obtain ⟨hearliest, hlive⟩ := hmem earliest List.mem_cons_self
    obtain ⟨hfirst, -⟩ := List.pairwise_cons.mp hqueue
    simp only [limited, List.head?_cons, Option.ite_none_right_eq_some, Option.some.injEq]
      at hrefused
    obtain ⟨hfull, rfl⟩ := hrefused
    -- The time that is left lies between two whole seconds.
    have hseconds : retryAfterSeconds earliest now =
        (quoteSubmissionWindow - (now - earliest)) / 1000000000 + 1 := rfl
    have hwindow : quoteSubmissionWindow = 600000000000 := rfl
    rw [hwindow] at hseconds hlive
    show 1 ≤ retryAfterSeconds earliest now ∧ retryAfterSeconds earliest now ≤ 601 ∧ _
    refine ⟨by omega, by omega, fun hwait => ?_, fun hearly => ?_⟩
    · have hwait : now + retryAfterSeconds earliest now * 1000000000 ≤ later := hwait
      have hdead : ¬ later < earliest + quoteSubmissionWindow := by
        rw [hwindow]
        omega
      rw [limited_eq_none_iff hpos]
      have hdrop : live quoteSubmissionWindow later (earliest :: queue) =
          live quoteSubmissionWindow later queue := by
        rw [live, List.filter_cons, if_neg (by simpa using hdead)]
        rfl
      have hsub : (live quoteSubmissionWindow later queue).length ≤ queue.length :=
        List.length_filter_le ..
      rw [hdrop]
      rw [List.length_cons] at hwithin
      omega
    · have hearly : later < now + (retryAfterSeconds earliest now - 1) * 1000000000 := hearly
      have hstill : live quoteSubmissionWindow later (earliest :: queue) = earliest :: queue := by
        refine List.filter_eq_self.mpr fun t ht => decide_eq_true ?_
        have hfront : earliest ≤ t := by
          rcases List.mem_cons.mp ht with rfl | ht
          · exact Nat.le_refl _
          · exact hfirst t ht
        rw [hwindow]
        omega
      rw [hstill, limited, List.head?_cons]
      exact ⟨⟨retryAfterSeconds earliest later⟩, if_pos hfull⟩

end

/-! ### The log -/

/-- No ten minutes of the log hold more calls than the limits allow. -/
structure Within (log : List (String × Nat)) : Prop where
  all : ∀ now, (∀ t ∈ timesOf log, t ≤ now) →
    (live quoteSubmissionWindow now (timesOf log)).length ≤ quoteSubmissionsGlobalPerWindow
  bySubject : ∀ subject now, (∀ t ∈ timesOf log, t ≤ now) →
    (live quoteSubmissionWindow now (timesOfKey subject log)).length ≤ quoteSubmissionsPerWindow

/-- The limit that refuses a call, with its refusal, from the log of the admitted submissions. The
limit of all subjects comes first. -/
def refusalOf (log : List (String × Nat)) (subject : String) (now : Nat) :
    Option (SubmissionLimit × RateLimited) :=
  match limited quoteSubmissionsGlobalPerWindow
      (live quoteSubmissionWindow now (timesOf log)) now with
  | some refusal => some (.global, refusal)
  | none => (limited quoteSubmissionsPerWindow
      (live quoteSubmissionWindow now (timesOfKey subject log)) now).map
        fun refusal => (.perSubject, refusal)

section

variable {log : List (String × Nat)} {windows : SubmissionWindows} {now now' later : Nat}
  {subject : String} {limit : SubmissionLimit} {refusal : RateLimited}

/-- Windows that hold what is left of the log refuse a call just as the log itself does. The call
may come later than the time up to which the windows are exact. -/
theorem Exact.refusedBy_eq (h : Exact now log windows) (hle : now ≤ now') (subject : String) :
    refusedBy windows subject now' = refusalOf log subject now' := by
  have hwidth : 0 < quoteSubmissionWindow := by decide
  have hpruned := h.tracks.prune hwidth h.ordered hle
  have hall : discardExpired windows.allSubjects now' =
      live quoteSubmissionWindow now' (timesOf log) := hpruned.all
  cases hglobal : limited quoteSubmissionsGlobalPerWindow
      (live quoteSubmissionWindow now' (timesOf log)) now' with
  | some refusal => simp only [refusedBy, refusalOf, hall, hglobal]
  | none =>
    have hlength := (limited_eq_none_iff (by decide) _ _).mp hglobal
    rw [← hall] at hlength
    -- Fewer keys than the capacity are left, so that no key is evicted before the queue is read.
    have hroom : makeRoom (retain (fun timestamps => discardExpired timestamps now')
        windows.bySubject) subject =
          retain (fun timestamps => discardExpired timestamps now') windows.bySubject :=
      makeRoom_eq (Nat.lt_of_le_of_lt hpruned.keys_le hlength) subject
    have hqueue : ((retain (fun timestamps => discardExpired timestamps now')
        windows.bySubject).lookup subject).getD [] =
          live quoteSubmissionWindow now' (timesOfKey subject log) := hpruned.getD_lookup subject
    simp only [refusedBy, refusalOf, hall, hglobal, hroom, hqueue]

/-- The times of a subject are times of the log. -/
theorem mem_timesOf_of_mem_timesOfKey {t : Nat} (h : t ∈ timesOfKey subject log) :
    t ∈ timesOf log :=
  List.mem_map.mpr ⟨(subject, t), Window.mem_timesOfKey.mp h, rfl⟩

/-- What a refusal says about a later call, when the log has not changed. -/
theorem refusalOf_later (hordered : Ordered log) (hwithin : Within log)
    (hpast : ∀ t ∈ timesOf log, t ≤ now) (hle : now ≤ later)
    (hrefused : refusalOf log subject now = some (limit, refusal)) :
    1 ≤ refusal.retryAfterSeconds ∧ refusal.retryAfterSeconds ≤ 601 ∧
      (now + refusal.retryAfterSeconds * 1000000000 ≤ later →
        ∀ refusal', refusalOf log subject later ≠ some (limit, refusal')) ∧
      (later < now + (refusal.retryAfterSeconds - 1) * 1000000000 →
        ∃ refusal', refusalOf log subject later = some (limit, refusal')) := by
  cases hglobal : limited quoteSubmissionsGlobalPerWindow
      (live quoteSubmissionWindow now (timesOf log)) now with
  | some refusal' =>
    simp only [refusalOf, hglobal, Option.some.injEq, Prod.mk.injEq] at hrefused
    obtain ⟨rfl, rfl⟩ := hrefused
    obtain ⟨hpos, hmax, hfree, hfull⟩ := limited_later hordered hpast (hwithin.all now hpast)
      (by decide) hle hglobal
    refine ⟨hpos, hmax, fun hwait refusal' hlater => ?_, fun hearly => ?_⟩
    · -- The only limit left is the one of the subject.
      simp only [refusalOf, hfree hwait] at hlater
      cases hsubject : limited quoteSubmissionsPerWindow
          (live quoteSubmissionWindow later (timesOfKey subject log)) later <;>
        simp [hsubject] at hlater
    · obtain ⟨refusal', hlater⟩ := hfull hearly
      exact ⟨refusal', by simp only [refusalOf, hlater]⟩
  | none =>
    simp only [refusalOf, hglobal, Option.map_eq_some_iff, Prod.mk.injEq] at hrefused
    obtain ⟨refusal', hsubject, rfl, rfl⟩ := hrefused
    -- The queue of all subjects has room, and only loses timestamps.
    have hroom : limited quoteSubmissionsGlobalPerWindow
        (live quoteSubmissionWindow later (timesOf log)) later = none := by
      rw [limited_eq_none_iff (by decide)] at hglobal ⊢
      rw [← Window.live_live hle]
      exact Nat.lt_of_le_of_lt (List.length_filter_le ..) hglobal
    obtain ⟨hpos, hmax, hfree, hfull⟩ := limited_later (hordered.timesOfKey subject)
      (fun t ht => hpast t (mem_timesOf_of_mem_timesOfKey ht)) (hwithin.bySubject subject now hpast)
      (by decide) hle hsubject
    refine ⟨hpos, hmax, fun hwait refusal'' hlater => ?_, fun hearly => ?_⟩
    · simp [refusalOf, hroom, hfree hwait] at hlater
    · obtain ⟨refusal'', hlater⟩ := hfull hearly
      exact ⟨refusal'', by simp only [refusalOf, hroom, hlater, Option.map_some]⟩

/-- The empty log is within the limits. -/
theorem Within.nil : Within [] where
  all _ _ := Nat.zero_le _
  bySubject _ _ _ := Nat.zero_le _

/-- An admitted call finds both queues below their limits. -/
theorem Within.extend (h : Within log) : Within (extend log subject now) := by
  by_cases hanswer : answerOf log subject now = .ok ()
  · have hglobal : limited quoteSubmissionsGlobalPerWindow
        (live quoteSubmissionWindow now (timesOf log)) now = none := by
      unfold answerOf at hanswer
      split at hanswer <;> simp_all
    have hsubject : limited quoteSubmissionsPerWindow
        (live quoteSubmissionWindow now (timesOfKey subject log)) now = none := by
      unfold answerOf at hanswer
      split at hanswer <;> simp_all
    rw [limited_eq_none_iff (by decide)] at hglobal hsubject
    rw [CanonicalApi.extend, if_pos hanswer]
    -- Later the queues are shorter, but for the call itself.
    have hlater : ∀ (times : List Nat) (limit later : Nat), now ≤ later →
        (live quoteSubmissionWindow now times).length < limit →
        (live quoteSubmissionWindow later (times ++ [now])).length ≤ limit := by
      intro times limit later hle hlt
      have hold : (live quoteSubmissionWindow later times).length ≤
          (live quoteSubmissionWindow now times).length := by
        rw [← Window.live_live hle]
        exact List.length_filter_le ..
      have hnew : (live quoteSubmissionWindow later [now]).length ≤ 1 := List.length_filter_le ..
      rw [Window.live_append, List.length_append]
      omega
    constructor
    · intro later hall
      rw [Window.timesOf_append] at hall ⊢
      exact hlater _ _ later (hall now (by simp)) hglobal
    · intro subject' later hall
      rw [Window.timesOf_append] at hall
      by_cases hkey : subject = subject'
      · subst hkey
        rw [Window.timesOfKey_append_self]
        exact hlater _ _ later (hall now (by simp)) hsubject
      · rw [Window.timesOfKey_append_of_ne hkey]
        exact h.bySubject subject' later fun t ht => hall t (List.mem_append_left _ ht)
  · rw [CanonicalApi.extend, if_neg hanswer]
    exact h

end

/-! ### Runs -/

section

variable {windows : SubmissionWindows} {calls before between : List (String × Nat)}
  {log : List (String × Nat)} {now later : Nat} {subject : String}
  {limit : SubmissionLimit} {refusal : RateLimited}

/-- The admitted calls never exceed the limits, whatever calls are made. The induction adds one
call at the end; a refused one leaves the log as it is. -/
theorem within_admittedCalls (hcalls : Ordered calls) : Within (admittedCalls .empty calls) := by
  induction calls using List.reverseRecOn with
  | nil => exact .nil
  | append_singleton before call ih =>
    obtain ⟨subject, time⟩ := call
    rw [Ordered, Window.timesOf_append, List.pairwise_append] at hcalls
    obtain ⟨hbefore, -, hle⟩ := hcalls
    obtain ⟨last, hlast, hexact⟩ :=
      exact_windowsAfter hbefore fun t ht => hle t ht time List.mem_cons_self
    rw [admittedCalls_append, (hexact.check hlast subject).1]
    exact (ih hbefore).extend

/-- Calls that are refused leave the log as it is. -/
theorem Exact.refusals (h : Exact now log windows) (hcalls : Ordered calls)
    (hlater : ∀ t ∈ timesOf calls, now ≤ t ∧ t ≤ later) (hle : now ≤ later)
    (hrefused : ∀ d ∈ decisions windows calls, d ≠ .ok ()) :
    ∃ last ≤ later, Exact last log (windowsAfter windows calls) := by
  induction calls generalizing now windows with
  | nil => exact ⟨now, hle, h⟩
  | cons call calls ih =>
    obtain ⟨subject, time⟩ := call
    obtain ⟨hfrom, hto⟩ := hlater time List.mem_cons_self
    obtain ⟨hanswer, hnext⟩ := h.check hfrom subject
    obtain ⟨htimes, hrest⟩ := List.pairwise_cons.mp hcalls
    obtain ⟨hfirst, hothers⟩ := List.forall_mem_cons.mp hrefused
    rw [extend, if_neg (hanswer ▸ hfirst)] at hnext
    exact ih hnext hrest (fun t ht => ⟨htimes t ht, (hlater t (List.mem_cons_of_mem _ ht)).2⟩)
      hto hothers

/-- The `Retry-After` of a refusal is enough and is tight to one second. Take a run whose clock
does not go backwards, a call that a limit refuses with `r` seconds, and calls after it of which
none is admitted. Then `1 ≤ r ≤ 601`. A call of the subject at `now + r` seconds or later is not
refused by that limit, and a call before `now + (r - 1)` seconds is, again. -/
theorem retry_after_tight
    (hcalls : Ordered (before ++ (subject, now) :: between ++ [(subject, later)]))
    (hrefused : refusedBy (windowsAfter .empty before) subject now = some (limit, refusal))
    (hbetween : ∀ d ∈ decisions (windowsAfter .empty (before ++ [(subject, now)])) between,
      d ≠ .ok ()) :
    (checkSubmission (windowsAfter .empty before) subject now).1 = .error refusal ∧
    1 ≤ refusal.retryAfterSeconds ∧ refusal.retryAfterSeconds ≤ 601 ∧
    (now + refusal.retryAfterSeconds * 1000000000 ≤ later → ∀ refusal',
      refusedBy (windowsAfter .empty (before ++ (subject, now) :: between)) subject later ≠
        some (limit, refusal')) ∧
    (later < now + (refusal.retryAfterSeconds - 1) * 1000000000 → ∃ refusal',
      refusedBy (windowsAfter .empty (before ++ (subject, now) :: between)) subject later =
        some (limit, refusal') ∧
      (checkSubmission (windowsAfter .empty (before ++ (subject, now) :: between)) subject
        later).1 = .error refusal') := by
  have hsplit : windowsAfter .empty (before ++ (subject, now) :: between) =
      windowsAfter (windowsAfter .empty (before ++ [(subject, now)])) between := by
    simp [windowsAfter, List.foldl_append]
  have hanswer : (checkSubmission (windowsAfter .empty before) subject now).1 =
      .error refusal := by
    rw [checkSubmission_refusedBy, hrefused]
  -- The order of the readings, piece by piece.
  simp only [Ordered, timesOf, List.map_append, List.map_cons, List.append_assoc,
    List.cons_append, List.pairwise_append, List.pairwise_cons, List.mem_cons, List.mem_append,
    List.map_nil, List.not_mem_nil] at hcalls
  obtain ⟨hbefore, ⟨hafter, hrest, -, hlast⟩, hle⟩ := hcalls
  have hpast : ∀ t ∈ timesOf before, t ≤ now := fun t ht => hle t ht now (.inl rfl)
  have hnow : now ≤ later := hafter later (.inr (.inl rfl))
  obtain ⟨last, hlastle, hexact⟩ := exact_windowsAfter hbefore hpast
  obtain ⟨hcheck, hnext⟩ := hexact.check hlastle subject
  rw [extend, if_neg (by rw [← hcheck, hanswer]; simp), ← windowsAfter_append] at hnext
  obtain ⟨last', hlast', hexact'⟩ := hnext.refusals hrest
    (fun t ht => ⟨hafter t (.inl ht), hlast t ht later (.inl rfl)⟩) hnow hbetween
  -- Both calls are decided from the same log.
  rw [hexact.refusedBy_eq hlastle] at hrefused
  rw [hsplit, hexact'.refusedBy_eq hlast']
  obtain ⟨hpos, hmax, hfree, hfull⟩ := refusalOf_later hexact.ordered
    (within_admittedCalls hbefore) (fun t ht => Nat.le_trans (hexact.past t ht) hlastle) hnow
    hrefused
  refine ⟨hanswer, hpos, hmax, hfree, fun hearly => ?_⟩
  obtain ⟨refusal', hlater⟩ := hfull hearly
  refine ⟨refusal', hlater, ?_⟩
  rw [checkSubmission_refusedBy, hexact'.refusedBy_eq hlast', hlater]

/-- Five calls at once, one second later a refusal of 600 seconds, and the same again after
another second. -/
theorem retry_after_tight_test : ∃ refusal',
    refusedBy (windowsAfter .empty (List.replicate 5 ("a", 0) ++ ("a", 1000000000) :: [])) "a"
      2000000000 = some (.perSubject, refusal') := by
  have hcalls : Ordered (List.replicate 5 ("a", 0) ++ ("a", 1000000000) :: [] ++
      [("a", 2000000000)]) := by
    unfold Ordered
    decide
  have hrefused : refusedBy (windowsAfter .empty (List.replicate 5 ("a", 0))) "a" 1000000000 =
      some (.perSubject, ⟨600⟩) := by
    decide
  obtain ⟨-, -, -, -, hearly⟩ := retry_after_tight hcalls hrefused nofun
  obtain ⟨refusal', hlater, -⟩ := hearly (by decide)
  exact ⟨refusal', hlater⟩

end

end CanonicalApi
