import CanonicalApi.Lib.Semaphore
import CanonicalApi.Replica

/-!
# `CanonicalApi.Memory.Permits`: the admission of handlers and workers

The handlers of a replica without a database with `QuoteAdmission` in front of them. A create or
retry of a quote takes one of four analysis permits, and every submission passes the limiter.
Both come before the first await point, so they are one poll. The handler owns the permit until
it ends or is dropped, or hands it over to the worker that it starts. The worker owns it until
it ends.

`memoryView` forgets the permits and the limiter. `memoryView_reachable` says that what is left
is a run of `memoryTasks`: admission only removes runs. `analysis_capacity` counts the permits.
-/

set_option autoImplicit false

namespace CanonicalApi

open Transition (System)

/-- `QUOTE_ANALYSIS_MAX_CONCURRENCY`. -/
def quoteAnalysisMaxConcurrency : Nat := 4

section

variable [CanonicalLib]

/-- `AppState` with `QuoteAdmission`. -/
structure AdmittedState where
  app : AppState
  analyses : Nat
  submissions : SubmissionWindows

/-- A handler up to its admission, or a task that runs. `permit` tells whether the task owns an
analysis permit. -/
inductive AdmittedTask where
  | submitted (submission : Submission)
  | refused (error : ApiError)
  | running (task : MemoryTask) (permit : Bool)
  | dropped

/-- What comes from outside in a poll: the monotonic clock at the admission, the input of a
running task, or the drop of the handler. -/
inductive AdmittedInput where
  | enter (now : Nat)
  | resume (input : MemoryInput)
  | cancel

/-- The task has come to its end. -/
def MemoryTask.ended : MemoryTask → Bool
  | handler _ (.answered _) | worker .done _ | assessed _ => true
  | _ => false

/-- The task belongs to an analysis: it is a handler of a quote or a worker. -/
def MemoryTask.analyzes : MemoryTask → Bool
  | handler _ _ | worker _ _ => true
  | _ => false

/-- The handler of a submission once it is admitted. -/
def Submission.admitted : Submission → MemoryTask
  | quote request => .handler request .lookup
  | assessment request => .assessing request

/-- `reserve_analysis`. -/
def AdmittedState.reserveAnalysis (state : AdmittedState) : Option AdmittedState :=
  if state.analyses = 0 then none else some { state with analyses := state.analyses - 1 }

/-- The permit goes back when its owner is gone. -/
def AdmittedState.release (state : AdmittedState) (permit : Bool) : AdmittedState :=
  if permit then { state with analyses := state.analyses + 1 } else state

/-- `check_submission`. A refused handler gives its permit back, and one that is let through becomes
a task of the store with it. -/
def AdmittedState.enter (state : AdmittedState) (submission : Submission) (permit : Bool)
    (now : Nat) : Option (AdmittedState × AdmittedTask) :=
  match checkSubmission state.submissions submission.subject now with
  | (.error limited, submissions) =>
      some ({ state with submissions }.release permit,
        .refused (.rateLimited limited.retryAfterSeconds))
  | (.ok (), submissions) =>
      (memoryTasks.arrives state.app submission.admitted).map fun app =>
        ({ state with app, submissions }, .running submission.admitted permit)

/-- A task from one await point to the next. Only quotes need a permit. It goes with the handler
until that starts its worker, then with the worker, and back when its holder ends or is dropped. -/
def AdmittedTask.poll (state : AdmittedState) (task : AdmittedTask) (input : AdmittedInput) :
    Option (AdmittedState × AdmittedTask × Option AdmittedTask) :=
  match task, input with
  | submitted (.quote request), .enter now =>
      match state.reserveAnalysis with
      | none => some (state, refused analysisCapacityReached, none)
      | some state =>
          (state.enter (.quote request) true now).map fun (state, task) => (state, task, none)
  | submitted (.assessment request), .enter now =>
      (state.enter (.assessment request) false now).map fun (state, task) => (state, task, none)
  | running task permit, .resume input =>
      match task.poll state.app input with
      | none => none
      | some (app, task, some worker) =>
          -- The permit moves into the future of the worker.
          some ({ state with app }, running task false, some (running worker permit))
      | some (app, task, none) =>
          some ({ state with app }.release (permit && task.ended),
            running task (permit && !task.ended), none)
  | running task permit, .cancel =>
      if memoryTasks.droppable task then some (state.release permit, dropped, none) else none
  | submitted _, .cancel => some (state, dropped, none)
  | _, _ => none

/-- The tasks of a replica without a database behind their admission, with the windows and the
permits that they share. Cancellation is an input, because it gives a permit back. -/
@[reducible] def admittedTasks : Tasks where
  Shared := AdmittedState
  Task := AdmittedTask
  Input := AdmittedInput
  start := ⟨AppState.empty, quoteAnalysisMaxConcurrency, .empty⟩
  arrives state
    | .submitted _ => some state
    | _ => none
  poll := AdmittedTask.poll
  droppable _ := false

/-! ### One poll -/

/-- A poll of a task: what it does to the state, its next await point, and the task that it
starts. -/
inductive AdmittedPolled (state : AdmittedState) :
    AdmittedTask → AdmittedState → AdmittedTask → Option AdmittedTask → Prop where
  | full {request : MutationRequest} : state.analyses = 0 →
      AdmittedPolled state (.submitted (.quote request)) state (.refused analysisCapacityReached)
        none
  | limits {submission : Submission} {submissions : SubmissionWindows} {retryAfter : Nat} :
      AdmittedPolled state (.submitted submission) { state with submissions }
        (.refused (.rateLimited retryAfter)) none
  | admits {submission : Submission} {submissions : SubmissionWindows} {app : AppState} :
      (submission.admitted.analyzes = true → state.analyses ≠ 0) →
      memoryTasks.arrives state.app submission.admitted = some app →
      AdmittedPolled state (.submitted submission)
        ⟨app, state.analyses - submission.admitted.analyzes.toNat, submissions⟩
        (.running submission.admitted submission.admitted.analyzes) none
  | starts {task task' worker : MemoryTask} {permit : Bool} {input : MemoryInput}
      {app : AppState} :
      task.poll state.app input = some (app, task', some worker) →
      AdmittedPolled state (.running task permit) { state with app } (.running task' false)
        (some (.running worker permit))
  | continues {task task' : MemoryTask} {permit : Bool} {input : MemoryInput} {app : AppState} :
      task.poll state.app input = some (app, task', none) →
      AdmittedPolled state (.running task permit)
        (AdmittedState.release { state with app } (permit && task'.ended))
        (.running task' (permit && !task'.ended)) none
  | drops {task : MemoryTask} {permit : Bool} : memoryTasks.droppable task = true →
      AdmittedPolled state (.running task permit) (state.release permit) .dropped none
  | withdraws {submission : Submission} :
      AdmittedPolled state (.submitted submission) state .dropped none

/-- The admission of a submission that has its permit. -/
theorem polled_admit {state reserved : AdmittedState} {submission : Submission} {now : Nat}
    {result : AdmittedState × AdmittedTask}
    (hreserved : reserved =
      { state with analyses := state.analyses - submission.admitted.analyzes.toNat })
    (hpermit : submission.admitted.analyzes = true → state.analyses ≠ 0)
    (h : reserved.enter submission submission.admitted.analyzes now = some result) :
    AdmittedPolled state (.submitted submission) result.1 result.2 none := by
  subst hreserved
  unfold AdmittedState.enter at h
  split at h
  · next limited submissions hcheck =>
    cases h
    -- The permit that was taken goes back.
    have hback : AdmittedState.release
        { state with
          analyses := state.analyses - submission.admitted.analyzes.toNat
          submissions } submission.admitted.analyzes = { state with submissions } := by
      unfold AdmittedState.release
      split
      · next hanalyzes =>
        have hne := hpermit hanalyzes
        simp only [hanalyzes, Bool.toNat_true, AdmittedState.mk.injEq, true_and, and_true]
        omega
      · next hanalyzes =>
        simp only [Bool.not_eq_true] at hanalyzes
        simp only [hanalyzes, Bool.toNat_false, Nat.sub_zero]
    rw [hback]
    exact .limits
  · next submissions hcheck =>
    obtain ⟨app, harrives, rfl⟩ := Option.map_eq_some_iff.mp h
    exact .admits hpermit harrives

/-- Every poll is one of these. -/
theorem admittedPolled_of_poll {state state' : AdmittedState} {task task' : AdmittedTask}
    {input : AdmittedInput} {child? : Option AdmittedTask}
    (h : task.poll state input = some (state', task', child?)) :
    AdmittedPolled state task state' task' child? := by
  cases task with
  | submitted submission =>
    cases input with
    | enter now =>
      cases submission with
      -- A quote needs a permit, and is refused when none is left.
      | quote request =>
        simp only [AdmittedTask.poll, AdmittedState.reserveAnalysis] at h
        split at h
        · next hnone =>
          cases h
          exact .full (by simpa using hnone)
        · next reserved hsome =>
          obtain ⟨hne, hreserved⟩ := Option.ite_none_left_eq_some.mp hsome
          obtain ⟨result, henter, heq⟩ := Option.map_eq_some_iff.mp h
          cases heq
          exact polled_admit (Option.some.inj hreserved).symm (fun _ => hne) henter
      -- An assessment is admitted without one.
      | assessment request =>
        obtain ⟨result, henter, heq⟩ := Option.map_eq_some_iff.mp h
        cases heq
        exact polled_admit rfl (fun hanalyzes => by cases hanalyzes) henter
    | cancel =>
      cases submission <;> cases h <;> exact .withdraws
    | resume input => cases submission <;> cases h
  | running task permit =>
    cases input with
    | resume input =>
      simp only [AdmittedTask.poll] at h
      split at h
      · cases h
      · next app task' worker hpoll =>
        cases h
        exact .starts hpoll
      · next app task' hpoll =>
        cases h
        exact .continues hpoll
    | cancel =>
      obtain ⟨hdrop, heq⟩ := Option.ite_none_right_eq_some.mp h
      cases heq
      exact .drops hdrop
    | enter now => cases h
  | refused error => cases input <;> cases h
  | dropped => cases input <;> cases h

/-! ### Admission only removes runs -/

/-- The task without its permit. -/
def AdmittedTask.memory? : AdmittedTask → Option MemoryTask
  | running task _ => some task
  | _ => none

/-- The tasks that were admitted, without their permits and the limiter. -/
def memoryView (s : admittedTasks.State) : memoryTasks.State where
  shared := s.shared.app
  tasks pid := (s.tasks pid).bind AdmittedTask.memory?

/-- Giving a permit back does not touch the state of the app. -/
@[simp] theorem app_release (state : AdmittedState) (permit : Bool) :
    (state.release permit).app = state.app := by
  unfold AdmittedState.release
  split <;> rfl

/-- A permit that is given back is free again. -/
theorem analyses_release (state : AdmittedState) (permit : Bool) :
    (state.release permit).analyses = state.analyses + permit.toNat := by
  cases permit <;> rfl

/-- The view of an update is the update of the view. -/
theorem memoryView_update (tasks : Nat → Option AdmittedTask) (pid : Nat)
    (x : Option AdmittedTask) :
    (fun i => (Function.update tasks pid x i).bind AdmittedTask.memory?) =
      Function.update (fun i => (tasks i).bind AdmittedTask.memory?) pid
        (x.bind AdmittedTask.memory?) := by
  funext i
  by_cases hi : i = pid
  · subst hi
    simp only [Function.update_self]
  · simp only [Function.update_of_ne hi]

/-- An update that the view does not see. -/
theorem memoryView_update_none (tasks : Nat → Option AdmittedTask) (pid : Nat)
    (x : Option AdmittedTask) (hbefore : (tasks pid).bind AdmittedTask.memory? = none)
    (hafter : x.bind AdmittedTask.memory? = none) :
    (fun i => (Function.update tasks pid x i).bind AdmittedTask.memory?) =
      fun i => (tasks i).bind AdmittedTask.memory? := by
  rw [memoryView_update, hafter, ← hbefore]
  exact Function.update_eq_self pid _

/-- A step is a step of the tasks in the view, or the view does not see it. -/
theorem memoryView_step {s s' : admittedTasks.State} {a : admittedTasks.Action}
    (h : Tasks.Step s a s') :
    memoryView s' = memoryView s ∨
      ∃ b, memoryTasks.next (memoryView s) b = some (memoryView s') := by
  cases h with
  | @arrive pid p shared harrives hnone =>
    left
    cases p with
    | submitted submission =>
      cases harrives
      -- A submission is not yet a task of the view.
      have htasks := memoryView_update_none s.tasks pid (some (.submitted submission))
        (by rw [hnone]; rfl) rfl
      simp only [memoryView, htasks]
    | refused error => cases harrives
    | running task permit => cases harrives
    | dropped => cases harrives
  | @poll pid child input p p' q? shared hp hchild hpoll =>
    have hchild' : (memoryView s).tasks child = none := by
      simp only [memoryView, hchild, Option.bind_none]
    cases admittedPolled_of_poll hpoll with
    | full hfull =>
      left
      have htasks := memoryView_update_none s.tasks pid (some (.refused analysisCapacityReached))
        (by rw [hp]; rfl) rfl
      simp only [memoryView, Tasks.spawn, htasks]
    | @limits submission submissions retryAfter =>
      left
      have htasks := memoryView_update_none s.tasks pid (some (.refused (.rateLimited retryAfter)))
        (by rw [hp]; rfl) rfl
      simp only [memoryView, Tasks.spawn, htasks]
    | @admits submission submissions app hpermit harrives =>
      right
      have hpid : (memoryView s).tasks pid = none := by
        simp only [memoryView, hp]
        rfl
      have harrives' : memoryTasks.arrives (memoryView s).shared submission.admitted = some app :=
        harrives
      -- In the view, the request arrives when it is admitted.
      refine ⟨.arrive pid submission.admitted, ?_⟩
      rw [(Tasks.Step.arrive harrives' hpid).next]
      simp only [memoryView, Tasks.spawn, memoryView_update]
      rfl
    | @starts task task' worker permit input' app hpoll' =>
      right
      have hpid : (memoryView s).tasks pid = some task := by
        simp only [memoryView, hp]
        rfl
      have hpoll'' : memoryTasks.poll (memoryView s).shared task input' =
          some (app, task', some worker) := hpoll'
      -- The polls are those of the task; the permits are not seen in the view.
      refine ⟨.poll pid input' child, ?_⟩
      rw [(Tasks.Step.poll hpid hchild' hpoll'').next]
      simp only [memoryView, Tasks.spawn, memoryView_update]
      rfl
    | @continues task task' permit input' app hpoll' =>
      right
      have hpid : (memoryView s).tasks pid = some task := by
        simp only [memoryView, hp]
        rfl
      have hpoll'' : memoryTasks.poll (memoryView s).shared task input' =
          some (app, task', none) := hpoll'
      refine ⟨.poll pid input' child, ?_⟩
      rw [(Tasks.Step.poll hpid hchild' hpoll'').next]
      simp only [memoryView, Tasks.spawn, memoryView_update, app_release]
      rfl
    | @drops task permit hdrop =>
      right
      have hpid : (memoryView s).tasks pid = some task := by
        simp only [memoryView, hp]
        rfl
      refine ⟨.drop pid, ?_⟩
      rw [(Tasks.Step.drop hpid hdrop).next]
      simp only [memoryView, Tasks.spawn, memoryView_update, app_release]
      rfl
    | @withdraws submission =>
      left
      have htasks := memoryView_update_none s.tasks pid (some .dropped)
        (by rw [hp]; rfl) rfl
      simp only [memoryView, Tasks.spawn, htasks]
  | drop hp hdrop => cases hdrop

/-- What is left of a run without permits and limiter is a run. -/
theorem memoryView_reachable {s : admittedTasks.State} (h : admittedTasks.system.Reachable s) :
    memoryTasks.system.Reachable (memoryView s) := by
  refine System.ReachableWith.induct
    (I := fun s => memoryTasks.system.Reachable (memoryView s)) ?_ ?_ h
  · intro s hs
    obtain rfl := hs
    exact .init rfl
  · intro s a s' _ hs _ hnext
    rcases memoryView_step (Tasks.step_of_next hnext) with hsame | ⟨b, hb⟩
    · rwa [hsame]
    · exact .step hs trivial hb

/-! ### The permits -/

/-- The analysis permits. -/
def analysisPermits : Semaphore admittedTasks where
  capacity := quoteAnalysisMaxConcurrency
  available := AdmittedState.analyses
  owned
    | .running _ permit => permit.toNat
    | _ => 0

/-- Permits are moved, never made or lost. -/
theorem analysisPermits_sound : analysisPermits.Sound where
  start := rfl
  arrives {shared shared' p} h := by
    cases p with
    | submitted submission =>
      cases h
      rfl
    | refused error => cases h
    | running task permit => cases h
    | dropped => cases h
  poll {shared shared' p p' q? input} h := by
    cases admittedPolled_of_poll h with
    | full _ => rfl
    | limits => rfl
    | @admits submission submissions app hpermit harrives =>
      show shared.analyses - _ + (Bool.toNat _ + 0) = shared.analyses + 0
      cases hanalyzes : submission.admitted.analyzes with
      | false => simp
      | true =>
        -- A permit is taken only when one is free, so the subtraction is exact.
        have hne := hpermit hanalyzes
        simp only [Bool.toNat_true]
        omega
    | @starts task task' worker permit input' app hpoll =>
      show shared.analyses + (Bool.toNat false + permit.toNat) = shared.analyses + permit.toNat
      simp
    | @continues task task' permit input' app hpoll =>
      show (AdmittedState.release _ _).analyses + (Bool.toNat _ + 0) =
        shared.analyses + permit.toNat
      -- The permit that ends with its task is free again.
      rw [analyses_release]
      cases permit <;> cases task'.ended <;> rfl
    | @drops task permit hdrop =>
      show (AdmittedState.release _ _).analyses + (0 + 0) = shared.analyses + permit.toNat
      rw [analyses_release]
      rfl
    | withdraws => rfl
  drop h := by cases h

/-- The task is a handler of a quote or a worker that has not come to its end. -/
def MemoryTask.inAnalysis (task : MemoryTask) : Bool :=
  task.analyzes && !task.ended

/-- A poll moves a task that has not ended, and the task stays what it is. A task that starts a
worker ends with that. -/
theorem inAnalysis_of_polled {state state' : AppState} {task task' : MemoryTask}
    {child? : Option MemoryTask} (h : Polled state task state' task' child?) :
    task.ended = false ∧ task'.analyzes = task.analyzes ∧
      (child? = none ∨ ∃ worker, child? = some worker ∧
        task.analyzes = true ∧ task'.ended = true ∧ worker.inAnalysis = true) := by
  cases h with
  | @refuses request stage error hreads _ =>
    refine ⟨?_, rfl, .inl rfl⟩
    cases stage with
    | answered result => cases hreads
    | _ => rfl
  | replays _ _ => exact ⟨rfl, rfl, .inl rfl⟩
  | creates _ _ _ _ => exact ⟨rfl, rfl, .inl rfl⟩
  | checks _ => exact ⟨rfl, rfl, .inl rfl⟩
  | rereads _ => exact ⟨rfl, rfl, .inl rfl⟩
  | requeues _ _ _ _ _ _ => exact ⟨rfl, rfl, .inl rfl⟩
  | claims => exact ⟨rfl, rfl, .inl rfl⟩
  | answers _ => exact ⟨rfl, rfl, .inl rfl⟩
  -- The permit goes from the handler to the worker that it starts.
  | accepts _ => exact ⟨rfl, rfl, .inr ⟨_, rfl, rfl, rfl, rfl⟩⟩
  | @halts stage job hstage =>
    refine ⟨?_, rfl, .inl rfl⟩
    rcases hstage with ⟨configured, rfl⟩ | rfl <;> rfl
  | starts _ => exact ⟨rfl, rfl, .inl rfl⟩
  | marks _ => exact ⟨rfl, rfl, .inl rfl⟩
  | abandons _ => exact ⟨rfl, rfl, .inl rfl⟩
  | fails _ => exact ⟨rfl, rfl, .inl rfl⟩
  | concludes _ => exact ⟨rfl, rfl, .inl rfl⟩
  | records _ => exact ⟨rfl, rfl, .inl rfl⟩
  | assesses _ => exact ⟨rfl, rfl, .inl rfl⟩

/-- A task that is admitted has not ended. -/
theorem ended_admitted (submission : Submission) : submission.admitted.ended = false := by
  cases submission <;> rfl

/-- The tasks in an analysis own a permit, and no others. -/
def PermitsMatch (s : admittedTasks.State) : Prop :=
  ∀ pid task permit, s.tasks pid = some (.running task permit) → permit = task.inAnalysis

/-- A step keeps this: a permit moves from the handler to its worker in the poll that starts it. -/
theorem PermitsMatch.step {s s' : admittedTasks.State} {a : admittedTasks.Action}
    (h : PermitsMatch s) (hstep : Tasks.Step s a s') : PermitsMatch s' := by
  intro pid task permit htask
  cases hstep.origin htask with
  | same hsame _ _ => exact h pid task permit hsame
  | arrived _ _ harrives => cases harrives
  | @polled p input child q? ha hp hpoll =>
    have hpolled := admittedPolled_of_poll hpoll
    generalize s'.shared = shared at hpolled
    cases hpolled with
    | @admits submission submissions app hpermit harrives =>
      simp only [MemoryTask.inAnalysis, ended_admitted, Bool.not_false, Bool.and_true]
    -- The permit moves from the handler to its worker.
    | @starts task₀ _ worker permit₀ input' app hpoll' =>
      obtain ⟨-, -, hnone | ⟨_, -, -, hended, -⟩⟩ := inAnalysis_of_polled (polled_of_poll hpoll')
      · cases hnone
      simp only [MemoryTask.inAnalysis, hended, Bool.not_true, Bool.and_false]
    -- The permit stays with the task until that ends.
    | @continues task₀ _ permit₀ input' app hpoll' =>
      obtain ⟨hended, hanalyzes, -⟩ := inAnalysis_of_polled (polled_of_poll hpoll')
      rw [h pid task₀ permit₀ hp, MemoryTask.inAnalysis, MemoryTask.inAnalysis, hended, hanalyzes]
      simp
  | @started parent p q input ha hp hnone hpoll =>
    have hpolled := admittedPolled_of_poll hpoll
    generalize s'.shared = shared at hpolled
    cases hpolled with
    | @starts task₀ task' _ permit₀ input' app hpoll' =>
      obtain ⟨hended, -, hnone | ⟨_, ⟨⟩, hanalyzes, -, hin⟩⟩ :=
        inAnalysis_of_polled (polled_of_poll hpoll')
      · cases hnone
      rw [h parent task₀ permit hp, hin, MemoryTask.inAnalysis, hanalyzes, hended]
      rfl

/-- So it holds in every run. -/
theorem permitsMatch_of_reachable {s : admittedTasks.State}
    (h : admittedTasks.system.Reachable s) : PermitsMatch s := by
  refine System.ReachableWith.induct ?_ ?_ h
  · intro s hs
    obtain rfl := hs
    intro pid task permit htask
    cases htask
  · intro s a s' _ hs _ hnext
    exact hs.step (Tasks.step_of_next hnext)

/-- The capacity of analyses, in every run with any number of requests, however their handlers and
the workers are interleaved and wherever handlers are dropped. The permits that are not left are
those of the handlers of quotes that were admitted and have neither answered nor been dropped, and
of the workers that have not ended. So there are never more than four of them, a permit is back
when its handler or worker is gone, and a handler is refused for capacity exactly when there are
four. -/
theorem analysis_capacity {s : admittedTasks.State} (h : admittedTasks.system.Reachable s) :
    ∃ owners : Finset Nat,
      (∀ pid, pid ∈ owners ↔
        ∃ task permit, s.tasks pid = some (.running task permit) ∧ task.inAnalysis = true) ∧
      s.shared.analyses + owners.card = quoteAnalysisMaxConcurrency ∧
      ∀ pid request now child s', s.tasks pid = some (.submitted (.quote request)) →
        admittedTasks.next s (.poll pid (.enter now) child) = some s' →
          (s'.tasks pid = some (.refused analysisCapacityReached) ↔
            owners.card = quoteAnalysisMaxConcurrency) := by
  have hconserved := Semaphore.conserved_of_reachable analysisPermits_sound h
  have hmatch := permitsMatch_of_reachable h
  obtain ⟨owners, howners, hcard⟩ := hconserved.exists_owners (by
    intro task
    cases task with
    | running task permit => exact Bool.toNat_le permit
    | submitted submission => exact Nat.zero_le 1
    | refused error => exact Nat.zero_le 1
    | dropped => exact Nat.zero_le 1)
  have hcard : s.shared.analyses + owners.card = quoteAnalysisMaxConcurrency := hcard
  refine ⟨owners, ?_, hcard, ?_⟩
  · intro pid
    rw [howners]
    constructor
    · rintro ⟨p, hp, hone⟩
      cases p with
      | running task permit =>
        refine ⟨task, permit, hp, ?_⟩
        have hpermit : permit.toNat = 1 := hone
        rw [← hmatch pid task permit hp]
        exact Bool.toNat_eq_one.mp hpermit
      | submitted submission => cases hone
      | refused error => cases hone
      | dropped => cases hone
    · rintro ⟨task, permit, hp, hin⟩
      refine ⟨_, hp, ?_⟩
      show permit.toNat = 1
      rw [hmatch pid task permit hp, hin]
      rfl
  · intro pid request now child s' hpid hnext
    have hfull : s'.tasks pid = some (.refused analysisCapacityReached) ↔
        s.shared.analyses = 0 := by
      obtain ⟨task', child?, hpoll, htask⟩ := Tasks.polled_of_next hnext hpid
      have hpoll : AdmittedTask.poll s.shared (.submitted (.quote request)) (.enter now) =
          some (s'.shared, task', child?) := hpoll
      rw [htask]
      by_cases hzero : s.shared.analyses = 0
      · simp only [AdmittedTask.poll, AdmittedState.reserveAnalysis, if_pos hzero] at hpoll
        simp only [Option.some.injEq, Prod.mk.injEq] at hpoll
        simp only [← hpoll.2.1, hzero]
      · -- The limiter has another error, and a handler that is admitted runs.
        simp only [AdmittedTask.poll, AdmittedState.reserveAnalysis, if_neg hzero] at hpoll
        obtain ⟨result, henter, heq⟩ := Option.map_eq_some_iff.mp hpoll
        simp only [Prod.mk.injEq] at heq
        rw [← heq.2.1]
        refine iff_of_false ?_ hzero
        unfold AdmittedState.enter at henter
        split at henter
        · cases henter
          intro heq
          cases heq
        · obtain ⟨app, -, rfl⟩ := Option.map_eq_some_iff.mp henter
          intro heq
          cases heq
    rw [hfull]
    omega

end

/-! ### A full replica -/

section

attribute [local instance] fixtureLib

/-- The handlers 0 to 3 create quotes under one key, and none has looked it up yet. -/
def testFull : List admittedTasks.Action :=
  (List.range 4).flatMap fun pid =>
    [.arrive pid (.submitted (.quote (memoryCreate ⟨pid⟩))), .poll pid (.enter 0) 9]

/-- A run with four handlers in flight and a fifth request, which is refused. No permit is left, and
the four are the ones that own them. -/
theorem analysis_capacity_test : ∃ s : admittedTasks.State,
    admittedTasks.system.Reachable s ∧ s.shared.analyses = 0 ∧
    ∃ owners : Finset Nat, owners.card = quoteAnalysisMaxConcurrency ∧
      ∀ pid, pid ∈ owners ↔
        ∃ task permit, s.tasks pid = some (.running task permit) ∧ task.inAnalysis = true := by
  have hrun : (System.run admittedTasks.next admittedTasks.initial testFull).map
      (fun s => s.shared.analyses == 0) = some true := by decide
  obtain ⟨s, hs, hfull⟩ := System.exists_reachable_of_run testFull _ hrun
  have hfull : s.shared.analyses = 0 := by simpa using hfull
  obtain ⟨owners, howners, hcard, -⟩ := analysis_capacity hs
  refine ⟨s, hs, hfull, owners, ?_, howners⟩
  omega

end

end CanonicalApi
