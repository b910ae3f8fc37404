import CanonicalApi.Lib.Transition
import Mathlib.Data.List.Nodup
import Mathlib.Logic.Function.Basic

/-!
# `CanonicalApi.Lib.Tasks`: cooperative tasks on shared memory

A family `Tasks` of asynchronous tasks in one process. A task runs without interruption from
one await point to the next: `poll` gives the shared memory and the task at its next await
point, and perhaps a task that it starts. Between two polls of a task any other task may run.
A task can arrive from outside, and a `droppable` one can be dropped at an await point.

`Step` is the inversion of the step function, and `Step.origin` says where a task after a step
comes from.

`recorded` lists the polls that a function of the polled task singles out. An entry is `Ensured`
when it is on the list or some task will add it with its next poll; it stays so unless this task
is dropped (`Ensured.step`).

Where the entries are those of the polls that start a task (`Starts`), the record tells the
started tasks: there is one for each entry, and no other one (`exists_startedBy`).
-/

set_option autoImplicit false

open Transition (System)

/-- A family of tasks. `arrives` is what a new task does to the shared memory on its arrival,
`poll` runs a task to its next await point, and a `droppable` task may vanish there without another
poll. -/
structure Tasks where
  Shared : Type
  Task : Type
  Input : Type
  start : Shared
  arrives : Shared → Task → Option Shared
  poll : Shared → Task → Input → Option (Shared × Task × Option Task)
  droppable : Task → Bool

namespace Tasks

/-- The shared memory and the tasks. -/
structure State (T : Tasks) where
  shared : T.Shared
  tasks : Nat → Option T.Task

/-- The steps. The first argument is the task that moves. -/
inductive Action (T : Tasks) where
  | arrive (pid : Nat) (p : T.Task)
  | poll (pid : Nat) (input : T.Input) (child : Nat)
  | drop (pid : Nat)

/-- The task that the step may add. -/
def Action.starts {T : Tasks} : T.Action → Option Nat
  | arrive pid _ => some pid
  | poll _ _ child => some child
  | drop _ => none

variable (T : Tasks)

/-- The tasks after one of them starts the task `q?`, if any. -/
def spawn (tasks : Nat → Option T.Task) (child : Nat) : Option T.Task → Nat → Option T.Task
  | none => tasks
  | some q => Function.update tasks child (some q)

/-- The step function. A poll may start a task, which gets the number `child`; that number must be
free even if the poll starts none. -/
def next (s : T.State) : T.Action → Option T.State
  | .arrive pid p =>
      match T.arrives s.shared p, s.tasks pid with
      | some shared, none => some ⟨shared, Function.update s.tasks pid (some p)⟩
      | _, _ => none
  | .poll pid input child =>
      match s.tasks pid, s.tasks child with
      | some p, none =>
          match T.poll s.shared p input with
          | some (shared, p', q?) =>
              some ⟨shared, T.spawn (Function.update s.tasks pid (some p')) child q?⟩
          | none => none
      | _, _ => none
  | .drop pid =>
      match s.tasks pid with
      | some p =>
          if T.droppable p = true then some ⟨s.shared, Function.update s.tasks pid none⟩
          else none
      | none => none

/-- No task. -/
def initial : T.State where
  shared := T.start
  tasks _ := none

/-- The transition system of the tasks. -/
def system : System T.State T.Action := System.ofFun T.initial T.next

variable {T}

/-- What a step does, with one constructor for each action. It is the inversion of the step function
and says everything that a step can do. -/
inductive Step (s : T.State) : T.Action → T.State → Prop where
  | arrive {pid : Nat} {p : T.Task} {shared : T.Shared} :
      T.arrives s.shared p = some shared → s.tasks pid = none →
      Step s (.arrive pid p) ⟨shared, Function.update s.tasks pid (some p)⟩
  | poll {pid child : Nat} {input : T.Input} {p p' : T.Task} {q? : Option T.Task}
      {shared : T.Shared} :
      s.tasks pid = some p → s.tasks child = none →
      T.poll s.shared p input = some (shared, p', q?) →
      Step s (.poll pid input child)
        ⟨shared, T.spawn (Function.update s.tasks pid (some p')) child q?⟩
  | drop {pid : Nat} {p : T.Task} :
      s.tasks pid = some p → T.droppable p = true →
      Step s (.drop pid) ⟨s.shared, Function.update s.tasks pid none⟩

/-- The step function makes these steps. -/
theorem step_of_next {s s' : T.State} {a : T.Action} (h : T.next s a = some s') :
    Step s a s' := by
  cases a with
  | arrive pid p =>
    simp only [next] at h
    split at h
    · next shared harrives hnone =>
      cases h
      exact .arrive harrives hnone
    · cases h
  | poll pid input child =>
    simp only [next] at h
    split at h
    · next p hp hchild =>
      split at h
      · next shared p' q? hpoll =>
        cases h
        exact .poll hp hchild hpoll
      · cases h
    · cases h
  | drop pid =>
    simp only [next] at h
    split at h
    · next p hp =>
      split at h
      · next hdrop =>
        cases h
        exact .drop hp hdrop
      · cases h
    · cases h

/-- Each of these steps is one of the step function. -/
theorem Step.next {s s' : T.State} {a : T.Action} (h : Step s a s') : T.next s a = some s' := by
  cases h with
  | arrive harrives hnone => simp only [Tasks.next, harrives, hnone]
  | poll hp hchild hpoll => simp only [Tasks.next, hp, hchild, hpoll]
  | drop hp hdrop => simp only [Tasks.next, hp, hdrop, if_true]

/-- Where a task after a step comes from: it was there before, it arrived, it was polled, or
another task started it. -/
inductive Origin (s : T.State) (a : T.Action) (s' : T.State) (pid : Nat) (p' : T.Task) :
    Prop where
  | same : s.tasks pid = some p' → (∀ input child, a ≠ .poll pid input child) →
      a ≠ .drop pid → Origin s a s' pid p'
  | arrived : a = .arrive pid p' → s.tasks pid = none →
      T.arrives s.shared p' = some s'.shared → Origin s a s' pid p'
  | polled {p : T.Task} {input : T.Input} {child : Nat} {q? : Option T.Task} :
      a = .poll pid input child → s.tasks pid = some p →
      T.poll s.shared p input = some (s'.shared, p', q?) → Origin s a s' pid p'
  | started {parent : Nat} {p q : T.Task} {input : T.Input} :
      a = .poll parent input pid → s.tasks parent = some p → s.tasks pid = none →
      T.poll s.shared p input = some (s'.shared, q, some p') → Origin s a s' pid p'

/-- A task after an update of the task `pid'` is the new one or was there before. -/
theorem update_cases {tasks : Nat → Option T.Task} {pid pid' : Nat} {x : Option T.Task}
    {p : T.Task} (h : Function.update tasks pid' x pid = some p) :
    pid = pid' ∧ x = some p ∨ pid ≠ pid' ∧ tasks pid = some p := by
  by_cases hne : pid = pid'
  · subst hne
    rw [Function.update_self] at h
    exact .inl ⟨rfl, h⟩
  · rw [Function.update_of_ne hne] at h
    exact .inr ⟨hne, h⟩

/-- Every task after a step has one of these origins. -/
theorem Step.origin {s s' : T.State} {a : T.Action} (h : Step s a s') {pid : Nat}
    {p' : T.Task} (hp' : s'.tasks pid = some p') : Origin s a s' pid p' := by
  cases h with
  | @arrive pid' q shared harrives hnone =>
    rcases update_cases hp' with ⟨rfl, hq⟩ | ⟨-, hsame⟩
    · cases hq
      exact .arrived rfl hnone harrives
    · exact .same hsame (fun _ _ => nofun) nofun
  | @poll pid' child input p q q? shared hp hchild hpoll =>
    -- Without regard to the child: the task is the polled one, or it has not moved.
    have hmoved : Function.update s.tasks pid' (some q) pid = some p' →
        Origin s (.poll pid' input child)
          ⟨shared, T.spawn (Function.update s.tasks pid' (some q)) child q?⟩ pid p' := by
      intro hq
      rcases update_cases hq with ⟨rfl, hnew⟩ | ⟨hne, hsame⟩
      · cases hnew
        exact .polled rfl hp hpoll
      · refine .same hsame (fun input child heq => hne ?_) nofun
        cases heq
        rfl
    cases q? with
    | none => exact hmoved hp'
    | some r =>
      have hspawn : Function.update (Function.update s.tasks pid' (some q)) child (some r) pid =
          some p' := hp'
      rcases update_cases hspawn with ⟨rfl, hr⟩ | ⟨-, hq⟩
      · cases hr
        exact .started rfl hp hchild hpoll
      · exact hmoved hq
  | @drop pid' q hq hdrop =>
    rcases update_cases hp' with ⟨-, hnone⟩ | ⟨hne, hsame⟩
    · cases hnone
    · refine .same hsame (fun _ _ => nofun) fun heq => hne ?_
      cases heq
      rfl

/-- A task that a step does not poll or drop stays. -/
theorem Step.kept {s s' : T.State} {a : T.Action} (h : Step s a s') {pid : Nat} {p : T.Task}
    (hp : s.tasks pid = some p) (hpoll : ∀ input child, a ≠ .poll pid input child)
    (hdrop : a ≠ .drop pid) : s'.tasks pid = some p := by
  -- The updates are of other tasks.
  have hframe : ∀ {tasks : Nat → Option T.Task} {pid' : Nat} {x : Option T.Task}, pid ≠ pid' →
      tasks pid = some p → Function.update tasks pid' x pid = some p := by
    intro tasks pid' x hne htasks
    rw [Function.update_of_ne hne, htasks]
  cases h with
  | @arrive pid' q shared harrives hnone =>
    apply hframe _ hp
    rintro rfl
    rw [hp] at hnone
    cases hnone
  | @poll pid' child input q q' q? shared hq hchild hpoll' =>
    have hne : pid ≠ pid' := by
      rintro rfl
      exact hpoll input child rfl
    have hne' : pid ≠ child := by
      rintro rfl
      rw [hp] at hchild
      cases hchild
    cases q? with
    | none => exact hframe hne hp
    | some r => exact hframe hne' (hframe hne hp)
  | @drop pid' q hq hdrop' =>
    apply hframe _ hp
    rintro rfl
    exact hdrop rfl

/-- After its poll, a task is where the poll has left it. -/
theorem polled_of_next {s s' : T.State} {pid child : Nat} {input : T.Input} {p : T.Task}
    (h : T.next s (.poll pid input child) = some s') (hp : s.tasks pid = some p) :
    ∃ p' q?, T.poll s.shared p input = some (s'.shared, p', q?) ∧ s'.tasks pid = some p' := by
  cases step_of_next h with
  | @poll _ _ _ p₀ p' q? shared hp₀ hchild hpoll =>
    obtain rfl := Option.some.inj (hp₀.symm.trans hp)
    refine ⟨p', q?, hpoll, ?_⟩
    cases q? with
    | none => exact Function.update_self ..
    | some q =>
      -- The child takes a free number, so that it is not the task itself.
      have hne : pid ≠ child := by
        intro heq
        rw [heq, hchild] at hp
        cases hp
      show Function.update (Function.update s.tasks pid (some p')) child (some q) pid = _
      rw [Function.update_of_ne hne, Function.update_self]

/-- A step adds no task but the one it starts. -/
theorem Step.absent {s s' : T.State} {a : T.Action} (h : Step s a s') {pid : Nat}
    (hnone : s.tasks pid = none) (hstarts : a.starts ≠ some pid) : s'.tasks pid = none := by
  cases hp' : s'.tasks pid with
  | none => rfl
  | some p' =>
    cases h.origin hp' with
    | same hp _ _ => cases hnone.symm.trans hp
    | arrived ha _ _ =>
      subst ha
      exact absurd rfl hstarts
    | polled _ hp _ => cases hnone.symm.trans hp
    | started ha _ _ _ =>
      subst ha
      exact absurd rfl hstarts

/-! ### A record of polls -/

section

variable {β : Type} (f : T.Task → Option β)

/-- The record after a step: the poll of the task `p` adds the entry `f p`, if any. -/
def note (log : List β) (s : T.State) : T.Action → List β
  | .poll pid _ _ => log ++ ((s.tasks pid).bind f).toList
  | _ => log

/-- The tasks with the record of their polls. -/
def recorded : System (T.State × List β) T.Action :=
  T.system.recording [] fun log s a _ => note f log s a

/-- The step function with the record. -/
def nextRecorded : T.State × List β → T.Action → Option (T.State × List β) :=
  System.record T.next fun log s a _ => note f log s a

/-- Its runs are runs of the tasks with the record. -/
theorem recorded_of_next {G : T.State × List β → T.Action → Prop} {q : T.State × List β}
    (h : (System.ofFun (T.initial, []) (nextRecorded f)).ReachableWith G q) :
    (recorded f).ReachableWith G q :=
  .of_record h

variable {f} in
/-- The record does not influence the tasks. -/
theorem reachableWith_of_recorded {G : T.State → T.Action → Prop} {q : T.State × List β}
    (h : (recorded f).ReachableWith (fun q a => G q.1 a) q) : T.system.ReachableWith G q.1 :=
  System.reachableWith_of_recording h

/-- The next poll of the task adds the entry. -/
def Due (s : T.State) (pid : Nat) (x : β) : Prop :=
  (s.tasks pid).bind f = some x

/-- The entry is on the record, or the next poll of some task adds it. -/
def Ensured (s : T.State) (log : List β) (x : β) : Prop :=
  x ∈ log ∨ ∃ pid, Due f s pid x

variable {f}

/-- An entry is due when the function of the record gives it for the task. -/
theorem due_iff {s : T.State} {pid : Nat} {x : β} :
    Due f s pid x ↔ ∃ p, s.tasks pid = some p ∧ f p = some x :=
  Option.bind_eq_some_iff

/-- An entry after a step was there before, or the step is the poll that adds it. -/
theorem mem_note {log : List β} {s : T.State} {a : T.Action} {x : β} :
    x ∈ note f log s a ↔
      x ∈ log ∨ ∃ pid input child, a = .poll pid input child ∧ Due f s pid x := by
  cases a with
  | arrive pid p =>
    refine ⟨.inl, ?_⟩
    rintro (hmem | ⟨_, _, _, ⟨⟩, -⟩)
    exact hmem
  | drop pid =>
    refine ⟨.inl, ?_⟩
    rintro (hmem | ⟨_, _, _, ⟨⟩, -⟩)
    exact hmem
  | poll pid input child =>
    rw [note, List.mem_append, Option.mem_toList]
    constructor
    · rintro (hmem | hdue)
      · exact .inl hmem
      · exact .inr ⟨pid, input, child, rfl, hdue⟩
    · rintro (hmem | ⟨_, _, _, ⟨⟩, hdue⟩)
      · exact .inl hmem
      · exact .inr hdue

/-- A step adds at most one entry. -/
theorem note_cases (log : List β) (s : T.State) (a : T.Action) :
    note f log s a = log ∨ ∃ pid input child x, a = .poll pid input child ∧ Due f s pid x ∧
      note f log s a = log ++ [x] := by
  cases a with
  | arrive pid p => exact .inl rfl
  | drop pid => exact .inl rfl
  | poll pid input child =>
    rw [note]
    cases hdue : (s.tasks pid).bind f with
    | none => exact .inl (List.append_nil log)
    | some x => exact .inr ⟨pid, input, child, x, rfl, hdue, rfl⟩

/-- A step keeps an entry ensured, when the drop of the task that adds it leaves the entry
ensured otherwise. -/
theorem Ensured.step {s s' : T.State} {a : T.Action} {log : List β} {x : β}
    (h : Ensured f s log x) (hstep : Step s a s')
    (hdrop : ∀ pid, a = .drop pid → Due f s pid x →
      x ∈ log ∨ ∃ pid', pid' ≠ pid ∧ Due f s pid' x) :
    Ensured f s' (note f log s a) x := by
  -- A task that is neither polled nor dropped still adds the entry.
  have hkept : ∀ pid, Due f s pid x → (∀ input child, a ≠ .poll pid input child) →
      a ≠ .drop pid → Ensured f s' (note f log s a) x := by
    intro pid hdue hpoll hdropped
    obtain ⟨p, hp, hx⟩ := due_iff.mp hdue
    exact .inr ⟨pid, due_iff.mpr ⟨p, hstep.kept hp hpoll hdropped, hx⟩⟩
  rcases h with hmem | ⟨pid, hdue⟩
  · exact .inl (mem_note.mpr (.inl hmem))
  by_cases hpoll : ∃ input child, a = .poll pid input child
  · obtain ⟨input, child, rfl⟩ := hpoll
    exact .inl (mem_note.mpr (.inr ⟨pid, input, child, rfl, hdue⟩))
  · by_cases hdropped : a = .drop pid
    · rcases hdrop pid hdropped hdue with hmem | ⟨pid', hne, hdue'⟩
      · exact .inl (mem_note.mpr (.inl hmem))
      · subst hdropped
        refine hkept pid' hdue' (fun _ _ heq => by cases heq) fun heq => hne ?_
        cases heq
        rfl
    · exact hkept pid hdue (fun input child heq => hpoll ⟨input, child, heq⟩) hdropped

end

/-! ### Tasks that a task starts -/

section

variable {β γ : Type} {f : T.Task → Option β} {about : T.Task → Option γ}
  {names : β → Option γ}

/-- A record of the entries that meet `P` grows by what meets `P` of the entry of the step. -/
theorem note_filter (P : β → Bool) (log : List β) (s : T.State) (a : T.Action) :
    note (fun p => (f p).filter P) log s a = log ++ (note f [] s a).filter P := by
  cases a with
  | arrive pid p => exact (List.append_nil log).symm
  | drop pid => exact (List.append_nil log).symm
  | poll pid input child =>
    rw [note, note, List.nil_append, ← Option.toList_filter]
    cases s.tasks pid with
    | none => rfl
    | some p => rfl

variable (f about names) in
/-- A poll starts a task just when `f` has an entry for it. The new task is `about` what the
entry `names`, and it stays so to the end of the run. Other tasks are about nothing. -/
structure Starts : Prop where
  arrive : ∀ {shared shared' : T.Shared} {p : T.Task},
    T.arrives shared p = some shared' → about p = none
  drop : ∀ {p : T.Task}, T.droppable p = true → about p = none
  keep : ∀ {shared shared' : T.Shared} {p p' : T.Task} {input : T.Input} {q? : Option T.Task},
    T.poll shared p input = some (shared', p', q?) → about p' = about p
  start : ∀ {s : T.State} {pid : Nat} {p p' : T.Task} {input : T.Input} {shared : T.Shared}
    {q? : Option T.Task}, T.system.Reachable s → s.tasks pid = some p →
    T.poll s.shared p input = some (shared, p', q?) →
    (f p = none ∧ q? = none) ∨
      ∃ x q c, f p = some x ∧ q? = some q ∧ names x = some c ∧ about q = some c

variable (about names) in
/-- The started tasks, each with the entry of the poll that has started it. -/
structure StartedBy (s : T.State) (starts : List (Nat × β)) : Prop where
  distinct : (starts.map Prod.fst).Nodup
  live : ∀ start ∈ starts, ∃ c, (s.tasks start.1).bind about = some c ∧ names start.2 = some c
  covers : ∀ pid c, (s.tasks pid).bind about = some c → pid ∈ starts.map Prod.fst

/-- A started task stays about the same. -/
theorem Starts.about_step (h : Starts f about names) {s s' : T.State} {a : T.Action}
    (hstep : Step s a s') {pid : Nat} {c : γ} (hpid : (s.tasks pid).bind about = some c) :
    (s'.tasks pid).bind about = some c := by
  obtain ⟨p, hp, hc⟩ := Option.bind_eq_some_iff.mp hpid
  refine Option.bind_eq_some_iff.mpr ?_
  by_cases hpoll : ∃ input child, a = .poll pid input child
  · obtain ⟨input, child, rfl⟩ := hpoll
    obtain ⟨p', q?, hpoll, hp'⟩ := polled_of_next hstep.next hp
    exact ⟨p', hp', (h.keep hpoll).trans hc⟩
  · refine ⟨p, hstep.kept hp (fun input child ha => hpoll ⟨input, child, ha⟩) ?_, hc⟩
    rintro rfl
    cases hstep with
    | drop hq hdrop =>
      cases hp.symm.trans hq
      cases hc.symm.trans (h.drop hdrop)

/-- A task that is about something was so before the step, or it is started by the step. -/
theorem Starts.about_origin (h : Starts f about names) {s s' : T.State} {a : T.Action}
    (hstep : Step s a s') {pid : Nat} {c : γ} (hpid : (s'.tasks pid).bind about = some c) :
    (s.tasks pid).bind about = some c ∨ ∃ parent input p p' q shared, a = .poll parent input pid ∧
      s.tasks parent = some p ∧ T.poll s.shared p input = some (shared, p', some q) := by
  obtain ⟨p', hp', hc⟩ := Option.bind_eq_some_iff.mp hpid
  cases hstep.origin hp' with
  | same hp _ _ => exact .inl (Option.bind_eq_some_iff.mpr ⟨p', hp, hc⟩)
  | arrived _ _ harrives => cases hc.symm.trans (h.arrive harrives)
  | polled _ hp hpoll =>
    exact .inl (Option.bind_eq_some_iff.mpr ⟨_, hp, (h.keep hpoll).symm.trans hc⟩)
  | started ha hp _ hpoll => exact .inr ⟨_, _, _, _, _, _, ha, hp, hpoll⟩

/-- A step adds the task that it starts to the list. -/
theorem StartedBy.step (h : Starts f about names) {s s' : T.State} {a : T.Action}
    {starts : List (Nat × β)} (hs : T.system.Reachable s)
    (hstarts : StartedBy about names s starts) (hstep : Step s a s') :
    ∃ new, StartedBy about names s' (starts ++ new) ∧ new.map Prod.snd = note f [] s a := by
  have hkept : ∀ start ∈ starts,
      ∃ c, (s'.tasks start.1).bind about = some c ∧ names start.2 = some c := by
    intro start hmem
    obtain ⟨c, habout, hnames⟩ := hstarts.live start hmem
    exact ⟨c, h.about_step hstep habout, hnames⟩
  -- A step that starts no task leaves the list as it is.
  have hsame : (∀ parent input child p p' q shared, a = .poll parent input child →
      s.tasks parent = some p → T.poll s.shared p input ≠ some (shared, p', some q)) →
      StartedBy about names s' (starts ++ []) := by
    intro hnone
    rw [List.append_nil]
    refine ⟨hstarts.distinct, hkept, fun pid c hpid => ?_⟩
    rcases h.about_origin hstep hpid with hold | ⟨_, _, _, _, _, _, ha, hp, hpoll⟩
    · exact hstarts.covers pid c hold
    · exact absurd hpoll (hnone _ _ _ _ _ _ _ ha hp)
  have hnext := hstep.next
  cases hstep with
  | arrive harrives hnone =>
    refine ⟨[], hsame ?_, rfl⟩
    rintro _ _ _ _ _ _ _ ⟨⟩
  | drop hp hdrop =>
    refine ⟨[], hsame ?_, rfl⟩
    rintro _ _ _ _ _ _ _ ⟨⟩
  | @poll pid child input p p' q? shared hp hchild hpoll =>
    have hnote : note f [] s (.poll pid input child) = (f p).toList := by
      rw [note, List.nil_append, hp, Option.bind_some]
    rcases h.start hs hp hpoll with ⟨hf, rfl⟩ | ⟨x, q, c, hf, rfl, hnames, habout⟩
    · refine ⟨[], hsame ?_, by rw [hnote, hf]; rfl⟩
      rintro _ _ _ _ _ _ _ ⟨⟩ hp₁ hpoll₁
      cases hp.symm.trans hp₁
      cases hpoll.symm.trans hpoll₁
    · refine ⟨[(child, x)], ⟨?_, ?_, ?_⟩, by rw [hnote, hf]; rfl⟩
      · -- The new task gets an id that is free.
        have hfree : child ∉ starts.map Prod.fst := by
          intro hmem
          obtain ⟨start, hstart, rfl⟩ := List.mem_map.mp hmem
          obtain ⟨c', habout', -⟩ := hstarts.live start hstart
          rw [hchild] at habout'
          cases habout'
        rw [List.map_append, List.map_singleton, ← List.concat_eq_append]
        exact List.Nodup.concat hfree hstarts.distinct
      · intro start hmem
        rcases List.mem_append.mp hmem with hold | hnew
        · exact hkept start hold
        · obtain rfl := List.mem_singleton.mp hnew
          have hq : T.spawn (Function.update s.tasks pid (some p')) child (some q) child =
              some q := Function.update_self ..
          exact ⟨c, Option.bind_eq_some_iff.mpr ⟨q, hq, habout⟩, hnames⟩
      · intro pid' c' hpid'
        rw [List.map_append, List.mem_append, List.map_singleton, List.mem_singleton]
        rcases h.about_origin (step_of_next hnext) hpid' with hold | ⟨_, _, _, _, _, _, ha, -, -⟩
        · exact .inl (hstarts.covers pid' c' hold)
        · cases ha
          exact .inr rfl

/-- In every run, the started tasks are those that the record of the polls gives. -/
theorem exists_startedBy (h : Starts f about names) (P : β → Bool) {q : T.State × List β}
    (hq : (recorded fun p => (f p).filter P).Reachable q) :
    ∃ starts, StartedBy about names q.1 starts ∧ (starts.map Prod.snd).filter P = q.2 := by
  refine System.ReachableWith.induct (I := fun q =>
    ∃ starts, StartedBy about names q.1 starts ∧ (starts.map Prod.snd).filter P = q.2) ?_ ?_ hq
  · rintro ⟨s, log⟩ ⟨rfl, rfl⟩
    exact ⟨[], ⟨List.nodup_nil, by rintro _ ⟨⟩, by rintro _ _ ⟨⟩⟩, rfl⟩
  · rintro ⟨s, log⟩ a ⟨s', log'⟩ hq ⟨starts, hstarts, hlog⟩ - ⟨hstep, hnote⟩
    obtain ⟨new, hstarts', hnew⟩ :=
      hstarts.step h (System.reachable_of_recording hq) (step_of_next hstep)
    refine ⟨starts ++ new, hstarts', ?_⟩
    have hnote : log' = note (fun p => (f p).filter P) log s a := hnote
    rw [hnote, note_filter, List.map_append, List.filter_append, hlog, hnew]

end

end Tasks
