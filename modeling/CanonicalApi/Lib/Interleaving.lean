import CanonicalApi.Lib.Transaction
import CanonicalApi.Lib.Transition

/-!
# `CanonicalApi.Lib.Interleaving`: services on a READ COMMITTED store

A `Service` is a family of processes that run transactions against one store. A process in
a local state with a `body` is about to run that transaction, and `resume` gives its next
local state from the result. In the other local states it moves by itself (`advance`), and
may start one child process. Processes arrive from outside and can be killed.

`interleaved` executes one statement at a time. A statement sees the committed store and
the writes of its own transaction. It waits while another transaction holds the lock it
takes. Locks are kept until the transaction ends. A statement, or the commit, can fail at
any time (`fail`); the transaction then leaves no effect and the process sees the error
`fault`. In a `lossy` service a commit can also take effect and still be reported as failed
(`lose`).

`atomic` executes each transaction in one step, by its meaning `Engine.Runs`.
`interleaved_refines_atomic` is the main result: when every transaction body follows the
lock discipline `Engine.Locked`, the interleaved system refines the atomic one. Each
transaction then takes effect as if it had run alone at the moment it ended. The proof
carries `Flight.Sound` for each running transaction, the fact that its execution so far is
an execution against every store that agrees with the committed one on the cells its locks
guard.
-/

set_option autoImplicit false

namespace Transaction

open Transition (System)

namespace Engine

variable {Stmt : Type} {Reply : Stmt → Type} {ε α : Type} (E : Engine Stmt Reply)

/-- The committed store after a transaction on `db` ended with `res` and saw `db'` then. -/
def settle (db db' : E.Db) : Except ε α → E.Db
  | .ok _ => db'
  | .error _ => db

/-- The holders of the locks after the transaction of `pid` ended. -/
def release (owner : E.Lock → Option Nat) (pid : Nat) (l : E.Lock) : Option Nat :=
  if owner l = some pid then none else owner l

/-- The holders of the locks after `pid` took `l?`, if any. -/
def acquire (owner : E.Lock → Option Nat) (pid : Nat) (l? : Option E.Lock) (l : E.Lock) :
    Option Nat :=
  if l? = some l then some pid else owner l

/-- `pid` can take the lock `l?`: nobody else holds it. -/
def available (owner : E.Lock → Option Nat) (pid : Nat) : Option E.Lock → Bool
  | none => true
  | some l => owner l = none ∨ owner l = some pid

end Engine

/-- A family of processes that run transactions with results in `α` and errors in `ε`. A process
that `arrives` comes from outside, and a `final` one has nothing left to do. `body` is the
transaction that a process is about to run and `resume` its state afterwards; `advance` is a move
without one, with the process that it starts. `fault` is the error of a failed statement or
commit. -/
structure Service {Stmt : Type} {Reply : Stmt → Type} (E : Engine Stmt Reply)
    (ε α : Type) where
  Proc : Type
  Event : Type
  arrives : Proc → Bool
  final : Proc → Bool
  body : Proc → Option (Program Reply ε α)
  resume : Proc → Except ε α → Proc
  advance : Proc → Event → Option (Proc × Option Proc)
  fault : ε
  lossy : Bool
  start : E.Db

namespace Service

variable {Stmt : Type} {Reply : Stmt → Type} {E : Engine Stmt Reply} {ε α : Type}

/-- The committed store and the local states of the processes. -/
structure Core (S : Service E ε α) where
  db : E.Db
  procs : Nat → Option S.Proc

/-- A running transaction: the rest of its program and its writes so far. -/
structure Flight (E : Engine Stmt Reply) (ε α : Type) where
  prog : Program Reply ε α
  writes : E.Writes

/-- The state of the interleaved system: the running transactions and the holders of the
locks, next to the committed store and the processes. -/
structure State (S : Service E ε α) extends Core S where
  flights : Nat → Option (Flight E ε α)
  owner : E.Lock → Option Nat

/-- The steps. The first argument is the process that moves. `begin`, `stmt` and `finish` run a
transaction; `fail` and `lose` end it with an error, the latter after its commit took effect. -/
inductive Action (S : Service E ε α) where
  | arrive (pid : Nat) (p : S.Proc)
  | begin (pid : Nat)
  | stmt (pid : Nat) (i : E.Input)
  | finish (pid : Nat)
  | lose (pid : Nat)
  | fail (pid : Nat)
  | advance (pid : Nat) (e : S.Event) (child : Nat)
  | kill (pid : Nat)

/-- The process that moves. -/
def Action.pid {S : Service E ε α} : S.Action → Nat
  | arrive pid _ | begin pid | stmt pid _ | finish pid | lose pid | fail pid
  | advance pid _ _ | kill pid => pid

/-- The process that the step may add. -/
def Action.starts {S : Service E ε α} : S.Action → Option Nat
  | arrive pid _ => some pid
  | advance _ _ child => some child
  | _ => none

variable (S : Service E ε α)

/-- The process `pid` in the local state `p`, and every other process as in `procs`. -/
def put (procs : Nat → Option S.Proc) (pid : Nat) (p : S.Proc) : Nat → Option S.Proc :=
  Function.update procs pid (some p)

/-- The processes after one of them starts the child `q?`, if any. -/
def spawn (procs : Nat → Option S.Proc) (child : Nat) : Option S.Proc → Nat → Option S.Proc
  | none => procs
  | some q => S.put procs child q

/-- The end of the transaction of `pid`: the process is in the local state `p`, its locks
are free, and the store is `db`. -/
def conclude (s : S.State) (pid : Nat) (p : S.Proc) (db : E.Db) : S.State where
  db := db
  procs := S.put s.procs pid p
  flights := Function.update s.flights pid none
  owner := E.release s.owner pid

/-- The step function of the interleaved system. A statement runs on the committed store with the
writes of its own transaction over it, and waits for the lock it takes. -/
def next (s : S.State) : S.Action → Option S.State
  | .arrive pid p =>
      if S.arrives p = true ∧ (s.procs pid).isNone then
        some { s with procs := S.put s.procs pid p }
      else none
  | .begin pid =>
      match (s.procs pid).bind S.body, s.flights pid with
      | some prog, none =>
          some { s with flights := Function.update s.flights pid (some ⟨prog, E.noWrites⟩) }
      | _, _ => none
  | .stmt pid i =>
      match s.flights pid with
      | some ⟨.exec st k, w⟩ =>
          match E.run st i (E.overlay w s.db) with
          | some (r, w₁) =>
              if E.available s.owner pid (E.lock st r) = true then
                some { s with
                  flights := Function.update s.flights pid (some ⟨k r, E.merge w w₁⟩)
                  owner := E.acquire s.owner pid (E.lock st r) }
              else none
          | none => none
      | _ => none
  | .finish pid =>
      match s.procs pid, s.flights pid with
      | some p, some ⟨.commit a, w⟩ =>
          some (S.conclude s pid (S.resume p (.ok a)) (E.overlay w s.db))
      | some p, some ⟨.rollback e, _⟩ => some (S.conclude s pid (S.resume p (.error e)) s.db)
      | _, _ => none
  | .lose pid =>
      match S.lossy, s.procs pid, s.flights pid with
      | true, some p, some ⟨.commit _, w⟩ =>
          some (S.conclude s pid (S.resume p (.error S.fault)) (E.overlay w s.db))
      | _, _, _ => none
  | .fail pid =>
      match s.procs pid, (s.procs pid).bind S.body with
      | some p, some _ => some (S.conclude s pid (S.resume p (.error S.fault)) s.db)
      | _, _ => none
  | .advance pid e child =>
      match s.procs pid with
      | some p =>
          match S.body p, S.advance p e with
          | none, some (p', q?) =>
              if (s.procs child).isNone then
                some { s with procs := S.spawn (S.put s.procs pid p') child q? }
              else none
          | _, _ => none
      | none => none
  | .kill pid =>
      match s.procs pid with
      | some p =>
          if S.final p = false then
            some { db := s.db
                   procs := Function.update s.procs pid none
                   flights := Function.update s.flights pid none
                   owner := E.release s.owner pid }
          else none
      | none => none

/-- No process, no transaction, no lock. -/
def initial : S.State where
  db := S.start
  procs _ := none
  flights _ := none
  owner _ := none

/-- The interleaved system. -/
def interleaved : System S.State S.Action := System.ofFun S.initial S.next

/-- One step of the atomic system. `begin` and `stmt` change nothing: the transaction takes
effect when it ends. -/
def AtomicStep (c : S.Core) : S.Action → S.Core → Prop
  | .arrive pid p, c' =>
      S.arrives p = true ∧ c.procs pid = none ∧ c' = ⟨c.db, S.put c.procs pid p⟩
  | .begin _, c' => c' = c
  | .stmt _ _, c' => c' = c
  | .finish pid, c' =>
      ∃ p prog res db', c.procs pid = some p ∧ S.body p = some prog ∧
        E.Runs c.db prog res db' ∧
        c' = ⟨E.settle c.db db' res, S.put c.procs pid (S.resume p res)⟩
  | .lose pid, c' =>
      S.lossy = true ∧ ∃ p prog a db', c.procs pid = some p ∧ S.body p = some prog ∧
        E.Runs c.db prog (.ok a) db' ∧
        c' = ⟨db', S.put c.procs pid (S.resume p (.error S.fault))⟩
  | .fail pid, c' =>
      ∃ p prog, c.procs pid = some p ∧ S.body p = some prog ∧
        c' = ⟨c.db, S.put c.procs pid (S.resume p (.error S.fault))⟩
  | .advance pid e child, c' =>
      ∃ p p' q?, c.procs pid = some p ∧ S.body p = none ∧ S.advance p e = some (p', q?) ∧
        c.procs child = none ∧ c' = ⟨c.db, S.spawn (S.put c.procs pid p') child q?⟩
  | .kill pid, c' =>
      ∃ p, c.procs pid = some p ∧ S.final p = false ∧
        c' = ⟨c.db, Function.update c.procs pid none⟩

/-- The atomic system. -/
def atomic : System S.Core S.Action where
  init c := c = ⟨S.start, fun _ => none⟩
  step := S.AtomicStep

/-- A step that changes the store is the commit of one process: its result is reported, or
in a lossy service it may get lost. -/
theorem AtomicStep.commits {S : Service E ε α} {c c' : S.Core} {a : S.Action}
    (h : S.AtomicStep c a c') :
    c'.db = c.db ∨ ∃ pid p prog x, c.procs pid = some p ∧ S.body p = some prog ∧
      E.Runs c.db prog (.ok x) c'.db ∧
      (a = .finish pid ∧ c'.procs = S.put c.procs pid (S.resume p (.ok x)) ∨
        S.lossy = true ∧ a = .lose pid ∧
          c'.procs = S.put c.procs pid (S.resume p (.error S.fault))) := by
  -- Only `finish` and `lose` run a transaction.
  cases a with
  | arrive pid p =>
    obtain ⟨-, -, rfl⟩ := h
    exact .inl rfl
  | begin pid => exact .inl (by rw [h])
  | stmt pid i => exact .inl (by rw [h])
  | finish pid =>
    obtain ⟨p, prog, res, db', hp, hbody, hruns, rfl⟩ := h
    cases res with
    | error e => exact .inl rfl
    | ok x => exact .inr ⟨pid, p, prog, x, hp, hbody, hruns, .inl ⟨rfl, rfl⟩⟩
  | lose pid =>
    obtain ⟨hlossy, p, prog, x, db', hp, hbody, hruns, rfl⟩ := h
    exact .inr ⟨pid, p, prog, x, hp, hbody, hruns, .inr ⟨hlossy, rfl, rfl⟩⟩
  | fail pid =>
    obtain ⟨p, prog, -, -, rfl⟩ := h
    exact .inl rfl
  | advance pid e child =>
    obtain ⟨p, p', q?, -, -, -, -, rfl⟩ := h
    exact .inl rfl
  | kill pid =>
    obtain ⟨p, -, -, rfl⟩ := h
    exact .inl rfl

/-- A process that does not move stays as it is. -/
theorem AtomicStep.kept {S : Service E ε α} {c c' : S.Core} {a : S.Action}
    (h : S.AtomicStep c a c') {pid : Nat} {p : S.Proc} (hp : c.procs pid = some p)
    (hne : a.pid ≠ pid) : c'.procs pid = some p := by
  have hput : ∀ {procs : Nat → Option S.Proc} {pid' : Nat} {x : Option S.Proc}, pid' ≠ pid →
      procs pid = some p → Function.update procs pid' x pid = some p := by
    intro procs pid' x hne hprocs
    rw [Function.update_of_ne (Ne.symm hne), hprocs]
  cases a with
  | arrive pid' q =>
    obtain ⟨-, -, rfl⟩ := h
    exact hput hne hp
  | begin pid' =>
    obtain rfl := h
    exact hp
  | stmt pid' i =>
    obtain rfl := h
    exact hp
  | finish pid' =>
    obtain ⟨_, _, _, _, -, -, -, rfl⟩ := h
    exact hput hne hp
  | lose pid' =>
    obtain ⟨-, _, _, _, _, -, -, -, rfl⟩ := h
    exact hput hne hp
  | fail pid' =>
    obtain ⟨_, _, -, -, rfl⟩ := h
    exact hput hne hp
  | advance pid' e child =>
    obtain ⟨_, _, child?, -, -, -, hchild, rfl⟩ := h
    cases child? with
    | none => exact hput hne hp
    | some q =>
      -- The child is a new process, so it is not this one.
      refine hput ?_ (hput hne hp)
      rintro rfl
      rw [hp] at hchild
      cases hchild
  | kill pid' =>
    obtain ⟨_, -, -, rfl⟩ := h
    exact hput hne hp

/-- Where a process after a step comes from: it was there before, it arrived, it is back from
a transaction with its result, it is back from a transaction that was reported as failed, it
moved by itself, or another process started it. -/
inductive Origin {S : Service E ε α} (c : S.Core) (a : S.Action) (c' : S.Core) (pid : Nat)
    (p' : S.Proc) : Prop where
  | same : c.procs pid = some p' → Origin c a c' pid p'
  | arrived : a = .arrive pid p' → S.arrives p' = true → Origin c a c' pid p'
  | resumed {p : S.Proc} {prog : Program Reply ε α} {res : Except ε α} {db' : E.Db} :
      a = .finish pid → c.procs pid = some p → S.body p = some prog → E.Runs c.db prog res db' →
      c'.db = E.settle c.db db' res → p' = S.resume p res → Origin c a c' pid p'
  | faulted {p : S.Proc} {prog : Program Reply ε α} :
      c.procs pid = some p → S.body p = some prog → p' = S.resume p (.error S.fault) →
      Origin c a c' pid p'
  | advanced {p : S.Proc} {e : S.Event} {child? : Option S.Proc} :
      c.procs pid = some p → S.advance p e = some (p', child?) → Origin c a c' pid p'
  | started {parent : Nat} {p q : S.Proc} {e : S.Event} :
      a = .advance parent e pid → c.procs parent = some p →
      S.advance p e = some (q, some p') → Origin c a c' pid p'

/-- Every process after a step has one of these origins. -/
theorem AtomicStep.origin {S : Service E ε α} {c c' : S.Core} {a : S.Action}
    (h : S.AtomicStep c a c') {pid : Nat} {p' : S.Proc} (hp' : c'.procs pid = some p') :
    Origin c a c' pid p' := by
  -- The process `pid'` is now in the local state `q`, and the others are as before.
  have hput : ∀ {pid' : Nat} {q : S.Proc}, S.put c.procs pid' q pid = some p' →
      c.procs pid = some p' ∨ pid' = pid ∧ q = p' := by
    intro pid' q hq
    by_cases hne : pid = pid'
    · subst hne
      rw [put, Function.update_self] at hq
      exact .inr ⟨rfl, Option.some.inj hq⟩
    · rw [put, Function.update_of_ne hne] at hq
      exact .inl hq
  cases a with
  | arrive pid' q =>
    obtain ⟨harrives, -, rfl⟩ := h
    rcases hput hp' with hsame | ⟨rfl, rfl⟩
    · exact .same hsame
    · exact .arrived rfl harrives
  | begin pid' =>
    obtain rfl := h
    exact .same hp'
  | stmt pid' i =>
    obtain rfl := h
    exact .same hp'
  | finish pid' =>
    obtain ⟨p, prog, res, db', hp, hbody, hruns, rfl⟩ := h
    rcases hput hp' with hsame | ⟨rfl, rfl⟩
    · exact .same hsame
    · exact .resumed rfl hp hbody hruns rfl rfl
  | lose pid' =>
    obtain ⟨-, p, prog, x, db', hp, hbody, -, rfl⟩ := h
    rcases hput hp' with hsame | ⟨rfl, rfl⟩
    · exact .same hsame
    · exact .faulted hp hbody rfl
  | fail pid' =>
    obtain ⟨p, prog, hp, hbody, rfl⟩ := h
    rcases hput hp' with hsame | ⟨rfl, rfl⟩
    · exact .same hsame
    · exact .faulted hp hbody rfl
  | advance pid' e child =>
    obtain ⟨p, q, child?, hp, -, hadvance, -, rfl⟩ := h
    have hmoved : S.put c.procs pid' q pid = some p' → Origin c (.advance pid' e child)
        ⟨c.db, S.spawn (S.put c.procs pid' q) child child?⟩ pid p' := by
      intro hq
      rcases hput hq with hsame | ⟨rfl, rfl⟩
      · exact .same hsame
      · exact .advanced hp hadvance
    cases child? with
    | none => exact hmoved hp'
    | some r =>
      have hchild : Function.update (S.put c.procs pid' q) child (some r) pid = some p' := hp'
      by_cases hne : pid = child
      · subst hne
        rw [Function.update_self] at hchild
        cases hchild
        exact .started rfl hp hadvance
      · rw [Function.update_of_ne hne] at hchild
        exact hmoved hchild
  | kill pid' =>
    obtain ⟨p, -, -, rfl⟩ := h
    have hkept : Function.update c.procs pid' none pid = some p' := hp'
    by_cases hne : pid = pid'
    · subst hne
      rw [Function.update_self] at hkept
      cases hkept
    · rw [Function.update_of_ne hne] at hkept
      exact .same hkept

/-- A step adds no process but the one it starts. -/
theorem AtomicStep.absent {S : Service E ε α} {c c' : S.Core} {a : S.Action}
    (h : S.AtomicStep c a c') {pid : Nat} (hnone : c.procs pid = none)
    (hstarts : a.starts ≠ some pid) : c'.procs pid = none := by
  cases hp' : c'.procs pid with
  | none => rfl
  | some p' =>
    -- A process is there because it was before, or because this step started it.
    cases h.origin hp' with
    | same hp => cases hnone.symm.trans hp
    | arrived ha _ =>
      subst ha
      exact absurd rfl hstarts
    | resumed _ hp _ _ _ _ => cases hnone.symm.trans hp
    | faulted hp _ _ => cases hnone.symm.trans hp
    | advanced hp _ => cases hnone.symm.trans hp
    | started ha _ _ =>
      subst ha
      exact absurd rfl hstarts

/-- A process in a local state that is final, has no transaction and does not move by itself
stays as it is. -/
theorem AtomicStep.stays {S : Service E ε α} {c c' : S.Core} {a : S.Action}
    (h : S.AtomicStep c a c') {pid : Nat} {p : S.Proc} (hp : c.procs pid = some p)
    (hfinal : S.final p = true) (hbody : S.body p = none)
    (hadvance : ∀ e, S.advance p e = none) : c'.procs pid = some p := by
  -- A step of another process leaves this one.
  have hput : ∀ {pid' : Nat} (q : S.Proc), pid' ≠ pid →
      S.put c.procs pid' q pid = some p := by
    intro pid' q hne
    rw [put, Function.update_of_ne hne.symm, hp]
  cases a with
  | arrive pid' q =>
    obtain ⟨-, hnone, rfl⟩ := h
    apply hput
    rintro rfl
    rw [hp] at hnone
    cases hnone
  | begin pid' =>
    obtain rfl := h
    exact hp
  | stmt pid' i =>
    obtain rfl := h
    exact hp
  -- This process has no transaction that could end,
  | finish pid' =>
    obtain ⟨q, prog, res, w, hq, hprog, -, rfl⟩ := h
    apply hput
    rintro rfl
    rw [hp] at hq
    cases hq
    rw [hbody] at hprog
    cases hprog
  | lose pid' =>
    obtain ⟨-, q, prog, x, w, hq, hprog, -, rfl⟩ := h
    apply hput
    rintro rfl
    rw [hp] at hq
    cases hq
    rw [hbody] at hprog
    cases hprog
  | fail pid' =>
    obtain ⟨q, prog, hq, hprog, rfl⟩ := h
    apply hput
    rintro rfl
    rw [hp] at hq
    cases hq
    rw [hbody] at hprog
    cases hprog
  -- it does not move by itself,
  | advance pid' e child =>
    obtain ⟨q, q', r?, hq, -, hadv, hchild, rfl⟩ := h
    have hne : pid' ≠ pid := by
      rintro rfl
      rw [hp] at hq
      cases hq
      rw [hadvance] at hadv
      cases hadv
    have hne' : child ≠ pid := by
      rintro rfl
      rw [hp] at hchild
      cases hchild
    cases r? with
    | none => exact hput q' hne
    | some r =>
      show S.put (S.put c.procs pid' q') child r pid = some p
      rw [put, Function.update_of_ne hne'.symm]
      exact hput q' hne
  -- and a final process is not killed.
  | kill pid' =>
    obtain ⟨q, hq, hnot, rfl⟩ := h
    have hne : pid' ≠ pid := by
      rintro rfl
      rw [hp] at hq
      cases hq
      rw [hfinal] at hnot
      cases hnot
    show Function.update c.procs pid' none pid = some p
    rw [Function.update_of_ne hne.symm, hp]

/-! ### The refinement -/

variable {S}

/-- The running transaction `f` stands for its whole program `p₀`: on every store that agrees
with `db` on the cells guarded by `held`, how `f` can go on is how `p₀` can run from the
start. -/
def Flight.Sound (held : E.Lock → Prop) (db : E.Db) (p₀ : Program Reply ε α)
    (f : Flight E ε α) : Prop :=
  ∀ db' : E.Db, (∀ c, held (E.guard c) → db' c = db c) → ∀ res db'',
    E.Runs (E.overlay f.writes db') f.prog res db'' → E.Runs db' p₀ res db''

/-- `pid` holds the lock `l`. -/
def State.Holds (s : S.State) (pid : Nat) (l : E.Lock) : Prop :=
  s.owner l = some pid

/-- What holds of the running transaction `f` of `pid`: its process is at the transaction
`p₀`, `f` is sound for `p₀`, the rest of `f` follows the lock discipline, and `f` has written
only cells whose locks it holds. -/
structure Flying (s : S.State) (pid : Nat) (f : Flight E ε α) : Prop where
  sound : ∃ p p₀, s.procs pid = some p ∧ S.body p = some p₀ ∧
    f.Sound (s.Holds pid) s.db p₀
  locked : E.Locked (s.Holds pid) f.prog
  writes : ∀ c, f.writes c ≠ none → s.Holds pid (E.guard c)

/-- Every running transaction is as `Flying` describes. -/
def AllFlying (s : S.State) : Prop :=
  ∀ pid f, s.flights pid = some f → Flying s pid f

/-- A step that keeps the local state and the locks of `pid`, and changes no cell that these
locks guard, keeps `Flying`. -/
theorem Flying.frame {s s' : S.State} {pid : Nat} {f : Flight E ε α} (h : Flying s pid f)
    (hproc : s'.procs pid = s.procs pid) (hholds : ∀ l, s'.Holds pid l ↔ s.Holds pid l)
    (hdb : ∀ c, s.Holds pid (E.guard c) → s'.db c = s.db c) : Flying s' pid f := by
  have hheld : s'.Holds pid = s.Holds pid := funext fun l => propext (hholds l)
  obtain ⟨p, p₀, hp, hbody, hsound⟩ := h.sound
  refine ⟨⟨p, p₀, hproc.trans hp, hbody, ?_⟩, ?_, ?_⟩
  · intro db' hagree
    rw [hheld] at hagree
    exact hsound db' fun c hc => (hagree c hc).trans (hdb c hc)
  · rw [hheld]
    exact h.locked
  · rw [hheld]
    exact h.writes

/-- Ending the transaction of `pid` keeps the locks of every other process. -/
theorem holds_release {owner : E.Lock → Option Nat} {pid pid' : Nat} (hne : pid' ≠ pid)
    (l : E.Lock) : E.release owner pid l = some pid' ↔ owner l = some pid' := by
  unfold Engine.release
  split
  · rename_i h
    simp [h, hne.symm]
  · rfl

/-- Taking an available lock keeps the locks of every other process. -/
theorem holds_acquire {owner : E.Lock → Option Nat} {pid pid' : Nat} (hne : pid' ≠ pid)
    {l? : Option E.Lock} (hav : E.available owner pid l? = true) (l : E.Lock) :
    E.acquire owner pid l? l = some pid' ↔ owner l = some pid' := by
  unfold Engine.acquire
  split
  · rename_i h
    subst h
    have hown : owner l = none ∨ owner l = some pid := by simpa [Engine.available] using hav
    rcases hown with hown | hown <;> simp [hown, hne.symm]
  · rfl

/-- The end of the transaction of `pid`, with the writes of `f` or with none, keeps `Flying`
of every other transaction. -/
theorem Flying.conclude {s : S.State} {pid pid' : Nat} {f : Flight E ε α}
    (h : Flying s pid' f) (hne : pid' ≠ pid) (p : S.Proc) (w : E.Writes)
    (hw : ∀ c, w c ≠ none → s.Holds pid (E.guard c)) :
    Flying (S.conclude s pid p (E.overlay w s.db)) pid' f := by
  apply h.frame
  · simp [Service.conclude, Service.put, hne]
  · exact fun l => holds_release hne l
  · intro c hc
    -- `pid'` holds the lock of `c`, so `pid` does not, and has not written `c`.
    have hnone : w c = none := by
      by_contra hwc
      have := hw c hwc
      rw [State.Holds] at this hc
      rw [hc] at this
      exact hne (Option.some.inj this)
    simp [Service.conclude, Engine.overlay, hnone]

/-- The end of the transaction of `pid` keeps `AllFlying`. -/
theorem AllFlying.conclude {s : S.State} (h : AllFlying s) (pid : Nat) (p : S.Proc)
    (w : E.Writes) (hw : ∀ c, w c ≠ none → s.Holds pid (E.guard c)) :
    AllFlying (S.conclude s pid p (E.overlay w s.db)) := by
  intro pid' f hf
  by_cases hne : pid' = pid
  · subst hne
    simp [Service.conclude] at hf
  · have hf' : s.flights pid' = some f := by
      simpa [Service.conclude, Function.update_of_ne hne] using hf
    exact (h pid' f hf').conclude hne p w hw

/-- The end of the transaction of `pid` without effect keeps `AllFlying`. -/
theorem AllFlying.conclude_same {s : S.State} (h : AllFlying s) (pid : Nat) (p : S.Proc) :
    AllFlying (S.conclude s pid p s.db) :=
  h.conclude pid p E.noWrites fun _ hc => absurd rfl hc

/-- One more statement of the transaction of `pid` keeps its `Flying`. -/
theorem Flying.stmt {s : S.State} {pid : Nat} {st : Stmt}
    {k : Reply st → Program Reply ε α} {w w₁ : E.Writes} {i : E.Input} {r : Reply st}
    (h : Flying s pid ⟨.exec st k, w⟩) (hrun : E.run st i (E.overlay w s.db) = some (r, w₁)) :
    Flying { s with
        flights := Function.update s.flights pid (some ⟨k r, E.merge w w₁⟩)
        owner := E.acquire s.owner pid (E.lock st r) } pid ⟨k r, E.merge w w₁⟩ := by
  obtain ⟨hst, hk⟩ := h.locked r ⟨i, _, w₁, hrun⟩
  obtain ⟨p, p₀, hp, hbody, hsound⟩ := h.sound
  -- The locks of `pid` are now the ones it held and the one this statement took.
  have hheld : ∀ l, E.acquire s.owner pid (E.lock st r) l = some pid ↔
      E.holding (s.Holds pid) st r l := by
    intro l
    unfold Engine.acquire Engine.holding State.Holds
    by_cases hl : E.lock st r = some l <;> simp [hl]
  have hheld' : State.Holds (S := S) { s with
      flights := Function.update s.flights pid (some ⟨k r, E.merge w w₁⟩)
      owner := E.acquire s.owner pid (E.lock st r) } pid = E.holding (s.Holds pid) st r :=
    funext fun l => propext (hheld l)
  refine ⟨⟨p, p₀, hp, hbody, ?_⟩, ?_, ?_⟩
  · intro db' hagree res db'' hruns
    rw [hheld'] at hagree
    rw [E.overlay_merge] at hruns
    apply hsound db' (fun c hc => hagree c (.inl hc))
    rcases hst with hfree | hset
    · exact ⟨i, _, r, w₁, hrun, .inr hfree.1, hruns⟩
    · refine ⟨i, _, r, w₁, ?_, .inl rfl, hruns⟩
      apply hset.congr i _ _ w₁ _ hrun
      intro c hc
      simp only [Engine.overlay, hagree c hc]
  · rw [hheld']
    exact hk
  · rw [hheld']
    intro c hc
    by_cases h₁ : w₁ c = none
    · exact .inl (h.writes c (by simpa [Engine.merge, h₁] using hc))
    · rcases hst with hfree | hset
      · rw [hfree.2 i _ w₁ hrun] at h₁
        exact absurd rfl h₁
      · exact hset.writes i _ w₁ hrun c h₁

/-- Every body follows the lock discipline from the start of its transaction. -/
def Disciplined (S : Service E ε α) : Prop :=
  ∀ p prog, S.body p = some prog → E.Locked (fun _ => False) prog

/-- `AllFlying` holds in every reachable state of the interleaved system. -/
theorem allFlying_step (hS : Disciplined S) {s s' : S.State} {a : S.Action}
    (h : AllFlying s) (hs : S.next s a = some s') : AllFlying s' := by
  cases a with
  | arrive pid p =>
    simp only [next, Option.ite_none_right_eq_some, Option.some.injEq] at hs
    obtain ⟨⟨-, hnone⟩, rfl⟩ := hs
    intro pid' f hf
    apply (h pid' f hf).frame
    · have hne : pid' ≠ pid := by
        rintro rfl
        obtain ⟨q, -, hq, -⟩ := (h pid' f hf).sound
        simp [hq] at hnone
      simp [put, hne]
    · exact fun _ => Iff.rfl
    · exact fun _ _ => rfl
  | begin pid =>
    simp only [next] at hs
    split at hs
    · rename_i prog hprog hnone
      cases hs
      intro pid' f hf
      by_cases hne : pid' = pid
      · subst hne
        simp only [Function.update_self, Option.some.injEq] at hf
        subst hf
        obtain ⟨p, hp, hbody⟩ := Option.bind_eq_some_iff.mp hprog
        exact ⟨⟨p, prog, hp, hbody, fun _ _ _ _ hruns => hruns⟩,
          (hS p prog hbody).mono E (fun _ hl => hl.elim), fun _ hc => absurd rfl hc⟩
      · have hf' : s.flights pid' = some f := by
          simpa [Function.update_of_ne hne] using hf
        exact (h pid' f hf').frame rfl (fun _ => Iff.rfl) fun _ _ => rfl
    · cases hs
  | stmt pid i =>
    simp only [next] at hs
    split at hs
    · rename_i st k w hfl
      split at hs
      · rename_i r w₁ hrun
        split at hs
        · rename_i hav
          cases hs
          intro pid' f hf
          by_cases hne : pid' = pid
          · subst hne
            simp only [Function.update_self, Option.some.injEq] at hf
            subst hf
            exact (h pid' _ hfl).stmt hrun
          · have hf' : s.flights pid' = some f := by
              simpa [Function.update_of_ne hne] using hf
            exact (h pid' f hf').frame rfl (holds_acquire hne hav) fun _ _ => rfl
        · cases hs
      · cases hs
    · cases hs
  | finish pid =>
    simp only [next] at hs
    split at hs
    · rename_i p a w hp hfl
      cases hs
      exact h.conclude pid _ w (h pid _ hfl).writes
    · cases hs
      exact h.conclude_same pid _
    · cases hs
  | lose pid =>
    simp only [next] at hs
    split at hs
    · rename_i p a w hlossy hp hfl
      cases hs
      exact h.conclude pid _ w (h pid _ hfl).writes
    · cases hs
  | fail pid =>
    simp only [next] at hs
    split at hs
    · cases hs
      exact h.conclude_same pid _
    · cases hs
  | advance pid e child =>
    simp only [next] at hs
    split at hs
    · rename_i p hp
      split at hs
      · rename_i p' q? hbody hadv
        simp only [Option.ite_none_right_eq_some, Option.some.injEq] at hs
        obtain ⟨hnone, rfl⟩ := hs
        intro pid' f hf
        obtain ⟨q, p₀, hq, hqbody, -⟩ := (h pid' f hf).sound
        -- A process at a transaction is neither the one that moved nor the new child.
        have hne : pid' ≠ pid := by
          rintro rfl
          rw [hp] at hq
          cases hq
          simp [hbody] at hqbody
        have hne' : pid' ≠ child := by
          rintro rfl
          simp [hq] at hnone
        apply (h pid' f hf).frame
        · cases q? <;> simp [spawn, put, hne, hne']
        · exact fun _ => Iff.rfl
        · exact fun _ _ => rfl
      · cases hs
    · cases hs
  | kill pid =>
    simp only [next] at hs
    split at hs
    · simp only [Option.ite_none_right_eq_some, Option.some.injEq] at hs
      obtain ⟨-, rfl⟩ := hs
      intro pid' f hf
      by_cases hne : pid' = pid
      · subst hne
        simp at hf
      · have hf' : s.flights pid' = some f := by
          simpa [Function.update_of_ne hne] using hf
        apply (h pid' f hf').frame
        · simp [hne]
        · exact fun l => holds_release hne l
        · exact fun _ _ => rfl
    · cases hs

/-- In every run of the interleaved service, each running transaction is `Flying`. The induction is
over the steps; the steps of other processes keep it by the frame lemma. -/
theorem allFlying_reachable (hS : Disciplined S) {s : S.State}
    (h : S.interleaved.Reachable s) : AllFlying s := by
  refine h.induct ?_ ?_
  · rintro s rfl pid f hf
    simp [initial] at hf
  · exact fun _ _ _ _ ih _ hs => allFlying_step hS ih hs

/-- The interleaved system refines the atomic one: a transaction takes effect as if all its
statements had run when it ended. -/
theorem interleaved_refines_atomic (hS : Disciplined S) :
    S.interleaved.Refines S.atomic State.toCore where
  init := by
    rintro s rfl
    rfl
  step := by
    intro s a s' hr hs
    have hfly := allFlying_reachable hS hr
    -- The transaction of `pid`, at its end, is an execution of its whole program.
    have hwhole : ∀ pid f, s.flights pid = some f → ∀ p, s.procs pid = some p →
        ∀ res db', E.Runs (E.overlay f.writes s.db) f.prog res db' →
          ∃ prog, S.body p = some prog ∧ E.Runs s.db prog res db' := by
      intro pid f hf p hp res db' hruns
      obtain ⟨q, prog, hq, hbody, hsound⟩ := (hfly pid f hf).sound
      rw [hp] at hq
      cases hq
      exact ⟨prog, hbody, hsound s.db (fun _ _ => rfl) res db' hruns⟩
    change S.next s a = some s' at hs
    cases a with
    | arrive pid p =>
      simp only [next, Option.ite_none_right_eq_some, Option.some.injEq] at hs
      obtain ⟨⟨harr, hnone⟩, rfl⟩ := hs
      exact ⟨harr, by simpa using hnone, rfl⟩
    | begin pid =>
      simp only [next] at hs
      split at hs <;> cases hs
      rfl
    | stmt pid i =>
      simp only [next] at hs
      split at hs
      · split at hs
        · split at hs <;> cases hs
          rfl
        · cases hs
      · cases hs
    | finish pid =>
      simp only [next] at hs
      split at hs
      · rename_i p a w hp hfl
        cases hs
        obtain ⟨prog, hbody, hruns⟩ := hwhole pid _ hfl p hp (.ok a) _ ⟨rfl, rfl⟩
        exact ⟨p, prog, .ok a, _, hp, hbody, hruns, rfl⟩
      · rename_i p e w hp hfl
        cases hs
        obtain ⟨prog, hbody, hruns⟩ := hwhole pid _ hfl p hp (.error e) _ ⟨rfl, rfl⟩
        exact ⟨p, prog, .error e, _, hp, hbody, hruns, rfl⟩
      · cases hs
    | lose pid =>
      simp only [next] at hs
      split at hs
      · rename_i p a w hlossy hp hfl
        cases hs
        obtain ⟨prog, hbody, hruns⟩ := hwhole pid _ hfl p hp (.ok a) _ ⟨rfl, rfl⟩
        exact ⟨hlossy, p, prog, a, _, hp, hbody, hruns, rfl⟩
      · cases hs
    | fail pid =>
      simp only [next] at hs
      split at hs
      · rename_i p prog hp hprog
        cases hs
        rw [hp] at hprog
        exact ⟨p, prog, hp, hprog, rfl⟩
      · cases hs
    | advance pid e child =>
      simp only [next] at hs
      split at hs
      · rename_i p hp
        split at hs
        · rename_i p' q? hbody hadv
          simp only [Option.ite_none_right_eq_some, Option.some.injEq] at hs
          obtain ⟨hnone, rfl⟩ := hs
          exact ⟨p, p', q?, hp, hbody, hadv, by simpa using hnone, rfl⟩
        · cases hs
      · cases hs
    | kill pid =>
      simp only [next] at hs
      split at hs
      · rename_i p hp
        simp only [Option.ite_none_right_eq_some, Option.some.injEq] at hs
        obtain ⟨hfinal, rfl⟩ := hs
        exact ⟨p, hp, hfinal, rfl⟩
      · cases hs

end Service

end Transaction
