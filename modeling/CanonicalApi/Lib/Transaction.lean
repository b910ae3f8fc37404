import Mathlib.Logic.Function.Basic

/-!
# `CanonicalApi.Lib.Transaction`: transaction programs and their atomic meaning

A `Program` is the body of one database transaction: a tree of statements that ends in a
commit with a value or in a rollback with an error. An `Engine` gives the statements their
meaning on a store of cells. A statement reads the committed store overlaid with the
transaction's own writes, so the two meanings of a program differ only in the store that
each statement sees:

* `Runs` runs the whole program on one store. This is the atomic meaning.
* The interleaved meaning (`Lib/Interleaving.lean`) runs one statement at a time against
  the store as it is committed at that moment.

Every cell has one guarding lock. `Locked` is the discipline that makes the two meanings
agree: a statement either touches only cells whose locks the transaction holds by then, or
it is declared `loose`, writes nothing, and `Runs` lets it reply as on an arbitrary store.
A lock may depend on the reply, as a row lock is taken only on a row that matches.
-/

set_option autoImplicit false

namespace Transaction

/-- The body of a transaction. `commit a` is `COMMIT` and then the value `a`, and
`rollback e` is `ROLLBACK` and then the error `e`. -/
inductive Program {Stmt : Type} (Reply : Stmt → Type) (ε α : Type) : Type where
  | commit (a : α)
  | rollback (e : ε)
  | exec (s : Stmt) (next : Reply s → Program Reply ε α)

namespace Program

variable {Stmt : Type} {Reply : Stmt → Type} {ε α β : Type}

/-- Run `p`, and continue with `f` where `p` would commit. -/
def bind : Program Reply ε α → (α → Program Reply ε β) → Program Reply ε β
  | commit a, f => f a
  | rollback e, _ => rollback e
  | exec s next, f => exec s fun r => (next r).bind f

instance : Monad (Program Reply ε) where
  pure := commit
  bind := bind

/-- One statement. -/
def stmt (s : Stmt) : Program Reply ε (Reply s) :=
  exec s commit

/-- A pure check: go on with the value, or roll back with the error. -/
def ofExcept : Except ε α → Program Reply ε α
  | .ok a => commit a
  | .error e => rollback e

/-- `simp` writes a pure program as a commit. -/
@[simp] theorem pure_eq (a : α) : (pure a : Program Reply ε α) = commit a := rfl

/-- The result of a part is passed on, without a commit in between. -/
@[simp] theorem commit_bind (a : α) (f : α → Program Reply ε β) :
    (commit a : Program Reply ε α) >>= f = f a := rfl

/-- A rollback ends the program. -/
@[simp] theorem rollback_bind (e : ε) (f : α → Program Reply ε β) :
    (rollback e : Program Reply ε α) >>= f = rollback e := rfl

/-- What follows a program follows each of its continuations. -/
@[simp] theorem exec_bind (s : Stmt) (next : Reply s → Program Reply ε α)
    (f : α → Program Reply ε β) :
    exec s next >>= f = exec s fun r => next r >>= f := rfl

/-- What follows a statement gets its reply. -/
@[simp] theorem stmt_bind (s : Stmt) (f : Reply s → Program Reply ε β) :
    stmt s >>= f = exec s f := rfl

/-- A result is passed on. -/
@[simp] theorem ofExcept_ok (a : α) : (ofExcept (.ok a) : Program Reply ε α) = commit a := rfl

/-- An error rolls the transaction back. -/
@[simp] theorem ofExcept_error (e : ε) :
    (ofExcept (.error e) : Program Reply ε α) = rollback e := rfl

end Program

section

variable {Cell : Type} {Val : Cell → Type}

/-- No cell is written. -/
def writeNothing : (c : Cell) → Option (Val c) := fun _ => none

variable [DecidableEq Cell]

/-- Only the cell `c` is written. -/
def writeCell (c : Cell) (value : Val c) : (c : Cell) → Option (Val c) :=
  Function.update writeNothing c (some value)

/-- A written cell is the one that was written to. -/
theorem eq_of_writeCell_ne_none {c c' : Cell} {value : Val c}
    (h : writeCell c value c' ≠ none) : c' = c := by
  by_contra hne
  rw [writeCell, Function.update_of_ne hne] at h
  exact h rfl

end

/-- The meaning of the statements on a store of cells.

- `guard c` is the lock that protects the cell `c`;
- `lock s r` is the lock that the statement `s` takes when its reply is `r`, kept to the
  end of the transaction;
- `loose s r` marks a reply that was read without a lock;
- `run s i v` is the reply of `s` and its writes on the view `v`, where the input `i`
  carries what comes from outside the store. `none` means that the statement fails. -/
structure Engine (Stmt : Type) (Reply : Stmt → Type) where
  Cell : Type
  Val : Cell → Type
  Lock : Type
  decLock : DecidableEq Lock
  Input : Type
  guard : Cell → Lock
  lock : (s : Stmt) → Reply s → Option Lock
  loose : (s : Stmt) → Reply s → Bool
  run : (s : Stmt) → Input → ((c : Cell) → Val c) →
    Option (Reply s × ((c : Cell) → Option (Val c)))

namespace Engine

variable {Stmt : Type} {Reply : Stmt → Type} {ε α β : Type}

/-- The contents of the store. -/
abbrev Db (E : Engine Stmt Reply) : Type := (c : E.Cell) → E.Val c

/-- The cells that a transaction has written, with their new contents. -/
abbrev Writes (E : Engine Stmt Reply) : Type := (c : E.Cell) → Option (E.Val c)

variable (E : Engine Stmt Reply)

instance : DecidableEq E.Lock := E.decLock

/-- No writes. -/
abbrev noWrites : E.Writes := writeNothing

/-- The store as a transaction with the writes `w` sees it. -/
def overlay (w : E.Writes) (db : E.Db) : E.Db := fun c => (w c).getD (db c)

/-- The writes `w`, and then the later writes `w₁`. -/
def merge (w w₁ : E.Writes) : E.Writes := fun c => (w₁ c).or (w c)

/-- Without writes the database is seen as it is. -/
@[simp] theorem overlay_noWrites (db : E.Db) : E.overlay E.noWrites db = db := rfl

/-- No later writes change nothing. -/
@[simp] theorem merge_noWrites (w : E.Writes) : E.merge w E.noWrites = w := rfl

/-- After no writes, the later ones are all there are. -/
@[simp] theorem noWrites_merge (w : E.Writes) : E.merge E.noWrites w = w := by
  funext c
  simp [merge, writeNothing]

/-- Writing one cell updates the store there. -/
theorem overlay_writeCell [DecidableEq E.Cell] (c : E.Cell) (value : E.Val c) (db : E.Db) :
    E.overlay (writeCell c value) db = Function.update db c value := by
  funext c'
  by_cases h : c' = c
  · subst h
    simp [overlay, writeCell]
  · simp [overlay, writeCell, writeNothing, Function.update_of_ne h]

/-- The later writes win. -/
theorem overlay_merge (w w₁ : E.Writes) (db : E.Db) :
    E.overlay (E.merge w w₁) db = E.overlay w₁ (E.overlay w db) := by
  funext c
  cases h : w₁ c <;> simp [overlay, merge, h]

/-- The atomic meaning of a program: `E.Runs db p res db'` means that the transaction, run on
the store `db`, can end with `res`, when the store as it sees it is `db'`. A loose reply may
come from any view. -/
def Runs : E.Db → Program Reply ε α → Except ε α → E.Db → Prop
  | db, .commit a, res, db' => res = .ok a ∧ db' = db
  | db, .rollback e, res, db' => res = .error e ∧ db' = db
  | db, .exec s next, res, db' =>
      ∃ i v r w, E.run s i v = some (r, w) ∧ (v = db ∨ E.loose s r = true) ∧
        Runs (E.overlay w db) (next r) res db'

/-- A statement in front of `f`: `f` runs on the reply. -/
theorem runs_stmt_bind_iff (db : E.Db) (s : Stmt) (f : Reply s → Program Reply ε α)
    (res : Except ε α) (db' : E.Db) :
    E.Runs db (.stmt s >>= f) res db' ↔
      ∃ i v r w, E.run s i v = some (r, w) ∧ (v = db ∨ E.loose s r = true) ∧
        E.Runs (E.overlay w db) (f r) res db' :=
  Iff.rfl

/-- A bind runs its first part. If that ends in an error, so does the whole; otherwise the
rest runs on the value and the store that it left. -/
theorem runs_bind_iff (db : E.Db) (p : Program Reply ε α) (f : α → Program Reply ε β)
    (res : Except ε β) (db' : E.Db) :
    E.Runs db (p >>= f) res db' ↔
      (∃ e, E.Runs db p (.error e) db' ∧ res = .error e) ∨
        ∃ a db₁, E.Runs db p (.ok a) db₁ ∧ E.Runs db₁ (f a) res db' := by
  -- The induction is on the first program. A commit hands its result on, and a rollback ends both.
  induction p generalizing db with
  | commit a =>
    rw [Program.commit_bind]
    constructor
    · intro h
      exact .inr ⟨a, db, ⟨rfl, rfl⟩, h⟩
    · rintro (⟨e, ⟨he, -⟩, -⟩ | ⟨_, _, ⟨h, rfl⟩, hf⟩)
      · cases he
      · cases h
        exact hf
  | rollback e =>
    rw [Program.rollback_bind]
    constructor
    · rintro ⟨rfl, rfl⟩
      exact .inl ⟨e, ⟨rfl, rfl⟩, rfl⟩
    · rintro (⟨e', ⟨he, rfl⟩, rfl⟩ | ⟨a, db₁, ⟨h, -⟩, -⟩)
      · cases he
        exact ⟨rfl, rfl⟩
      · cases h
  | exec s next ih =>
    rw [Program.exec_bind]
    constructor
    · rintro ⟨i, v, r, w, hrun, hv, hrest⟩
      rcases (ih r _).mp hrest with ⟨e, he, rfl⟩ | ⟨a, db₁, ha, hf⟩
      · exact .inl ⟨e, ⟨i, v, r, w, hrun, hv, he⟩, rfl⟩
      · exact .inr ⟨a, db₁, ⟨i, v, r, w, hrun, hv, ha⟩, hf⟩
    · rintro (⟨e, ⟨i, v, r, w, hrun, hv, he⟩, rfl⟩ | ⟨a, db₁, ⟨i, v, r, w, hrun, hv, ha⟩, hf⟩)
      · exact ⟨i, v, r, w, hrun, hv, (ih r _).mpr (.inl ⟨e, he, rfl⟩)⟩
      · exact ⟨i, v, r, w, hrun, hv, (ih r _).mpr (.inr ⟨a, db₁, ha, hf⟩)⟩

/-- A pure check in front of `f`: its error ends the program, its value goes to `f`. -/
theorem runs_ofExcept_bind_iff (db : E.Db) (x : Except ε α) (f : α → Program Reply ε β)
    (res : Except ε β) (db' : E.Db) :
    E.Runs db (.ofExcept x >>= f) res db' ↔
      (∃ e, x = .error e ∧ res = .error e ∧ db' = db) ∨
        ∃ a, x = .ok a ∧ E.Runs db (f a) res db' := by
  cases x with
  | ok a =>
    constructor
    · intro h
      exact .inr ⟨a, rfl, h⟩
    · rintro (⟨e, he, -⟩ | ⟨_, ha, h⟩)
      · cases he
      · cases ha
        exact h
  | error e =>
    constructor
    · rintro ⟨rfl, rfl⟩
      exact .inl ⟨e, rfl, rfl, rfl⟩
    · rintro (⟨_, he, rfl, rfl⟩ | ⟨_, ha, -⟩)
      · cases he
        exact ⟨rfl, rfl⟩
      · cases ha

/-- The transaction run alone on `db`, with the same input for every statement: its result and
the store as it sees it at the end, if no statement is refused. -/
def evaluate (i : E.Input) : E.Db → Program Reply ε α → Option (Except ε α × E.Db)
  | db, .commit a => some (.ok a, db)
  | db, .rollback e => some (.error e, db)
  | db, .exec s next =>
      match E.run s i db with
      | some (r, w) => evaluate i (E.overlay w db) (next r)
      | none => none

/-- A transaction that runs alone runs. -/
theorem runs_of_evaluate {i : E.Input} {db db' : E.Db} {p : Program Reply ε α}
    {res : Except ε α} (h : E.evaluate i db p = some (res, db')) : E.Runs db p res db' := by
  induction p generalizing db with
  | commit a =>
    cases h
    exact ⟨rfl, rfl⟩
  | rollback e =>
    cases h
    exact ⟨rfl, rfl⟩
  | exec s next ih =>
    rw [evaluate] at h
    split at h
    · next r w hrun => exact ⟨i, db, r, w, hrun, .inl rfl, ih r h⟩
    · cases h

/-- The statement `s` with the reply `r` is settled by the locks in `held`: on any two views
that agree on the cells these locks guard it gives the same reply and the same writes, and
it writes only such cells. -/
structure Settled (held : E.Lock → Prop) (s : Stmt) (r : Reply s) : Prop where
  congr : ∀ i v v' w₁, (∀ c, held (E.guard c) → v c = v' c) →
    E.run s i v = some (r, w₁) → E.run s i v' = some (r, w₁)
  writes : ∀ i v w₁, E.run s i v = some (r, w₁) → ∀ c, w₁ c ≠ none → held (E.guard c)

/-- The statement `s` with the reply `r` is declared loose and writes nothing. -/
def Free (s : Stmt) (r : Reply s) : Prop :=
  E.loose s r = true ∧ ∀ i v w₁, E.run s i v = some (r, w₁) → w₁ = E.noWrites

/-- The locks held after the statement `s` replied `r`. -/
def holding (held : E.Lock → Prop) (s : Stmt) (r : Reply s) (l : E.Lock) : Prop :=
  held l ∨ E.lock s r = some l

/-- The reply `r` of `s` is free, or settled by the locks held once `s` has taken its own. -/
def Covered (held : E.Lock → Prop) (s : Stmt) (r : Reply s) : Prop :=
  E.Free s r ∨ E.Settled (E.holding held s r) s r

/-- `r` is a reply that `s` can give. -/
def Replies (s : Stmt) (r : Reply s) : Prop := ∃ i v w₁, E.run s i v = some (r, w₁)

/-- The lock discipline: every reply that a statement of the program can give is covered by
the locks held by then. -/
def Locked : (E.Lock → Prop) → Program Reply ε α → Prop
  | _, .commit _ => True
  | _, .rollback _ => True
  | held, .exec s next => ∀ r, E.Replies s r →
      E.Covered held s r ∧ Locked (E.holding held s r) (next r)

/-- More locks settle more statements. -/
theorem Settled.mono {held held' : E.Lock → Prop} (h : ∀ l, held l → held' l) {s : Stmt}
    {r : Reply s} (hs : E.Settled held s r) : E.Settled held' s r where
  congr i v v' w₁ hv hr := hs.congr i v v' w₁ (fun c hc => hv c (h _ hc)) hr
  writes i v w₁ hr c hc := h _ (hs.writes i v w₁ hr c hc)

/-- More locks keep the discipline. -/
theorem Locked.mono {p : Program Reply ε α} :
    ∀ {held held' : E.Lock → Prop}, (∀ l, held l → held' l) → E.Locked held p →
      E.Locked held' p := by
  induction p with
  | commit a => exact fun _ _ => trivial
  | rollback e => exact fun _ _ => trivial
  | exec s next ih =>
    intro held held' h hp r hr
    obtain ⟨hs, hnext⟩ := hp r hr
    have hh : ∀ l, E.holding held s r l → E.holding held' s r l :=
      fun l hl => hl.imp_left (h l)
    exact ⟨hs.imp_right (Settled.mono E hh), ih r hh hnext⟩

/-- A bind keeps the discipline when both parts do. The locks of the first part are still
held in the second. -/
theorem locked_bind {held : E.Lock → Prop} {p : Program Reply ε α} {f : α → Program Reply ε β}
    (hp : E.Locked held p) (hf : ∀ a, E.Locked held (f a)) : E.Locked held (p >>= f) := by
  induction p generalizing held with
  | commit a => exact hf a
  | rollback e => exact trivial
  | exec s next ih =>
    intro r hr
    obtain ⟨hs, hnext⟩ := hp r hr
    exact ⟨hs, ih r hnext fun a => (hf a).mono E fun _ => .inl⟩

/-- A pure check in front of `f`: only its value gets through. -/
theorem locked_ofExcept_bind {held : E.Lock → Prop} {x : Except ε α}
    {f : α → Program Reply ε β} (hf : ∀ a, x = .ok a → E.Locked held (f a)) :
    E.Locked held (.ofExcept x >>= f) := by
  cases x with
  | ok a => exact hf a rfl
  | error e => exact trivial

/-- A pure check touches no cell. -/
theorem locked_ofExcept {held : E.Lock → Prop} (x : Except ε α) :
    E.Locked held (.ofExcept x : Program Reply ε α) := by
  cases x with
  | ok a => exact trivial
  | error e => exact trivial

/-- A single statement follows the discipline when all its replies are covered. -/
theorem locked_stmt {held : E.Lock → Prop} {s : Stmt} (h : ∀ r, E.Covered held s r) :
    E.Locked held (.stmt s : Program Reply ε (Reply s)) :=
  fun r _ => ⟨h r, trivial⟩

/-- A statement in front of `f`: `f` runs with the lock that the statement took. -/
theorem locked_stmt_bind {held : E.Lock → Prop} {s : Stmt} {f : Reply s → Program Reply ε α}
    (h : ∀ r, E.Covered held s r)
    (hf : ∀ r, E.Replies s r → E.Locked (E.holding held s r) (f r)) :
    E.Locked held (.stmt s >>= f) :=
  fun r hr => ⟨h r, hf r hr⟩

/-- A statement that reads and writes only the cell `c` is settled by the lock of `c`. -/
theorem settled_of_cell {held : E.Lock → Prop} {s : Stmt} {r : Reply s} (c : E.Cell)
    (hheld : held (E.guard c))
    (hcongr : ∀ i v v', v c = v' c → E.run s i v = E.run s i v')
    (hwrites : ∀ i v r w₁, E.run s i v = some (r, w₁) → ∀ c', w₁ c' ≠ none → c' = c) :
    E.Settled held s r where
  congr i v v' w₁ hv hr := by
    rw [← hcongr i v v' (hv c hheld)]
    exact hr
  writes i v w₁ hr c' hc' := by
    rw [hwrites i v r w₁ hr c' hc']
    exact hheld

/-- A statement whose every reply and write is the same on all views, and which writes
nothing, is settled without a lock. -/
theorem settled_of_constant {held : E.Lock → Prop} {s : Stmt} {r : Reply s}
    (h : ∀ i v v', E.run s i v = E.run s i v')
    (hw : ∀ i v w₁, E.run s i v = some (r, w₁) → w₁ = E.noWrites) : E.Settled held s r where
  congr i v v' w₁ _ hr := by rw [← h i v v']; exact hr
  writes i v w₁ hr c hc := by
    rw [hw i v w₁ hr] at hc
    exact absurd rfl hc

end Engine

end Transaction
