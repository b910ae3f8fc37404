import CanonicalApi.Lib.Interleaving
import Mathlib.Logic.Relation

/-!
# `CanonicalApi.Lib.Statements`: what a transaction program can send to the server

`Sends` says that a program can send a statement, and `Commits` that it can commit with a
value, when every statement is answered as `answers` allows. `Ensures` is the weakest
precondition for both: it is computed along the program, and composes over `>>=`.

`Becomes` is one step in the life of a process of a `Service`: the end of its transaction, a
move of its own, or the start of another process. `Keeps` is the invariant rule for whole
lives.
-/

set_option autoImplicit false

namespace Transaction

namespace Program

variable {Stmt : Type} {Reply : Stmt → Type} {ε α β : Type}
  (answers : (s : Stmt) → Reply s → Prop)

/-- The program can send the statement. -/
def Sends : Program Reply ε α → Stmt → Prop
  | commit _, _ => False
  | rollback _, _ => False
  | exec s next, t => t = s ∨ ∃ r, answers s r ∧ (next r).Sends t

/-- The program can commit with the value. -/
def Commits : Program Reply ε α → α → Prop
  | commit a, b => b = a
  | rollback _, _ => False
  | exec s next, b => ∃ r, answers s r ∧ (next r).Commits b

variable (P : Stmt → Prop)

/-- Every statement that the program sends satisfies `P`, and every value that it commits with
satisfies `Q`. -/
def Ensures : Program Reply ε α → (α → Prop) → Prop
  | commit a, Q => Q a
  | rollback _, _ => True
  | exec s next, Q => P s ∧ ∀ r, answers s r → (next r).Ensures Q

variable {answers P} {Q Q' : α → Prop}

/-- The recursive definition says what one expects: every statement that the program can send meets
`P`, and every result that it can commit meets `Q`. -/
theorem ensures_iff (p : Program Reply ε α) :
    p.Ensures answers P Q ↔ (∀ s, p.Sends answers s → P s) ∧ ∀ a, p.Commits answers a → Q a := by
  induction p with
  | commit a => simp [Ensures, Sends, Commits]
  | rollback e => simp [Ensures, Sends, Commits]
  | exec s next ih =>
    constructor
    · intro h
      refine ⟨fun t ht => ?_, fun a ⟨r, hr, ha⟩ => ((ih r).mp (h.2 r hr)).2 a ha⟩
      cases ht with
      | inl heq => exact heq ▸ h.1
      | inr hnext =>
        obtain ⟨r, hr, ht⟩ := hnext
        exact ((ih r).mp (h.2 r hr)).1 t ht
    · intro h
      -- A statement and what follows it: both halves hold of every reply.
      have hnext : ∀ r, answers s r → (next r).Ensures answers P Q := fun r hr =>
        (ih r).mpr ⟨fun t ht => h.1 t (.inr ⟨r, hr, ht⟩), fun a ha => h.2 a ⟨r, hr, ha⟩⟩
      exact ⟨h.1 s (.inl rfl), hnext⟩

/-- A commit sends nothing more. -/
@[simp] theorem ensures_commit (a : α) :
    (commit a : Program Reply ε α).Ensures answers P Q ↔ Q a := Iff.rfl

/-- A rollback sends nothing more and commits nothing. -/
@[simp] theorem ensures_rollback (e : ε) :
    (rollback e : Program Reply ε α).Ensures answers P Q ↔ True := Iff.rfl

/-- A statement is sent, and the program goes on with one of the replies that it can get. -/
@[simp] theorem ensures_exec (s : Stmt) (next : Reply s → Program Reply ε α) :
    (exec s next).Ensures answers P Q ↔
      P s ∧ ∀ r, answers s r → (next r).Ensures answers P Q := Iff.rfl

/-- The rule for sequencing. -/
@[simp] theorem ensures_bind (p : Program Reply ε α) (f : α → Program Reply ε β)
    (R : β → Prop) :
    (p >>= f).Ensures answers P R ↔
      p.Ensures answers P fun a => (f a).Ensures answers P R := by
  induction p with
  | commit a => rfl
  | rollback e => rfl
  | exec s next ih => exact and_congr_right fun _ => forall₂_congr fun r _ => ih r

/-- The program of one statement commits its reply. -/
@[simp] theorem ensures_stmt (s : Stmt) (Q : Reply s → Prop) :
    (stmt s : Program Reply ε (Reply s)).Ensures answers P Q ↔ P s ∧ ∀ r, answers s r → Q r :=
  Iff.rfl

/-- A computation sends no statement. An error of it rolls back. -/
@[simp] theorem ensures_ofExcept (r : Except ε α) :
    (ofExcept r : Program Reply ε α).Ensures answers P Q ↔ ∀ a, r = .ok a → Q a := by
  cases r <;> simp [ofExcept]

/-- What is shown of the results may be weakened. -/
theorem Ensures.mono {p : Program Reply ε α} (h : p.Ensures answers P Q)
    (hQ : ∀ a, Q a → Q' a) : p.Ensures answers P Q' := by
  rw [ensures_iff] at h ⊢
  exact ⟨h.1, fun a ha => hQ a (h.2 a ha)⟩

end Program

/-! ### The life of a process -/

namespace Service

variable {Stmt : Type} {Reply : Stmt → Type} {E : Engine Stmt Reply} {ε α : Type}
  (S : Service E ε α) (answers : (s : Stmt) → Reply s → Prop)

/-- One step in the life of a process: its transaction commits or fails, it moves by itself, or
it starts another process. -/
inductive Becomes : S.Proc → S.Proc → Prop
  | commits {p : S.Proc} {prog : Program Reply ε α} {a : α} : S.body p = some prog →
      prog.Commits answers a → Becomes p (S.resume p (.ok a))
  | fails {p : S.Proc} {prog : Program Reply ε α} (e : ε) : S.body p = some prog →
      Becomes p (S.resume p (.error e))
  | moves {p p' : S.Proc} {e : S.Event} {child : Option S.Proc} :
      S.advance p e = some (p', child) → Becomes p p'
  | spawns {p p' child : S.Proc} {e : S.Event} :
      S.advance p e = some (p', some child) → Becomes p child

/-- What a process can become in any number of steps. -/
def Descends : S.Proc → S.Proc → Prop := Relation.ReflTransGen (S.Becomes answers)

/-- A process or one that it becomes can send the statement. -/
def Writes (p : S.Proc) (s : Stmt) : Prop :=
  ∃ p' prog, S.Descends answers p p' ∧ S.body p' = some prog ∧ prog.Sends answers s

/-- The property `I` of processes is kept for life, and the statements satisfy `P`. -/
structure Keeps (P : Stmt → Prop) (I : S.Proc → Prop) : Prop where
  body : ∀ p prog, I p → S.body p = some prog →
    prog.Ensures answers P fun a => I (S.resume p (.ok a))
  fault : ∀ p e, I p → I (S.resume p (.error e))
  advance : ∀ p e p' child, I p → S.advance p e = some (p', child) → I p' ∧ ∀ c ∈ child, I c

variable {S answers} {P : Stmt → Prop} {I : S.Proc → Prop} {p p' : S.Proc}

/-- A process that keeps `I` keeps it over one step of its own. -/
theorem Keeps.becomes (h : S.Keeps answers P I) (hp : I p) (hstep : S.Becomes answers p p') :
    I p' := by
  cases hstep with
  | commits hbody hcommits =>
    exact ((Program.ensures_iff _).mp (h.body _ _ hp hbody)).2 _ hcommits
  | fails e hbody => exact h.fault _ e hp
  | moves hadvance => exact (h.advance _ _ _ _ hp hadvance).1
  | spawns hadvance => exact (h.advance _ _ _ _ hp hadvance).2 _ rfl

/-- A process that keeps `I` keeps it over all steps of its own. The other processes do not
matter. -/
theorem Keeps.descends (h : S.Keeps answers P I) (hp : I p) (hrun : S.Descends answers p p') :
    I p' := by
  induction hrun with
  | refl => exact hp
  | tail _ hstep ih => exact h.becomes ih hstep

/-- The invariant rule: every statement in the life of a process satisfies `P`. -/
theorem Keeps.writes (h : S.Keeps answers P I) (hp : I p) {s : Stmt}
    (hs : S.Writes answers p s) : P s := by
  obtain ⟨p', prog, hrun, hbody, hsends⟩ := hs
  exact ((Program.ensures_iff _).mp (h.body p' prog (h.descends hp hrun) hbody)).1 s hsends

/-- A process writes what its own transaction sends. -/
theorem writes_of_sends {prog : Program Reply ε α} {s : Stmt} (hbody : S.body p = some prog)
    (hs : prog.Sends answers s) : S.Writes answers p s :=
  ⟨p, prog, .refl, hbody, hs⟩

end Service

end Transaction
