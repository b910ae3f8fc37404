import CanonicalApi.Lib.Interleaving
import CanonicalApi.Lib.SingleWriter

/-!
# `CanonicalApi.Lib.Writers`: single writers in a service

Two induction rules for the processes of a `Service`.

`AtomicStep.all` is for a fact about the store and one process at a time. It holds of every
process after a step when a change of the store keeps it, and each way to go on keeps it.

`Writers` is for claims (`SingleWriter`). It asks about one process at a time: only a commit
gives it a claim, and a commit either leaves the objects alone or is a `Write`. Then the claims
are exclusive in every reachable state.
-/

set_option autoImplicit false

namespace Transaction

namespace Service

open Transition (System)
open SingleWriter (Protocol Exclusive Succession Write claimsOf claimsOf_eq succession_put
  succession_remove exclusive_of_no_claims)

variable {Stmt : Type} {Reply : Stmt → Type} {E : Engine Stmt Reply} {ε α : Type}
  {S : Service E ε α}

/-- A fact about the store and a process, for every process after a step. -/
theorem AtomicStep.all {I : E.Db → S.Proc → Prop} {c c' : S.Core} {a : S.Action}
    (h : S.AtomicStep c a c') (hall : ∀ pid p, c.procs pid = some p → I c.db p)
    (hstore : ∀ p, I c.db p → I c'.db p) (harrives : ∀ p, S.arrives p = true → I c'.db p)
    (hok : ∀ p prog x, I c.db p → S.body p = some prog → E.Runs c.db prog (.ok x) c'.db →
      I c'.db (S.resume p (.ok x)))
    (herror : ∀ p prog e, I c'.db p → S.body p = some prog → I c'.db (S.resume p (.error e)))
    (hadvance : ∀ p e p' child?, I c'.db p → S.advance p e = some (p', child?) →
      I c'.db p' ∧ ∀ q, child? = some q → I c'.db q) :
    ∀ pid p', c'.procs pid = some p' → I c'.db p' := by
  intro pid p' hp'
  -- Each process of the new state comes from somewhere, and each way in has its premise.
  cases h.origin hp' with
  | same hp => exact hstore p' (hall pid p' hp)
  | arrived _ h => exact harrives p' h
  | @resumed p prog res db' _ hp hbody hruns hdb hresume =>
    subst hresume
    have hbefore := hall pid p hp
    cases res with
    | ok x =>
      have hruns : E.Runs c.db prog (.ok x) c'.db := by
        rw [hdb]
        exact hruns
      exact hok p prog x hbefore hbody hruns
    | error e => exact herror p prog e (hstore p hbefore) hbody
  | @faulted p prog hp hbody hresume =>
    subst hresume
    exact herror p prog _ (hstore p (hall pid p hp)) hbody
  | @advanced p e child? hp hmove =>
    exact (hadvance p e p' child? (hstore p (hall pid p hp)) hmove).1
  | @started parent p q e _ hp hmove =>
    exact (hadvance p e q _ (hstore p (hall parent p hp)) hmove).2 p' rfl

/-- A process that is at a transaction moves alone. -/
theorem AtomicStep.alone {c c' : S.Core} {a : S.Action} (h : S.AtomicStep c a c') {pid : Nat}
    {p : S.Proc} {prog : Program Reply ε α} (hp : c.procs pid = some p)
    (hbody : S.body p = some prog) (hmoved : c'.procs pid ≠ some p) {pid' : Nat}
    (hne : pid' ≠ pid) : c'.procs pid' = c.procs pid' := by
  have hpid : a.pid = pid := by
    by_contra hother
    exact hmoved (h.kept hp hother)
  cases hp' : c.procs pid' with
  | some q =>
    apply h.kept hp'
    rw [hpid]
    exact Ne.symm hne
  | none =>
    apply h.absent hp'
    -- Only a process without a transaction starts another one.
    cases a with
    | arrive pid₁ q =>
      show some pid₁ ≠ some pid'
      rw [show pid₁ = pid from hpid]
      simpa using Ne.symm hne
    | advance pid₁ e child =>
      obtain ⟨q, q', child?, hq, hidle, -⟩ := h
      rw [show pid₁ = pid from hpid, hp] at hq
      cases hq
      rw [hbody] at hidle
      cases hidle
    | begin _ | stmt _ _ | finish _ | lose _ | fail _ | kill _ =>
      intro heq
      cases heq

variable {ι σ : Type} {P : Protocol σ} {status : E.Db → ι → Option σ}
  {claim : S.Proc → Option (ι × σ)}

/-- The processes of `S` write the objects of `status` one at a time, with the claims `claim`. A
claim is an object with the status that the process knows. It comes only from a commit that writes
the object, and an error or a move can only give it up. -/
structure Writers (S : Service E ε α) (P : Protocol σ) (status : E.Db → ι → Option σ)
    (claim : S.Proc → Option (ι × σ)) : Prop where
  absent : ∀ id, status S.start id = none
  arrives : ∀ p, S.arrives p = true → claim p = none
  error : ∀ p prog e, S.body p = some prog →
    claim (S.resume p (.error e)) = none ∨ claim (S.resume p (.error e)) = claim p
  advance : ∀ p e p' child?, S.advance p e = some (p', child?) →
    (claim p' = none ∨ claim p' = claim p) ∧ ∀ q, child? = some q → claim q = none
  commit : ∀ p prog x db db', S.body p = some prog → E.Runs db prog (.ok x) db' →
    (status db' = status db ∧
      (claim (S.resume p (.ok x)) = none ∨ claim (S.resume p (.ok x)) = claim p)) ∨
    ∃ id new, Write P (status db) (status db') (claim p) id new ∧
      (claim (S.resume p (.ok x)) = none ∨
        claim (S.resume p (.ok x)) = some (id, new) ∧ ¬ P.idle new) ∧
      ∀ e, claim (S.resume p (.error e)) = none

/-- A process that goes on with its claim or without, and starts a child without a claim. -/
theorem succession_advance {procs : Nat → Option S.Proc} {pid child : Nat} {p p' : S.Proc}
    {child? : Option S.Proc} (hp : procs pid = some p)
    (hkeep : claim p' = none ∨ claim p' = claim p)
    (hchild : ∀ q, child? = some q → claim q = none) :
    Succession (claimsOf claim procs)
      (claimsOf claim (S.spawn (S.put procs pid p') child child?)) pid pid
      (claimsOf claim procs pid) := by
  have hput : Succession (claimsOf claim procs) (claimsOf claim (S.put procs pid p')) pid pid
      (claimsOf claim procs pid) := by
    rw [claimsOf_eq hp]
    exact succession_put hkeep
  cases child? with
  | none => exact hput
  | some q =>
    intro pid' x hx
    by_cases hne : pid' = child
    · -- The child has no claim.
      rw [hne] at hx
      have hx : claimsOf claim (Function.update (S.put procs pid p') child (some q)) child =
          some x := hx
      rw [claimsOf_eq (Function.update_self ..), hchild q rfl] at hx
      cases hx
    · apply hput pid' x
      rw [← hx]
      show _ = claimsOf claim (Function.update (S.put procs pid p') child (some q)) pid'
      rw [claimsOf, claimsOf, Function.update_of_ne hne]

/-- A step keeps the claims exclusive. -/
theorem Writers.exclusive_step (hS : Writers S P status claim) {c c' : S.Core} {a : S.Action}
    (hc : Exclusive P (status c.db) (claimsOf claim c.procs)) (h : S.AtomicStep c a c') :
    Exclusive P (status c'.db) (claimsOf claim c'.procs) := by
  -- The process `pid` goes on with its claim or without, and the store stays as it is.
  have hkeep : ∀ {pid : Nat} {p p' : S.Proc}, c.procs pid = some p →
      (claim p' = none ∨ claim p' = claim p) →
      Exclusive P (status c.db) (claimsOf claim (S.put c.procs pid p')) := by
    intro pid p p' hp hkeep
    refine hc.succeed (succession_put ?_)
    rw [claimsOf_eq hp]
    exact hkeep
  -- The commit of `pid`, after which it goes on with the result or with an error.
  have hcommit : ∀ {pid : Nat} {p p' : S.Proc} {prog : Program Reply ε α} {x : α} {db' : E.Db},
      c.procs pid = some p → S.body p = some prog → E.Runs c.db prog (.ok x) db' →
      (p' = S.resume p (.ok x) ∨ p' = S.resume p (.error S.fault)) →
      Exclusive P (status db') (claimsOf claim (S.put c.procs pid p')) := by
    intro pid p p' prog x db' hp hbody hruns hp'
    rcases hS.commit p prog x c.db db' hbody hruns with
      ⟨hsame, hok⟩ | ⟨id, new, hwrite, hok, herror⟩
    · rw [hsame]
      rcases hp' with rfl | rfl
      · exact hkeep hp hok
      · exact hkeep hp (hS.error p prog _ hbody)
    · have hown : claimsOf claim c.procs pid = claim p := claimsOf_eq hp
      rw [← hown] at hwrite
      refine hc.write hwrite (succession_put (.inr rfl)) ?_
      rcases hp' with rfl | rfl
      · exact hok
      · exact .inl (herror _)
  cases a with
  | arrive pid p =>
    obtain ⟨harrives, -, rfl⟩ := h
    exact hc.succeed (succession_put (.inl (hS.arrives p harrives)))
  | begin pid =>
    obtain rfl := h
    exact hc
  | stmt pid i =>
    obtain rfl := h
    exact hc
  | finish pid =>
    obtain ⟨p, prog, res, db', hp, hbody, hruns, rfl⟩ := h
    cases res with
    | ok x => exact hcommit hp hbody hruns (.inl rfl)
    | error e => exact hkeep hp (hS.error p prog e hbody)
  | lose pid =>
    obtain ⟨-, p, prog, x, db', hp, hbody, hruns, rfl⟩ := h
    exact hcommit hp hbody hruns (.inr rfl)
  | fail pid =>
    obtain ⟨p, prog, hp, hbody, rfl⟩ := h
    exact hkeep hp (hS.error p prog _ hbody)
  | advance pid e child =>
    obtain ⟨p, p', child?, hp, -, hadvance, -, rfl⟩ := h
    obtain ⟨hown, hchild⟩ := hS.advance p e p' child? hadvance
    exact hc.succeed (succession_advance hp hown hchild)
  | kill pid =>
    obtain ⟨p, -, -, rfl⟩ := h
    exact hc.succeed succession_remove

/-- The claims are exclusive in every reachable state. -/
theorem Writers.exclusive (hS : Writers S P status claim) {c : S.Core}
    (hc : S.atomic.Reachable c) : Exclusive P (status c.db) (claimsOf claim c.procs) := by
  refine hc.induct (I := fun c => Exclusive P (status c.db) (claimsOf claim c.procs)) ?_ ?_
  · intro c hinit
    subst hinit
    exact exclusive_of_no_claims fun _ => rfl
  · exact fun _ _ _ _ ih _ hstep => hS.exclusive_step ih hstep

end Service

end Transaction
