import Mathlib.Data.List.Forall2

/-!
# `CanonicalApi.Lib.Noninterference`: two runs of a client that look alike

A client of a shared state goes on from one of its stages to the next with the state that it
finds, and may change this state. In a session its own moves alternate with those of others,
which may leave any state behind.

`Agree` says what two states have in common as far as a client can see. Two clients are
`Alike` when one move in states that agree leads both to the same stage and to states that
agree. `Alike.run` carries this over to sessions: as long as the others keep the agreement, the
clients go through the same stages.
-/

set_option autoImplicit false

namespace Noninterference

variable {State Stage Input : Type}

/-- A move of a session: the client's own, or others leave a state behind. -/
inductive Move (State Input : Type) where
  | own (input : Input)
  | outside (state : State)

/-- The same move of the client, or others who leave states that agree. -/
inductive Move.Agrees (Agree : State → State → Prop) :
    Move State Input → Move State Input → Prop where
  | own (input : Input) : Agrees Agree (.own input) (.own input)
  | outside {state state' : State} : Agree state state' →
      Agrees Agree (.outside state) (.outside state')

/-- The same session twice, when the others leave only states that meet `P`. -/
theorem agrees_self {P : State → Prop} {moves : List (Move State Input)}
    (h : ∀ state, .outside state ∈ moves → P state) :
    List.Forall₂ (Move.Agrees fun state state' => state = state' ∧ P state) moves moves := by
  rw [List.forall₂_same]
  intro move hmove
  cases move with
  | own input => exact .own input
  | outside state => exact .outside ⟨rfl, h state hmove⟩

/-- A session from a state and a stage, if the client can make its moves. -/
def run (step : State → Stage → Input → Option (State × Stage)) (state : State) (stage : Stage) :
    List (Move State Input) → Option (State × Stage)
  | [] => some (state, stage)
  | .own input :: moves =>
      (step state stage input).bind fun (state, stage) => run step state stage moves
  | .outside state :: moves => run step state stage moves

/-- The stage at the end of a session. -/
def outcome (step : State → Stage → Input → Option (State × Stage)) (state : State)
    (stage : Stage) (moves : List (Move State Input)) : Option Stage :=
  (run step state stage moves).map Prod.snd

/-- States that agree, with one stage that meets `Stays`. -/
structure Together (Agree : State → State → Prop) (Stays : Stage → Prop)
    (x x' : State × Stage) : Prop where
  agree : Agree x.1 x'.1
  stage : x.2 = x'.2
  stays : Stays x.2

/-- In states that agree the two clients make the same move, and no other stages than those
in `Stays` follow. -/
def Alike (Agree : State → State → Prop) (Stays : Stage → Prop)
    (step step' : State → Stage → Input → Option (State × Stage)) : Prop :=
  ∀ state state' stage input, Agree state state' → Stays stage →
    Option.Rel (Together Agree Stays) (step state stage input) (step' state' stage input)

/-- Results that are related stay so when the session goes on. -/
theorem rel_bind {α β : Type} {R : α → α → Prop} {S : β → β → Prop} {x x' : Option α}
    {f f' : α → Option β} (h : Option.Rel R x x')
    (hf : ∀ a a', R a a' → Option.Rel S (f a) (f' a')) :
    Option.Rel S (x.bind f) (x'.bind f') := by
  cases h with
  | some hR => exact hf _ _ hR
  | none => exact .none

variable {Agree : State → State → Prop} {Stays : Stage → Prop}
  {step step' : State → Stage → Input → Option (State × Stage)} {state state' : State}
  {stage : Stage} {moves moves' : List (Move State Input)}

/-- Two results that are together have one stage. -/
theorem stage_eq {x x' : Option (State × Stage)} (h : Option.Rel (Together Agree Stays) x x') :
    x.map Prod.snd = x'.map Prod.snd := by
  cases h with
  | some htogether => exact congrArg some htogether.stage
  | none => rfl

/-- Clients that are alike stay together while the others keep the agreement. -/
theorem Alike.run (h : Alike Agree Stays step step')
    (hmoves : List.Forall₂ (Move.Agrees Agree) moves moves') (hagree : Agree state state')
    (hstays : Stays stage) :
    Option.Rel (Together Agree Stays) (run step state stage moves)
      (run step' state' stage moves') := by
  induction hmoves generalizing state state' stage with
  | nil => exact .some ⟨hagree, rfl, hstays⟩
  | cons hmove _ ih =>
    cases hmove with
    | own input =>
      show Option.Rel _ ((step state stage input).bind _) ((step' state' stage input).bind _)
      -- The step ends in the same stage on both sides, and so the runs go on together.
      refine rel_bind (h state state' stage input hagree hstays) fun x x' htogether => ?_
      show Option.Rel _ (Noninterference.run step x.1 x.2 _)
        (Noninterference.run step' x'.1 x'.2 _)
      rw [← htogether.stage]
      exact ih htogether.agree htogether.stays
    | outside hstates => exact ih hstates hstays

/-- They end at the same stage. -/
theorem Alike.outcome (h : Alike Agree Stays step step')
    (hmoves : List.Forall₂ (Move.Agrees Agree) moves moves') (hagree : Agree state state')
    (hstays : Stays stage) :
    outcome step state stage moves = outcome step' state' stage moves' :=
  stage_eq (h.run hmoves hagree hstays)

end Noninterference
