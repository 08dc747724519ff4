/-
  GraphQLCheck.Outcome
  ────────────────────
  What a computation comes to that may fail, and that may also have no end.

  A default value may be worth an object that takes the same default again.  Such a value has no end;
  it is told apart from one that there is a reason to refuse.
-/

namespace GraphQLCheck

/-- What a computation comes to. -/
inductive Outcome (ε α : Type) where
  /-- It ends with a value. -/
  | value (a : α)
  /-- It ends without one. -/
  | failure (e : ε)
  /-- It goes on for ever. -/
  | endless
  deriving DecidableEq, Repr

namespace Outcome

variable {ε ε' α β γ : Type}

/-- Go on with the value, if there is one. -/
def bind (outcome : Outcome ε α) (next : α → Outcome ε β) : Outcome ε β :=
  match outcome with
  | .value a => next a
  | .failure e => .failure e
  | .endless => .endless

/-- Change the value, if there is one. -/
def map (f : α → β) (outcome : Outcome ε α) : Outcome ε β := outcome.bind fun a => .value (f a)

instance : Monad (Outcome ε) where
  pure := .value
  bind := bind
  map := map

/-- Change the reason of a failure. -/
def mapFailure (f : ε → ε') : Outcome ε α → Outcome ε' α
  | .value a => .value a
  | .failure e => .failure (f e)
  | .endless => .endless

/-- The value, or none where the computation fails; nothing fails any more. -/
def attempt : Outcome ε α → Outcome ε' (Option α)
  | .value a => .value (some a)
  | .failure _ => .value none
  | .endless => .endless

/-- The value, or the reason that there is none; nothing fails any more. -/
def settle : Outcome ε α → Outcome ε' (Except ε α)
  | .value a => .value (.ok a)
  | .failure e => .value (.error e)
  | .endless => .endless

/-- The value, if there is one. -/
def value? : Outcome ε α → Option α
  | .value a => some a
  | _ => none

/-- A value that may be missing; a missing one is a failure. -/
def ofOption (e : ε) : Option α → Outcome ε α
  | some a => .value a
  | none => .failure e

/-- What has come to its end. -/
def ofExcept : Except ε α → Outcome ε α
  | .ok a => .value a
  | .error e => .failure e

@[simp] theorem bind_value (a : α) (next : α → Outcome ε β) :
    (Outcome.value a >>= next) = next a := rfl

@[simp] theorem bind_failure (e : ε) (next : α → Outcome ε β) :
    (Outcome.failure e >>= next) = .failure e := rfl

@[simp] theorem bind_endless (next : α → Outcome ε β) :
    ((Outcome.endless : Outcome ε α) >>= next) = .endless := rfl

instance : LawfulMonad (Outcome ε) :=
  LawfulMonad.mk' _ (by intro α x; cases x <;> rfl) (by intros; rfl)
    (by intro α β γ x f g; cases x <;> rfl)

/-- What follows a computation ends with a value only if the computation does. -/
theorem bind_eq_value_iff {outcome : Outcome ε α} {next : α → Outcome ε β} {b : β} :
    (outcome >>= next) = .value b ↔ ∃ a, outcome = .value a ∧ next a = .value b := by
  cases outcome <;> simp

end Outcome

end GraphQLCheck
