/-
  GraphQLCheck.Validation.OperationRules
  ──────────────────────────────────────
  Rules about the names of operations.

      uniqueOperationNames   — no two operations share a name
      loneAnonymousOperation — an operation without a name is the only one
-/
import GraphQLCheck.Validation.Rule

namespace GraphQLCheck

/-- The operation that a step enters, if it does. -/
def Event.operation? : Event → Option Operation
  | .enter (.operation op) => some op
  | _ => none

namespace Rule

/-! ## §1. No two operations share a name. -/

/-- The first place of each name so far, with that of an operation that is met now. -/
def noteName (places : List (String × Location)) (operation : Operation) :
    List (String × Location) :=
  match operation.name with
  | some name => if (places.lookup name).isSome then places else (name, operation.location) :: places
  | none => places

/-- The error of an operation whose name has a first place already. -/
def sharedName (places : List (String × Location)) (operation : Operation) :
    List ValidationError :=
  match operation.name.bind fun name => (places.lookup name).map (name, ·) with
  | some (name, first) =>
    [{ message := "There can only be one operation named \"" ++ name ++ "\"."
       locations := [first, operation.location] }]
  | none => []

/-- No two operations share a name. -/
def uniqueOperationNames : Rule where
  name := "UniqueOperationNames"
  State := List (String × Location)
  start := []
  next step places := (step.event.operation?.map (noteName places)).getD places
  report step places := (step.event.operation?.map (sharedName places)).getD []

/-! ## §2. An operation without a name is the only one. -/

/-- The error of an operation without a name among `count` operations. -/
def namelessAmong (count : Nat) (operation : Operation) : List ValidationError :=
  if operation.name.isNone && 1 < count then
    [{ message := "This anonymous operation must be the only defined operation."
       locations := [operation.location] }]
  else []

/-- An operation without a name is the only one.  The operations are counted on entering the
document. -/
def loneAnonymousOperation : Rule where
  name := "LoneAnonymousOperation"
  State := Nat
  start := 0
  next step count :=
    match step.event with
    | .enter (.document d) => d.operations.length
    | _ => count
  report step count := (step.event.operation?.map (namelessAmong count)).getD []

end Rule

end GraphQLCheck
