/-
  GraphQLCheck.Coercion.Problem
  ─────────────────────────────
  What is wrong with a value that is offered for a type.

  A `Problem` is a `Violation` together with the way to it from the whole value.  The same problems
  are found in literals and in runtime values, so both types take the kind of value as a parameter.

      TypeDef.leafProblems           — a value read as a whole by an enum or a scalar
      InputObjectType.memberProblems — the fields of an input object
-/
import GraphQLCheck.Schema.Basic

namespace GraphQLCheck

/-! ## §1. Problems. -/

/-- A step from a value to a part of it. -/
inductive PathStep where
  /-- To an element of a list, counted from 0. -/
  | element (index : Nat)
  /-- To a field of an object. -/
  | field (name : String)
  deriving DecidableEq, Repr

/-- The text of a step. -/
def PathStep.render : PathStep → String
  | .element index => "In element " ++ Text.showNat index ++ ": "
  | .field name => "In field \"" ++ name ++ "\": "

/-- What is wrong with one part of a value. -/
inductive Violation (α : Type) where
  /-- A null literal, or none at all, where null is excluded.  The type that was expected is not known
  where it has a name that is not defined. -/
  | nullLiteral (expected : Option TypeRef)
  /-- A runtime null where null is excluded. -/
  | nullValue (type : TypeRef)
  | unknownType (name : String)
  /-- Something else where an object is needed. -/
  | notAnObject (typeName : String)
  /-- A field that the type does not declare. -/
  | unknownField
  /-- A value that the type does not accept. -/
  | refused (typeName : String) (found : α)
  deriving Repr

/-- The text of a violation, given how values are written. -/
def Violation.message (write : α → String) : Violation α → String
  | .nullLiteral (some expected) => "Expected " ++ expected.render ++ ", found null"
  | .nullLiteral none => "Expected non-null value, found null"
  | .nullValue type => "Expected \"" ++ type.render ++ "\", found null."
  | .unknownType name => "Unknown type \"" ++ name ++ "\"."
  | .notAnObject typeName => "Expected \"" ++ typeName ++ "\", found not an object."
  | .unknownField => "Unknown field."
  | .refused typeName found => "Expected type \"" ++ typeName ++ "\", found " ++ write found ++ "."

/-- A violation, and the steps that lead to where it is. -/
structure Problem (α : Type) where
  path : List PathStep
  violation : Violation α
  deriving Repr

namespace Problem

/-- A violation of the value itself. -/
def here (violation : Violation α) : Problem α := ⟨[], violation⟩

/-- A problem of a part, as one of the whole. -/
def within (step : PathStep) (problem : Problem α) : Problem α :=
  { problem with path := step :: problem.path }

/-- The text of a problem, given how values are written. -/
def message (write : α → String) (problem : Problem α) : String :=
  String.join (problem.path.map (·.render)) ++ problem.violation.message write

/-- A step to a part stands before the text of the part's problem. -/
theorem message_within (write : α → String) (step : PathStep) (problem : Problem α) :
    (problem.within step).message write = step.render ++ problem.message write := by
  simp [message, within, String.join_cons, String.append_assoc]

end Problem

/-! ## §2. Problems of lists and objects. -/

/-- The problems of the elements of a list, in order. -/
def Problem.inElements (elements : List (List (Problem α))) : List (Problem α) :=
  elements.zipIdx.flatMap fun (problems, index) => problems.map (·.within (.element index))

/-- The problem of a value that is read as a whole: `read` says what a type makes of it. -/
def Schema.leafProblems (schema : Schema) (read : TypeDef → Option Json) (found : α)
    (typeName : String) : List (Problem α) :=
  match schema.find? typeName with
  | none => [.here (.unknownType typeName)]
  | some (.inputObject type) => [.here (.notAnObject type.name)]
  | some type => if (read type).isSome then [] else [.here (.refused type.name found)]

/-- The problems of an object: first the fields that are not declared, in their order, and then the
declared ones in the order of their declarations.  `members` says of each field that is given which
problems it has at a type; `omitted` says so for all others. -/
def InputObjectType.memberProblems (type : InputObjectType) (omitted : TypeRef → List (Problem α))
    (members : List (String × (TypeRef → List (Problem α)))) : List (Problem α) :=
  let unknown := (members.map Prod.fst).filter fun name => !type.fields.contains name
  unknown.map (fun name => (Problem.here .unknownField).within (.field name)) ++
    type.fields.toList.flatMap fun field =>
      ((members.lookup field.name).getD omitted field.type).map (·.within (.field field.name))

end GraphQLCheck
