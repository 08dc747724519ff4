/-
  GraphQLCheck.Coercion.Variables
  ───────────────────────────────
  The values of the variables of an operation, from the inputs that were sent with it.

      VariableDefinition.resolve — the value of one variable, if it has one
      Schema.coerceVariables     — the values of all of them, in order; the first error ends it
-/
import GraphQLCheck.Coercion.Error
import GraphQLCheck.Coercion.Value
import GraphQLCheck.Document.Basic

namespace GraphQLCheck

namespace VariableDefinition

/-- The type of a variable. -/
def typeRef (definition : VariableDefinition) : TypeRef := .ofExpr definition.type

/-- A variable of no input type has no values. -/
def inputTypeError? (schema : Schema) (definition : VariableDefinition) : Option CoercionError :=
  let typeName := definition.typeRef.typeName
  match schema.find? typeName with
  | none => some (.unknownVariableType definition.name typeName)
  | some type => if type.isInput then none else some (.nonInputVariable definition.name typeName)

/-- The error of a variable that needs a value and has none. -/
def missing (definition : VariableDefinition) : CoercionError :=
  .missingVariable definition.name definition.typeRef.typeName

/-- The error of a variable that cannot take a value. -/
def invalid (definition : VariableDefinition) (fault : ValueFault) : CoercionError :=
  .invalidVariable definition.name definition.typeRef.typeName fault

/-- The value of a variable that no input is sent for: its default, if it has one. -/
def resolveOmitted (schema : Schema) (definition : VariableDefinition) :
    Outcome CoercionError (Option Json) :=
  match definition.defaultValue with
  | some default =>
    ((schema.literalValue [] definition.typeRef default).mapFailure fun _ =>
      definition.invalid (.uncoercibleDefault default)).map some
  | none => if definition.typeRef.isNonNull then .failure definition.missing else .value none

/-- The value of a variable that an input is sent for.  An input other than null must have no problem
at the type. -/
def resolveInput (schema : Schema) (definition : VariableDefinition) (input : Json) :
    Outcome CoercionError Json :=
  let type := definition.typeRef
  if input.isNull then
    if type.isNonNull then .failure definition.missing else .value .null
  else
    match input.problems schema type with
    | [] => (schema.coerceValue type input).mapFailure fun _ => definition.invalid (.problems [])
    | problems => .failure (definition.invalid (.problems problems))

/-- The value of a variable, if it has one. -/
def resolve (schema : Schema) (inputs : Variables) (definition : VariableDefinition) :
    Outcome CoercionError (Option Json) :=
  match definition.inputTypeError? schema with
  | some error => .failure error
  | none =>
    match inputs.lookup definition.name with
    | some input => (definition.resolveInput schema input).map some
    | none => definition.resolveOmitted schema

end VariableDefinition

namespace Schema

/-- The values of variables, after those that are there already. -/
def coerceDefinitions (schema : Schema) (inputs : Variables) (values : Variables) :
    List VariableDefinition → Outcome CoercionError Variables
  | [] => .value values
  | definition :: definitions => do
    match ← definition.resolve schema inputs with
    | some value =>
      schema.coerceDefinitions inputs (Entries.put values definition.name value) definitions
    | none => schema.coerceDefinitions inputs values definitions

/-- The values of the variables of an operation.  Inputs for other names have no effect. -/
def coerceVariables (schema : Schema) (operation : Operation) (inputs : Variables) :
    Outcome CoercionError Variables :=
  schema.coerceDefinitions inputs [] operation.variableDefinitions

end Schema

end GraphQLCheck
