/-
  GraphQLCheck.Validation.TypeRules
  ─────────────────────────────────
  Rules about types.  Each looks at one node at a time.

      scalarLeafs                — what has parts is selected on, and nothing else
      argumentsOfCorrectType     — arguments are acceptable at the types of their parameters
      defaultValuesOfCorrectType — so are the defaults of variables, and they can be used
-/
import GraphQLCheck.Coercion.Check
import GraphQLCheck.Validation.OperationRules

namespace GraphQLCheck

namespace Rule

/-! ## §1. Selections. -/

/-- The error of a field of a type.  An enum or a scalar has no parts to select, and anything else has
to be selected on.  Nothing is said of a type that is not known. -/
def fieldLeafError? (schema : Schema) (type : Option TypeRef) (field : Field) :
    Option ValidationError := do
  let type ← type
  let named ← schema.namedType? type
  if named.isLeaf = field.hasSubSelection then
    some
      { message := "Field " ++ field.name ++ " of type " ++ type.render ++ " must "
          ++ (if named.isLeaf then "not " else "") ++ "have a sub selection"
        locations := [field.location] }
  else none

/-- What has parts is selected on, and nothing else. -/
def scalarLeafs : Rule :=
  stateless "ScalarLeafs" fun step =>
    match step.event with
    | .enter (.field f) => (fieldLeafError? step.schema step.tracker.currentType f).toList
    | _ => []

/-! ## §2. Values. -/

/-- An error with a line for each problem, if there is any. -/
def problemsError (message : String) (location : Location) :
    List (Problem Literal) → List ValidationError
  | [] => []
  | problems =>
    [{ message := "\n".intercalate (message :: problems.map (·.literalMessage))
       locations := [location] }]

/-- Arguments are acceptable at the types of their parameters.  One without a parameter is passed
over. -/
def argumentsOfCorrectType : Rule :=
  stateless "ArgumentsOfCorrectType" fun step =>
    match step.event, step.tracker.argument with
    | .enter (.argument a), some parameter =>
      problemsError
        ("Argument \"" ++ a.name ++ "\" has invalid value " ++ a.value.render ++ ".")
        a.location (a.value.problems step.schema parameter.type)
    | _, _ => []

/-- The error of a default of a variable. -/
def defaultErrors (schema : Schema) (definition : VariableDefinition) (default : Literal) :
    List ValidationError :=
  let type := TypeRef.ofExpr definition.type
  let variableText := "Variable \"$" ++ definition.name ++ "\" of type \"" ++ type.render ++ "\""
  if type.isNonNull then
    [{ message := variableText
         ++ " is required and will not use the default value. Perhaps you meant to use type \""
         ++ type.nullable.render ++ "\"."
       locations := [definition.location] }]
  else
    problemsError (variableText ++ " has invalid default value " ++ default.render ++ ".")
      definition.location (default.problems schema type)

/-- Defaults of variables are acceptable at the types of the variables, and no variable that excludes
null has one. -/
def defaultValuesOfCorrectType : Rule :=
  stateless "DefaultValuesOfCorrectType" fun step =>
    match step.event with
    | .enter (.variableDefinition definition) =>
      (definition.defaultValue.map (defaultErrors step.schema definition)).getD []
    | _ => []

/-! ## §3. All rules. -/

/-- The rules that a document is checked against unless others are named. -/
def defaults : List Rule :=
  [uniqueOperationNames, loneAnonymousOperation, scalarLeafs, argumentsOfCorrectType,
   defaultValuesOfCorrectType]

end Rule

end GraphQLCheck
