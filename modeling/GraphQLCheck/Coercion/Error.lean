/-
  GraphQLCheck.Coercion.Error
  ───────────────────────────
  Why the variables of an operation, or the arguments of a field, have no values.
  `CoercionError.message` holds the wording.
-/
import GraphQLCheck.Coercion.Check

namespace GraphQLCheck

/-- Why a variable cannot take the value that it is to have. -/
inductive ValueFault where
  /-- The input is not acceptable at the variable's type. -/
  | problems (problems : List (Problem Json))
  /-- The default is worth nothing at the variable's type. -/
  | uncoercibleDefault (default : Literal)

/-- The text of a fault, a line for each problem. -/
def ValueFault.message : ValueFault → String
  | .problems found => "\n".intercalate (found.map (·.valueMessage))
  | .uncoercibleDefault default => "Default value " ++ default.render ++ " is not coercible."

/-- Why there are no values for variables or arguments. -/
inductive CoercionError where
  /-- A parameter that excludes null has no value. -/
  | invalidArgument (argumentName fieldName : String) (type : TypeRef)
  | invalidVariable (variableName typeName : String) (fault : ValueFault)
  /-- A variable that excludes null has no value. -/
  | missingVariable (variableName typeName : String)
  | nonInputVariable (variableName typeName : String)
  | unknownVariableType (variableName typeName : String)

namespace CoercionError

/-- The text of an error. -/
def message : CoercionError → String
  | .invalidArgument argumentName fieldName type =>
    "Argument '" ++ argumentName ++ "' of required type '" ++ type.render ++ "' on field '" ++ fieldName
      ++ "' was not provided."
  | .invalidVariable variableName typeName _ =>
    "Variable '$" ++ variableName ++ "' expected value of type '" ++ typeName ++ "'."
  | .missingVariable variableName typeName =>
    "Variable '$" ++ variableName ++ "' of required type '" ++ typeName ++ "' was not provided."
  | .nonInputVariable variableName typeName =>
    "Variable '$" ++ variableName ++ "' expected value of type '" ++ typeName
      ++ "' which cannot be used as an input type."
  | .unknownVariableType variableName typeName =>
    "Variable '$" ++ variableName ++ "' has unknown type '" ++ typeName ++ "'."

/-- What led to an error. -/
def fault? : CoercionError → Option ValueFault
  | .invalidVariable _ _ fault => some fault
  | _ => none

end CoercionError

end GraphQLCheck
