/-
  GraphQLCheck.Command.CoerceVariables
  ────────────────────────────────────
  The command `coerce-variables`: the values of the variables of one operation.
-/
import GraphQLCheck.Command.Task
import GraphQLCheck.Command.Usage

namespace GraphQLCheck

namespace CoerceOptions

/-- What is said when there is no operation to take. -/
def missingOperation (name : Option String) (operationCount : Nat) : String :=
  match name, operationCount with
  | some name, _ => "No operation named `" ++ name ++ "` was found."
  | none, 0 => "The document does not define any operations."
  | none, _ => "The document defines more than one operation; pass --operation to pick one."

/-- What is said of a document that is not valid. -/
def invalidDocument (path : String) (errors : List ValidationError) : String :=
  redCross ++ " " ++ path ++ " is not valid:\n" ++ bulletList (errors.map (·.message))

/-- The inputs; without a file there are none. -/
def readInputs (files : FileLookup) (options : CoerceOptions) : Task Variables :=
  match options.variablesFile with
  | some path => readVariables files path
  | none => return []

/-- Coerce the variables of an operation. -/
def run (files : FileLookup) (options : CoerceOptions) : Task Report := do
  let schema ← loadSchema files options.schemas
  let document ← Task.ofLogged (.document options.document)
    (readDocument options.document (files options.document))
  let errors ← Task.lift (checkedDocument schema document)
  if !isValid errors then return .failure (invalidDocument options.document errors)
  match document.operation? options.operation with
  | none =>
    return .failure (redCross ++ " "
      ++ missingOperation options.operation document.operations.length)
  | some operation =>
    let inputs ← options.readInputs files
    let values ← Task.ofOutcome .coercion (coercedVariables schema operation inputs)
    return .success (Json.object values).pretty

end CoerceOptions

end GraphQLCheck
