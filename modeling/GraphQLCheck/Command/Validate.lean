/-
  GraphQLCheck.Command.Validate
  ─────────────────────────────
  The command `validate`: check documents against a schema and, if there is a variables file, coerce
  the variables of each of their operations.

      ValidateOptions.findDocuments — the documents to check
      ValidateOptions.run           — the report
-/
import GraphQLCheck.Command.Task
import GraphQLCheck.Command.Usage

namespace GraphQLCheck

/-! ## §1. Finding documents. -/

/-- A file that is to be checked. -/
structure FoundFile where
  path : String
  node : FileNode

namespace ValidateOptions

/-- The extensions of documents, without the points before them. -/
def bareExtensions (options : ValidateOptions) : List String :=
  (options.extensions.map fun extension =>
    String.ofList (extension.toList.dropWhile (· == '.'))).eraseDups

/-- Whether a file or a directory is a document by its extension. -/
def isDocument (options : ValidateOptions) (path : String) (node : FileNode) : Bool :=
  node.isFile && (FileNode.extension? path).any options.bareExtensions.contains

/-- The files and directories at and under the paths. -/
def entries (files : FileLookup) (options : ValidateOptions) : Task (List (String × FileNode)) := do
  let walks ← options.paths.mapM fun path =>
    match files path with
    | none => Task.fail (.scan path)
    | some node => do
      let walk := node.walk path
      walk.forM fun (path, node) =>
        Task.log .trace
          (if options.isDocument path node then "Found document at " ++ Text.quotePath path ++ "."
           else "Skipping " ++ Text.quotePath path ++ ".")
      return walk
  return walks.flatten

/-- The only path, if it leads to a file. -/
def onlyFile? (files : FileLookup) (options : ValidateOptions) : Option FoundFile :=
  match options.paths with
  | [path] => ((files path).filter (·.isFile)).map (⟨path, ·⟩)
  | _ => none

/-- The documents to check, and how many files and directories are none.  A single file is a document
whatever its extension. -/
def findDocuments (files : FileLookup) (options : ValidateOptions) : Task (List FoundFile × Nat) := do
  Task.log .debug ("Scanning " ++ Text.showNat options.paths.length ++ " input paths...")
  let entries ← options.entries files
  let (documents, others) := entries.partition fun (path, node) => options.isDocument path node
  match documents, options.onlyFile? files with
  | [], some file =>
    let extensions := options.bareExtensions.map fun extension => "`." ++ extension ++ "`"
    Task.log .warn ("Proceeding to validate " ++ Text.quotePath file.path
      ++ " even though it doesn't match any of the --graphql-file-exts ("
      ++ ", ".intercalate extensions ++ ").")
    -- the file itself was counted among the others
    return ([file], others.length - 1)
  | _, _ => return (documents.map fun (path, node) => ⟨path, node⟩, others.length)

end ValidateOptions

/-! ## §2. Checking documents. -/

/-- The problem that a validation error is. -/
def validationProblem (path : String) (error : ValidationError) : String :=
  let place := error.locations.head?.elim "" fun location => ":" ++ location.render
  path ++ place ++ ": " ++ error.message

/-- The text about variables that cannot be coerced: one line for the error and more for what led to
it. -/
def coercionProblem (error : CoercionError) : String :=
  error.message ++ (error.fault?.elim "" fun fault => "\n" ++ fault.message)

/-- The problems of the variables of operations. -/
def variableProblems (schema : Schema) (path : String) (inputs : Variables) :
    List Operation → Task (List String)
  | [] => return []
  | op :: ops => do
    let result ← Task.settle (coercedVariables schema op inputs)
    let rest ← variableProblems schema path inputs ops
    match result with
    | .ok _ => return rest
    | .error cause =>
      return (path ++ ":" ++ op.location.render ++ ": In operation " ++ op.displayName ++ ": "
        ++ coercionProblem cause) :: rest

/-- The problems of a document.  Variables are coerced only for a valid one. -/
def documentProblems (schema : Schema) (path : String) (inputs : Option Variables)
    (document : Document) : Task (List String) := do
  let errors ← Task.lift (checkedDocument schema document)
  match inputs with
  | some inputs =>
    if isValid errors then variableProblems schema path inputs document.operations
    else return errors.map (validationProblem path)
  | none => return errors.map (validationProblem path)

/-- The number of operations in files, and the problems of the files. -/
def fileProblems (schema : Schema) (inputs : Option Variables) :
    List FoundFile → Task (Nat × List String)
  | [] => return (0, [])
  | file :: others => do
    match ← Task.lift (readDocument file.path (some file.node)) with
    | .error cause =>
      let (operationCount, problems) ← fileProblems schema inputs others
      return (operationCount, (file.path ++ ": " ++ cause.message) :: problems)
    | .ok document =>
      let found ← documentProblems schema file.path inputs document
      let (operationCount, problems) ← fileProblems schema inputs others
      return (document.operations.length + operationCount, found ++ problems)

/-! ## §3. The report. -/

namespace ValidateOptions

/-- The variables file that is named, if one is. -/
def readInputs (files : FileLookup) (options : ValidateOptions) : Task (Option Variables) := do
  match options.variablesFile with
  | none => return none
  | some path =>
    let values ← readVariables files path
    Task.log .debug ("Loaded " ++ Text.showNat values.length ++ " variable value(s).")
    return some values

/-- What is said when there is no problem. -/
def successText (schema : Schema) (fileCount skippedCount operationCount : Nat)
    (inputs : Option Variables) : String :=
  "\n".intercalate
    ([greenCheck ++ " All GraphQL validated successfully:",
      "  * Loaded " ++ Text.showNat schema.types.toList.length ++ " schema types.",
      "  * Analyzed " ++ Text.showNat fileCount ++ " files.",
      "  * Skipped " ++ Text.showNat skippedCount ++ " non-graphql entries.",
      "  * Validated " ++ Text.showNat operationCount ++ " operations."]
      ++ (if inputs.isSome then ["  * Coerced variables for every operation."] else []))

/-- Check documents. -/
def run (files : FileLookup) (options : ValidateOptions) : Task Report := do
  let (found, skippedCount) ← options.findDocuments files
  Task.log .debug ("Found " ++ Text.showNat found.length ++ " documents to be validated.")
  let schema ← loadSchema files options.schemas
  let inputs ← options.readInputs files
  let (operationCount, problems) ← fileProblems schema inputs found
  if problems.isEmpty then
    return .success (successText schema found.length skippedCount operationCount inputs)
  else
    return .failure (redCross ++ " GraphQL validation errors:\n" ++ bulletList problems)

end ValidateOptions

end GraphQLCheck
