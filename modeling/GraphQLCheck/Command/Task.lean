/-
  GraphQLCheck.Command.Task
  ─────────────────────────
  The parts that commands are made of: reading files, checking a document, coercing the variables of
  an operation.  Each logs what it does.  It may come to an error, which ends the command, or go on for
  ever, and then nothing follows it.

  Files are given by a function from paths to what they lead to, so a command is a function of its
  arguments and the contents of files.
-/
import GraphQLCheck.Coercion.Variables
import GraphQLCheck.Command.Log
import GraphQLCheck.Command.Report
import GraphQLCheck.Json.Reader
import GraphQLCheck.Schema.Builder
import GraphQLCheck.Shape.Registry
import GraphQLCheck.Validation.TypeRules

namespace GraphQLCheck

/-- A computation that logs, and that may end early, or never. -/
structure Task (α : Type) where
  /-- What it logs, and what it comes to. -/
  run : Logged (Outcome CommandError α)

namespace Task

/-- Go on with the value of a task, if it ends with one. -/
def bind (task : Task α) (next : α → Task β) : Task β where
  run := task.run >>= fun
    | .value value => (next value).run
    | .failure error => pure (.failure error)
    | .endless => pure .endless

instance : Monad Task where
  pure value := ⟨pure (.value value)⟩
  bind := bind

/-- End with an error. -/
def fail (error : CommandError) : Task α := ⟨pure (.failure error)⟩

/-- Go on with a value and what was logged. -/
def lift (computation : Logged α) : Task α := ⟨do return .value (← computation)⟩

/-- Go on with what was logged and the value, or end with the command's own error. -/
def ofOutcome (error : ε → CommandError) (computation : Logged (Outcome ε α)) : Task α :=
  ⟨do return (← computation).mapFailure error⟩

/-- The same for what ends in any case. -/
def ofLogged (error : ε → CommandError) (computation : Logged (Except ε α)) : Task α :=
  ofOutcome error (do return .ofExcept (← computation))

/-- The same for what is there already. -/
def ofExcept (error : ε → CommandError) (result : Except ε α) : Task α :=
  ofLogged error (pure result)

/-- Go on with what was logged and the value or the reason that there is none. -/
def settle (computation : Logged (Outcome ε α)) : Task (Except ε α) :=
  ⟨do return (← computation).settle⟩

/-- Write a record. -/
def log (level : LogLevel) (message : String) : Task Unit := lift (Logged.log level message)

instance : LawfulMonad Task :=
  LawfulMonad.mk' _
    (by
      intro α task
      show Task.mk (task.run >>= _) = task
      congr 1
      conv => rhs; rw [← bind_pure task.run]
      congr 1
      funext outcome
      cases outcome <;> rfl)
    (by intros; rfl)
    (by
      intro α β γ task next after
      show Task.mk ((task.run >>= _) >>= _) = Task.mk (task.run >>= _)
      rw [bind_assoc]
      congr 2
      funext outcome
      cases outcome <;> rfl)

end Task

/-! ## §1. Files. -/

/-- The text of a file. -/
def readText (path : String) (node : Option FileNode) : Logged (Except FileError String) :=
  match FileNode.bytes path node with
  | .error cause => pure (.error cause)
  | .ok bytes => do
    Logged.log .trace ("Read " ++ Text.showNat bytes.length ++ " bytes from " ++ path ++ ".")
    return FileNode.text path node

/-- The document that a file holds. -/
def readDocument (path : String) (node : Option FileNode) : Logged (Except DocumentError Document) := do
  match ← readText path node with
  | .error cause => return .error (.unreadableFile cause)
  | .ok text => return Document.load text

/-- The values of variables that a file holds. -/
def readVariables (files : FileLookup) (path : String) : Task Variables := do
  let text ← Task.ofLogged (.variablesFile path) (readText path (files path))
  match Json.readObject? text with
  | some values => return values
  | none => Task.fail (.variablesText path)

/-- Take in the definitions that a file holds. -/
def loadSchemaFile (files : FileLookup) (builder : SchemaBuilder) (path : String) :
    Task SchemaBuilder := do
  let text ← Task.ofLogged (fun cause => .schema (.unreadableFile path cause))
    (readText path (files path))
  Task.log .debug ("Loading schema file " ++ path)
  let definitions ← Task.ofExcept .schema (SchemaBuilder.definitionsOf text)
  (builder.passedDirectives definitions).forM fun name =>
    Task.log .warn ("Ignoring definition of directive `@" ++ name ++ "`")
  Task.ofExcept .schema (builder.defineAll definitions)

/-- The schema that files define together. -/
def definedSchema (files : FileLookup) (paths : List String) : Task Schema := do
  let builder ← paths.foldlM (loadSchemaFile files) .empty
  Task.ofExcept .schema builder.build

/-- The schema that files define together, with its shapes.  For these its defaults are evaluated, so if one
of them has no end, neither has the task. -/
def loadSchema (files : FileLookup) (paths : List String) : Task Schema := do
  let schema ← definedSchema files paths
  Task.ofOutcome id (pure schema.evaluateDefaults)
  let typeCount := Text.showNat schema.types.toList.length
  Task.log .debug ("Built schema with " ++ typeCount ++ " types ("
    ++ Text.showNat schema.inputShapes.size ++ " input shapes)")
  Task.log .debug ("Loaded " ++ typeCount ++ " schema types from " ++ Text.showNat paths.length
    ++ " file(s).")
  return schema

/-! ## §2. Documents and operations. -/

/-- The errors of a document. -/
def checkedDocument (schema : Schema) (document : Document) : Logged (List ValidationError) := do
  document.operations.forM fun op =>
    Logged.log .trace ("Visiting " ++ op.kind.render ++ " " ++ op.displayName)
  let errors := document.validate schema Rule.defaults
  Logged.log .debug ("Validated document (" ++ Text.showNat document.definitions.length
    ++ " definitions) with " ++ Text.showNat Rule.defaults.length ++ " rule(s): "
    ++ Text.showNat errors.length ++ " error(s)")
  return errors

/-- The values of the variables of an operation. -/
def coercedVariables (schema : Schema) (operation : Operation) (inputs : Variables) :
    Logged (Outcome CoercionError Variables) := do
  let outcome := schema.coerceVariables operation inputs
  if let .value values := outcome then
    Logged.log .debug ("Coerced " ++ Text.showNat values.length ++ " of "
      ++ Text.showNat operation.variableDefinitions.length ++ " variable(s) for operation "
      ++ operation.displayName)
  return outcome

end GraphQLCheck
