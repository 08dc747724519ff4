/-
  GraphQLCheck.Command.Report
  ───────────────────────────
  What a command answers: a text for the one who asked, or a text about what went wrong.
-/
import GraphQLCheck.Coercion.Error
import GraphQLCheck.Document.Loading
import GraphQLCheck.Schema.BuildError

namespace GraphQLCheck

/-! ## §1. Reports. -/

/-- The answer of a command. -/
inductive Report where
  | success (text : String)
  | failure (text : String)
  deriving DecidableEq, Repr

namespace Report

/-- The exit code. -/
def exitCode : Report → Nat
  | .success _ => 0
  | .failure _ => 1

/-- The text for standard output. -/
def output? : Report → Option String
  | .success text => some text
  | .failure _ => none

/-- The text for standard error. -/
def error? : Report → Option String
  | .success _ => none
  | .failure text => some text

end Report

/-- The sign of a success. -/
def greenCheck : String := "\u2705"

/-- The sign of a failure. -/
def redCross : String := "\u274c"

/-- A character of an item: what follows a line break is indented beneath the item's point. -/
def indentBreak (c : Char) : List Char := if c = '\n' then "\n    ".toList else [c]

/-- A list of items with a point before each, one below the other. -/
def bulletList (items : List String) : String :=
  "\n".intercalate (items.map fun item => "  * " ++ String.ofList (item.toList.flatMap indentBreak))

/-! ## §2. Errors that end a command. -/

/-- Why a command ends early. -/
inductive CommandError where
  | schema (cause : BuildError)
  | document (path : String) (cause : DocumentError)
  | variablesFile (path : String) (cause : FileError)
  /-- The variables file holds no object. -/
  | variablesText (path : String)
  /-- A path that leads nowhere. -/
  | scan (path : String)
  | coercion (cause : CoercionError)

namespace CommandError

/-- The texts of an error and of what led to it, outermost first. -/
def chain : CommandError → List String
  | .schema cause => "Errors loading schema" :: cause.message :: cause.causes
  | .document path cause => ("Failed to load " ++ path) :: cause.message :: cause.causes
  | .variablesFile path cause =>
    ("Failed to read variables file " ++ path) :: cause.message :: cause.cause?.toList
  | .variablesText path =>
    ["Variables file " ++ path ++ " must contain a JSON object", "no JSON object was found"]
  | .scan path =>
    ["Failed to scan " ++ path,
     "IO error for operation on " ++ path ++ ": No such file or directory (os error 2)"]
  | .coercion cause =>
    "Variable coercion failed" :: cause.message :: (cause.fault?.map (·.message)).toList

/-- The text of an error. -/
def message (error : CommandError) : String := ": ".intercalate error.chain

end CommandError

end GraphQLCheck
