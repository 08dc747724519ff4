/-
  GraphQLCheck.Document.Loading
  ─────────────────────────────
  Executable documents from texts and files, and why there is none.
-/
import GraphQLCheck.Document.Reading
import GraphQLCheck.Files.Tree

namespace GraphQLCheck

/-- Why there is no document. -/
inductive DocumentError where
  | unparsable (cause : ReadError)
  | unreadableFile (cause : FileError)
  deriving DecidableEq, Repr

namespace DocumentError

/-- The text of an error. -/
def message : DocumentError → String
  | .unparsable cause =>
    "Error parsing executable document: query parse error: " ++ cause.message
  | .unreadableFile _ => "Failure while trying to read an executable document from disk"

/-- The texts of what led to an error, outermost first. -/
def causes : DocumentError → List String
  | .unparsable _ => []
  | .unreadableFile cause => cause.message :: cause.cause?.toList

end DocumentError

namespace Document

/-- The document that a text holds. -/
def load (text : String) : Except DocumentError Document :=
  (Document.ofText text).mapError .unparsable

/-- The document that a file holds. -/
def loadFile (files : FileLookup) (path : String) : Except DocumentError Document := do
  load (← (FileNode.text path (files path)).mapError .unreadableFile)

end Document

end GraphQLCheck
