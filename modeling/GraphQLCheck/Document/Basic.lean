/-
  GraphQLCheck.Document.Basic
  ───────────────────────────
  Executable documents: operations and fragments, and the selections in them.

      Document.operations  — the operations of a document, in order
      Document.operation?  — an operation by name, or the only one
-/
import GraphQLCheck.Language.Literal
import GraphQLCheck.Language.Location
import GraphQLCheck.Language.TypeExpr

namespace GraphQLCheck

/-! ## §1. Selections. -/

/-- An argument of a field, `name: value`.  Its location is that of its field. -/
structure Argument where
  name : String
  value : Literal
  location : Location
  deriving BEq, Repr, Inhabited

/-- The inclusion of a fragment, `...Name`. -/
structure FragmentSpread where
  fragmentName : String
  location : Location
  deriving BEq, Repr, Inhabited

mutual
/-- A field, `alias: name(arguments) selections`. -/
structure Field where
  aliasName : Option String
  name : String
  arguments : List Argument
  selectionSet : Option SelectionSet
  location : Location
/-- A part of a selection set that may have a type condition, `... on Type selections`. -/
structure InlineFragment where
  typeCondition : Option String
  selectionSet : SelectionSet
  location : Location
/-- One entry of a selection set. -/
inductive Selection where
  | field (field : Field)
  | fragmentSpread (spread : FragmentSpread)
  | inlineFragment (fragment : InlineFragment)
/-- What is selected on a value, between braces. -/
structure SelectionSet where
  selections : List Selection
  location : Location
end

namespace Field

/-- The first argument with a given name. -/
def argument? (field : Field) (name : String) : Option Argument :=
  field.arguments.find? (·.name == name)

/-- Whether the field selects anything on its value. -/
def hasSubSelection (field : Field) : Bool :=
  field.selectionSet.any fun set => !set.selections.isEmpty

/-- The key of the field in a response: its alias, or else its name. -/
def responseKey (field : Field) : String := field.aliasName.getD field.name

end Field

/-- Where a selection starts. -/
def Selection.location : Selection → Location
  | .field f => f.location
  | .fragmentSpread spread => spread.location
  | .inlineFragment part => part.location

/-! ## §2. Definitions. -/

/-- What an operation does, which decides the type it selects on. -/
inductive OperationKind where
  | mutation
  | query
  | subscription
  deriving DecidableEq, Repr, Inhabited

/-- The keyword of an operation kind. -/
def OperationKind.render : OperationKind → String
  | .mutation => "mutation"
  | .query => "query"
  | .subscription => "subscription"

/-- A variable of an operation, `$name: Type = default`. -/
structure VariableDefinition where
  name : String
  type : TypeExpr
  defaultValue : Option Literal
  location : Location
  deriving BEq, Repr, Inhabited

/-- An operation.  One without a name is anonymous. -/
structure Operation where
  kind : OperationKind
  name : Option String
  variableDefinitions : List VariableDefinition
  selectionSet : SelectionSet
  location : Location

/-- The first definition of a variable. -/
def Operation.variableDefinition? (operation : Operation) (name : String) :
    Option VariableDefinition :=
  operation.variableDefinitions.find? (·.name == name)

/-- How an operation is named in log records and reports. -/
def Operation.displayName (operation : Operation) : String := operation.name.getD "<anonymous>"

/-- A named part of a selection set. -/
structure Fragment where
  name : String
  typeCondition : String
  selectionSet : SelectionSet
  location : Location

/-- One definition of a document. -/
inductive Definition where
  | operation (operation : Operation)
  | fragment (fragment : Fragment)

namespace Definition

/-- The operation, if the definition is one. -/
def operation? : Definition → Option Operation
  | .operation op => some op
  | .fragment _ => none

/-- Where the definition starts. -/
def location : Definition → Location
  | .operation op => op.location
  | .fragment part => part.location

end Definition

/-- An executable document. -/
structure Document where
  definitions : List Definition

namespace Document

/-- The operations of a document, in order. -/
def operations (document : Document) : List Operation :=
  document.definitions.filterMap (·.operation?)

/-- The first operation with a given name; without a name, the only operation of the document. -/
def operation? (document : Document) : Option String → Option Operation
  | some name => document.operations.find? (·.name == some name)
  | none =>
    match document.operations with
    | [operation] => some operation
    | _ => none

end Document

end GraphQLCheck
