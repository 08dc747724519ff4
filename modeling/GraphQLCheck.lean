import GraphQLCheck.Coercion.Arguments
import GraphQLCheck.Coercion.Check
import GraphQLCheck.Coercion.Error
import GraphQLCheck.Coercion.Problem
import GraphQLCheck.Coercion.Value
import GraphQLCheck.Coercion.Variables
import GraphQLCheck.Command.CoerceVariables
import GraphQLCheck.Command.Log
import GraphQLCheck.Command.Program
import GraphQLCheck.Command.Report
import GraphQLCheck.Command.Task
import GraphQLCheck.Command.Usage
import GraphQLCheck.Command.Validate
import GraphQLCheck.Document.Basic
import GraphQLCheck.Document.Loading
import GraphQLCheck.Document.Reading
import GraphQLCheck.Document.Stored
import GraphQLCheck.Files.Tree
import GraphQLCheck.Json.Basic
import GraphQLCheck.Json.Printer
import GraphQLCheck.Json.Reader
import GraphQLCheck.Json.Written
import GraphQLCheck.Language.BlockString
import GraphQLCheck.Language.Lexeme
import GraphQLCheck.Language.Literal
import GraphQLCheck.Language.Location
import GraphQLCheck.Language.Reading
import GraphQLCheck.Language.TypeExpr
import GraphQLCheck.Main
import GraphQLCheck.Number.Decimal
import GraphQLCheck.Number.Double
import GraphQLCheck.Number.Shortest
import GraphQLCheck.Number.Style
import GraphQLCheck.Number.Width
import GraphQLCheck.Outcome
import GraphQLCheck.Proofs.Coercion.Acceptance
import GraphQLCheck.Proofs.Coercion.Agreement
import GraphQLCheck.Proofs.Coercion.Arguments
import GraphQLCheck.Proofs.Coercion.Conformance
import GraphQLCheck.Proofs.Coercion.Defaults
import GraphQLCheck.Proofs.Coercion.Filled
import GraphQLCheck.Proofs.Coercion.Grounds
import GraphQLCheck.Proofs.Coercion.Idempotence
import GraphQLCheck.Proofs.Coercion.Layers
import GraphQLCheck.Proofs.Coercion.Locality
import GraphQLCheck.Proofs.Coercion.Null
import GraphQLCheck.Proofs.Coercion.Parameters
import GraphQLCheck.Proofs.Coercion.Parts
import GraphQLCheck.Proofs.Coercion.Sent
import GraphQLCheck.Proofs.Coercion.Substitution
import GraphQLCheck.Proofs.Coercion.Unbound
import GraphQLCheck.Proofs.Coercion.Undeclared
import GraphQLCheck.Proofs.Coercion.Variables
import GraphQLCheck.Proofs.Coercion.Violations
import GraphQLCheck.Proofs.Command.Outcomes
import GraphQLCheck.Proofs.Command.Tasks
import GraphQLCheck.Proofs.Document.Nodes
import GraphQLCheck.Proofs.Document.RoundTrip
import GraphQLCheck.Proofs.Document.Stored
import GraphQLCheck.Proofs.Json.Number
import GraphQLCheck.Proofs.Json.Quoted
import GraphQLCheck.Proofs.Json.ReadsBack
import GraphQLCheck.Proofs.Json.Written
import GraphQLCheck.Proofs.Number.Interval
import GraphQLCheck.Proofs.Number.Nearest
import GraphQLCheck.Proofs.Number.Numeral
import GraphQLCheck.Proofs.Number.Printed
import GraphQLCheck.Proofs.Recursion.Calls
import GraphQLCheck.Proofs.Recursion.Checks
import GraphQLCheck.Proofs.Recursion.Conversion
import GraphQLCheck.Proofs.Recursion.Defaults
import GraphQLCheck.Proofs.Recursion.Evaluation
import GraphQLCheck.Proofs.Recursion.Termination
import GraphQLCheck.Proofs.Schema.Alike
import GraphQLCheck.Proofs.Schema.Building
import GraphQLCheck.Proofs.Schema.Built
import GraphQLCheck.Proofs.Schema.Closed
import GraphQLCheck.Proofs.Schema.Interchangeable
import GraphQLCheck.Proofs.Schema.Loading
import GraphQLCheck.Proofs.Schema.Notation
import GraphQLCheck.Proofs.Schema.Order
import GraphQLCheck.Proofs.Schema.Reached
import GraphQLCheck.Proofs.Schema.Recoerced
import GraphQLCheck.Proofs.Schema.Scalars
import GraphQLCheck.Proofs.Schema.Steps
import GraphQLCheck.Proofs.Shape.Closed
import GraphQLCheck.Proofs.Shape.Completion
import GraphQLCheck.Proofs.Shape.Conversion
import GraphQLCheck.Proofs.Shape.Culprits
import GraphQLCheck.Proofs.Shape.Enums
import GraphQLCheck.Proofs.Shape.Integers
import GraphQLCheck.Proofs.Shape.Names
import GraphQLCheck.Proofs.Shape.Redundant
import GraphQLCheck.Proofs.Shape.Registry
import GraphQLCheck.Proofs.Validation.Arguments
import GraphQLCheck.Proofs.Validation.ByName
import GraphQLCheck.Proofs.Validation.Composition
import GraphQLCheck.Proofs.Validation.Defaults
import GraphQLCheck.Proofs.Validation.Faults
import GraphQLCheck.Proofs.Validation.Independence
import GraphQLCheck.Proofs.Validation.Namesakes
import GraphQLCheck.Proofs.Validation.Operations
import GraphQLCheck.Proofs.Validation.Typing
import GraphQLCheck.Proofs.Value.Depth
import GraphQLCheck.Proofs.Value.Entries
import GraphQLCheck.Proofs.Value.Finite
import GraphQLCheck.Proofs.Value.Induction
import GraphQLCheck.Proofs.Value.Nesting
import GraphQLCheck.Proofs.Value.Printed
import GraphQLCheck.Proofs.Value.Variables
import GraphQLCheck.Schema.Basic
import GraphQLCheck.Schema.BuildError
import GraphQLCheck.Schema.Builder
import GraphQLCheck.Schema.Declarations
import GraphQLCheck.Schema.Scalar
import GraphQLCheck.Schema.StoredEnum
import GraphQLCheck.Schema.TypeDef
import GraphQLCheck.Schema.TypeRef
import GraphQLCheck.Sdl.Basic
import GraphQLCheck.Sdl.Reading
import GraphQLCheck.Shape.Basic
import GraphQLCheck.Shape.Conversion
import GraphQLCheck.Shape.Materialized
import GraphQLCheck.Shape.Primitive
import GraphQLCheck.Shape.Registry
import GraphQLCheck.Text.Ascii
import GraphQLCheck.Text.Blank
import GraphQLCheck.Text.Printable
import GraphQLCheck.Text.Quoted
import GraphQLCheck.Text.Unassigned
import GraphQLCheck.Text.Utf8
import GraphQLCheck.Validation.Node
import GraphQLCheck.Validation.OperationRules
import GraphQLCheck.Validation.Rule
import GraphQLCheck.Validation.Tracker
import GraphQLCheck.Validation.TypeRules
