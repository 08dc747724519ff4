/-
  GraphQLCheck.Schema.BuildError
  ──────────────────────────────
  Why a schema cannot be built.  `BuildError.message` holds the wording.
-/
import GraphQLCheck.Document.Basic
import GraphQLCheck.Files.Tree
import GraphQLCheck.Language.Lexeme

namespace GraphQLCheck

/-- The kinds of named types. -/
inductive TypeKind where
  | enum
  | inputObject
  | interface
  | object
  | scalar
  | union
  deriving DecidableEq, Repr, Inhabited

namespace TypeKind

/-- The name of a kind. -/
def render : TypeKind → String
  | .enum => "Enum"
  | .inputObject => "InputObject"
  | .interface => "Interface"
  | .object => "Object"
  | .scalar => "Scalar"
  | .union => "Union"

/-- Whether a selection on the type selects something on its value. -/
def isComposite : TypeKind → Bool
  | .interface | .object | .union => true
  | .enum | .inputObject | .scalar => false

/-- Whether the type can be that of a parameter, an input field or a variable. -/
def isInput : TypeKind → Bool
  | .enum | .inputObject | .scalar => true
  | .interface | .object | .union => false

/-- Whether a selection on the type ends there. -/
def isLeaf : TypeKind → Bool
  | .enum | .scalar => true
  | .inputObject | .interface | .object | .union => false

end TypeKind

/-- What refers to a type by name. -/
inductive Referrer where
  | field (typeName fieldName : String)
  | parameter (typeName fieldName parameterName : String)
  | inputField (typeName fieldName : String)
  | interface (typeName : String)
  | object (typeName : String)
  | union (typeName : String)
  deriving DecidableEq, Repr

/-- The text of a referrer. -/
def Referrer.render : Referrer → String
  | .field typeName fieldName => "Field `" ++ typeName ++ "." ++ fieldName ++ "`"
  | .parameter typeName fieldName parameterName =>
    "Parameter `" ++ typeName ++ "." ++ fieldName ++ "(" ++ parameterName ++ ":)`"
  | .inputField typeName fieldName => "Input field `" ++ typeName ++ "." ++ fieldName ++ "`"
  | .interface typeName => "Interface `" ++ typeName ++ "`"
  | .object typeName => "Object `" ++ typeName ++ "`"
  | .union typeName => "Union `" ++ typeName ++ "`"

/-- Why a schema cannot be built. -/
inductive BuildError where
  | duplicateEnumValue (enumName valueName : String)
  | duplicateField (typeName fieldName : String)
  | duplicateImplements (typeName interfaceName : String)
  | duplicateParameter (fieldName parameterName : String)
  | duplicateOperationType (operation : OperationKind)
  | duplicateType (typeName : String)
  | duplicateUnionMember (typeName memberName : String)
  /-- The root type of an operation is no object type. -/
  | invalidOperationType (operation : OperationKind) (typeName : String) (kind : TypeKind)
  | noQueryType
  /-- A coercion was given for what is no custom scalar. -/
  | coercionForUndefinedScalar (typeName : String)
  | unreadableFile (path : String) (cause : FileError)
  | unparsable (cause : ReadError)
  | undefinedOperationType (operation : OperationKind) (typeName : String)
  | undefinedReference (referrer : Referrer) (typeName : String)
  | unsupportedExtension (typeName : String)
  deriving DecidableEq, Repr

namespace BuildError

/-- The text of a build error. -/
def message : BuildError → String
  | .duplicateEnumValue enumName valueName =>
    "Multiple definitions of the `" ++ valueName ++ "` value on enum `" ++ enumName ++ "`"
  | .duplicateField typeName fieldName =>
    "Multiple definitions of the `" ++ fieldName ++ "` field on type `" ++ typeName ++ "`"
  | .duplicateImplements typeName interfaceName =>
    "`" ++ typeName ++ "` declares that it implements `" ++ interfaceName ++ "` more than once"
  | .duplicateParameter fieldName parameterName =>
    "Multiple definitions of the `" ++ parameterName ++ "` parameter on field `" ++ fieldName ++ "`"
  | .duplicateOperationType operation =>
    "Multiple schema definitions declare the " ++ operation.render ++ " root operation type"
  | .duplicateType typeName => "Multiple definitions of the `" ++ typeName ++ "` type"
  | .duplicateUnionMember typeName memberName =>
    "Union `" ++ typeName ++ "` lists `" ++ memberName ++ "` as a member more than once"
  | .invalidOperationType operation typeName kind =>
    "The " ++ operation.render ++ " root operation type must be an Object type, but `" ++ typeName
      ++ "` is a(n) " ++ kind.render ++ " type"
  | .noQueryType => "No `Query` root operation type was defined"
  | .coercionForUndefinedScalar typeName =>
    "A scalar coercion was registered for `" ++ typeName
      ++ "`, but no custom scalar by that name is defined"
  | .unreadableFile path cause => "Failure to read schema file " ++ path ++ ": " ++ cause.message
  | .unparsable cause => "Failure to parse schema source: schema parse error: " ++ cause.message
  | .undefinedOperationType operation typeName =>
    "The " ++ operation.render ++ " root operation type `" ++ typeName ++ "` is not defined"
  | .undefinedReference referrer typeName =>
    referrer.render ++ " refers to `" ++ typeName ++ "`, which is not defined"
  | .unsupportedExtension typeName =>
    "Type extensions are not supported (found an extension of `" ++ typeName ++ "`)"

/-- The texts of what led to a build error, outermost first. -/
def causes : BuildError → List String
  | .unreadableFile _ cause => cause.message :: cause.cause?.toList
  | _ => []

end BuildError

end GraphQLCheck
