/-
  GraphQLCheck.Schema.Basic
  ─────────────────────────
  Schemas: the types that documents and values are read against, and the root types of operations.
-/
import GraphQLCheck.Schema.TypeDef

namespace GraphQLCheck

/-- The types of a schema, in the order in which they were registered, and its root types by
name. -/
structure Schema where
  types : Declarations TypeDef
  queryType : String
  mutationType : Option String
  subscriptionType : Option String

/-- A name that no definition was found for. -/
structure DanglingReference where
  name : String
  deriving DecidableEq, Repr

/-- The text of a dangling reference. -/
def DanglingReference.message (reference : DanglingReference) : String :=
  "No definition found for the name `" ++ reference.name ++ "`"

namespace Schema

/-- The type with a name. -/
def find? (schema : Schema) (name : String) : Option TypeDef := schema.types.find? name

/-- What a name refers to. -/
def resolve (schema : Schema) (name : String) : Except DanglingReference TypeDef :=
  match schema.find? name with
  | some type => .ok type
  | none => .error ⟨name⟩

/-- The type inside all layers of a reference. -/
def namedType? (schema : Schema) (type : TypeRef) : Option TypeDef := schema.find? type.typeName

/-- The name of the root type of an operation kind. -/
def rootName? (schema : Schema) : OperationKind → Option String
  | .mutation => schema.mutationType
  | .query => some schema.queryType
  | .subscription => schema.subscriptionType

/-- The type that operations of a kind select on. -/
def rootType? (schema : Schema) (kind : OperationKind) : Option TypeDef :=
  (schema.rootName? kind).bind schema.find?

/-- Why a name gives no root type. -/
inductive RootFault where
  | undefined
  | notObject
  deriving DecidableEq, Repr

/-- The text of such a fault. -/
def RootFault.message : RootFault → String
  | .undefined => "root type is present in schema"
  | .notObject => "root type is an object type"

/-- The object type that the name of a root type stands for. -/
def derefRoot (schema : Schema) (name : String) : Except RootFault FieldedType :=
  match schema.resolve name with
  | .ok (.object type) => .ok type
  | .ok _ => .error .notObject
  | .error _ => .error .undefined

/-- The object type that operations of a kind select on, if there is one. -/
def rootObject? (schema : Schema) (kind : OperationKind) : Option (Except RootFault FieldedType) :=
  (schema.rootName? kind).map schema.derefRoot

end Schema

end GraphQLCheck
