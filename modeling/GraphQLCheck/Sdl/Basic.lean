/-
  GraphQLCheck.Sdl.Basic
  ──────────────────────
  The schema definition language as a tree, and the types that its definitions stand for.

      Sdl.TypeDefinition.declare — the type that a definition stands for, put together part by part
                                   in source order
-/
import GraphQLCheck.Language.Reading
import GraphQLCheck.Schema.TypeDef

namespace GraphQLCheck.Sdl

/-! ## §1. The tree. -/

/-- A parameter or an input field as written. -/
structure InputDefinition where
  name : String
  type : TypeExpr
  defaultValue : Option Literal := none
  description : Option String := none
  deriving BEq, Repr

/-- A field as written. -/
structure FieldDefinition where
  name : String
  type : TypeExpr
  parameters : List InputDefinition := []
  description : Option String := none
  deriving BEq, Repr

/-- An enum value as written. -/
structure EnumValueDefinition where
  name : String
  directives : List Directive := []
  description : Option String := none
  deriving BEq, Repr

/-- The parts of a type definition that depend on its kind. -/
inductive TypeBody where
  | enum (values : List EnumValueDefinition)
  | inputObject (fields : List InputDefinition)
  | interface (interfaces : List String) (fields : List FieldDefinition)
  | object (interfaces : List String) (fields : List FieldDefinition)
  | scalar
  | union (members : List String)
  deriving BEq, Repr

/-- A type definition as written. -/
structure TypeDefinition where
  name : String
  description : Option String := none
  body : TypeBody
  deriving BEq, Repr

/-- The root types that a schema definition names. -/
structure RootNames where
  query : Option String := none
  mutation : Option String := none
  subscription : Option String := none
  deriving DecidableEq, Repr

/-- One definition. -/
inductive Definition where
  | schema (roots : RootNames)
  | type (definition : TypeDefinition)
  /-- An extension of the type with a name. -/
  | extension (typeName : String)
  /-- The definition of the directive with a name. -/
  | directive (name : String)
  deriving BEq, Repr

/-! ## §2. The types that definitions stand for. -/

/-- The parameter or input field that a definition stands for. -/
def InputDefinition.declare (definition : InputDefinition) : InputDef where
  name := definition.name
  type := .ofExpr definition.type
  defaultValue := definition.defaultValue
  description := definition.description

/-- The field that a definition stands for. -/
def FieldDefinition.declare (definition : FieldDefinition) : Except BuildError FieldDef :=
  definition.parameters.foldlM (fun field parameter => field.addParameter parameter.declare)
    { name := definition.name, type := .ofExpr definition.type,
      description := definition.description }

/-- The reason that a deprecation without one has. -/
def defaultDeprecationReason : String := "No longer supported"

/-- Why something with some directives is deprecated: the first text given as `reason` by the first
directive `@deprecated`. -/
def deprecationReason? (directives : List Directive) : Option String := do
  let deprecated ← directives.find? (·.name == "deprecated")
  let reasons := deprecated.arguments.filterMap fun (name, value) =>
    if name = "reason" then value.text? else none
  some (reasons.head?.getD defaultDeprecationReason)

/-- The enum value that a definition stands for. -/
def EnumValueDefinition.declare (definition : EnumValueDefinition) : EnumValue where
  name := definition.name
  description := definition.description
  deprecationReason := deprecationReason? definition.directives

/-- Add the fields that definitions stand for, in order. -/
def addFields (type : FieldedType) (fields : List FieldDefinition) :
    Except BuildError FieldedType :=
  fields.foldlM (fun type field => do type.addField (← field.declare)) type

/-- The type that a definition stands for.  An interface is declared without the interfaces that its
definition lists. -/
def TypeDefinition.declare (definition : TypeDefinition) : Except BuildError TypeDef := do
  let name := definition.name
  let description := definition.description
  match definition.body with
  | .enum values =>
    .enum <$> values.foldlM (fun type value => type.addValue value.declare)
      ({ name, description } : EnumType)
  | .inputObject fields =>
    .inputObject <$> fields.foldlM (fun type field => type.addField field.declare)
      ({ name, description } : InputObjectType)
  | .interface _ fields => .interface <$> addFields { name, description } fields
  | .object interfaces fields =>
    let type ← interfaces.foldlM (·.implement ·) ({ name, description } : FieldedType)
    .object <$> addFields type fields
  | .scalar => pure (.scalar { name, description })
  | .union members =>
    .union <$> members.foldlM (·.addMember ·) ({ name, description } : UnionType)

end GraphQLCheck.Sdl
