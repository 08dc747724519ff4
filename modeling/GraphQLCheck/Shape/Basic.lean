/-
  GraphQLCheck.Shape.Basic
  ────────────────────────
  Shapes: the form in which a resolver takes a value.  Objects and enums are shapes with a name, so a
  shape may lead back to itself.

      Shape.ofType?       — the shape of the values of an input type
      EnumShape.findName? — the member that a text names, in any letter case
      MemberShape         — a member of an object, with the value it takes when there is none
-/
import GraphQLCheck.Coercion.Value

namespace GraphQLCheck

/-! ## §1. Shapes. -/

/-- The simple shapes. -/
inductive PrimitiveKind where
  | boolean
  | float
  /-- An integer of 32 bits with a sign. -/
  | int
  /-- An integer of 64 bits with a sign. -/
  | long
  | string
  deriving DecidableEq, Repr

/-- The name of a simple shape. -/
def PrimitiveKind.render : PrimitiveKind → String
  | .boolean => "Boolean"
  | .float => "Float"
  | .int => "Int"
  | .long => "Long"
  | .string => "String"

/-- The form of a value. -/
inductive Shape where
  /-- Any value as it is. -/
  | any
  | enum (name : String)
  | list (item : Shape)
  /-- Also takes null. -/
  | nullable (inner : Shape)
  | object (name : String)
  | primitive (kind : PrimitiveKind)
  deriving DecidableEq, Repr

namespace Shape

/-- The text of a shape. -/
def render : Shape → String
  | .any => "Any"
  | .enum name => "Enum(" ++ name ++ ")"
  | .list item => "List(" ++ item.render ++ ")"
  | .nullable inner => "Nullable(" ++ inner.render ++ ")"
  | .object name => "Object(" ++ name ++ ")"
  | .primitive kind => kind.render

/-- The shape of a scalar: identifiers are texts, and a custom scalar has any shape. -/
def ofScalar (name : String) : Shape :=
  match name with
  | "Boolean" => .primitive .boolean
  | "Float" => .primitive .float
  | "ID" | "String" => .primitive .string
  | "Int" => .primitive .int
  | _ => .any

/-- The shape of a type definition, if it is an input type. -/
def ofDefinition? : TypeDef → Option Shape
  | .enum type => some (.enum type.name)
  | .inputObject type => some (.object type.name)
  | .scalar type => some (ofScalar type.name)
  | .interface _ | .object _ | .union _ => none

/-- The shape of a type whose layers have shapes, given what its name stands for.  `required` says that
an outer layer has excluded null. -/
def ofLayers (named : Shape) (required : Bool) : TypeRef → Shape
  | .nonNull inner => ofLayers named true inner
  | .list element => layer (.list (ofLayers named false element))
  | .named _ => layer named
where
  layer (shape : Shape) : Shape := if required then shape else .nullable shape

/-- The shape of the values of a type, if it is an input type.  All that does not exclude null becomes
nullable. -/
def ofType? (schema : Schema) (type : TypeRef) : Option Shape := do
  let named ← ofDefinition? (← schema.namedType? type)
  some (ofLayers named false type)

end Shape

/-! ## §2. Enums. -/

/-- An enum: names with numbers.  The first member stands for null. -/
structure EnumShape where
  name : String
  members : List (String × Int) := []
  deriving DecidableEq, Repr

namespace EnumShape

/-- The enum with the given names, numbered from 0. -/
def ofNames (name : String) (names : List String) : EnumShape where
  name
  members := names.zipIdx.map fun (memberName, index) => (memberName, Int.ofNat index)

/-- The first member with a name, in any letter case. -/
def findName? (shape : EnumShape) (name : String) : Option (String × Int) :=
  shape.members.find? fun member => Text.sameIgnoringCase member.1 name

/-- The first member with a number. -/
def findValue? (shape : EnumShape) (value : Int) : Option (String × Int) :=
  shape.members.find? fun member => member.2 == value

end EnumShape

/-! ## §3. Objects. -/

/-- A member of an object. -/
structure MemberShape where
  name : String
  shape : Shape
  /-- The value that it takes when the source has none. -/
  defaultValue : Option Json := none
  deriving BEq, Repr

/-- An object: members in order. -/
structure ObjectShape where
  name : String
  members : List MemberShape := []
  deriving BEq, Repr

end GraphQLCheck
