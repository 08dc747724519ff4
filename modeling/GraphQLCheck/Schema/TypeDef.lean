/-
  GraphQLCheck.Schema.TypeDef
  ───────────────────────────
  Definitions of named types.  A definition is put together part by part; a part whose name is taken
  is refused.
-/
import GraphQLCheck.Schema.BuildError
import GraphQLCheck.Schema.Declarations
import GraphQLCheck.Schema.Scalar
import GraphQLCheck.Schema.TypeRef

namespace GraphQLCheck

/-! ## §1. Fields. -/

/-- A parameter of a field, or a field of an input object: something that takes a value. -/
structure InputDef where
  name : String
  type : TypeRef
  /-- The value it takes when none is given. -/
  defaultValue : Option Literal := none
  description : Option String := none
  deriving BEq, Repr

instance : Named InputDef := ⟨InputDef.name⟩

/-- A field that can be selected. -/
structure FieldDef where
  name : String
  type : TypeRef
  description : Option String := none
  parameters : Declarations InputDef := .empty

instance : Named FieldDef := ⟨FieldDef.name⟩

namespace FieldDef

/-- The parameter with a name. -/
def parameter? (field : FieldDef) (name : String) : Option InputDef := field.parameters.find? name

/-- Add a parameter. -/
def addParameter (field : FieldDef) (parameter : InputDef) : Except BuildError FieldDef :=
  match field.parameters.add? parameter with
  | some parameters => .ok { field with parameters }
  | none => .error (.duplicateParameter field.name parameter.name)

/-- The field `__typename`, which every type that can be selected on has. -/
def typename : FieldDef := { name := "__typename", type := .nonNull (.named "String") }

end FieldDef

/-! ## §2. Types. -/

/-- A value of an enum. -/
structure EnumValue where
  name : String
  description : Option String := none
  /-- Why the value is deprecated, if it is. -/
  deprecationReason : Option String := none
  deriving DecidableEq, Repr

/-- An enum.  Its values are kept by key; a value's key is its name. -/
structure EnumType where
  name : String
  description : Option String := none
  values : Declarations (String × EnumValue) := .empty

namespace EnumType

/-- Add a value. -/
def addValue (type : EnumType) (value : EnumValue) : Except BuildError EnumType :=
  match type.values.add? (value.name, value) with
  | some values => .ok { type with values }
  | none => .error (.duplicateEnumValue type.name value.name)

/-- Accepts a text that names a value. -/
def parseValue (type : EnumType) : Json → Option Json
  | .string name => if type.values.contains name then some (.string name) else none
  | _ => none

/-- Accepts a bare name that names a value; its value is that name. -/
def parseLiteral (type : EnumType) : Literal → Option Json
  | .enum name => if type.values.contains name then some (.string name) else none
  | _ => none

end EnumType

/-- An input object. -/
structure InputObjectType where
  name : String
  description : Option String := none
  fields : Declarations InputDef := .empty

namespace InputObjectType

/-- Add a field. -/
def addField (type : InputObjectType) (field : InputDef) : Except BuildError InputObjectType :=
  match type.fields.add? field with
  | some fields => .ok { type with fields }
  | none => .error (.duplicateField type.name field.name)

end InputObjectType

/-- A type with fields to select: an object type or an interface. -/
structure FieldedType where
  name : String
  description : Option String := none
  /-- The names of the interfaces that the type implements. -/
  interfaces : Declarations String := .empty
  fields : Declarations FieldDef := .empty

namespace FieldedType

/-- Add a field. -/
def addField (type : FieldedType) (field : FieldDef) : Except BuildError FieldedType :=
  match type.fields.add? field with
  | some fields => .ok { type with fields }
  | none => .error (.duplicateField type.name field.name)

/-- Declare that the type implements an interface. -/
def implement (type : FieldedType) (interfaceName : String) : Except BuildError FieldedType :=
  match type.interfaces.add? interfaceName with
  | some interfaces => .ok { type with interfaces }
  | none => .error (.duplicateImplements type.name interfaceName)

end FieldedType

/-- A scalar. -/
structure ScalarType where
  name : String
  description : Option String := none
  coercion : ScalarCoercion := anyScalar

namespace ScalarType

/-- The names of the built-in scalars. -/
def builtinNames : List String := ["Boolean", "Float", "ID", "Int", "String"]

/-- Whether the scalar has the name of a built-in one. -/
def isBuiltin (type : ScalarType) : Bool := builtinNames.contains type.name

/-- Read a runtime value: `null` is always accepted, and everything else is up to the coercion. -/
def parseValue (type : ScalarType) (value : Json) : Option Json :=
  if value.isNull then some .null else type.coercion.parseValue value

/-- Read a literal. -/
def parseLiteral (type : ScalarType) (value : Literal) : Option Json :=
  type.coercion.parseLiteral value

/-- Write a value out. -/
def serialize (type : ScalarType) (value : Json) : Option Json := type.coercion.serialize value

/-- The built-in scalars, in the order in which every schema holds them. -/
def builtins : List ScalarType :=
  [{ name := "Boolean", coercion := booleanScalar }, { name := "Float", coercion := floatScalar },
   { name := "ID", coercion := idScalar }, { name := "Int", coercion := intScalar },
   { name := "String", coercion := stringScalar }]

end ScalarType

/-- A union of object types. -/
structure UnionType where
  name : String
  description : Option String := none
  members : Declarations String := .empty

namespace UnionType

/-- Add a member. -/
def addMember (type : UnionType) (memberName : String) : Except BuildError UnionType :=
  match type.members.add? memberName with
  | some members => .ok { type with members }
  | none => .error (.duplicateUnionMember type.name memberName)

end UnionType

/-- The definition of a named type. -/
inductive TypeDef where
  | enum (type : EnumType)
  | inputObject (type : InputObjectType)
  | interface (type : FieldedType)
  | object (type : FieldedType)
  | scalar (type : ScalarType)
  | union (type : UnionType)

namespace TypeDef

/-- The name of the type. -/
def name : TypeDef → String
  | .enum t => t.name
  | .inputObject t => t.name
  | .interface t => t.name
  | .object t => t.name
  | .scalar t => t.name
  | .union t => t.name

instance : Named TypeDef := ⟨name⟩

/-- What is said of the type. -/
def description : TypeDef → Option String
  | .enum t => t.description
  | .inputObject t => t.description
  | .interface t => t.description
  | .object t => t.description
  | .scalar t => t.description
  | .union t => t.description

/-- The kind of the type. -/
def kind : TypeDef → TypeKind
  | .enum _ => .enum
  | .inputObject _ => .inputObject
  | .interface _ => .interface
  | .object _ => .object
  | .scalar _ => .scalar
  | .union _ => .union

/-- Whether a selection on the type selects something on its value. -/
def isComposite (type : TypeDef) : Bool := type.kind.isComposite

/-- Whether the type can be that of a parameter, an input field or a variable. -/
def isInput (type : TypeDef) : Bool := type.kind.isInput

/-- Whether a selection on the type ends there. -/
def isLeaf (type : TypeDef) : Bool := type.kind.isLeaf

/-- The fields that can be selected on the type: none but those of object types and interfaces. -/
def fields : TypeDef → List FieldDef
  | .interface t => t.fields.toList
  | .object t => t.fields.toList
  | _ => []

/-- The fields of the input object that a type is. -/
def inputFields : TypeDef → List InputDef
  | .inputObject type => type.fields.toList
  | _ => []

/-- The field of an object type or an interface with a name. -/
def field? : TypeDef → String → Option FieldDef
  | .interface t, name => t.fields.find? name
  | .object t, name => t.fields.find? name
  | _, _ => none

/-- Read a literal as a value of an enum or a scalar; no other type has a literal of its own. -/
def parseLiteral : TypeDef → Literal → Option Json
  | .enum t, value => t.parseLiteral value
  | .scalar t, value => t.parseLiteral value
  | _, _ => none

/-- Read a runtime value as a value of an enum or a scalar. -/
def parseValue : TypeDef → Json → Option Json
  | .enum t, value => t.parseValue value
  | .scalar t, value => t.parseValue value
  | _, _ => none

/-- Give a custom scalar a coercion; none if the type is no custom scalar. -/
def withCoercion? (type : TypeDef) (coercion : ScalarCoercion) : Option TypeDef :=
  match type with
  | .scalar t => if t.isBuiltin then none else some (.scalar { t with coercion })
  | _ => none

end TypeDef

end GraphQLCheck
