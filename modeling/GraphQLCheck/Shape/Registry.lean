/-
  GraphQLCheck.Shape.Registry
  ───────────────────────────
  The enums and objects that shapes refer to by name.

      ShapeRegistry.addEnum, addObject — register a shape in the place of one of the same name
      Schema.inputShapes               — the shapes of all enums and input objects of a schema
      Schema.evaluateDefaults          — what has to be evaluated for them
-/
import GraphQLCheck.Shape.Basic

namespace GraphQLCheck

/-- Shapes by name. -/
structure ShapeRegistry where
  enums : List (String × EnumShape) := []
  objects : List (String × ObjectShape) := []

namespace ShapeRegistry

/-- The enum with a name. -/
def enum? (registry : ShapeRegistry) (name : String) : Option EnumShape := registry.enums.lookup name

/-- The object with a name. -/
def object? (registry : ShapeRegistry) (name : String) : Option ObjectShape :=
  registry.objects.lookup name

/-- Register an enum.  One of the same name is replaced. -/
def addEnum (registry : ShapeRegistry) (shape : EnumShape) : ShapeRegistry :=
  { registry with enums := Entries.put registry.enums shape.name shape }

/-- Register an object.  One of the same name is replaced. -/
def addObject (registry : ShapeRegistry) (shape : ObjectShape) : ShapeRegistry :=
  { registry with objects := Entries.put registry.objects shape.name shape }

/-- The number of shapes. -/
def size (registry : ShapeRegistry) : Nat := registry.enums.length + registry.objects.length

/-- Whether there is no shape. -/
def isEmpty (registry : ShapeRegistry) : Bool := registry.enums.isEmpty && registry.objects.isEmpty

/-- The number of members that have a default. -/
def defaultCount (registry : ShapeRegistry) : Nat :=
  (registry.objects.flatMap (·.2.members)).countP (·.defaultValue.isSome)

/-- What was registered last under a name is what is found. -/
theorem enum?_addEnum (registry : ShapeRegistry) (shape : EnumShape) :
    (registry.addEnum shape).enum? shape.name = some shape :=
  Entries.lookup_put_self _ _ _

/-- What was registered last under a name is what is found. -/
theorem object?_addObject (registry : ShapeRegistry) (shape : ObjectShape) :
    (registry.addObject shape).object? shape.name = some shape :=
  Entries.lookup_put_self _ _ _

end ShapeRegistry

/-! ## The shapes of a schema. -/

/-- The member that an input field is.  A field of no input type takes any value.  A default that is
worth nothing is left out. -/
def InputDef.memberShape (schema : Schema) (field : InputDef) : MemberShape where
  name := field.name
  shape := (Shape.ofType? schema field.type).getD .any
  defaultValue := field.defaultValue.bind fun literal =>
    (schema.literalValue [] field.type literal).value?

/-- Register the shape of a type, if it has one. -/
def ShapeRegistry.addType (schema : Schema) (registry : ShapeRegistry) : TypeDef → ShapeRegistry
  | .enum type => registry.addEnum (.ofNames type.name type.values.names)
  | .inputObject type =>
    registry.addObject ⟨type.name, type.fields.toList.map (·.memberShape schema)⟩
  | .interface _ | .object _ | .scalar _ | .union _ => registry

/-- The shapes of the enums and input objects of a schema. -/
def Schema.inputShapes (schema : Schema) : ShapeRegistry :=
  schema.types.toList.foldl (ShapeRegistry.addType schema) {}

/-- Evaluate the default of an input field, if it has one.  One that is worth nothing is no failure. -/
def InputDef.evaluateDefault (schema : Schema) (field : InputDef) : Outcome ε Unit :=
  match field.defaultValue with
  | some literal => (schema.literalValue [] field.type literal).attempt.map fun _ => ()
  | none => .value ()

/-- Evaluate the defaults of all input fields.  There are shapes only once this has come to its end. -/
def Schema.evaluateDefaults (schema : Schema) : Outcome ε Unit :=
  (schema.types.toList.flatMap (·.inputFields)).forM (·.evaluateDefault schema)

end GraphQLCheck
