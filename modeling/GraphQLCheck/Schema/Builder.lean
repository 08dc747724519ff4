/-
  GraphQLCheck.Schema.Builder
  ───────────────────────────
  Building a schema step by step.  Types, root names and scalar coercions may come in any order;
  `build` checks that they fit together.

      addType, setRoot, addCoercion — the steps by hand
      define, load, loadFile        — the steps that definitions and texts stand for
      build                         — the schema, if every custom coercion has its scalar, every
                                      root type is an object type, and every name is defined
-/
import GraphQLCheck.Schema.Basic
import GraphQLCheck.Sdl.Reading

namespace GraphQLCheck

/-! ## §1. Steps. -/

/-- A schema in the making. -/
structure SchemaBuilder where
  types : Declarations TypeDef
  roots : Sdl.RootNames
  /-- Coercions by the name of their scalar. -/
  coercions : List (String × ScalarCoercion)

namespace SchemaBuilder

/-- The types that every schema has. -/
def builtinTypes : Declarations TypeDef :=
  ⟨ScalarType.builtins.map .scalar, by decide⟩

/-- Only the built-in scalars. -/
def empty : SchemaBuilder := ⟨builtinTypes, {}, []⟩

/-- Register a type. -/
def addType (builder : SchemaBuilder) (type : TypeDef) : Except BuildError SchemaBuilder :=
  match builder.types.add? type with
  | some types => .ok { builder with types }
  | none => .error (.duplicateType type.name)

/-- Name the root type of an operation kind, which may be done once. -/
def setRoot (builder : SchemaBuilder) (operation : OperationKind) (typeName : String) :
    Except BuildError SchemaBuilder :=
  let name := some typeName
  match operation, builder.roots with
  | .query, { query := none, .. } => .ok { builder with roots.query := name }
  | .mutation, { mutation := none, .. } => .ok { builder with roots.mutation := name }
  | .subscription, { subscription := none, .. } => .ok { builder with roots.subscription := name }
  | _, _ => .error (.duplicateOperationType operation)

/-- Name the root type of an operation kind if there is a name for it. -/
def setRoot? (builder : SchemaBuilder) (operation : OperationKind) :
    Option String → Except BuildError SchemaBuilder
  | some typeName => builder.setRoot operation typeName
  | none => .ok builder

/-- Give a custom scalar a coercion.  The scalar need not be registered yet. -/
def addCoercion (builder : SchemaBuilder) (typeName : String) (coercion : ScalarCoercion) :
    SchemaBuilder :=
  { builder with coercions := Entries.put builder.coercions typeName coercion }

/-- Take in a definition.  Definitions of directives have no effect; extensions are refused. -/
def define (builder : SchemaBuilder) : Sdl.Definition → Except BuildError SchemaBuilder
  | .schema roots => do
    let builder ← builder.setRoot? .query roots.query
    let builder ← builder.setRoot? .mutation roots.mutation
    builder.setRoot? .subscription roots.subscription
  | .type definition => do builder.addType (← definition.declare)
  | .extension typeName => .error (.unsupportedExtension typeName)
  | .directive _ => .ok builder

/-- Take in definitions, in order. -/
def defineAll (builder : SchemaBuilder) (definitions : List Sdl.Definition) :
    Except BuildError SchemaBuilder :=
  definitions.foldlM define builder

/-- The names of the directive definitions that are passed over before the first definition that
cannot be taken in. -/
def passedDirectives (builder : SchemaBuilder) : List Sdl.Definition → List String
  | [] => []
  | definition :: definitions =>
    match builder.define definition with
    | .error _ => []
    | .ok builder =>
      match definition with
      | .directive name => name :: builder.passedDirectives definitions
      | _ => builder.passedDirectives definitions

/-- The definitions that a text holds. -/
def definitionsOf (text : String) : Except BuildError (List Sdl.Definition) :=
  (Sdl.ofText text).mapError .unparsable

/-- Take in the definitions that a text holds. -/
def load (builder : SchemaBuilder) (text : String) : Except BuildError SchemaBuilder := do
  builder.defineAll (← definitionsOf text)

/-- Take in the definitions that a file holds. -/
def loadFile (files : FileLookup) (builder : SchemaBuilder) (path : String) :
    Except BuildError SchemaBuilder := do
  builder.load (← (FileNode.text path (files path)).mapError (.unreadableFile path))

end SchemaBuilder

/-! ## §2. What a schema has to satisfy. -/

/-- The names that a definition of a field refers to, in order. -/
def FieldDef.references (typeName : String) (field : FieldDef) : List (Referrer × String) :=
  (.field typeName field.name, field.type.typeName) ::
    field.parameters.toList.map fun parameter =>
      (.parameter typeName field.name parameter.name, parameter.type.typeName)

/-- The names that a type definition refers to, in order, each with what refers to it. -/
def TypeDef.references : TypeDef → List (Referrer × String)
  | .enum _ | .scalar _ => []
  | .inputObject t =>
    t.fields.toList.map fun field => (.inputField t.name field.name, field.type.typeName)
  | .interface t =>
    t.fields.toList.flatMap (·.references t.name) ++ t.interfaces.toList.map (.interface t.name, ·)
  | .object t =>
    t.fields.toList.flatMap (·.references t.name) ++ t.interfaces.toList.map (.object t.name, ·)
  | .union t => t.members.toList.map (.union t.name, ·)

/-- The type with a coercion that is meant for the scalar with a name. -/
def TypeDef.withCoercionFor (scalarName : String) (coercion : ScalarCoercion) (type : TypeDef) :
    TypeDef :=
  if type.name = scalarName then (type.withCoercion? coercion).getD type else type

theorem TypeDef.name_withCoercionFor (scalarName : String) (coercion : ScalarCoercion)
    (type : TypeDef) : (type.withCoercionFor scalarName coercion).name = type.name := by
  unfold withCoercionFor
  split
  · cases type with
    | scalar t => cases h : t.isBuiltin <;> simp [withCoercion?, h, name]
    | _ => rfl
  · rfl

namespace SchemaBuilder

/-- Give one custom scalar its coercion. -/
def applyCoercion (types : Declarations TypeDef) (entry : String × ScalarCoercion) :
    Except BuildError (Declarations TypeDef) :=
  match (types.find? entry.1).bind (·.withCoercion? entry.2) with
  | some _ =>
    .ok (types.mapNamed (·.withCoercionFor entry.1 entry.2)
      (TypeDef.name_withCoercionFor entry.1 entry.2))
  | none => .error (.coercionForUndefinedScalar entry.1)

/-- The type that an operation kind selects on unless another one is named. -/
def defaultRootName : OperationKind → String
  | .mutation => "Mutation"
  | .query => "Query"
  | .subscription => "Subscription"

/-- The name of the root type of an operation kind: the one given, or else the default one if it is
defined.  It has to be an object type. -/
def resolveRoot (types : Declarations TypeDef) (operation : OperationKind) (given : Option String) :
    Except BuildError (Option String) :=
  match given with
  | none =>
    let name := defaultRootName operation
    if types.contains name then check name else .ok none
  | some name => check name
where
  check (name : String) : Except BuildError (Option String) :=
    match types.find? name with
    | some (.object _) => .ok (some name)
    | some type => .error (.invalidOperationType operation name type.kind)
    | none => .error (.undefinedOperationType operation name)

/-- The first reference to a name that is not defined. -/
def undefinedReference? (types : Declarations TypeDef) : Option (Referrer × String) :=
  (types.toList.flatMap (·.references)).find? fun (_, name) => !types.contains name

/-- The schema, if everything fits together. -/
def build (builder : SchemaBuilder) : Except BuildError Schema := do
  -- coercions first: the types that are checked below are those of the schema
  let types ← builder.coercions.foldlM applyCoercion builder.types
  let queryType ←
    match ← resolveRoot types .query builder.roots.query with
    | some name => pure name
    | none => throw .noQueryType
  let mutationType ← resolveRoot types .mutation builder.roots.mutation
  let subscriptionType ← resolveRoot types .subscription builder.roots.subscription
  match undefinedReference? types with
  | some (referrer, name) => throw (.undefinedReference referrer name)
  | none => pure { types, queryType, mutationType, subscriptionType }

end SchemaBuilder

end GraphQLCheck
