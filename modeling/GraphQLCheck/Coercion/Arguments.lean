/-
  GraphQLCheck.Coercion.Arguments
  ───────────────────────────────
  The values of the arguments of a field, and the fields that have a definition.

      InputDef.resolveArgument   — the value of one parameter, if it has one
      Schema.coerceArguments     — the values of all parameters, in the order of their declarations
      Operation.resolvedFields   — the fields of an operation whose definitions are known
-/
import GraphQLCheck.Coercion.Error
import GraphQLCheck.Coercion.Value

namespace GraphQLCheck

/-! ## §1. Arguments. -/

namespace InputDef

/-- The default of a parameter, if it has one that is worth something. -/
def parameterDefault (schema : Schema) (parameter : InputDef) : Outcome CoercionError (Option Json) :=
  match parameter.defaultValue with
  | some default => (schema.literalValue [] parameter.type default).attempt
  | none => .value none

/-- The value of a parameter for a field, if it has one.

A variable stands for its value, and no argument or a variable without a value for the default of the
parameter.  A literal that is worth nothing is replaced by the default, or else by null. -/
def resolveArgument (schema : Schema) (env : Variables) (field : Field) (parameter : InputDef) :
    Outcome CoercionError (Option Json) :=
  match (field.argument? parameter.name).map Argument.value with
  | none => parameter.parameterDefault schema
  | some (.variable name) =>
    match env.lookup name with
    | some value => .value (some value)
    | none => parameter.parameterDefault schema
  | some literal => do
    -- a literal never leaves the parameter without a value
    match ← (schema.literalValue env parameter.type literal).attempt with
    | some value => pure (some value)
    | none =>
      match ← parameter.parameterDefault schema with
      | some value => pure (some value)
      | none => pure (some .null)

/-- Whether a parameter may be left with a value, or without one. -/
def admits (parameter : InputDef) (value : Option Json) : Bool :=
  !parameter.type.isNonNull || value.any (!·.isNull)

end InputDef

namespace Schema

/-- The values of parameters, in order. -/
def coerceParameters (schema : Schema) (fieldName : String) (field : Field) (env : Variables) :
    List InputDef → Outcome CoercionError Variables
  | [] => .value []
  | parameter :: parameters => do
    let value? ← parameter.resolveArgument schema env field
    if parameter.admits value? then
      let rest ← schema.coerceParameters fieldName field env parameters
      match value? with
      | some value => pure ((parameter.name, value) :: rest)
      | none => pure rest
    else .failure (.invalidArgument parameter.name fieldName parameter.type)

/-- The values of the arguments of a field, given its definition and the values of the variables.
Arguments that the definition does not declare have no effect. -/
def coerceArguments (schema : Schema) (definition : FieldDef) (field : Field) (env : Variables) :
    Outcome CoercionError Variables :=
  schema.coerceParameters definition.name field env definition.parameters.toList

end Schema

/-! ## §2. The fields of an operation. -/

/-- A field together with its definition. -/
structure ResolvedField where
  definition : FieldDef
  field : Field

mutual
/-- The resolved fields at and beneath a field that is selected on a type. -/
def Field.resolvedFields (schema : Schema) (parent : Option TypeDef) : Field → List ResolvedField
  | ⟨aliasName, name, arguments, set, location⟩ =>
    match parent.bind (·.field? name) with
    | some definition =>
      ⟨definition, ⟨aliasName, name, arguments, set, location⟩⟩ ::
        SelectionSet.resolvedFieldsOption schema (schema.namedType? definition.type) set
    | none => []
/-- The resolved fields of an inline fragment.  A type condition takes the place of the type. -/
def InlineFragment.resolvedFields (schema : Schema) (parent : Option TypeDef) :
    InlineFragment → List ResolvedField
  | ⟨some typeName, set, _⟩ => set.resolvedFields schema (schema.find? typeName)
  | ⟨none, set, _⟩ => set.resolvedFields schema parent
/-- The resolved fields of a selection.  Those of a fragment that is spread are not among them. -/
def Selection.resolvedFields (schema : Schema) (parent : Option TypeDef) :
    Selection → List ResolvedField
  | .field f => f.resolvedFields schema parent
  | .fragmentSpread _ => []
  | .inlineFragment part => part.resolvedFields schema parent
/-- The resolved fields of a selection set on a type. -/
def SelectionSet.resolvedFields (schema : Schema) (parent : Option TypeDef) :
    SelectionSet → List ResolvedField
  | ⟨selections, _⟩ => Selection.resolvedFieldsList schema parent selections
/-- The resolved fields of a selection set that may be missing. -/
def SelectionSet.resolvedFieldsOption (schema : Schema) (parent : Option TypeDef) :
    Option SelectionSet → List ResolvedField
  | none => []
  | some set => set.resolvedFields schema parent
/-- The resolved fields of selections. -/
def Selection.resolvedFieldsList (schema : Schema) (parent : Option TypeDef) :
    List Selection → List ResolvedField
  | [] => []
  | selection :: selections =>
    selection.resolvedFields schema parent ++ Selection.resolvedFieldsList schema parent selections
end

/-- The fields of an operation whose definitions are known, each before those beneath it. -/
def Operation.resolvedFields (schema : Schema) (operation : Operation) : List ResolvedField :=
  operation.selectionSet.resolvedFields schema (schema.rootType? operation.kind)

end GraphQLCheck
