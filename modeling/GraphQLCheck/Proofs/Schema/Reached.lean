/-
  GraphQLCheck.Proofs.Schema.Reached
  ──────────────────────────────────
  The types that a type leads to: elements of lists, what is inside an exclusion of null, and the fields of
  input objects.

  A value of a type has parts of no other types, so of the scalars and the defaults of a schema only those
  matter that the type leads to.

      Schema.Reaches         — one type leads to another
      Schema.ReachedScalars  — what holds of every scalar that a type leads to
      Schema.ReachedDefaults — what holds of every default of an input field that a type leads to
-/
import GraphQLCheck.Proofs.Coercion.Defaults

namespace GraphQLCheck

namespace Schema

/-- The types that a type leads to. -/
inductive Reaches (schema : Schema) (origin : TypeRef) : TypeRef → Prop where
  | here : Reaches schema origin origin
  | list {element : TypeRef} : Reaches schema origin (.list element) → Reaches schema origin element
  | nonNull {inner : TypeRef} : Reaches schema origin (.nonNull inner) → Reaches schema origin inner
  | member {name : String} {type : InputObjectType} {field : InputDef} :
      Reaches schema origin (.named name) → schema.find? name = some (.inputObject type) →
      field ∈ type.fields.toList → Reaches schema origin field.type

namespace Reaches

variable {schema : Schema} {origin type : TypeRef}

/-- A type leads to what the elements are of that its values are lists of. -/
theorem element (h : schema.Reaches origin type) {element : TypeRef} (hview : type.view = .list element) :
    schema.Reaches origin element := by
  induction type with
  | list inner ih =>
    cases hview
    exact h.list
  | named name => cases hview
  | nonNull inner ih => exact ih h.nonNull hview

/-- A type leads to the name inside all of its layers. -/
theorem typeName (h : schema.Reaches origin type) : schema.Reaches origin (.named type.typeName) := by
  induction type with
  | list inner ih => exact ih h.list
  | named name => exact h
  | nonNull inner ih => exact ih h.nonNull

end Reaches

/-- What holds of every scalar that a type leads to. -/
def ReachedScalars (schema : Schema) (origin : TypeRef) (P : ScalarType → Prop) : Prop :=
  ∀ name scalar, schema.Reaches origin (.named name) → schema.find? name = some (.scalar scalar) → P scalar

/-- What holds of every default of an input field that a type leads to, and of the field's type. -/
def ReachedDefaults (schema : Schema) (origin : TypeRef) (P : TypeRef → Literal → Prop) : Prop :=
  ∀ name type, schema.Reaches origin (.named name) → schema.find? name = some (.inputObject type) →
    ∀ field ∈ type.fields.toList, ∀ literal, field.defaultValue = some literal → P field.type literal

variable {schema : Schema} {origin : TypeRef}

/-- What holds of all scalars holds of those that a type leads to. -/
theorem reachedScalars_of_forall {P : ScalarType → Prop}
    (h : ∀ scalar, .scalar scalar ∈ schema.types.toList → P scalar) : schema.ReachedScalars origin P :=
  fun _ _ _ hfind => h _ (Declarations.mem_of_find? hfind).1

/-- What holds of all defaults holds of those that a type leads to. -/
theorem reachedDefaults_of_forall {P : TypeRef → Literal → Prop}
    (h : ∀ declared ∈ schema.defaults, P declared.1 declared.2) : schema.ReachedDefaults origin P :=
  fun _ _ _ hfind _ hfield _ hdefault => h _ (mem_defaults hfind hfield hdefault)

end Schema

end GraphQLCheck
