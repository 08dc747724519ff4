/-
  GraphQLCheck.Proofs.Schema.Alike
  ────────────────────────────────
  Two schemas in which every name stands for the same type, and every operation kind has the same root.

  The types of a schema have an order, that in which they were registered.  Nothing that is evaluated,
  checked or coerced shows it, since schemas that are alike are interchangeable: their types are, being the
  same.  The shapes of a schema are kept in that order too, but each is found under its name.

  Main results, for schemas that are alike:
    * `interchangeable` — they are interchangeable
    * `rootType?_eq`, `rootObject?_eq` — they have the same roots
    * `enum?_inputShapes_eq`, `object?_inputShapes_eq` — the same shapes stand under each name
-/
import GraphQLCheck.Proofs.Schema.Interchangeable
import GraphQLCheck.Proofs.Shape.Registry

namespace GraphQLCheck

/-- Two schemas are alike if a name stands for the same type in both, and an operation kind has a root of
the same name. -/
structure Schema.Alike (schema schema' : Schema) : Prop where
  find?_eq : ∀ name, schema.find? name = schema'.find? name
  rootName?_eq : ∀ operation, schema.rootName? operation = schema'.rootName? operation

namespace Schema.Alike

variable {schema schema' : Schema} (h : schema.Alike schema')
include h

/-- A type is interchangeable with itself, and so are schemas with the same types. -/
theorem interchangeable : schema.Interchangeable schema' where
  find?_rel name := by
    rw [h.find?_eq]
    cases schema'.find? name with
    | none => exact .none
    | some type => exact .some (.same type)
  rootName?_eq := h.rootName?_eq

/-! ## §1. Types. -/

theorem namedType?_eq (type : TypeRef) : schema.namedType? type = schema'.namedType? type :=
  h.find?_eq type.typeName

theorem rootType?_eq (operation : OperationKind) :
    schema.rootType? operation = schema'.rootType? operation := by
  unfold rootType?
  rw [h.rootName?_eq]
  exact Option.bind_congr fun name _ => h.find?_eq name

theorem rootObject?_eq (operation : OperationKind) :
    schema.rootObject? operation = schema'.rootObject? operation := by
  have hderef : schema.derefRoot = schema'.derefRoot := by
    funext name
    unfold derefRoot resolve
    rw [h.find?_eq]
  unfold rootObject?
  rw [h.rootName?_eq, hderef]

/-! ## §2. Shapes. -/

/-- The same shapes stand under each name. -/
theorem sameAt_inputShapes (name : String) :
    ShapeRegistry.SameAt name schema.inputShapes schema'.inputShapes := by
  cases hfind : schema.find? name with
  | none =>
    have hempty := (sameAt_inputShapes_of_none hfind).symm
    exact hempty.trans (sameAt_inputShapes_of_none (h.find?_eq name ▸ hfind))
  | some definition =>
    have hfirst := (sameAt_inputShapes_of_find? hfind).symm
    rw [h.interchangeable.addType_eq {} (.same definition)] at hfirst
    exact hfirst.trans (sameAt_inputShapes_of_find? (h.find?_eq name ▸ hfind))

theorem enum?_inputShapes_eq (name : String) :
    schema.inputShapes.enum? name = schema'.inputShapes.enum? name :=
  (h.sameAt_inputShapes name).1.symm

theorem object?_inputShapes_eq (name : String) :
    schema.inputShapes.object? name = schema'.inputShapes.object? name :=
  (h.sameAt_inputShapes name).2.symm

end Schema.Alike

end GraphQLCheck
