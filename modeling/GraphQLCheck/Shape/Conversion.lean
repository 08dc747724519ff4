/-
  GraphQLCheck.Shape.Conversion
  ─────────────────────────────
  Runtime values converted to any shape: `ShapeRegistry.materialize`.

  The conversion recurses on the value, given what the defaults of members come to.  As a default may
  use other defaults, `ShapeRegistry.materializeWithin` counts how deep they are nested: deeper than
  there are members with a default, one of them is within itself, and has no end.
-/
import GraphQLCheck.Shape.Primitive
import GraphQLCheck.Shape.Registry

namespace GraphQLCheck

/-! ## §1. Values without parts. -/

/-- How the default of a member is converted, given the member's shape. -/
abbrev MaterializeDefault := Shape → Json → Outcome MaterializeError Materialized

namespace ShapeRegistry

/-- Convert a value to an enum. -/
def materializeEnum (registry : ShapeRegistry) (name : String) (value : Json) :
    Outcome MaterializeError Materialized :=
  match registry.enum? name with
  | some shape => shape.materialize value
  | none => .failure (.unknownShape name)

/-- Convert null.  It is an empty list and the first member of an enum, and itself everywhere else. -/
def materializeNull (registry : ShapeRegistry) : Shape → Outcome MaterializeError Materialized
  | .enum name | .nullable (.enum name) => registry.materializeEnum name .null
  | .list _ | .nullable (.list _) => .value (.list [])
  | .object name => if (registry.object? name).isSome then .value .null else .failure (.unknownShape name)
  | .any | .nullable _ | .primitive _ => .value .null

/-- Convert a value that is not null and has no parts of the shape's own. -/
def materializeLeaf (registry : ShapeRegistry) (value : Json) :
    Shape → Outcome MaterializeError Materialized
  | .any => .value (.json value)
  | .enum name => registry.materializeEnum name value
  | .list _ => .failure (.expectedList value)
  | .nullable inner => registry.materializeLeaf value inner
  | .object name =>
    match registry.object? name with
    | some shape => .failure (.expectedObject shape.name value)
    | none => .failure (.unknownShape name)
  | .primitive kind => .ofOption (.unconvertible value kind) (kind.convert? value)

end ShapeRegistry

/-! ## §2. Lists and objects. -/

/-- The shape of a value that is not null. -/
def Shape.inner : Shape → Shape
  | .nullable inner => inner.inner
  | shape => shape

/-- The source of a member: the first entry with its name in any letter case, or else the default. -/
def MemberShape.materialize (default : MaterializeDefault) (member : MemberShape)
    (entries : List (String × (Shape → Outcome MaterializeError Materialized))) :
    Outcome MaterializeError Materialized :=
  match entries.find? fun entry => Text.sameIgnoringCase entry.1 member.name with
  | some (_, value) => (value member.shape).mapFailure (.inMember member.name)
  | none =>
    match member.defaultValue with
    | some value => (default member.shape value).mapFailure (.inMember member.name)
    | none => .value .null

/-- The values of members, after those that are there already. -/
def materializeMembers (default : MaterializeDefault)
    (entries : List (String × (Shape → Outcome MaterializeError Materialized)))
    (values : List (String × Materialized)) :
    List MemberShape → Outcome MaterializeError (List (String × Materialized))
  | [] => .value values
  | member :: members => do
    let value ← member.materialize default entries
    materializeMembers default entries (Entries.put values member.name value) members

mutual
/-- Convert a value to a shape, given what defaults come to. -/
def Json.materializeWith (registry : ShapeRegistry) (default : MaterializeDefault) :
    Json → Shape → Outcome MaterializeError Materialized
  | .null, shape => registry.materializeNull shape
  | .array items, shape =>
    match shape.inner with
    | .list item => (materializeItems registry default items 0 item).map .list
    | _ => registry.materializeLeaf (.array items) shape
  | .object entries, shape =>
    match shape.inner with
    | .object name =>
      match registry.object? name with
      | some shape =>
        (materializeMembers default (materializeEntries registry default entries) []
          shape.members).map .object
      | none => .failure (.unknownShape name)
    | _ => registry.materializeLeaf (.object entries) shape
  | .bool b, shape => registry.materializeLeaf (.bool b) shape
  | .number n, shape => registry.materializeLeaf (.number n) shape
  | .string s, shape => registry.materializeLeaf (.string s) shape
/-- Convert the items of an array, of which the first has the place `index`. -/
def Json.materializeItems (registry : ShapeRegistry) (default : MaterializeDefault) :
    List Json → Nat → Shape → Outcome MaterializeError (List Materialized)
  | [], _, _ => .value []
  | item :: items, index, shape => do
    let value ← (item.materializeWith registry default shape).mapFailure (.inElement index)
    let values ← materializeItems registry default items (index + 1) shape
    pure (value :: values)
/-- Convert the entries of an object, to whatever shapes they have. -/
def Json.materializeEntries (registry : ShapeRegistry) (default : MaterializeDefault) :
    List (String × Json) → List (String × (Shape → Outcome MaterializeError Materialized))
  | [] => []
  | (name, value) :: entries =>
    (name, fun shape => value.materializeWith registry default shape) ::
      materializeEntries registry default entries
end

/-! ## §3. Defaults. -/

namespace ShapeRegistry

/-- Convert a default, in which other defaults are nested less than `depth` deep. -/
def materializeWithin (registry : ShapeRegistry) : Nat → MaterializeDefault
  | 0 => fun _ _ => .endless
  | depth + 1 => fun shape value =>
    value.materializeWith registry (registry.materializeWithin depth) shape

/-- Convert a value to a shape. -/
def materialize (registry : ShapeRegistry) (shape : Shape) (value : Json) :
    Outcome MaterializeError Materialized :=
  value.materializeWith registry (registry.materializeWithin registry.defaultCount) shape

end ShapeRegistry

end GraphQLCheck
