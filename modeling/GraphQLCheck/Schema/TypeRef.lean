/-
  GraphQLCheck.Schema.TypeRef
  ───────────────────────────
  References to types.  A reference names a type and may wrap it in lists and non-null layers; what
  the name stands for is looked up in a schema, so types may refer to themselves.

      TypeRef.ofExpr — the reference that a written type makes
      TypeRef.view   — what a value that is not null is read as: a list, or a named type
-/
import GraphQLCheck.Language.TypeExpr

namespace GraphQLCheck

/-- A reference to a type, of a field, a parameter, an input field or a variable. -/
inductive TypeRef where
  | list (element : TypeRef)
  | named (name : String)
  /-- Excludes `null`. -/
  | nonNull (inner : TypeRef)
  deriving DecidableEq, Repr, Inhabited

namespace TypeRef

/-- Whether the outermost layer excludes `null`. -/
def isNonNull : TypeRef → Bool
  | .nonNull _ => true
  | _ => false

/-- A reference that excludes `null`: one that does so already stays as it is. -/
def required (type : TypeRef) : TypeRef := if type.isNonNull then type else .nonNull type

/-- The reference that a written type makes. -/
def ofExpr : TypeExpr → TypeRef
  | .named name => .named name
  | .list element => .list (ofExpr element)
  | .nonNull inner => (ofExpr inner).required

/-- Whether a value of the type is a list. -/
def isList : TypeRef → Bool
  | .list _ => true
  | .nonNull inner => inner.isList
  | .named _ => false

/-- The name inside all layers. -/
def typeName : TypeRef → String
  | .list element => element.typeName
  | .named name => name
  | .nonNull inner => inner.typeName

/-- The type without an outermost layer that excludes `null`. -/
def nullable : TypeRef → TypeRef
  | .nonNull inner => inner
  | type => type

/-- The name, of a type without any layer. -/
def plainName? : TypeRef → Option String
  | .named name => some name
  | _ => none

/-- The number of list layers. -/
def listDepth : TypeRef → Nat
  | .list element => element.listDepth + 1
  | .named _ => 0
  | .nonNull inner => inner.listDepth

/-- The text of a type. -/
def render : TypeRef → String
  | .list element => "[" ++ element.render ++ "]"
  | .named name => name
  | .nonNull inner => inner.render ++ "!"

/-- What a value that is not null is read as. -/
inductive View where
  /-- A list of values of a type. -/
  | list (element : TypeRef)
  /-- A value of a named type. -/
  | named (name : String)
  deriving DecidableEq, Repr

/-- What a value of a type is read as once it is known not to be null. -/
def view : TypeRef → View
  | .list element => .list element
  | .named name => .named name
  | .nonNull inner => inner.view

/-- A required type excludes `null`. -/
theorem isNonNull_required (type : TypeRef) : type.required.isNonNull = true := by
  unfold required; split <;> simp_all [isNonNull]

end TypeRef

end GraphQLCheck
