/-
  GraphQLCheck.Language.TypeExpr
  ──────────────────────────────
  Types as they are written: `Name`, `[Type]`, `Type!`.
-/

namespace GraphQLCheck

/-- A written type. -/
inductive TypeExpr where
  | named (name : String)
  | list (element : TypeExpr)
  /-- A type that excludes `null`. -/
  | nonNull (inner : TypeExpr)
  deriving DecidableEq, Repr, Inhabited

/-- The text of a written type. -/
def TypeExpr.render : TypeExpr → String
  | .named name => name
  | .list element => "[" ++ element.render ++ "]"
  | .nonNull inner => inner.render ++ "!"

end GraphQLCheck
