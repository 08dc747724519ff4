/-
  GraphQLCheck.Language.Location
  ──────────────────────────────
  Places in a source text.
-/
import GraphQLCheck.Text.Ascii

namespace GraphQLCheck

/-- A place in a source text; lines and columns are counted from 1. -/
structure Location where
  line : Nat
  column : Nat
  deriving DecidableEq, Repr, Inhabited

/-- The text of a location, `line:column`. -/
def Location.render (place : Location) : String :=
  Text.showNat place.line ++ ":" ++ Text.showNat place.column

end GraphQLCheck
