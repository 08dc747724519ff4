/-
  GraphQLCheck.Shape.Materialized
  ───────────────────────────────
  Values in the form of a shape, and why a value cannot take one.

      Materialized        — a value in the form of a shape
      Materialized.toJson — back to a plain runtime value
-/
import GraphQLCheck.Json.Printer
import GraphQLCheck.Shape.Basic

namespace GraphQLCheck

/-! ## §1. Values. -/

/-- A value in the form of a shape. -/
inductive Materialized where
  | null
  | boolean (b : Bool)
  /-- A member of an enum, with its number. -/
  | enum (name : String) (value : Int)
  | float (x : Double)
  | int (i : Int)
  | long (i : Int)
  /-- A value of any shape. -/
  | json (value : Json)
  | string (s : String)
  | list (items : List Materialized)
  /-- Members by name, each once. -/
  | object (members : List (String × Materialized))
  deriving BEq, Repr, Inhabited

namespace Materialized

/-- Whether the value is null. -/
def isNull : Materialized → Bool
  | .null => true
  | _ => false

/-- The members of an object. -/
def members? : Materialized → Option (List (String × Materialized))
  | .object members => some members
  | _ => none

mutual
/-- The runtime value.  A member of an enum becomes its name. -/
def toJson : Materialized → Json
  | .null => .null
  | .boolean b => .bool b
  | .enum name _ => .string name
  | .float x => .ofDouble x
  | .int i => .ofInt i
  | .long i => .ofInt i
  | .json value => value
  | .string s => .string s
  | .list items => .array (itemsToJson items)
  | .object members => .object (membersToJson members)
/-- The runtime values of the items of a list. -/
def itemsToJson : List Materialized → List Json
  | [] => []
  | item :: items => item.toJson :: itemsToJson items
/-- The runtime values of the members of an object. -/
def membersToJson : List (String × Materialized) → List (String × Json)
  | [] => []
  | (name, value) :: members => (name, value.toJson) :: membersToJson members
end

end Materialized

/-! ## §2. Errors. -/

/-- Why a value cannot take a shape. -/
inductive MaterializeError where
  | expectedList (found : Json)
  | expectedObject (shapeName : String) (found : Json)
  | unconvertible (found : Json) (target : PrimitiveKind)
  | unknownEnumValue (found enumName : String)
  | unknownShape (shapeName : String)
  /-- An element of a list cannot take its shape. -/
  | inElement (index : Nat) (cause : MaterializeError)
  /-- A member of an object cannot take its shape. -/
  | inMember (name : String) (cause : MaterializeError)
  deriving BEq, Repr

namespace MaterializeError

/-- The text of an error. -/
def message : MaterializeError → String
  | .expectedList found => "Expected a list, found " ++ found.render ++ "."
  | .expectedObject shapeName found =>
    "Expected an object for `" ++ shapeName ++ "`, found " ++ found.render ++ "."
  | .unconvertible found target =>
    "Cannot convert " ++ found.render ++ " to " ++ target.render ++ "."
  | .unknownEnumValue found enumName =>
    "Unknown value '" ++ found ++ "' for enum '" ++ enumName ++ "'."
  | .unknownShape shapeName => "No shape is registered for `" ++ shapeName ++ "`."
  | .inElement index _ => "In element " ++ Text.showNat index
  | .inMember name _ => "In member `" ++ name ++ "`"

/-- What led to an error, the outermost cause first. -/
def causes : MaterializeError → List MaterializeError
  | .inElement _ cause => cause :: cause.causes
  | .inMember _ cause => cause :: cause.causes
  | _ => []

end MaterializeError

end GraphQLCheck
