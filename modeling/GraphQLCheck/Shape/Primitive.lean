/-
  GraphQLCheck.Shape.Primitive
  ────────────────────────────
  Runtime values read as booleans, numbers, texts and members of enums.

      Json.toInt64?           — numbers are rounded, and texts read as numerals
      PrimitiveKind.convert?  — a value in a simple shape
      EnumShape.materialize   — the member that a value stands for
-/
import GraphQLCheck.Number.Decimal
import GraphQLCheck.Number.Width
import GraphQLCheck.Outcome
import GraphQLCheck.Shape.Materialized
import GraphQLCheck.Text.Blank

namespace GraphQLCheck

/-! ## §1. Simple values. -/

namespace JsonNumber

/-- The nearest integer; a half goes to the even neighbour. -/
def roundToInt : JsonNumber → Int
  | .integer i => i
  | .float x => x.roundToInt

/-- Whether the number is zero. -/
def isZero : JsonNumber → Bool
  | .integer i => i == 0
  | .float x => x.isZero

end JsonNumber

namespace Json

/-- Read as an integer of 64 bits: `true` is one, a double is rounded, and a text without the white
space around it must be a numeral. -/
def toInt64? : Json → Option Int
  | .bool b => some (if b then 1 else 0)
  | .number n => int64? n.roundToInt
  | .string s => (Text.readInt? (Text.trim s.toList)).bind int64?
  | _ => none

/-- Read as a double. -/
def toDouble? : Json → Option Double
  | .bool b => some (.ofInt (if b then 1 else 0))
  | .number n => some n.toDouble
  | .string s => Double.ofText? (Text.trim s.toList)
  | _ => none

/-- Read as a boolean: zero is false, any other number true, and a text must be `true` or `false` in
any letter case. -/
def toBool? : Json → Option Bool
  | .bool b => some b
  | .number n => some !n.isZero
  | .string s =>
    let word := String.ofList (Text.trim s.toList)
    if Text.sameIgnoringCase word "true" then some true
    else if Text.sameIgnoringCase word "false" then some false
    else none
  | _ => none

/-- Read as a text. -/
def toText? : Json → Option String
  | .string s => some s
  | .number n => some n.render
  | .bool b => some (if b then "true" else "false")
  | _ => none

end Json

/-- Convert a value to a simple shape. -/
def PrimitiveKind.convert? (kind : PrimitiveKind) (value : Json) : Option Materialized :=
  match kind with
  | .boolean => value.toBool?.map .boolean
  | .float => value.toDouble?.map .float
  | .int => (value.toInt64?.filter fitsInt32).map .int
  | .long => value.toInt64?.map .long
  | .string => value.toText?.map .string

/-! ## §2. Enums. -/

namespace EnumShape

/-- The member that a value stands for: null for the first one, a text for the one with that name or
else with that number, and a number for the one with that number. -/
def member? (shape : EnumShape) : Json → Option (String × Int)
  | .null => shape.members.head?
  | .string s => (shape.findName? s).or ((Json.string s).toInt64?.bind shape.findValue?)
  | .number n => (Json.number n).toInt64?.bind shape.findValue?
  | _ => none

/-- How a value is written that stands for no member. -/
def foundText : Json → String
  | .string s => s
  | value => value.render

/-- Convert a value to a member. -/
def materialize (shape : EnumShape) (value : Json) : Outcome MaterializeError Materialized :=
  match shape.member? value with
  | some (name, number) => .value (.enum name number)
  | none => .failure (.unknownEnumValue (foundText value) shape.name)

end EnumShape

end GraphQLCheck
