/-
  GraphQLCheck.Language.Literal
  ─────────────────────────────
  Literals: values as they are written in documents and type definitions.

      Literal.render  — the canonical text of a literal, which messages quote
      Literal.toJson? — the runtime value of a literal without variables, read without any type
-/
import GraphQLCheck.Json.Basic
import GraphQLCheck.Number.Style
import GraphQLCheck.Text.Ascii

namespace GraphQLCheck

/-- A value as written. -/
inductive Literal where
  | null
  | int (i : Int)
  | float (x : Double)
  | string (s : String)
  | boolean (b : Bool)
  /-- A bare name, which stands for a value of an enum. -/
  | enum (name : String)
  | list (items : List Literal)
  /-- Fields in the order in which they are kept. -/
  | object (fields : List (String × Literal))
  /-- A reference to a variable. -/
  | variable (name : String)
  deriving BEq, Repr, Inhabited

/-- How a literal's text writes a double: positionally from `0.0001` to below `10 ^ 16`, always with
a point there; a positive exponent has no sign; of two equally short decimals the larger one. -/
def literalFloat : FloatStyle where
  plainFrom := -4
  plainBelow := 16
  positiveExponentSign := ""
  tie := .up
  notANumber := "NaN"
  infinity := "inf"

namespace Literal

/-- Whether the literal is `null`. -/
def isNull : Literal → Bool
  | .null => true
  | _ => false

/-- The text that a string literal holds. -/
def text? : Literal → Option String
  | .string s => some s
  | _ => none

/-! ## §1. The text of a literal. -/

/-- The control characters: U+0000 to U+001F and U+007F to U+009F. -/
def isControl (c : Char) : Bool := c.toNat < 0x20 || (0x7F ≤ c.toNat && c.toNat < 0xA0)

/-- How a character of a string literal is written between its quotes. -/
def escapeChar (c : Char) : List Char :=
  if c = '"' then ['\\', '"']
  else if c = '\\' then ['\\', '\\']
  else if c = '\n' then ['\\', 'n']
  else if c = '\r' then ['\\', 'r']
  else if c = '\t' then ['\\', 't']
  else if c.toNat = 0x08 then ['\\', 'b']
  else if c.toNat = 0x0C then ['\\', 'f']
  else if isControl c then '\\' :: 'u' :: Text.hex4 Text.upperHexDigit c.toNat
  else [c]

/-- A string literal between its quotes. -/
def quote (s : String) : String :=
  String.ofList ('"' :: s.toList.flatMap escapeChar ++ ['"'])

mutual
/-- The canonical text of a literal. -/
def render : Literal → String
  | .null => "null"
  | .int i => Text.showInt i
  | .float x => literalFloat.render x
  | .string s => quote s
  | .boolean b => if b then "true" else "false"
  | .enum name => name
  | .list items => "[" ++ ", ".intercalate (renderItems items) ++ "]"
  | .object fields => "\x7b" ++ ", ".intercalate (renderFields fields) ++ "\x7d"
  | .variable name => "$" ++ name
/-- The canonical texts of the items of a list. -/
def renderItems : List Literal → List String
  | [] => []
  | item :: items => item.render :: renderItems items
/-- The canonical texts of the fields of an object. -/
def renderFields : List (String × Literal) → List String
  | [] => []
  | (name, value) :: fields => (name ++ ": " ++ value.render) :: renderFields fields
end

/-! ## §2. The value of a literal read without a type. -/

mutual
/-- The runtime value of a literal without variables; none if there is a variable anywhere in it.
An enum value becomes its name, and a number beyond the range of the doubles becomes `null`. -/
def toJson? : Literal → Option Json
  | .null => some .null
  | .int i => some (.ofInt i)
  | .float x => some (.ofDouble x)
  | .string s => some (.string s)
  | .boolean b => some (.bool b)
  | .enum name => some (.string name)
  | .list items => (itemsToJson? items).map .array
  | .object fields => (fieldsToJson? fields).map .object
  | .variable _ => none
/-- The runtime values of the items of a list. -/
def itemsToJson? : List Literal → Option (List Json)
  | [] => some []
  | item :: items => do
    let value ← item.toJson?
    let values ← itemsToJson? items
    some (value :: values)
/-- The runtime values of the fields of an object. -/
def fieldsToJson? : List (String × Literal) → Option (List (String × Json))
  | [] => some []
  | (name, field) :: fields => do
    let value ← field.toJson?
    let values ← fieldsToJson? fields
    some ((name, value) :: values)
end

end Literal

end GraphQLCheck
