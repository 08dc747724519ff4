/-
  GraphQLCheck.Json.Printer
  ─────────────────────────
  The text of a JSON value: compact, as messages quote it, or indented by two blanks a level, as
  the command line prints it.  Entries keep their order.
-/
import GraphQLCheck.Json.Basic
import GraphQLCheck.Number.Style
import GraphQLCheck.Text.Ascii

namespace GraphQLCheck

/-- How JSON text writes a double: positionally from `0.00001` to below `10 ^ 16`, always with a
point there; a positive exponent has a sign; of two equally short decimals the even one. -/
def jsonFloat : FloatStyle where
  plainFrom := -5
  plainBelow := 16
  positiveExponentSign := "+"
  tie := .toEven
  notANumber := "null"
  infinity := "null"

/-- The text of a number. -/
def JsonNumber.render : JsonNumber → String
  | .integer i => Text.showInt i
  | .float x => jsonFloat.renderFinite x

namespace Json

/-- How a character is written between quotes. -/
def escapeChar (c : Char) : List Char :=
  if c = '"' then ['\\', '"']
  else if c = '\\' then ['\\', '\\']
  else if c = '\n' then ['\\', 'n']
  else if c = '\r' then ['\\', 'r']
  else if c = '\t' then ['\\', 't']
  else if c.toNat = 0x08 then ['\\', 'b']
  else if c.toNat = 0x0C then ['\\', 'f']
  else if c.toNat < 0x20 then '\\' :: 'u' :: Text.hex4 Text.lowerHexDigit c.toNat
  else [c]

/-- A text between quotes. -/
def quote (s : String) : String :=
  String.ofList ('"' :: s.toList.flatMap escapeChar ++ ['"'])

mutual
/-- The compact text of a value. -/
def render : Json → String
  | .null => "null"
  | .bool b => if b then "true" else "false"
  | .number n => n.render
  | .string s => quote s
  | .array items => "[" ++ ",".intercalate (renderItems items) ++ "]"
  | .object entries => "\x7b" ++ ",".intercalate (renderEntries entries) ++ "\x7d"
/-- The compact texts of the items of an array. -/
def renderItems : List Json → List String
  | [] => []
  | item :: items => item.render :: renderItems items
/-- The compact texts of the entries of an object. -/
def renderEntries : List (String × Json) → List String
  | [] => []
  | (key, value) :: entries => (quote key ++ ":" ++ value.render) :: renderEntries entries
end

/-- A new line, indented. -/
def newLine (indent : Nat) : String := String.ofList ('\n' :: List.replicate (2 * indent) ' ')

/-- Parts on lines of their own between brackets; brackets with nothing between them stay
together. -/
def bracketLines (opening closing : String) (indent : Nat) (parts : List String) : String :=
  if parts.isEmpty then opening ++ closing
  else opening ++ newLine (indent + 1) ++ ("," ++ newLine (indent + 1)).intercalate parts
    ++ newLine indent ++ closing

mutual
/-- The indented text of a value that stands at some level. -/
def renderIndented (indent : Nat) : Json → String
  | .array items => bracketLines "[" "]" indent (indentedItems indent items)
  | .object entries => bracketLines "\x7b" "\x7d" indent (indentedEntries indent entries)
  | .null => "null"
  | .bool b => if b then "true" else "false"
  | .number n => n.render
  | .string s => quote s
/-- The indented texts of the items of an array. -/
def indentedItems (indent : Nat) : List Json → List String
  | [] => []
  | item :: items => item.renderIndented (indent + 1) :: indentedItems indent items
/-- The indented texts of the entries of an object. -/
def indentedEntries (indent : Nat) : List (String × Json) → List String
  | [] => []
  | (key, value) :: entries =>
    (quote key ++ ": " ++ value.renderIndented (indent + 1)) :: indentedEntries indent entries
end

/-- The indented text of a value. -/
def pretty (value : Json) : String := value.renderIndented 0

end Json

end GraphQLCheck
