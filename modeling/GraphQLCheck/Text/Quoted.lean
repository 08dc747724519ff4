/-
  GraphQLCheck.Text.Quoted
  ────────────────────────
  Paths between quotes, as messages show them.  A double quote and a backslash are escaped; so is
  every character that cannot be shown as it is, by its code point.
-/
import GraphQLCheck.Text.Ascii
import GraphQLCheck.Text.Printable

namespace GraphQLCheck.Text

/-- A number in hexadecimal digits, in lower case. -/
def showHex (n : Nat) : List Char := Nat.toDigits 16 n

/-- How a character of a path is shown. -/
def showPathChar (c : Char) : List Char :=
  match c with
  | '\x00' => ['\\', '0']
  | '\t' => ['\\', 't']
  | '\r' => ['\\', 'r']
  | '\n' => ['\\', 'n']
  | '\\' => ['\\', '\\']
  | '"' => ['\\', '"']
  | c => if isPrintable c then [c] else ['\\', 'u', '\x7b'] ++ showHex c.toNat ++ ['\x7d']

/-- A path between quotes. -/
def quotePath (path : String) : String :=
  String.ofList ('"' :: path.toList.flatMap showPathChar ++ ['"'])

end GraphQLCheck.Text
