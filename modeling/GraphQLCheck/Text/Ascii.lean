/-
  GraphQLCheck.Text.Ascii
  ───────────────────────
  Characters and digits that all the notations of this library share.  All of them are ASCII:
  names, numbers and escapes admit no other letters or digits.

      takeDigits   — the leading run of decimal digits and what follows it
      natOfDigits  — the number that a run of decimal digits denotes
      readHex      — the number that hexadecimal digits denote
      sameIgnoringCase — equality of texts up to the case of ASCII letters
-/

namespace GraphQLCheck.Text

/-- The value of a decimal digit. -/
def digitValue (c : Char) : Nat := c.toNat - '0'.toNat

/-- The leading run of decimal digits, and what follows it. -/
def takeDigits (cs : List Char) : List Char × List Char := cs.span Char.isDigit

/-- The number that decimal digits denote. -/
def natOfDigits (digits : List Char) : Nat :=
  digits.foldl (fun n c => 10 * n + digitValue c) 0

/-- A natural number in decimal digits. -/
def showNat (n : Nat) : String := String.ofList (Nat.toDigits 10 n)

/-- An integer in decimal digits, with a minus sign if it is negative. -/
def showInt (i : Int) : String :=
  String.ofList ((if i < 0 then ['-'] else []) ++ Nat.toDigits 10 i.natAbs)

/-- The value of a hexadecimal digit, of either case. -/
def hexValue? (c : Char) : Option Nat :=
  if c.isDigit then some (digitValue c)
  else if 'a' ≤ c ∧ c ≤ 'f' then some (c.toNat - 'a'.toNat + 10)
  else if 'A' ≤ c ∧ c ≤ 'F' then some (c.toNat - 'A'.toNat + 10)
  else none

/-- The number that hexadecimal digits denote; none if one of them is no such digit. -/
def readHex (cs : List Char) : Option Nat :=
  cs.foldlM (fun n c => (hexValue? c).map (16 * n + ·)) 0

/-- The character with a given code point, if the code point is one of a character. -/
def charOfCode? (code : Nat) : Option Char :=
  if code.isValidChar then some (Char.ofNat code) else none

/-- The four-digit hexadecimal text of a code point below 65536. -/
def hex4 (digits : Nat → Char) (code : Nat) : List Char :=
  [digits (code / 4096 % 16), digits (code / 256 % 16), digits (code / 16 % 16), digits (code % 16)]

/-- A hexadecimal digit in lower case. -/
def lowerHexDigit (d : Nat) : Char :=
  if d < 10 then Char.ofNat ('0'.toNat + d) else Char.ofNat ('a'.toNat + (d - 10))

/-- A hexadecimal digit in upper case. -/
def upperHexDigit (d : Nat) : Char :=
  if d < 10 then Char.ofNat ('0'.toNat + d) else Char.ofNat ('A'.toNat + (d - 10))

/-- Equality up to the case of ASCII letters. -/
def sameIgnoringCase (s t : String) : Bool :=
  s.toList.map Char.toLower == t.toList.map Char.toLower

/-- An integer: an optional sign and at least one decimal digit, nothing else. -/
def readInt? (cs : List Char) : Option Int :=
  match cs with
  | '-' :: ds => (readNat? ds).map fun n => -(n : Int)
  | '+' :: ds => (readNat? ds).map Int.ofNat
  | ds => (readNat? ds).map Int.ofNat
where
  /-- A natural number: at least one decimal digit, nothing else. -/
  readNat? (ds : List Char) : Option Nat :=
    if ds.isEmpty || !ds.all Char.isDigit then none else some (natOfDigits ds)

end GraphQLCheck.Text
