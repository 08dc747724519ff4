/-
  GraphQLCheck.Json.Reader
  ────────────────────────
  Strict JSON text.

      Json.readWritten? — what a text says, with the parts that stand for no value
      Json.read?        — the value that a text says

  Blanks around a value are skipped and nothing else may follow it.  At most `nestingLimit` arrays
  and objects may be open at a time where a value is to be read.  A number without a point or an
  exponent is an integer if it fits 64 bits (without a sign, or with one if it is negative), and
  otherwise a double.  A double is computed from those leading digits that fit an unsigned 64-bit
  number, scaled by a power of ten in double arithmetic; one that overflows is no value.
-/
import GraphQLCheck.Json.Written
import GraphQLCheck.Number.Decimal
import GraphQLCheck.Number.Width

namespace GraphQLCheck.Json

/-! ## §1. Blanks, numbers, strings. -/

/-- Drop the blanks that JSON admits between tokens. -/
def skipBlanks (cs : List Char) : List Char :=
  cs.dropWhile fun c => c == ' ' || c == '\n' || c == '\t' || c == '\r'

/-- Append digits to a number while it stays below `2 ^ 64`.  Yields the number and how many digits
were left out, which are all those from the first that does not fit. -/
def appendDigits : Nat → List Char → Nat × Nat
  | n, [] => (n, 0)
  | n, c :: cs =>
    let next := 10 * n + Text.digitValue c
    if fitsNat64 next then appendDigits next cs else (n, (c :: cs).length)

/-- The exponent of a number: `none` if what stands there is malformed, `0` if there is none.  The
flag says whether an exponent was written. -/
def readExponent? (cs : List Char) : Option (Bool × Int × List Char) :=
  match cs with
  | mark :: rest =>
    if mark == 'e' || mark == 'E' then
      let (negative, rest) :=
        match rest with
        | '-' :: rest => (true, rest)
        | '+' :: rest => (false, rest)
        | rest => (false, rest)
      let (digits, rest) := Text.takeDigits rest
      if digits.isEmpty then none
      else
        let size : Int := Text.natOfDigits digits
        some (true, if negative then -size else size, rest)
    else some (false, 0, cs)
  | [] => some (false, 0, [])

/-- The fraction of a number: its digits, or none if there is no point. -/
def readFraction? (cs : List Char) : Option (Option (List Char) × List Char) :=
  match cs with
  | '.' :: rest =>
    let (digits, rest) := Text.takeDigits rest
    if digits.isEmpty then none else some (some digits, rest)
  | _ => some (none, cs)

/-- The double `± significand · 10 ^ exponent`, by double arithmetic; none if it overflows. -/
def scaledNumber? (negative : Bool) (significand : Nat) (exponent : Int) : Option JsonNumber := do
  let start ← (Double.ofInt significand).finite?
  let x ← Double.scaled start exponent
  some (.float (x.withSign negative))

/-- A number without its sign; the number itself is none if it overflows. -/
def readUnsigned? (negative : Bool) (cs : List Char) : Option (Option JsonNumber × List Char) := do
  let (whole, rest) := Text.takeDigits cs
  -- no leading zero before another digit
  if whole.isEmpty || (whole.head? == some '0' && whole.length > 1) then none
  else
    let (fraction?, rest) ← readFraction? rest
    let (hasExponent, exponent, rest) ← readExponent? rest
    let (n, dropped) := appendDigits 0 whole
    if fraction?.isNone && !hasExponent && dropped == 0 then
      if !negative then some (some (.integer n), rest)
      else if 0 < n && fitsInt64 (-(n : Int)) then some (some (.integer (-(n : Int))), rest)
      -- minus zero, and what is too small for an integer
      else some (scaledNumber? true n 0, rest)
    else
      let fraction := fraction?.getD []
      let (significand, droppedThere) := appendDigits n fraction
      -- a digit that was left out before the point still counts as a place, one behind it does not
      let shift : Int := (dropped : Int) - (fraction.length - droppedThere : Nat) + exponent
      some (scaledNumber? negative significand shift, rest)

/-- A number. -/
def readNumber? (cs : List Char) : Option (Option JsonNumber × List Char) :=
  match cs with
  | '-' :: rest => readUnsigned? true rest
  | _ => readUnsigned? false cs

/-- Characters from their codes, the last one first, put before some others.  A character beyond 16
bits may be two codes, a high and a low surrogate; none if a surrogate stands alone. -/
def joinCodes? (chars : List Char) : List Nat → Option (List Char)
  | [] => some chars
  | [code] => (Text.charOfCode? code).map (· :: chars)
  | low :: high :: codes =>
    if 0xD800 ≤ high && high < 0xDC00 && 0xDC00 ≤ low && low < 0xE000 then
      joinCodes? (Char.ofNat (0x10000 + (high - 0xD800) * 0x400 + (low - 0xDC00)) :: chars) codes
    else
      match Text.charOfCode? low with
      | some char => joinCodes? (char :: chars) (high :: codes)
      | none => none

/-- The rest of a string after its opening quote; the string itself is none if a surrogate stands
alone in it.  `taken` holds the codes read so far, the last one first.  A control character that is not
escaped is refused. -/
def readString? (taken : List Nat) : List Char → Option (Option String × List Char)
  | [] => none
  | '"' :: rest => some ((joinCodes? [] taken).map String.ofList, rest)
  | '\\' :: 'u' :: a :: b :: c :: d :: rest => do
    readString? ((← Text.readHex [a, b, c, d]) :: taken) rest
  | '\\' :: c :: rest =>
    match c with
    | '"' => readString? ('"'.toNat :: taken) rest
    | '\\' => readString? ('\\'.toNat :: taken) rest
    | '/' => readString? ('/'.toNat :: taken) rest
    | 'b' => readString? (0x08 :: taken) rest
    | 'f' => readString? (0x0C :: taken) rest
    | 'n' => readString? ('\n'.toNat :: taken) rest
    | 'r' => readString? ('\r'.toNat :: taken) rest
    | 't' => readString? ('\t'.toNat :: taken) rest
    | _ => none
  | c :: rest =>
    if c.toNat < 0x20 || c == '\\' then none else readString? (c.toNat :: taken) rest

/-! ## §2. Arrays, objects, values. -/

/-- A reader of one part: what it read, and the text that follows. -/
abbrev Part (α : Type) := List Char → Option (α × List Char)

/-- The rest of a bracketed, comma-separated sequence after its first item has been called for.
The count bounds the number of items. -/
def readRest (closing : Char) (item : Part α) : Nat → Part (List α)
  | 0, _ => none
  | count + 1, cs => do
    let (first, rest) ← item (skipBlanks cs)
    match skipBlanks rest with
    | ',' :: rest =>
      let (others, rest) ← readRest closing item count rest
      some (first :: others, rest)
    | c :: rest => if c == closing then some ([first], rest) else none
    | [] => none

/-- A bracketed, comma-separated sequence after its opening bracket. -/
def readSequence (closing : Char) (item : Part α) : Part (List α) := fun cs =>
  match skipBlanks cs with
  | [] => none
  | c :: rest => if c == closing then some ([], rest) else readRest closing item cs.length cs

/-- An entry of an object. -/
def readEntry (value : Part WrittenJson) : Part (Option String × WrittenJson) := fun cs =>
  match cs with
  | '"' :: rest => do
    let (key, rest) ← readString? [] rest
    match skipBlanks rest with
    | ':' :: rest =>
      let (value, rest) ← value (skipBlanks rest)
      some ((key, value), rest)
    | _ => none
  | _ => none

/-- A value that stands at the head of the text, with a bound on how many arrays and objects are open
at a time and with the number of levels at which there are still values. -/
def readValue : Nat → Nat → Part WrittenJson
  | bound, levels, cs =>
    match cs with
    | 'n' :: 'u' :: 'l' :: 'l' :: rest => some (.null, rest)
    | 't' :: 'r' :: 'u' :: 'e' :: rest => some (.bool true, rest)
    | 'f' :: 'a' :: 'l' :: 's' :: 'e' :: rest => some (.bool false, rest)
    | '"' :: rest => (readString? [] rest).map fun (s, rest) => (.ofString s, rest)
    | '[' :: rest =>
      match bound with
      | 0 => none
      | bound + 1 =>
        (readSequence ']' (readValue bound (levels - 1)) rest).map fun (items, rest) =>
          (if levels = 0 then .valueless else .array items, rest)
    | '\x7b' :: rest =>
      match bound with
      | 0 => none
      | bound + 1 =>
        (readSequence '\x7d' (readEntry (readValue bound (levels - 1))) rest).map
          fun (entries, rest) => (if levels = 0 then .valueless else .ofEntries entries, rest)
    | cs => (readNumber? cs).map fun (n, rest) => (.ofNumber n, rest)

/-! ## §3. Texts. -/

/-- How many arrays and objects may be open at a time where a value is read. -/
def nestingLimit : Nat := 127

/-- What a text says, with values at a number of levels. -/
def readWrittenTo? (levels : Nat) (text : String) : Option WrittenJson := do
  let cs := skipBlanks text.toList
  -- each array and object takes at least its opening bracket
  let (value, rest) ← readValue cs.length levels cs
  if (skipBlanks rest).isEmpty then some value else none

/-- What a text says. -/
def readWritten? (text : String) : Option WrittenJson := readWrittenTo? nestingLimit text

/-- The value that a text says, of at most a number of levels. -/
def readTo? (levels : Nat) (text : String) : Option Json :=
  (readWrittenTo? levels text).bind (·.value?)

/-- The value that a text says. -/
def read? (text : String) : Option Json := readTo? nestingLimit text

/-- The entries of the object that a text says. -/
def readObject? (text : String) : Option Variables :=
  match read? text with
  | some (.object entries) => some entries
  | _ => none

end GraphQLCheck.Json
