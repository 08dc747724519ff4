/-
  GraphQLCheck.Language.Lexeme
  ────────────────────────────
  The lexemes of documents and type definitions, each with the place where it starts.

  `scan` runs over the characters one at a time.  What it has read of the current lexeme is in the
  scanner's `Mode`; a character that cannot continue a lexeme ends it and starts the next.

      blanks      — space and comma take one column, a tab takes eight, a carriage return and
                    U+FEFF none; a line feed starts a line; a comment ends at either line character
      brackets    — at most `bracketLimit` may be open at a time
      numbers     — run to the next blank or punctuator and are checked as a whole
      strings     — stay on one line; a block string ends at three quotes without a backslash
-/
import GraphQLCheck.Language.BlockString
import GraphQLCheck.Language.Location
import GraphQLCheck.Number.Decimal
import GraphQLCheck.Number.Width

namespace GraphQLCheck

/-- A text that cannot be read, with the place at which reading stopped. -/
structure ReadError where
  place : Location
  deriving DecidableEq, Repr

/-- The text of a read error. -/
def ReadError.message (error : ReadError) : String :=
  "unexpected text at " ++ error.place.render

/-- The marks that are not names, numbers or strings. -/
inductive Mark where
  | bang | dollar | colon | equals | at | bar | ampersand | ellipsis
  | openParen | closeParen | openBracket | closeBracket | openBrace | closeBrace
  deriving DecidableEq, Repr

/-- A lexeme. -/
inductive Lexeme where
  | mark (m : Mark)
  | name (s : String)
  | int (i : Int)
  | float (x : Double)
  /-- A string or a block string. -/
  | string (s : String)
  deriving DecidableEq, Repr

/-- A lexeme and where it starts. -/
structure PlacedLexeme where
  lexeme : Lexeme
  place : Location
  deriving DecidableEq, Repr

namespace Lexeme

/-! ## §1. Numbers. -/

/-- An integer as written: `0`, or digits that do not start with `0`, with or without a minus
sign. -/
def isIntText (cs : List Char) : Bool :=
  match cs with
  | ['0'] | ['-', '0'] => true
  | '0' :: _ | ['-'] | '-' :: '0' :: _ | [] => false
  | _ :: rest => rest.all Char.isDigit

/-- The exponent of a number as written, after its mark: a sign or a digit from 1 to 8, then
digits. -/
def isExponentText : List Char → Bool
  | [] => false
  | first :: rest =>
    (first == '-' || first == '+' || ('1' ≤ first && first ≤ '8')) && rest.all Char.isDigit

/-- Split a text at its last character that satisfies a test, which belongs to neither part. -/
def splitAtLast? (test : Char → Bool) (cs : List Char) : Option (List Char × List Char) :=
  let (after, rest) := cs.reverse.span fun c => !test c
  match rest with
  | [] => none
  | _ :: before => some (before.reverse, after.reverse)

/-- A number with a point or an exponent.  The last point and the last exponent mark count, and the
mark may not stand before the point. -/
def isFloatText (cs : List Char) : Bool :=
  let isPoint (c : Char) := c == '.'
  let isExponentMark (c : Char) := c == 'e' || c == 'E'
  match splitAtLast? isPoint cs with
  | some (whole, fraction) =>
    !whole.any isExponentMark && isIntText whole &&
      match splitAtLast? isExponentMark fraction with
      | some (digits, exponent) =>
        !digits.isEmpty && digits.all Char.isDigit && isExponentText exponent
      | none => !fraction.isEmpty && fraction.all Char.isDigit
  | none =>
    match splitAtLast? isExponentMark cs with
    | some (whole, exponent) => isIntText whole && isExponentText exponent
    | none => false

/-- The lexeme of a number.  An integer fits 64 bits; too large a double is infinite. -/
def ofNumberText? (cs : List Char) : Option Lexeme :=
  if cs.any fun c => c == '.' || c == 'e' || c == 'E' then
    if isFloatText cs then (Double.ofText? cs).map .float else none
  else if isIntText cs then ((Text.readInt? cs).bind int64?).map .int
  else none

/-! ## §2. Strings. -/

/-- What four characters after `\u` stand for: a hexadecimal number, which may have a plus sign in
the place of its first digit. -/
def unicodeEscape? (cs : List Char) : Option Char :=
  let digits :=
    match cs with
    | '+' :: rest => rest
    | cs => cs
  (Text.readHex digits).bind Text.charOfCode?

/-- The text that a string stands for, given what is between its quotes.  `\b` is U+0010. -/
def unescape? (taken : List Char) : List Char → Option String
  | [] => some (String.ofList taken.reverse)
  | '\\' :: 'u' :: a :: b :: c :: d :: rest => do
    let char ← unicodeEscape? [a, b, c, d]
    unescape? (char :: taken) rest
  | '\\' :: c :: rest =>
    match c with
    | '"' => unescape? ('"' :: taken) rest
    | '\\' => unescape? ('\\' :: taken) rest
    | '/' => unescape? ('/' :: taken) rest
    | 'b' => unescape? ('\x10' :: taken) rest
    | 'f' => unescape? ('\x0c' :: taken) rest
    | 'n' => unescape? ('\n' :: taken) rest
    | 'r' => unescape? ('\r' :: taken) rest
    | 't' => unescape? ('\t' :: taken) rest
    | _ => none
  | c :: rest => if c = '\\' then none else unescape? (c :: taken) rest

end Lexeme

/-! ## §3. The scanner. -/

/-- What a scanner is in the middle of.  Lexemes that span characters carry the place where they
started and what was taken of them, the last character first. -/
inductive Mode where
  /-- Between lexemes. -/
  | between
  | comment
  /-- In `...`, with a number of points still to come. -/
  | points (start : Location) (missing : Nat)
  | name (start : Location) (taken : List Char)
  | number (start : Location) (taken : List Char)
  /-- After one quote. -/
  | oneQuote (start : Location)
  /-- After two quotes: an empty string, unless a third one follows. -/
  | twoQuotes (start : Location)
  /-- In a string; `escaped` says whether the next character is escaped. -/
  | string (start : Location) (taken : List Char) (escaped : Bool)
  /-- In a block string, after a run of quotes; `escaped` says whether a backslash stands before the
  run. -/
  | block (start : Location) (taken : List Char) (quotes : Nat) (escaped : Bool)

/-- The state of a scan. -/
structure Scanner where
  /-- Where the next character stands. -/
  place : Location := ⟨1, 1⟩
  openBrackets : Nat := 0
  mode : Mode := .between
  /-- The lexemes read so far, the last one first. -/
  lexemes : List PlacedLexeme := []

namespace Scanner

/-- How many brackets may be open at a time. -/
def bracketLimit : Nat := 50

/-- Move on by columns. -/
def advance (s : Scanner) (columns : Nat) : Scanner :=
  { s with place := { s.place with column := s.place.column + columns } }

/-- Move on to the next line. -/
def nextLine (s : Scanner) : Scanner := { s with place := ⟨s.place.line + 1, 1⟩ }

/-- Finish a lexeme. -/
def finish (s : Scanner) (start : Location) (lexeme : Lexeme) : Scanner :=
  { s with mode := .between, lexemes := ⟨lexeme, start⟩ :: s.lexemes }

/-- Stop with an error. -/
def refuse (s : Scanner) : Except ReadError Scanner := .error ⟨s.place⟩

/-- Finish a lexeme that may turn out to be malformed. -/
def finish? (s : Scanner) (start : Location) : Option Lexeme → Except ReadError Scanner
  | some lexeme => .ok (s.finish start lexeme)
  | none => .error ⟨start⟩

/-- The mark that a character is on its own. -/
def markOf? : Char → Option Mark
  | '!' => some .bang
  | '$' => some .dollar
  | ':' => some .colon
  | '=' => some .equals
  | '@' => some .at
  | '|' => some .bar
  | '&' => some .ampersand
  | '(' => some .openParen
  | ')' => some .closeParen
  | '[' => some .openBracket
  | ']' => some .closeBracket
  | '\x7b' => some .openBrace
  | '\x7d' => some .closeBrace
  | _ => none

/-- The number of open brackets after a mark; none if there would be too many. -/
def bracketsAfter? (openBrackets : Nat) : Mark → Option Nat
  | .openParen | .openBracket | .openBrace =>
    if openBrackets < bracketLimit then some (openBrackets + 1) else none
  | .closeParen | .closeBracket | .closeBrace => some (openBrackets - 1)
  | _ => some openBrackets

/-- Whether a character can start a name. -/
def startsName (c : Char) : Bool := c.isAlpha || c == '_'

/-- Whether a character can continue a name. -/
def continuesName (c : Char) : Bool := c.isAlphanum || c == '_'

/-- Whether a character ends a number: a blank or the character of a mark. -/
def endsNumber (c : Char) : Bool :=
  [' ', '\n', '\r', '\t', ',', '#'].contains c || (markOf? c).isSome

/-- Read a character that stands between lexemes. -/
def start (s : Scanner) (c : Char) : Except ReadError Scanner :=
  match c with
  | ' ' | ',' => .ok (s.advance 1)
  | '\t' => .ok (s.advance 8)
  | '\r' | '\uFEFF' => .ok s
  | '\n' => .ok s.nextLine
  | '#' => .ok { s with mode := .comment }
  | '.' => .ok ({ s with mode := .points s.place 2 }.advance 1)
  | '"' => .ok ({ s with mode := .oneQuote s.place }.advance 1)
  | _ =>
    match markOf? c with
    | some mark =>
      match bracketsAfter? s.openBrackets mark with
      | some openBrackets => .ok ({ s.finish s.place (.mark mark) with openBrackets }.advance 1)
      | none => s.refuse
    | none =>
      if startsName c then .ok ({ s with mode := .name s.place [c] }.advance 1)
      else if c.isDigit || c == '-' then .ok ({ s with mode := .number s.place [c] }.advance 1)
      else s.refuse

/-- Read a character of a string. -/
def stringStep (s : Scanner) (start : Location) (taken : List Char) (escaped : Bool) (c : Char) :
    Except ReadError Scanner :=
  if c = '"' ∧ !escaped then
    (s.finish? start ((Lexeme.unescape? [] taken.reverse).map .string)).map (·.advance 1)
  else if c = '\n' then s.refuse
  else .ok ({ s with mode := .string start (c :: taken) (!escaped && c == '\\') }.advance 1)

/-- Read a character of a block string. -/
def blockStep (s : Scanner) (start : Location) (taken : List Char) (quotes : Nat) (escaped : Bool)
    (c : Char) : Scanner :=
  if c = '"' then
    let escaped := if quotes = 0 then taken.head? == some '\\' else escaped
    if quotes < 2 then ({ s with mode := .block start (c :: taken) (quotes + 1) escaped }).advance 1
    -- three quotes after a backslash belong to the text
    else if escaped then ({ s with mode := .block start (c :: taken) 0 false }).advance 1
    else
      -- the two quotes before this one are taken already
      let raw := (taken.drop 2).reverse
      (s.finish start (.string (String.ofList (BlockString.content raw)))).advance 1
  else
    let s := { s with mode := .block start (c :: taken) 0 false }
    if c = '\n' then s.nextLine else s.advance 1

/-- Read a character. -/
def step (s : Scanner) (c : Char) : Except ReadError Scanner :=
  match s.mode with
  | .between => s.start c
  | .comment =>
    if c = '\n' ∨ c = '\r' then .ok { s.nextLine with mode := .between } else .ok s
  | .points start missing =>
    if c = '.' then
      if missing = 1 then .ok ((s.finish start (.mark .ellipsis)).advance 1)
      else .ok ({ s with mode := .points start (missing - 1) }.advance 1)
    else s.refuse
  | .name start taken =>
    -- the character that ends a name starts something else
    if continuesName c then .ok ({ s with mode := .name start (c :: taken) }.advance 1)
    else (s.finish start (.name (String.ofList taken.reverse))).start c
  | .number start taken =>
    if endsNumber c then do (← s.finish? start (Lexeme.ofNumberText? taken.reverse)).start c
    else .ok ({ s with mode := .number start (c :: taken) }.advance 1)
  | .oneQuote start =>
    if c = '"' then .ok ({ s with mode := .twoQuotes start }.advance 1)
    else s.stringStep start [] false c
  | .twoQuotes start =>
    if c = '"' then .ok ({ s with mode := .block start [] 0 false }.advance 1)
    else (s.finish start (.string "")).start c
  | .string start taken escaped => s.stringStep start taken escaped c
  | .block start taken quotes escaped => .ok (s.blockStep start taken quotes escaped c)

/-- The lexemes of a text that ends here. -/
def result (s : Scanner) : Except ReadError (List PlacedLexeme) :=
  let ended : Except ReadError Scanner :=
    match s.mode with
    | .between | .comment => .ok s
    | .name start taken => .ok (s.finish start (.name (String.ofList taken.reverse)))
    | .number start taken => s.finish? start (Lexeme.ofNumberText? taken.reverse)
    | .twoQuotes start => .ok (s.finish start (.string ""))
    | .points .. | .oneQuote .. | .string .. | .block .. => s.refuse
  ended.map (·.lexemes.reverse)

end Scanner

/-- The lexemes of a text. -/
def scan (text : String) : Except ReadError (List PlacedLexeme) := do
  (← text.toList.foldlM Scanner.step {}).result

end GraphQLCheck
