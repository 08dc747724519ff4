/-
  GraphQLCheck.Language.Reading
  ─────────────────────────────
  Reading lexemes in order, and the notations that documents and type definitions share: names,
  types, literals, arguments, directives.

  The grammar is decided by one lexeme of look-ahead: once the first lexeme of an alternative has
  been read, the alternative is not taken back.  A repetition is bounded by the number of lexemes
  left, and nesting by the number of brackets that may be open (`Scanner.bracketLimit`).
-/
import GraphQLCheck.Language.Lexeme
import GraphQLCheck.Language.Literal
import GraphQLCheck.Language.TypeExpr

namespace GraphQLCheck

/-! ## §1. Reading lexemes. -/

/-- The lexemes still to be read. -/
structure LexemeSource where
  rest : List PlacedLexeme
  /-- Where the lexeme read last starts. -/
  last : Location := ⟨1, 1⟩

/-- A reader of some part of a text. -/
abbrev Reading (α : Type) := StateT LexemeSource (Except ReadError) α

namespace Reading

/-- Stop with an error at the next lexeme. -/
def refuse : Reading α := fun source =>
  match source.rest with
  | next :: _ => .error ⟨next.place⟩
  | [] => .error ⟨source.last⟩

/-- The next lexeme, which stays to be read. -/
def peek? : Reading (Option Lexeme) := fun source =>
  .ok ((source.rest.head?).map (·.lexeme), source)

/-- Where the next lexeme starts. -/
def place : Reading Location := fun source =>
  .ok ((source.rest.head?).elim source.last (·.place), source)

/-- Read the next lexeme if a test yields something for it. -/
def accept? (test : Lexeme → Option α) : Reading (Option α) := fun source =>
  match source.rest with
  | [] => .ok (none, source)
  | next :: rest =>
    match test next.lexeme with
    | some a => .ok (some a, ⟨rest, next.place⟩)
    | none => .ok (none, source)

/-- Read the next lexeme, which must pass a test. -/
def expect (test : Lexeme → Option α) : Reading α := do
  match ← accept? test with
  | some a => pure a
  | none => refuse

/-- The test for a mark. -/
def isMark (m : Mark) (lexeme : Lexeme) : Option Unit :=
  if lexeme = .mark m then some () else none

/-- The test for a name with a given spelling. -/
def isWord (spelling : String) (lexeme : Lexeme) : Option Unit :=
  if lexeme = .name spelling then some () else none

/-- The test for a name. -/
def isName : Lexeme → Option String
  | .name s => some s
  | _ => none

/-- The test for a string. -/
def isString : Lexeme → Option String
  | .string s => some s
  | _ => none

/-- Read a mark. -/
def mark (m : Mark) : Reading Unit := expect (isMark m)

/-- Read a name with a given spelling. -/
def word (spelling : String) : Reading Unit := expect (isWord spelling)

/-- Read a name. -/
def name : Reading String := expect isName

/-- Read a mark if it is there. -/
def skipMark (m : Mark) : Reading Bool := do return (← accept? (isMark m)).isSome

/-- Read a name with a given spelling if it is there. -/
def skipWord (spelling : String) : Reading Bool := do return (← accept? (isWord spelling)).isSome

/-- Whether all lexemes have been read. -/
def atEnd : Reading Bool := do return (← peek?).isNone

/-- Read items for as long as a test holds before each of them. -/
def repeatWhile (more : Reading Bool) (item : Reading α) : Reading (List α) := do
  go ((← get).rest.length + 1)
where
  go : Nat → Reading (List α)
    | 0 => refuse
    | count + 1 => do
      if ← more then
        let first ← item
        let others ← go count
        pure (first :: others)
      else pure []

/-- Read items up to a closing mark, and the mark. -/
def manyUntil (closing : Mark) (item : Reading α) : Reading (List α) :=
  repeatWhile (do return !(← skipMark closing)) item

/-- Read at least one item up to a closing mark, and the mark. -/
def someUntil (closing : Mark) (item : Reading α) : Reading (List α) := do
  let first ← item
  let others ← manyUntil closing item
  pure (first :: others)

/-- A bracketed sequence of at least one item, which may be missing altogether. -/
def bracketed? (opening closing : Mark) (item : Reading α) : Reading (Option (List α)) := do
  if ← skipMark opening then return some (← someUntil closing item) else return none

/-- At least one item, each but the first after a separating mark. -/
def separated (separator : Mark) (item : Reading α) : Reading (List α) := do
  let first ← item
  let others ← repeatWhile (skipMark separator) item
  pure (first :: others)

/-- At least one item up to the end of the text. -/
def someUntilEnd (item : Reading α) : Reading (List α) := do
  let first ← item
  let others ← repeatWhile (do return !(← atEnd)) item
  pure (first :: others)

/-- What a reader makes of a whole text. -/
def ofText (reader : Reading α) (text : String) : Except ReadError α := do
  let (a, _) ← reader.run { rest := ← scan text }
  pure a

/-! ## §2. Types. -/

/-- A type, given how to read the element type of a list. -/
def typeLayer (element : Reading TypeExpr) : Reading TypeExpr := do
  let inner ←
    match ← accept? isName with
    | some name => pure (.named name)
    | none => do
      mark .openBracket
      let element ← element
      mark .closeBracket
      pure (.list element)
  if ← skipMark .bang then pure (.nonNull inner) else pure inner

/-- A type, with a number of brackets left to open. -/
def typeWithin : Nat → Reading TypeExpr
  | 0 => typeLayer refuse
  | brackets + 1 => typeLayer (typeWithin brackets)

/-- A type. -/
def typeExpr : Reading TypeExpr := typeWithin Scanner.bracketLimit

/-! ## §3. Literals. -/

/-- The literal that a lexeme is on its own. -/
def isPlainLiteral : Lexeme → Option Literal
  | .name "true" => some (.boolean true)
  | .name "false" => some (.boolean false)
  | .name "null" => some .null
  | .name name => some (.enum name)
  | .int i => some (.int i)
  | .float x => some (.float x)
  | .string s => some (.string s)
  | .mark _ => none

/-- The fields of an object literal are kept sorted by name, each name with its last value. -/
def sortFields (fields : List (String × Literal)) : List (String × Literal) :=
  (Entries.ofWritten fields).mergeSort fun a b => decide (a.1 ≤ b.1)

/-- A literal, given how to read the parts of a list or an object. -/
def literalLayer (allowVariables : Bool) (part : Reading Literal) : Reading Literal := do
  match ← accept? isPlainLiteral with
  | some literal => pure literal
  | none =>
    if allowVariables then
      if ← skipMark .dollar then return .variable (← name)
    if ← skipMark .openBracket then return .list (← manyUntil .closeBracket part)
    mark .openBrace
    return .object (sortFields (← manyUntil .closeBrace do
      let name ← name
      mark .colon
      return (name, ← part)))

/-- A literal, with a number of brackets left to open. -/
def literalWithin (allowVariables : Bool) : Nat → Reading Literal
  | 0 => literalLayer allowVariables refuse
  | brackets + 1 => literalLayer allowVariables (literalWithin allowVariables brackets)

/-- A literal, which may refer to variables. -/
def literal : Reading Literal := literalWithin true Scanner.bracketLimit

/-- A literal without variables. -/
def constantLiteral : Reading Literal := literalWithin false Scanner.bracketLimit

/-! ## §4. Arguments and directives. -/

/-- Named literals in parentheses; none if there are no parentheses. -/
def arguments : Reading (List (String × Literal)) := do
  let arguments? ← bracketed? .openParen .closeParen do
    let name ← name
    mark .colon
    return (name, ← literal)
  return arguments?.getD []

end Reading

/-- An annotation on some part of a text. -/
structure Directive where
  name : String
  arguments : List (String × Literal)
  deriving BEq, Repr

/-- Directives, each after an `@`. -/
def Reading.directives : Reading (List Directive) :=
  repeatWhile (skipMark .at) do
    let name ← name
    return ⟨name, ← arguments⟩

end GraphQLCheck
