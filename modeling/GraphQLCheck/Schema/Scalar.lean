/-
  GraphQLCheck.Schema.Scalar
  ──────────────────────────
  Scalar types: how their values are written out, read from runtime values and read from literals.

  A `ScalarCoercion` answers none for what it does not accept.  The five built-in scalars and the
  coercion of a scalar without one of its own (`anyScalar`) are defined here.
-/
import GraphQLCheck.Json.Printer
import GraphQLCheck.Language.Literal
import GraphQLCheck.Number.Width

namespace GraphQLCheck

/-- How values of a scalar are converted; none for what is not accepted. -/
structure ScalarCoercion where
  /-- From an internal value to a result. -/
  serialize : Json → Option Json
  /-- From a runtime input value, such as that of a variable. -/
  parseValue : Json → Option Json
  /-- From a literal in a document. -/
  parseLiteral : Literal → Option Json

/-! ## §1. Integers. -/

/-- An integer of 32 bits as a runtime value. -/
def int32? (i : Int) : Option Json := if fitsInt32 i then some (.ofInt i) else none

/-- A number without a fractional part that fits 32 bits. -/
def parseInt32 : Json → Option Json
  | .number (.integer i) => int32? i
  | .number (.float x) => x.exactInt?.bind int32?
  | _ => none

/-- `Int`: an integer of 32 bits; a double without a fractional part is read as one. -/
def intScalar : ScalarCoercion where
  serialize := parseInt32
  parseValue := parseInt32
  parseLiteral
    | .int i => int32? i
    | _ => none

/-! ## §2. Doubles, texts, booleans. -/

/-- Any number, as a double. -/
def parseDouble : Json → Option Json
  | .number n => some (.ofDouble n.toDouble)
  | _ => none

/-- `Float`: a double; an integer is read as one. -/
def floatScalar : ScalarCoercion where
  serialize := parseDouble
  parseValue := parseDouble
  parseLiteral
    | .float x => some (.ofDouble x)
    | .int i => some (.ofDouble (.ofInt i))
    | _ => none

/-- `String`: a text; booleans and numbers are written out as texts. -/
def stringScalar : ScalarCoercion where
  serialize
    | .string s => some (.string s)
    | .bool b => some (.string (if b then "true" else "false"))
    | .number n => some (.string n.render)
    | _ => none
  parseValue
    | .string s => some (.string s)
    | _ => none
  parseLiteral
    | .string s => some (.string s)
    | _ => none

/-- A boolean. -/
def parseBoolean : Json → Option Json
  | .bool b => some (.bool b)
  | _ => none

/-- `Boolean`. -/
def booleanScalar : ScalarCoercion where
  serialize := parseBoolean
  parseValue := parseBoolean
  parseLiteral
    | .boolean b => some (.bool b)
    | _ => none

/-! ## §3. Identifiers. -/

/-- A text without the pair of quotes around it, if there is one. -/
def stripQuotes (s : String) : String :=
  match s.toList with
  | '"' :: rest =>
    match rest.reverse with
    | '"' :: inner => String.ofList inner.reverse
    | _ => s
  | _ => s

/-- `ID`: a text or an integer; a text that is itself within quotes loses them on the way in. -/
def idScalar : ScalarCoercion where
  serialize
    | .string s => some (.string s)
    | .number n => some (.string n.render)
    | _ => none
  parseValue
    | .string s => some (.string (stripQuotes s))
    | .number (.integer i) => some (.ofInt i)
    | _ => none
  parseLiteral
    | .string s => some (.string (stripQuotes s))
    | .int i => some (.ofInt i)
    | _ => none

/-! ## §4. Scalars of no particular kind. -/

/-- Every value is accepted as it is; so is every literal without variables. -/
def anyScalar : ScalarCoercion where
  serialize := some
  parseValue := some
  parseLiteral := Literal.toJson?

end GraphQLCheck
