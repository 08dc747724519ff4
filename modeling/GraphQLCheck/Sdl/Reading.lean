/-
  GraphQLCheck.Sdl.Reading
  ────────────────────────
  The schema definition language as text: schema definitions, type definitions and extensions, and
  directive definitions.  Every definition but that of a schema may start with a description.
-/
import GraphQLCheck.Sdl.Basic

namespace GraphQLCheck.Sdl

open Reading

/-! ## §1. Parts of definitions. -/

/-- A description, which may be missing. -/
def description : Reading (Option String) := accept? isString

/-- A parameter or an input field. -/
def inputDefinition : Reading InputDefinition := do
  let description ← description
  let name ← name
  mark .colon
  let type ← typeExpr
  let defaultValue ← if ← skipMark .equals then some <$> constantLiteral else pure none
  let _ ← directives
  return { name, type, defaultValue, description }

/-- A field. -/
def fieldDefinition : Reading FieldDefinition := do
  let description ← description
  let name ← name
  let parameters? ← bracketed? .openParen .closeParen inputDefinition
  mark .colon
  let type ← typeExpr
  let _ ← directives
  return { name, type, parameters := parameters?.getD [], description }

/-- An enum value. -/
def enumValueDefinition : Reading EnumValueDefinition := do
  let description ← description
  let name ← name
  return { name, description, directives := ← directives }

/-- The interfaces after `implements`, which may be missing. -/
def implements : Reading (List String) := do
  if ← skipWord "implements" then
    let _ ← skipMark .ampersand
    separated .ampersand name
  else pure []

/-- The members after `=`, which may be missing altogether. -/
def members? : Reading (Option (List String)) := do
  if ← skipMark .equals then
    let _ ← skipMark .bar
    some <$> separated .bar name
  else pure none

/-- Parts between braces, which may be missing altogether. -/
def braced? (part : Reading α) : Reading (Option (List α)) := bracketed? .openBrace .closeBrace part

/-! ## §2. Types. -/

/-- What follows the keyword and the name of a type.  The flag says whether the definition adds
anything to the type beyond its name, as an extension has to. -/
def typeBodyAfter? (keyword : String) : Option (Reading (TypeBody × Bool)) :=
  match keyword with
  | "scalar" => some do
    let directives ← directives
    return (.scalar, !directives.isEmpty)
  | "type" => some do
    let interfaces ← implements
    let directives ← directives
    let fields := (← braced? fieldDefinition).getD []
    return (.object interfaces fields,
      !interfaces.isEmpty || !directives.isEmpty || !fields.isEmpty)
  | "interface" => some do
    let interfaces ← implements
    let directives ← directives
    let fields := (← braced? fieldDefinition).getD []
    return (.interface interfaces fields, !directives.isEmpty || !fields.isEmpty)
  | "union" => some do
    let directives ← directives
    let members? ← members?
    return (.union (members?.getD []), !directives.isEmpty || members?.isSome)
  | "enum" => some do
    let directives ← directives
    let values := (← braced? enumValueDefinition).getD []
    return (.enum values, !directives.isEmpty || !values.isEmpty)
  | "input" => some do
    let directives ← directives
    let fields := (← braced? inputDefinition).getD []
    return (.inputObject fields, !directives.isEmpty || !fields.isEmpty)
  | _ => none

/-- The test for the keyword of a type, which yields what follows the name of the type. -/
def isTypeKeyword : Lexeme → Option (Reading (TypeBody × Bool))
  | .name keyword => typeBodyAfter? keyword
  | _ => none

/-! ## §3. Directives. -/

/-- Where a directive may stand. -/
def directiveLocations : List String :=
  ["QUERY", "MUTATION", "SUBSCRIPTION", "FIELD", "FRAGMENT_DEFINITION", "FRAGMENT_SPREAD",
   "INLINE_FRAGMENT", "VARIABLE_DEFINITION", "SCHEMA", "SCALAR", "OBJECT", "FIELD_DEFINITION",
   "ARGUMENT_DEFINITION", "INTERFACE", "UNION", "ENUM", "ENUM_VALUE", "INPUT_OBJECT",
   "INPUT_FIELD_DEFINITION"]

/-- The test for the name of a place where a directive may stand. -/
def isDirectiveLocation : Lexeme → Option String
  | .name s => if directiveLocations.contains s then some s else none
  | _ => none

/-- The places where a directive may stand, after `on`: none at all, or a list that a bar may
precede. -/
def directivePlaces : Reading Unit := do
  let barred ← skipMark .bar
  match ← peek? with
  | some (.name _) => discard (separated .bar (expect isDirectiveLocation))
  | _ => if barred then discard (expect isDirectiveLocation)

/-- A directive definition after its keyword. -/
def directiveAfter : Reading Definition := do
  mark .at
  let directiveName ← name
  let _ ← bracketed? .openParen .closeParen inputDefinition
  let _ ← skipWord "repeatable"
  word "on"
  directivePlaces
  return .directive directiveName

/-! ## §4. Schemas. -/

/-- Name one more root type of a schema; each may be named once. -/
def addRoot (roots : RootNames) (operation typeName : String) : Reading RootNames :=
  match operation, roots with
  | "query", { query := none, .. } => pure { roots with query := some typeName }
  | "mutation", { mutation := none, .. } => pure { roots with mutation := some typeName }
  | "subscription", { subscription := none, .. } =>
    pure { roots with subscription := some typeName }
  | _, _ => refuse

/-- A schema definition after its keyword. -/
def schemaAfter : Reading Definition := do
  let _ ← directives
  mark .openBrace
  let roots ← manyUntil .closeBrace do
    let operation ← name
    mark .colon
    return (operation, ← name)
  return .schema (← roots.foldlM (fun roots (operation, type) => addRoot roots operation type) {})

/-! ## §5. Definitions. -/

/-- A definition. -/
def definition : Reading Definition := do
  if ← skipWord "schema" then schemaAfter
  else if ← skipWord "extend" then
    let body ← expect isTypeKeyword
    let typeName ← name
    let (_, addsSomething) ← body
    if addsSomething then return .extension typeName else refuse
  else
    let description ← description
    if ← skipWord "directive" then directiveAfter
    else
      let body ← expect isTypeKeyword
      let name ← name
      return .type { name, description, body := (← body).1 }

/-- The definitions that a text holds: at least one. -/
def ofText (text : String) : Except ReadError (List Definition) :=
  Reading.ofText (someUntilEnd definition) text

end GraphQLCheck.Sdl
