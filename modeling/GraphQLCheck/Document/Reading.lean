/-
  GraphQLCheck.Document.Reading
  ─────────────────────────────
  Executable documents as text.

  A field stands where its first name stands, an operation at its keyword or its brace, a spread or
  an inline fragment after its three points, and an argument where its field stands.  Directives are
  read and dropped.
-/
import GraphQLCheck.Document.Basic
import GraphQLCheck.Language.Reading

namespace GraphQLCheck.Document

open Reading

/-! ## §1. Selections. -/

/-- A selection set, given how to read a selection. -/
def selectionSetOf (selection : Reading Selection) : Reading SelectionSet := do
  let location ← place
  mark .openBrace
  return { selections := ← someUntil .closeBrace selection, location }

/-- What follows three points: an inline fragment, which starts with `on`, a directive or a brace,
or else the name of a fragment. -/
def afterPoints (selection : Reading Selection) : Reading Selection := do
  let location ← place
  if ← skipWord "on" then
    let condition ← name
    inlineFragment location (some condition)
  else
    match ← peek? with
    | some (.name _) =>
      -- any other name than `on` is that of a fragment
      let fragmentName ← name
      let _ ← directives
      return .fragmentSpread { fragmentName, location }
    | _ => inlineFragment location none
where
  inlineFragment (location : Location) (typeCondition : Option String) : Reading Selection := do
    let _ ← directives
    let selectionSet ← selectionSetOf selection
    return .inlineFragment { typeCondition, selectionSet, location }

/-- A field, given how to read a selection. -/
def fieldOf (selection : Reading Selection) : Reading Selection := do
  let location ← place
  let first ← name
  let (aliasName, name) ←
    if ← skipMark .colon then pure (some first, ← name) else pure (none, first)
  let arguments ← arguments
  let _ ← directives
  let selectionSet ←
    match ← peek? with
    | some (.mark .openBrace) => some <$> selectionSetOf selection
    | _ => pure none
  return .field {
    aliasName, name, selectionSet, location
    arguments := arguments.map fun (name, value) => { name, value, location } }

/-- A selection, given how to read the selections in it. -/
def selectionLayer (selection : Reading Selection) : Reading Selection := do
  if ← skipMark .ellipsis then afterPoints selection else fieldOf selection

/-- A selection, with a number of braces left to open. -/
def selectionWithin : Nat → Reading Selection
  | 0 => selectionLayer refuse
  | braces + 1 => selectionLayer (selectionWithin braces)

/-- A selection set. -/
def selectionSet : Reading SelectionSet := selectionSetOf (selectionWithin Scanner.bracketLimit)

/-! ## §2. Definitions. -/

/-- A variable definition. -/
def variableDefinition : Reading VariableDefinition := do
  let location ← place
  mark .dollar
  let name ← name
  mark .colon
  let type ← typeExpr
  let defaultValue ← if ← skipMark .equals then some <$> constantLiteral else pure none
  return { name, type, defaultValue, location }

/-- An operation after its keyword. -/
def operationAfter (kind : OperationKind) (location : Location) : Reading Definition := do
  let name ← accept? isName
  let definitions? ← bracketed? .openParen .closeParen variableDefinition
  let _ ← directives
  let selectionSet ← selectionSet
  return .operation
    { kind, name, variableDefinitions := definitions?.getD [], selectionSet, location }

/-- A definition. -/
def definition : Reading Definition := do
  let location ← place
  if ← skipWord "query" then operationAfter .query location
  else if ← skipWord "mutation" then operationAfter .mutation location
  else if ← skipWord "subscription" then operationAfter .subscription location
  else if ← skipWord "fragment" then
    let name ← name
    word "on"
    let typeCondition ← Reading.name
    let _ ← directives
    let selectionSet ← selectionSet
    return .fragment { name, typeCondition, selectionSet, location }
  else
    let selectionSet ← selectionSet
    return .operation
      { kind := .query, name := none, variableDefinitions := [], selectionSet, location }

/-- The document that a text holds: at least one definition. -/
def ofText (text : String) : Except ReadError Document :=
  Reading.ofText (do return { definitions := ← someUntilEnd definition }) text

end GraphQLCheck.Document
