/-
  GraphQLCheck.Document.Stored
  ────────────────────────────
  The stored form of documents: a JSON value that holds everything a document holds.

  A record is an object of its parts by name; a choice is an object with one entry, the name of the
  alternative and what it holds; an alternative that holds nothing is its name alone.

      stored   — the stored form of a document, a literal, a type, …
      ofStored? — what a stored form holds; none if it is malformed

  Reading starts from JSON as written and is lenient in a few ways: a part that may be missing may be
  `null` or left out, unknown parts are passed over whatever is in them, a record may be the array of
  all its parts in order, and an alternative that holds nothing may be written with `null`.  A part
  given twice is an error.
-/
import GraphQLCheck.Document.Basic
import GraphQLCheck.Json.Reader
import GraphQLCheck.Number.Width

namespace GraphQLCheck

/-! ## §1. Records and choices. -/

namespace Stored

/-- A choice. -/
def variant (name : String) (content : Json) : Json := .object [(name, content)]

/-- The text that may be missing. -/
def text : Option String → Json
  | none => .null
  | some s => .string s

/-- The stored value of one part of an object; `some none` if it is left out. -/
def part? (entries : List (String × WrittenJson)) (name : String) :
    Option (Option WrittenJson) :=
  match entries.filter (·.1 == name) with
  | [] => some none
  | [entry] => some (some entry.2)
  | _ => none

/-- The parts of a record, in the order of their names; a part that is left out is `none`. -/
def parts? (names : List String) : WrittenJson → Option (List (Option WrittenJson))
  | .object entries => names.mapM (part? entries)
  | .array items => if items.length = names.length then some (items.map some) else none
  | _ => none

/-- Read a part that has to be there. -/
def required (read : WrittenJson → Option α) (part : Option WrittenJson) : Option α :=
  part.bind read

/-- Read a part that may be missing. -/
def nullable (read : WrittenJson → Option α) : Option WrittenJson → Option (Option α)
  | none | some .null => some none
  | some value => (read value).map some

/-- Read a text. -/
def text? : WrittenJson → Option String
  | .string s => some s
  | _ => none

/-- Read a boolean. -/
def bool? : WrittenJson → Option Bool
  | .bool b => some b
  | _ => none

/-- Read an integer that fits 64 bits with a sign. -/
def int? : WrittenJson → Option Int
  | .number (.integer i) => int64? i
  | _ => none

/-- Read a natural number that fits 64 bits. -/
def nat? : WrittenJson → Option Nat
  | .number (.integer i) => if 0 ≤ i ∧ fitsNat64 i.toNat then some i.toNat else none
  | _ => none

/-- Read a number, as a double. -/
def double? : WrittenJson → Option Double
  | .number n => some n.toDouble
  | _ => none

/-- Read an array. -/
def list? (read : WrittenJson → Option α) : WrittenJson → Option (List α)
  | .array items => items.mapM read
  | _ => none

end Stored

open Stored

/-! ## §2. Locations, types, literals. -/

/-- The stored form of a location. -/
def Location.stored (place : Location) : Json :=
  .object [("line", .ofInt place.line), ("column", .ofInt place.column)]

/-- The location that a stored form holds. -/
def Location.ofStored? (json : WrittenJson) : Option Location := do
  match ← parts? ["line", "column"] json with
  | [line, column] => some ⟨← required nat? line, ← required nat? column⟩
  | _ => none

/-- The stored form of a type. -/
def TypeExpr.stored : TypeExpr → Json
  | .named name => variant "Named" (.string name)
  | .list element => variant "List" element.stored
  | .nonNull inner => variant "NonNull" inner.stored

/-- The type that a stored form holds. -/
def TypeExpr.ofStored? : WrittenJson → Option TypeExpr
  | .object [(choice, content)] =>
    match choice with
    | "Named" => (text? content).map .named
    | "List" => (TypeExpr.ofStored? content).map .list
    | "NonNull" => (TypeExpr.ofStored? content).map .nonNull
    | _ => none
  | _ => none

namespace Literal

mutual
/-- The stored form of a literal. -/
def stored : Literal → Json
  | .null => .string "Null"
  | .int i => variant "Int" (.ofInt i)
  | .float x => variant "Float" (.ofDouble x)
  | .string s => variant "String" (.string s)
  | .boolean b => variant "Boolean" (.bool b)
  | .enum name => variant "Enum" (.string name)
  | .list items => variant "List" (.array (storedItems items))
  | .object fields => variant "Object" (.object (storedFields fields))
  | .variable name => variant "Variable" (.string name)
/-- The stored forms of the items of a list. -/
def storedItems : List Literal → List Json
  | [] => []
  | item :: items => item.stored :: storedItems items
/-- The stored forms of the fields of an object. -/
def storedFields : List (String × Literal) → List (String × Json)
  | [] => []
  | (name, value) :: fields => (name, value.stored) :: storedFields fields
end

mutual
/-- The literal that a stored form holds. -/
def ofStored? : WrittenJson → Option Literal
  | .string "Null" => some .null
  | .object [(choice, content)] =>
    match choice with
    | "Null" =>
      match content with
      | .null => some .null
      | _ => none
    | "Int" => (int? content).map .int
    | "Float" => (double? content).map .float
    | "String" => (Stored.text? content).map .string
    | "Boolean" => (bool? content).map .boolean
    | "Enum" => (Stored.text? content).map .enum
    | "Variable" => (Stored.text? content).map .variable
    | "List" =>
      match content with
      | .array items => (itemsOfStored? items).map .list
      | _ => none
    | "Object" =>
      match content with
      | .object fields => (fieldsOfStored? fields).map fun fields => .object (Entries.ofWritten fields)
      | _ => none
    | _ => none
  | _ => none
/-- The items that stored forms hold. -/
def itemsOfStored? : List WrittenJson → Option (List Literal)
  | [] => some []
  | item :: items => do
    let item ← ofStored? item
    let items ← itemsOfStored? items
    some (item :: items)
/-- The fields that stored forms hold, as written. -/
def fieldsOfStored? : List (String × WrittenJson) → Option (List (String × Literal))
  | [] => some []
  | (name, value) :: fields => do
    let value ← ofStored? value
    let fields ← fieldsOfStored? fields
    some ((name, value) :: fields)
end

end Literal

/-! ## §3. Selections. -/

/-- The stored form of an argument. -/
def Argument.stored (argument : Argument) : Json :=
  .object [("name", .string argument.name), ("value", argument.value.stored),
    ("location", argument.location.stored)]

/-- The argument that a stored form holds. -/
def Argument.ofStored? (json : WrittenJson) : Option Argument := do
  match ← parts? ["name", "value", "location"] json with
  | [name, value, location] =>
    some ⟨← required text? name, ← required Literal.ofStored? value,
      ← required Location.ofStored? location⟩
  | _ => none

/-- The stored form of a spread. -/
def FragmentSpread.stored (spread : FragmentSpread) : Json :=
  .object [("fragment_name", .string spread.fragmentName), ("location", spread.location.stored)]

/-- The spread that a stored form holds. -/
def FragmentSpread.ofStored? (json : WrittenJson) : Option FragmentSpread := do
  match ← parts? ["fragment_name", "location"] json with
  | [name, location] => some ⟨← required text? name, ← required Location.ofStored? location⟩
  | _ => none

mutual
/-- The stored form of a field. -/
def Field.stored : Field → Json
  | ⟨aliasName, name, arguments, selectionSet, location⟩ =>
    .object [("alias", text aliasName), ("name", .string name),
      ("arguments", .array (arguments.map (·.stored))),
      ("selection_set", SelectionSet.storedOption selectionSet), ("location", location.stored)]
/-- The stored form of an inline fragment. -/
def InlineFragment.stored : InlineFragment → Json
  | ⟨typeCondition, selectionSet, location⟩ =>
    .object [("type_condition", text typeCondition), ("selection_set", selectionSet.stored),
      ("location", location.stored)]
/-- The stored form of a selection. -/
def Selection.stored : Selection → Json
  | .field field => variant "Field" field.stored
  | .fragmentSpread spread => variant "FragmentSpread" spread.stored
  | .inlineFragment part => variant "InlineFragment" part.stored
/-- The stored form of a selection set. -/
def SelectionSet.stored : SelectionSet → Json
  | ⟨selections, location⟩ =>
    .object [("selections", .array (Selection.storedList selections)),
      ("location", location.stored)]
/-- The stored form of a selection set that may be missing. -/
def SelectionSet.storedOption : Option SelectionSet → Json
  | none => .null
  | some set => set.stored
/-- The stored forms of selections. -/
def Selection.storedList : List Selection → List Json
  | [] => []
  | selection :: selections => selection.stored :: Selection.storedList selections
end

/-- The field that a stored form holds, given how to read a selection set. -/
def Field.ofStored? (set : WrittenJson → Option SelectionSet) (json : WrittenJson) : Option Field := do
  match ← parts? ["alias", "name", "arguments", "selection_set", "location"] json with
  | [aliasName, name, arguments, selectionSet, location] =>
    some ⟨← nullable text? aliasName, ← required text? name,
      ← required (list? Argument.ofStored?) arguments, ← nullable set selectionSet,
      ← required Location.ofStored? location⟩
  | _ => none

/-- The inline fragment that a stored form holds, given how to read a selection set. -/
def InlineFragment.ofStored? (set : WrittenJson → Option SelectionSet) (json : WrittenJson) :
    Option InlineFragment := do
  match ← parts? ["type_condition", "selection_set", "location"] json with
  | [typeCondition, selectionSet, location] =>
    some ⟨← nullable text? typeCondition, ← required set selectionSet,
      ← required Location.ofStored? location⟩
  | _ => none

/-- The selection that a stored form holds, given how to read a selection set. -/
def Selection.ofStored? (set : WrittenJson → Option SelectionSet) :
    WrittenJson → Option Selection
  | .object [(choice, content)] =>
    match choice with
    | "Field" => (Field.ofStored? set content).map .field
    | "FragmentSpread" => (FragmentSpread.ofStored? content).map .fragmentSpread
    | "InlineFragment" => (InlineFragment.ofStored? set content).map .inlineFragment
    | _ => none
  | _ => none

/-- The selection set that a stored form holds, with a number of levels left for selection sets in
it. -/
def SelectionSet.ofStored? : Nat → WrittenJson → Option SelectionSet
  | 0, _ => none
  | levels + 1, json => do
    match ← parts? ["selections", "location"] json with
    | [selections, location] =>
      some ⟨← required (list? (Selection.ofStored? (SelectionSet.ofStored? levels))) selections,
        ← required Location.ofStored? location⟩
    | _ => none

/-! ## §4. Definitions. -/

/-- A selection set within the nesting limit of JSON text. -/
def Stored.selectionSet? : WrittenJson → Option SelectionSet :=
  SelectionSet.ofStored? Json.nestingLimit

/-- The name of an operation kind in stored form. -/
def OperationKind.stored : OperationKind → Json
  | .mutation => .string "Mutation"
  | .query => .string "Query"
  | .subscription => .string "Subscription"

/-- The operation kind that a stored form holds. -/
def OperationKind.ofStored? : WrittenJson → Option OperationKind
  | .string choice => ofName? choice
  | .object [(choice, .null)] => ofName? choice
  | _ => none
where
  ofName? : String → Option OperationKind
    | "Mutation" => some .mutation
    | "Query" => some .query
    | "Subscription" => some .subscription
    | _ => none

/-- The stored form of a variable definition. -/
def VariableDefinition.stored (definition : VariableDefinition) : Json :=
  .object [("name", .string definition.name), ("var_type", definition.type.stored),
    ("default_value", definition.defaultValue.elim .null (·.stored)),
    ("location", definition.location.stored)]

/-- The variable definition that a stored form holds. -/
def VariableDefinition.ofStored? (json : WrittenJson) : Option VariableDefinition := do
  match ← parts? ["name", "var_type", "default_value", "location"] json with
  | [name, type, defaultValue, location] =>
    some ⟨← required text? name, ← required TypeExpr.ofStored? type,
      ← nullable Literal.ofStored? defaultValue, ← required Location.ofStored? location⟩
  | _ => none

/-- The stored form of an operation. -/
def Operation.stored (operation : Operation) : Json :=
  .object [("kind", operation.kind.stored), ("name", text operation.name),
    ("variable_definitions", .array (operation.variableDefinitions.map (·.stored))),
    ("selection_set", operation.selectionSet.stored), ("location", operation.location.stored)]

/-- The operation that a stored form holds. -/
def Operation.ofStored? (json : WrittenJson) : Option Operation := do
  match ← parts? ["kind", "name", "variable_definitions", "selection_set", "location"] json with
  | [kind, name, variableDefinitions, set, location] =>
    some ⟨← required OperationKind.ofStored? kind, ← nullable text? name,
      ← required (list? VariableDefinition.ofStored?) variableDefinitions,
      ← required selectionSet? set, ← required Location.ofStored? location⟩
  | _ => none

/-- The stored form of a fragment. -/
def Fragment.stored (fragment : Fragment) : Json :=
  .object [("name", .string fragment.name), ("type_condition", .string fragment.typeCondition),
    ("selection_set", fragment.selectionSet.stored), ("location", fragment.location.stored)]

/-- The fragment that a stored form holds. -/
def Fragment.ofStored? (json : WrittenJson) : Option Fragment := do
  match ← parts? ["name", "type_condition", "selection_set", "location"] json with
  | [name, typeCondition, set, location] =>
    some ⟨← required text? name, ← required text? typeCondition, ← required selectionSet? set,
      ← required Location.ofStored? location⟩
  | _ => none

namespace Definition

/-- The stored form of a definition. -/
def stored : Definition → Json
  | .operation op => variant "Operation" op.stored
  | .fragment part => variant "Fragment" part.stored

/-- The definition that a stored form holds. -/
def ofStored? : WrittenJson → Option Definition
  | .object [(choice, content)] =>
    match choice with
    | "Operation" => (Operation.ofStored? content).map .operation
    | "Fragment" => (Fragment.ofStored? content).map .fragment
    | _ => none
  | _ => none

end Definition

namespace Document

/-- The stored form of a document. -/
def stored (document : Document) : Json :=
  .object [("definitions", .array (document.definitions.map (·.stored)))]

/-- The document that a stored form holds. -/
def ofStored? (json : WrittenJson) : Option Document := do
  match ← parts? ["definitions"] json with
  | [definitions] => some ⟨← required (list? Definition.ofStored?) definitions⟩
  | _ => none

end Document

end GraphQLCheck
