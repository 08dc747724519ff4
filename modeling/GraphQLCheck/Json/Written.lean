/-
  GraphQLCheck.Json.Written
  ─────────────────────────
  JSON text as written, before it is known which parts of it matter.

      WrittenJson.value?  — the value that stands there; none if a part of it has no value
      WrittenJson.ofJson  — a value, written

  Some well-formed text stands for nothing: a string in which a surrogate stands alone, an object
  with such a key, a number beyond all doubles, and an array or an object that is nested too deeply.
  Whoever passes over such a part does not notice it; whoever reads it finds no value.
-/
import GraphQLCheck.Json.Basic

namespace GraphQLCheck

/-! ## §1. Written values. -/

/-- A value as written: an object keeps a key that is given twice. -/
inductive WrittenJson where
  | null
  | bool (b : Bool)
  | number (n : JsonNumber)
  | string (s : String)
  | array (items : List WrittenJson)
  | object (entries : List (String × WrittenJson))
  /-- Well-formed text that stands for no value. -/
  | valueless
  deriving BEq, Repr, Inhabited

namespace WrittenJson

/-- A number as written, unless it is beyond all doubles. -/
def ofNumber (n : Option JsonNumber) : WrittenJson := n.elim .valueless .number

/-- A string as written, unless a surrogate stands alone in it. -/
def ofString (s : Option String) : WrittenJson := s.elim .valueless .string

/-- An object as written, unless a surrogate stands alone in one of its keys. -/
def ofEntries (entries : List (Option String × WrittenJson)) : WrittenJson :=
  match entries.mapM fun (key, value) => key.map (·, value) with
  | some entries => .object entries
  | none => .valueless

/-! ## §2. What is written, and how a value is written. -/

mutual
/-- The value that stands there, in which each object has a key once, in its first place and with its
last value. -/
def value? : WrittenJson → Option Json
  | .null => some .null
  | .bool b => some (.bool b)
  | .number n => some (.number n)
  | .string s => some (.string s)
  | .array items => (itemValues? items).map .array
  | .object entries => (entryValues? entries).map fun entries => .object (Entries.ofWritten entries)
  | .valueless => none
/-- The values of the items of an array. -/
def itemValues? : List WrittenJson → Option (List Json)
  | [] => some []
  | item :: items => do
    let item ← item.value?
    let items ← itemValues? items
    some (item :: items)
/-- The values of the entries of an object. -/
def entryValues? : List (String × WrittenJson) → Option (List (String × Json))
  | [] => some []
  | (key, value) :: entries => do
    let value ← value.value?
    let entries ← entryValues? entries
    some ((key, value) :: entries)
end

mutual
/-- A value, written. -/
def ofJson : Json → WrittenJson
  | .null => .null
  | .bool b => .bool b
  | .number n => .number n
  | .string s => .string s
  | .array items => .array (ofItems items)
  | .object entries => .object (ofFields entries)
/-- The items of an array, written. -/
def ofItems : List Json → List WrittenJson
  | [] => []
  | item :: items => ofJson item :: ofItems items
/-- The entries of an object, written. -/
def ofFields : List (String × Json) → List (String × WrittenJson)
  | [] => []
  | (key, value) :: entries => (key, ofJson value) :: ofFields entries
end

end WrittenJson

end GraphQLCheck
