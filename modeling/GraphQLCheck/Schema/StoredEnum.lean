/-
  GraphQLCheck.Schema.StoredEnum
  ──────────────────────────────
  The stored form of enums, a JSON value like that of a document.

      EnumType.stored    — the stored form of an enum
      EnumType.ofStored? — the enum that a stored form holds; none if it is malformed

  The values are kept by key, and a key given twice has its first place and its last value.  It is the
  key of a value that a literal or a runtime value names.
-/
import GraphQLCheck.Document.Stored
import GraphQLCheck.Schema.TypeDef

namespace GraphQLCheck

open Stored

/-- The stored form of a value of an enum. -/
def EnumValue.stored (value : EnumValue) : Json :=
  .object [("deprecation_reason", text value.deprecationReason),
    ("description", text value.description), ("name", .string value.name)]

/-- The value of an enum that a stored form holds. -/
def EnumValue.ofStored? (json : WrittenJson) : Option EnumValue := do
  match ← parts? ["deprecation_reason", "description", "name"] json with
  | [reason, description, name] =>
    some
      { name := ← required text? name
        description := ← nullable text? description
        deprecationReason := ← nullable text? reason }
  | _ => none

namespace EnumType

/-- The stored form of an enum. -/
def stored (type : EnumType) : Json :=
  .object [("description", text type.description), ("name", .string type.name),
    ("values", .object (type.values.toList.map fun (key, value) => (key, value.stored)))]

/-- The values by key that a stored form holds. -/
def valuesOfStored? : WrittenJson → Option (Declarations (String × EnumValue))
  | .object entries => do
    let values ← entries.mapM fun (key, value) => do some (key, ← EnumValue.ofStored? value)
    (Entries.ofWritten values).foldlM (·.add? ·) .empty
  | _ => none

/-- The enum that a stored form holds. -/
def ofStored? (json : WrittenJson) : Option EnumType := do
  match ← parts? ["description", "name", "values"] json with
  | [description, name, values] =>
    some
      { name := ← required text? name
        description := ← nullable text? description
        values := ← required valuesOfStored? values }
  | _ => none

end EnumType

end GraphQLCheck
