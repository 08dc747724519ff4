/-
  GraphQLCheck.Coercion.Check
  ───────────────────────────
  Which literals and which runtime values a type accepts.

      Literal.problems — everything that keeps a literal from being a value of a type
      Json.problems    — the same for a runtime value

  Both recurse on the value.  A value that is no list is read at the type inside all list layers, and a
  variable is accepted everywhere: its value is checked against its own type.
-/
import GraphQLCheck.Coercion.Problem

namespace GraphQLCheck

/-! ## §1. Literals. -/

/-- The problem of a null literal, or of none at all: there is one where null is excluded. -/
def Schema.nullLiteralProblems (schema : Schema) : TypeRef → List (Problem Literal)
  | .nonNull (.named name) =>
    [.here (.nullLiteral ((schema.find? name).map fun type => .named type.name))]
  | .nonNull inner => [.here (.nullLiteral (some inner))]
  | _ => []

mutual
/-- The problems of a literal as a value of a type. -/
def Literal.problems (schema : Schema) : Literal → TypeRef → List (Problem Literal)
  | .null, type => schema.nullLiteralProblems type
  | .variable _, _ => []
  | .list items, type =>
    match type.view with
    | .list element => Problem.inElements (itemProblems schema items element)
    | .named name => schema.leafProblems (·.parseLiteral (.list items)) (.list items) name
  | .object fields, type =>
    match schema.find? type.typeName with
    | some (.inputObject inputType) =>
      inputType.memberProblems schema.nullLiteralProblems (fieldProblems schema fields)
    | _ => schema.leafProblems (·.parseLiteral (.object fields)) (.object fields) type.typeName
  | .int i, type => schema.leafProblems (·.parseLiteral (.int i)) (.int i) type.typeName
  | .float x, type => schema.leafProblems (·.parseLiteral (.float x)) (.float x) type.typeName
  | .string s, type => schema.leafProblems (·.parseLiteral (.string s)) (.string s) type.typeName
  | .boolean b, type => schema.leafProblems (·.parseLiteral (.boolean b)) (.boolean b) type.typeName
  | .enum name, type => schema.leafProblems (·.parseLiteral (.enum name)) (.enum name) type.typeName
/-- The problems of each item of a list. -/
def Literal.itemProblems (schema : Schema) : List Literal → TypeRef → List (List (Problem Literal))
  | [], _ => []
  | item :: items, element => item.problems schema element :: itemProblems schema items element
/-- The problems of each field of an object, at whatever type it has. -/
def Literal.fieldProblems (schema : Schema) :
    List (String × Literal) → List (String × (TypeRef → List (Problem Literal)))
  | [] => []
  | (name, value) :: fields =>
    (name, fun type => value.problems schema type) :: fieldProblems schema fields
end

/-- The problems of a literal that may be missing: a missing one is as good as null. -/
def Schema.literalProblems (schema : Schema) (type : TypeRef) :
    Option Literal → List (Problem Literal)
  | some literal => literal.problems schema type
  | none => schema.nullLiteralProblems type

/-! ## §2. Runtime values. -/

/-- The problem of a runtime null: there is one where null is excluded. -/
def nullValueProblems (type : TypeRef) : List (Problem Json) :=
  if type.isNonNull then [.here (.nullValue type)] else []

mutual
/-- The problems of a runtime value as a value of a type. -/
def Json.problems (schema : Schema) : Json → TypeRef → List (Problem Json)
  | .null, type => nullValueProblems type
  | .array items, type =>
    match type.view with
    | .list element => Problem.inElements (itemProblems schema items element)
    | .named name => schema.leafProblems (·.parseValue (.array items)) (.array items) name
  | .object entries, type =>
    match schema.find? type.typeName with
    | some (.inputObject inputType) =>
      inputType.memberProblems nullValueProblems (entryProblems schema entries)
    | _ => schema.leafProblems (·.parseValue (.object entries)) (.object entries) type.typeName
  | .bool b, type => schema.leafProblems (·.parseValue (.bool b)) (.bool b) type.typeName
  | .number n, type => schema.leafProblems (·.parseValue (.number n)) (.number n) type.typeName
  | .string s, type => schema.leafProblems (·.parseValue (.string s)) (.string s) type.typeName
/-- The problems of each item of an array. -/
def Json.itemProblems (schema : Schema) : List Json → TypeRef → List (List (Problem Json))
  | [], _ => []
  | item :: items, element => item.problems schema element :: itemProblems schema items element
/-- The problems of each entry of an object, at whatever type it has. -/
def Json.entryProblems (schema : Schema) :
    List (String × Json) → List (String × (TypeRef → List (Problem Json)))
  | [] => []
  | (name, value) :: entries =>
    (name, fun type => value.problems schema type) :: entryProblems schema entries
end

/-! ## §3. Messages. -/

/-- The text of a problem of a literal. -/
def Problem.literalMessage (problem : Problem Literal) : String := problem.message Literal.render

/-- The text of a problem of a runtime value. -/
def Problem.valueMessage (problem : Problem Json) : String := problem.message Json.render

end GraphQLCheck
