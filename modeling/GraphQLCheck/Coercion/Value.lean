/-
  GraphQLCheck.Coercion.Value
  ───────────────────────────
  What literals and runtime values are worth at a type.

      Schema.literalValue — the value of a literal, with variables filled in
      Schema.coerceValue  — the value of a runtime value

  Both put a single value into as many lists as its type has layers, fill in the defaults of input
  fields and leave the rest to enums and scalars.  They recurse on the value, given what the defaults
  of input fields are worth; `Schema.evaluateWithin` closes the circle.  A default may use other
  defaults, so it counts how deep they are nested: deeper than there are input fields with a default,
  one of them is within itself, and has no end.
-/
import GraphQLCheck.Outcome
import GraphQLCheck.Schema.Basic

namespace GraphQLCheck

/-- A value at a type; a failure gives no reason. -/
abbrev Coerced := Outcome Unit Json

/-- There is no value. -/
def Coerced.none : Coerced := .failure ()

/-! ## §1. Parts of the two evaluations. -/

/-- A value inside of one list for each layer. -/
def Json.nest : Nat → Json → Json
  | 0, value => value
  | depth + 1, value => .array [value.nest depth]

/-- The value of null: none where null is excluded. -/
def TypeRef.nullValue (type : TypeRef) : Coerced :=
  if type.isNonNull then .none else .value .null

/-- What an enum or a scalar makes of a value that is no list, inside the list layers of the type. -/
def Schema.leafValue (schema : Schema) (read : TypeDef → Option Json) (type : TypeRef) : Coerced :=
  (Outcome.ofOption () ((schema.namedType? type).bind read)).map (·.nest type.listDepth)

/-- How the default of an input field is evaluated, given its type. -/
abbrev DefaultValue := TypeRef → Literal → Coerced

/-- The value of a field of an input object, if it has one: what is given for it, or else its default.
A field that excludes null needs one of them. -/
def InputDef.memberValue (default : DefaultValue) (field : InputDef)
    (given : Option (TypeRef → Coerced)) : Outcome Unit (Option Json) :=
  match given, field.defaultValue with
  | some value, _ => (value field.type).map some
  | none, some literal => (default field.type literal).map some
  | none, none => if field.type.isNonNull then .failure () else .value none

/-- The members of an object: the values of the declared fields that have one, in order. -/
def membersOf (default : DefaultValue) (members : List (String × (TypeRef → Coerced))) :
    List InputDef → Outcome Unit (List (String × Json))
  | [] => .value []
  | field :: fields => do
    let value? ← field.memberValue default (members.lookup field.name)
    let rest ← membersOf default members fields
    match value? with
    | some value => pure ((field.name, value) :: rest)
    | none => pure rest

/-- The value of an object as a value of an input object type.  `members` says what each given field is
worth at a type; what is not declared is left out. -/
def InputObjectType.objectValue (default : DefaultValue) (type : InputObjectType)
    (members : List (String × (TypeRef → Coerced))) : Coerced :=
  (membersOf default members type.fields.toList).map .object

/-! ## §2. Literals. -/

/-- The value of a variable at a type. -/
def Variables.valueAt (env : Variables) (name : String) (type : TypeRef) : Coerced :=
  match env.lookup name with
  | some value => if value.isNull && type.isNonNull then .none else .value value
  | none => .none

/-- Whether the literal is a variable without a value. -/
def Literal.isUnbound (env : Variables) : Literal → Bool
  | .variable name => (env.lookup name).isNone
  | _ => false

mutual
/-- The value of a literal at a type, given what defaults are worth. -/
def Literal.valueWith (schema : Schema) (default : DefaultValue) (env : Variables) :
    Literal → TypeRef → Coerced
  | .variable name, type => env.valueAt name type
  | .null, type => type.nullValue
  | .list items, type =>
    match type.view with
    | .list element => (itemValues schema default env items element).map .array
    | .named _ => schema.leafValue (·.parseLiteral (.list items)) type
  | .object fields, type =>
    match schema.namedType? type with
    | some (.inputObject inputType) =>
      (inputType.objectValue default (fieldValues schema default env fields)).map
        (·.nest type.listDepth)
    | _ => schema.leafValue (·.parseLiteral (.object fields)) type
  | .int i, type => schema.leafValue (·.parseLiteral (.int i)) type
  | .float x, type => schema.leafValue (·.parseLiteral (.float x)) type
  | .string s, type => schema.leafValue (·.parseLiteral (.string s)) type
  | .boolean b, type => schema.leafValue (·.parseLiteral (.boolean b)) type
  | .enum name, type => schema.leafValue (·.parseLiteral (.enum name)) type
/-- The values of the items of a list.  A variable without a value is null there. -/
def Literal.itemValues (schema : Schema) (default : DefaultValue) (env : Variables) :
    List Literal → TypeRef → Outcome Unit (List Json)
  | [], _ => .value []
  | item :: items, element => do
    let value ←
      if item.isUnbound env then element.nullValue
      else item.valueWith schema default env element
    let values ← itemValues schema default env items element
    pure (value :: values)
/-- The values of the fields of an object, at whatever types they have.  A variable without a value is
as good as no field. -/
def Literal.fieldValues (schema : Schema) (default : DefaultValue) (env : Variables) :
    List (String × Literal) → List (String × (TypeRef → Coerced))
  | [] => []
  | (name, value) :: fields =>
    let rest := fieldValues schema default env fields
    if value.isUnbound env then rest
    else (name, fun type => value.valueWith schema default env type) :: rest
end

/-! ## §3. Runtime values. -/

mutual
/-- The value of a runtime value at a type, given what defaults are worth. -/
def Json.coerceWith (schema : Schema) (default : DefaultValue) : Json → TypeRef → Coerced
  | .null, type => type.nullValue
  | .array items, type =>
    match type.view with
    | .list element => (coerceItems schema default items element).map .array
    | .named _ => schema.leafValue (·.parseValue (.array items)) type
  | .object entries, type =>
    match schema.namedType? type with
    | some (.inputObject inputType) =>
      (inputType.objectValue default (coerceEntries schema default entries)).map
        (·.nest type.listDepth)
    | _ => schema.leafValue (·.parseValue (.object entries)) type
  | .bool b, type => schema.leafValue (·.parseValue (.bool b)) type
  | .number n, type => schema.leafValue (·.parseValue (.number n)) type
  | .string s, type => schema.leafValue (·.parseValue (.string s)) type
/-- The values of the items of an array. -/
def Json.coerceItems (schema : Schema) (default : DefaultValue) :
    List Json → TypeRef → Outcome Unit (List Json)
  | [], _ => .value []
  | item :: items, element => do
    let value ← item.coerceWith schema default element
    let values ← coerceItems schema default items element
    pure (value :: values)
/-- The values of the entries of an object, at whatever types they have. -/
def Json.coerceEntries (schema : Schema) (default : DefaultValue) :
    List (String × Json) → List (String × (TypeRef → Coerced))
  | [] => []
  | (name, value) :: entries =>
    (name, fun type => value.coerceWith schema default type) :: coerceEntries schema default entries
end

/-! ## §4. Defaults. -/

namespace Schema

/-- The number of input fields that have a default. -/
def defaultCount (schema : Schema) : Nat :=
  (schema.types.toList.flatMap (·.inputFields)).countP (·.defaultValue.isSome)

/-- The value of a default, in which other defaults are nested less than `depth` deep. -/
def evaluateWithin (schema : Schema) : Nat → DefaultValue
  | 0 => fun _ _ => .endless
  | depth + 1 => fun type literal =>
    literal.valueWith schema (schema.evaluateWithin depth) [] type

/-- What the default of an input field is worth. -/
def defaultValue (schema : Schema) : DefaultValue := schema.evaluateWithin schema.defaultCount

/-- The value of a literal at a type. -/
def literalValue (schema : Schema) (env : Variables) (type : TypeRef) (literal : Literal) :
    Coerced :=
  literal.valueWith schema schema.defaultValue env type

/-- The value of a runtime value at a type. -/
def coerceValue (schema : Schema) (type : TypeRef) (value : Json) : Coerced :=
  value.coerceWith schema schema.defaultValue type

end Schema

end GraphQLCheck
