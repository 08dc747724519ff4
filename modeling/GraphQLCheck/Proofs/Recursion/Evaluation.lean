/-
  GraphQLCheck.Proofs.Recursion.Evaluation
  ────────────────────────────────────────
  The evaluation of literals and runtime values as a recursion.

  A value is evaluated layer by layer of its type: at a type that excludes null, at the type inside; at a
  list, item by item, or as the single item of one; at an input object, field by field.  A field that is not
  given takes its default, which is a literal of the schema and no part of the value.  What literals and
  runtime values are worth is computed to a depth of nested defaults, but it follows this recursion, which
  knows of no depth.

  Main results:
    * `Schema.evaluation`          — the recursion
    * `Schema.follows_evaluate`    — what literals and runtime values are worth follows it
    * `Schema.evaluate_ne_endless` — and it has an end where the recursion has one
-/
import GraphQLCheck.Proofs.Coercion.Defaults
import GraphQLCheck.Proofs.Recursion.Calls

namespace GraphQLCheck

/-! ## §1. The recursion. -/

/-- A call of the evaluation of a literal or of a runtime value at a type. -/
inductive EvaluationCall where
  | literal (env : Variables) (type : TypeRef) (literal : Literal)
  | value (type : TypeRef) (value : Json)

/-- The call for a field of an input object, if there is one: for what is given for it, or else for its
default, which is evaluated without variables. -/
def InputDef.memberCall? (field : InputDef) (given : Option (TypeRef → EvaluationCall)) :
    Option EvaluationCall :=
  match given, field.defaultValue with
  | some call, _ => some (call field.type)
  | none, some default => some (.literal [] field.type default)
  | none, none => none

namespace InputObjectType

/-- The calls for an input object, given those for its fields. -/
def memberCalls (type : InputObjectType) (members : List (String × (TypeRef → EvaluationCall))) :
    List EvaluationCall :=
  type.fields.toList.filterMap fun field => field.memberCall? (members.lookup field.name)

/-- The value of an input object, given the calls for its fields. -/
def objectBody (type : InputObjectType) (again : EvaluationCall → Coerced)
    (members : List (String × (TypeRef → EvaluationCall))) : Coerced :=
  type.objectValue (fun type default => again (.literal [] type default))
    (members.map fun member => (member.1, fun type => again (member.2 type)))

end InputObjectType

namespace Literal

/-- The calls for the fields of an object.  For a variable without a value there is none. -/
def fieldCalls (env : Variables) (fields : List (String × Literal)) :
    List (String × (TypeRef → EvaluationCall)) :=
  (fields.filter fun field => !field.2.isUnbound env).map fun field =>
    (field.1, fun type => .literal env type field.2)

/-- The value of a literal, given the outcomes of calls. -/
def evaluationBody (schema : Schema) (again : EvaluationCall → Coerced) (env : Variables) :
    Literal → TypeRef → Coerced
  | .variable name, type => env.valueAt name type
  | .null, type => type.nullValue
  | literal, .nonNull inner => again (.literal env inner literal)
  | .list items, .list element =>
    Outcome.map .array (items.mapM fun item =>
      if item.isUnbound env then element.nullValue else again (.literal env element item))
  | literal, .list element => (again (.literal env element literal)).map fun value => .array [value]
  | .object fields, .named name =>
    match schema.find? name with
    | some (.inputObject type) => type.objectBody again (fieldCalls env fields)
    | _ => schema.leafValue (·.parseLiteral (.object fields)) (.named name)
  | literal, .named name => schema.leafValue (·.parseLiteral literal) (.named name)

/-- The calls that the evaluation of a literal makes. -/
def evaluationCalls (schema : Schema) (env : Variables) : Literal → TypeRef → List EvaluationCall
  | .variable _, _ | .null, _ => []
  | literal, .nonNull inner => [.literal env inner literal]
  | .list items, .list element => (items.filter (!·.isUnbound env)).map (.literal env element ·)
  | literal, .list element => [.literal env element literal]
  | .object fields, .named name =>
    match schema.find? name with
    | some (.inputObject type) => type.memberCalls (fieldCalls env fields)
    | _ => []
  | _, .named _ => []

section Equations

variable {schema : Schema} {again : EvaluationCall → Coerced} {env : Variables} {literal : Literal}

theorem evaluationBody_plain (h : literal.isPlain = true) (type : TypeRef) :
    literal.evaluationBody schema again env type = match type with
      | .nonNull inner => again (.literal env inner literal)
      | .list element => (again (.literal env element literal)).map fun value => .array [value]
      | .named name => schema.leafValue (·.parseLiteral literal) (.named name) := by
  cases literal <;> first | (cases type <;> rfl) | cases h

theorem evaluationCalls_plain (h : literal.isPlain = true) (type : TypeRef) :
    literal.evaluationCalls schema env type = match type with
      | .nonNull inner => [.literal env inner literal]
      | .list element => [.literal env element literal]
      | .named _ => [] := by
  cases literal <;> first | (cases type <;> rfl) | cases h

theorem evaluationBody_object {fields : List (String × Literal)} {name : String} {type : InputObjectType}
    (h : schema.find? name = some (.inputObject type)) :
    (Literal.object fields).evaluationBody schema again env (.named name) =
      type.objectBody again (fieldCalls env fields) := by
  show (match schema.find? name with
    | some (.inputObject type) => type.objectBody again (fieldCalls env fields)
    | _ => schema.leafValue (·.parseLiteral (.object fields)) (.named name)) = _
  rw [h]

theorem evaluationBody_object_leaf {fields : List (String × Literal)} {name : String}
    (h : ¬ ∃ type, schema.find? name = some (.inputObject type)) :
    (Literal.object fields).evaluationBody schema again env (.named name) =
      schema.leafValue (·.parseLiteral (.object fields)) (.named name) := by
  show (match schema.find? name with
    | some (.inputObject type) => type.objectBody again (fieldCalls env fields)
    | _ => schema.leafValue (·.parseLiteral (.object fields)) (.named name)) = _
  split
  next type hfind => exact absurd ⟨type, hfind⟩ h
  next => rfl

theorem evaluationCalls_object {fields : List (String × Literal)} {name : String} {type : InputObjectType}
    (h : schema.find? name = some (.inputObject type)) :
    (Literal.object fields).evaluationCalls schema env (.named name) =
      type.memberCalls (fieldCalls env fields) := by
  show (match schema.find? name with
    | some (.inputObject type) => type.memberCalls (fieldCalls env fields)
    | _ => []) = _
  rw [h]

theorem evaluationCalls_object_leaf {fields : List (String × Literal)} {name : String}
    (h : ¬ ∃ type, schema.find? name = some (.inputObject type)) :
    (Literal.object fields).evaluationCalls schema env (.named name) = [] := by
  show (match schema.find? name with
    | some (.inputObject type) => type.memberCalls (fieldCalls env fields)
    | _ => []) = _
  split
  next type hfind => exact absurd ⟨type, hfind⟩ h
  next => rfl

end Equations

end Literal

namespace Json

/-- The calls for the entries of an object. -/
def entryCalls (entries : List (String × Json)) : List (String × (TypeRef → EvaluationCall)) :=
  entries.map fun entry => (entry.1, fun type => .value type entry.2)

/-- The value of a runtime value, given the outcomes of calls. -/
def evaluationBody (schema : Schema) (again : EvaluationCall → Coerced) : Json → TypeRef → Coerced
  | .null, type => type.nullValue
  | value, .nonNull inner => again (.value inner value)
  | .array items, .list element => Outcome.map .array (items.mapM fun item => again (.value element item))
  | value, .list element => (again (.value element value)).map fun value => .array [value]
  | .object entries, .named name =>
    match schema.find? name with
    | some (.inputObject type) => type.objectBody again (entryCalls entries)
    | _ => schema.leafValue (·.parseValue (.object entries)) (.named name)
  | value, .named name => schema.leafValue (·.parseValue value) (.named name)

/-- The calls that the evaluation of a runtime value makes. -/
def evaluationCalls (schema : Schema) : Json → TypeRef → List EvaluationCall
  | .null, _ => []
  | value, .nonNull inner => [.value inner value]
  | .array items, .list element => items.map (.value element ·)
  | value, .list element => [.value element value]
  | .object entries, .named name =>
    match schema.find? name with
    | some (.inputObject type) => type.memberCalls (entryCalls entries)
    | _ => []
  | _, .named _ => []

section Equations

variable {schema : Schema} {again : EvaluationCall → Coerced} {value : Json}

theorem evaluationBody_plain (h : value.isPlain = true) (type : TypeRef) :
    value.evaluationBody schema again type = match type with
      | .nonNull inner => again (.value inner value)
      | .list element => (again (.value element value)).map fun value => .array [value]
      | .named name => schema.leafValue (·.parseValue value) (.named name) := by
  cases value <;> first | (cases type <;> rfl) | cases h

theorem evaluationCalls_plain (h : value.isPlain = true) (type : TypeRef) :
    value.evaluationCalls schema type = match type with
      | .nonNull inner => [.value inner value]
      | .list element => [.value element value]
      | .named _ => [] := by
  cases value <;> first | (cases type <;> rfl) | cases h

theorem evaluationBody_object {entries : List (String × Json)} {name : String} {type : InputObjectType}
    (h : schema.find? name = some (.inputObject type)) :
    (Json.object entries).evaluationBody schema again (.named name) =
      type.objectBody again (entryCalls entries) := by
  show (match schema.find? name with
    | some (.inputObject type) => type.objectBody again (entryCalls entries)
    | _ => schema.leafValue (·.parseValue (.object entries)) (.named name)) = _
  rw [h]

theorem evaluationBody_object_leaf {entries : List (String × Json)} {name : String}
    (h : ¬ ∃ type, schema.find? name = some (.inputObject type)) :
    (Json.object entries).evaluationBody schema again (.named name) =
      schema.leafValue (·.parseValue (.object entries)) (.named name) := by
  show (match schema.find? name with
    | some (.inputObject type) => type.objectBody again (entryCalls entries)
    | _ => schema.leafValue (·.parseValue (.object entries)) (.named name)) = _
  split
  next type hfind => exact absurd ⟨type, hfind⟩ h
  next => rfl

theorem evaluationCalls_object {entries : List (String × Json)} {name : String} {type : InputObjectType}
    (h : schema.find? name = some (.inputObject type)) :
    (Json.object entries).evaluationCalls schema (.named name) = type.memberCalls (entryCalls entries) := by
  show (match schema.find? name with
    | some (.inputObject type) => type.memberCalls (entryCalls entries)
    | _ => []) = _
  rw [h]

theorem evaluationCalls_object_leaf {entries : List (String × Json)} {name : String}
    (h : ¬ ∃ type, schema.find? name = some (.inputObject type)) :
    (Json.object entries).evaluationCalls schema (.named name) = [] := by
  show (match schema.find? name with
    | some (.inputObject type) => type.memberCalls (entryCalls entries)
    | _ => []) = _
  split
  next type hfind => exact absurd ⟨type, hfind⟩ h
  next => rfl

end Equations

end Json

section Related

variable {R : (α : Type) → Outcome Unit α → Outcome Unit α → Prop}
  {again again' : EvaluationCall → Coerced}

/-- What relates the outcomes of the calls for an input object relates its values. -/
theorem InputObjectType.objectBody_related (kept : Outcome.Kept R) {type : InputObjectType}
    {members : List (String × (TypeRef → EvaluationCall))}
    (h : ∀ call ∈ type.memberCalls members, R Json (again call) (again' call)) :
    R Json (type.objectBody again members) (type.objectBody again' members) := by
  unfold objectBody objectValue
  apply kept.map
  apply membersOf_related kept
  intro field hfield
  have hcall : ∀ call, field.memberCall? (members.lookup field.name) = some call →
      R Json (again call) (again' call) :=
    fun call hcall => h call (List.mem_filterMap.2 ⟨field, hfield, hcall⟩)
  rw [lookup_map_entries members fun (call : TypeRef → EvaluationCall) type => again (call type),
    lookup_map_entries members fun (call : TypeRef → EvaluationCall) type => again' (call type)]
  unfold InputDef.memberValue
  cases hgiven : members.lookup field.name with
  | some call =>
    rw [hgiven] at hcall
    exact kept.map (hcall _ rfl) some
  | none =>
    rw [hgiven] at hcall
    cases hdefault : field.defaultValue with
    | some default => exact kept.map (hcall _ (by simp [InputDef.memberCall?, hdefault])) some
    | none =>
      apply kept.refl
      show (if field.type.isNonNull = true then Outcome.failure () else .value none) ≠ .endless
      cases field.type.isNonNull <;> simp

/-- What relates the outcomes of the calls for a literal relates its values. -/
theorem Literal.evaluationBody_related (kept : Outcome.Kept R) {schema : Schema} {env : Variables}
    {literal : Literal} {type : TypeRef}
    (h : ∀ call ∈ literal.evaluationCalls schema env type, R Json (again call) (again' call)) :
    R Json (literal.evaluationBody schema again env type) (literal.evaluationBody schema again' env type) := by
  have hleaf : ∀ read name, R Json (schema.leafValue read (.named name)) (schema.leafValue read (.named name)) :=
    fun read name => kept.refl _ Schema.leafValue_ne_endless
  induction literal with
  | var name =>
    apply kept.refl
    show env.valueAt name type ≠ .endless
    unfold Variables.valueAt
    split
    next => split <;> simp [Coerced.none]
    next => simp [Coerced.none]
  | null => exact kept.nullValue type
  | list items _ =>
    cases type with
    | nonNull inner => exact h _ (List.mem_singleton.2 rfl)
    | list element =>
      apply kept.map
      apply kept.mapM
      intro item hitem
      -- an item that is a variable without a value takes no call
      cases hunbound : item.isUnbound env with
      | true => exact kept.nullValue element
      | false =>
        exact h _ (List.mem_map_of_mem (List.mem_filter.2 ⟨hitem, by rw [hunbound]; rfl⟩))
    | named name => exact hleaf _ name
  | object fields _ =>
    cases type with
    | nonNull inner => exact h _ (List.mem_singleton.2 rfl)
    | list element => exact kept.map (h _ (List.mem_singleton.2 rfl)) _
    | named name =>
      by_cases hinput : ∃ type, schema.find? name = some (.inputObject type)
      · obtain ⟨type, hfind⟩ := hinput
        rw [evaluationCalls_object hfind] at h
        rw [evaluationBody_object hfind, evaluationBody_object hfind]
        exact type.objectBody_related kept h
      · rw [evaluationBody_object_leaf hinput, evaluationBody_object_leaf hinput]
        exact hleaf _ name
  | plain literal hplain =>
    rw [evaluationCalls_plain hplain] at h
    rw [evaluationBody_plain hplain, evaluationBody_plain hplain]
    cases type with
    | nonNull inner => exact h _ (List.mem_singleton.2 rfl)
    | list element => exact kept.map (h _ (List.mem_singleton.2 rfl)) _
    | named name => exact hleaf _ name

/-- What relates the outcomes of the calls for a runtime value relates its values. -/
theorem Json.evaluationBody_related (kept : Outcome.Kept R) {schema : Schema} {value : Json}
    {type : TypeRef} (h : ∀ call ∈ value.evaluationCalls schema type, R Json (again call) (again' call)) :
    R Json (value.evaluationBody schema again type) (value.evaluationBody schema again' type) := by
  have hleaf : ∀ read name, R Json (schema.leafValue read (.named name)) (schema.leafValue read (.named name)) :=
    fun read name => kept.refl _ Schema.leafValue_ne_endless
  induction value with
  | null => exact kept.nullValue type
  | array items _ =>
    cases type with
    | nonNull inner => exact h _ (List.mem_singleton.2 rfl)
    | list element =>
      apply kept.map
      apply kept.mapM
      exact fun item hitem => h _ (List.mem_map_of_mem hitem)
    | named name => exact hleaf _ name
  | object entries _ =>
    cases type with
    | nonNull inner => exact h _ (List.mem_singleton.2 rfl)
    | list element => exact kept.map (h _ (List.mem_singleton.2 rfl)) _
    | named name =>
      by_cases hinput : ∃ type, schema.find? name = some (.inputObject type)
      · obtain ⟨type, hfind⟩ := hinput
        rw [evaluationCalls_object hfind] at h
        rw [evaluationBody_object hfind, evaluationBody_object hfind]
        exact type.objectBody_related kept h
      · rw [evaluationBody_object_leaf hinput, evaluationBody_object_leaf hinput]
        exact hleaf _ name
  | plain value hplain =>
    rw [evaluationCalls_plain hplain] at h
    rw [evaluationBody_plain hplain, evaluationBody_plain hplain]
    cases type with
    | nonNull inner => exact h _ (List.mem_singleton.2 rfl)
    | list element => exact kept.map (h _ (List.mem_singleton.2 rfl)) _
    | named name => exact hleaf _ name

end Related

namespace Schema

variable (schema : Schema)

def evaluationBody (again : EvaluationCall → Coerced) : EvaluationCall → Coerced
  | .literal env type literal => literal.evaluationBody schema again env type
  | .value type value => value.evaluationBody schema again type

def evaluationCalls : EvaluationCall → List EvaluationCall
  | .literal env type literal => literal.evaluationCalls schema env type
  | .value type value => value.evaluationCalls schema type

theorem evaluationBody_related {R : (α : Type) → Outcome Unit α → Outcome Unit α → Prop}
    (kept : Outcome.Kept R) {again again' : EvaluationCall → Coerced} {call : EvaluationCall}
    (h : ∀ other ∈ schema.evaluationCalls call, R Json (again other) (again' other)) :
    R Json (schema.evaluationBody again call) (schema.evaluationBody again' call) := by
  cases call with
  | literal env type literal => exact Literal.evaluationBody_related kept h
  | value type value => exact Json.evaluationBody_related kept h

/-- The evaluation of literals and runtime values. -/
def evaluation : Recursion EvaluationCall Coerced where
  body := schema.evaluationBody
  calls := schema.evaluationCalls
  body_congr := schema.evaluationBody_related Outcome.kept_eq

/-- What a call of the evaluation comes to. -/
def evaluate : EvaluationCall → Coerced
  | .literal env type literal => schema.literalValue env type literal
  | .value type value => schema.coerceValue type value

/-! ## §2. What literals and runtime values are worth. -/

end Schema

section Follows

variable {schema : Schema}

/-- In an object, a default is worth what its literal is worth. -/
theorem InputObjectType.objectValue_defaultValue {type : InputObjectType} {name : String}
    (hfind : schema.find? name = some (.inputObject type))
    (members : List (String × (TypeRef → Coerced))) :
    type.objectValue schema.defaultValue members =
      type.objectValue (fun type default => schema.literalValue [] type default) members := by
  have hmembers : membersOf schema.defaultValue members type.fields.toList =
      membersOf (fun type default => schema.literalValue [] type default) members type.fields.toList := by
    apply membersOf_related Outcome.kept_eq
    intro field hfield
    unfold InputDef.memberValue
    split
    next => rfl
    next default _ hdefault =>
      rw [Schema.defaultValue_eq_literalValue (Schema.mem_defaults hfind hfield hdefault)]
    next => rfl
  unfold objectValue
  rw [hmembers]

/-- A value that is no list is put into one for each list layer. -/
theorem Schema.leafValue_list (read : TypeDef → Option Json) (element : TypeRef) :
    schema.leafValue read (.list element) =
      (schema.leafValue read element).map fun value => .array [value] := by
  unfold leafValue
  show (Outcome.ofOption () ((schema.namedType? element).bind read)).map _ =
    ((Outcome.ofOption () ((schema.namedType? element).bind read)).map _).map _
  cases (schema.namedType? element).bind read <;> rfl

/-- What an input object is worth follows the recursion, given what its fields are worth. -/
theorem InputObjectType.objectValue_eq_body {type : InputObjectType} {name : String}
    (hfind : schema.find? name = some (.inputObject type))
    (members : List (String × (TypeRef → EvaluationCall))) :
    type.objectValue schema.defaultValue
        (members.map fun member => (member.1, fun type => schema.evaluate (member.2 type))) =
      type.objectBody schema.evaluate members :=
  type.objectValue_defaultValue hfind _

/-- What a literal is worth follows the recursion. -/
theorem Literal.literalValue_eq_body (env : Variables) (literal : Literal) (type : TypeRef) :
    schema.literalValue env type literal = literal.evaluationBody schema schema.evaluate env type := by
  show literal.valueWith schema schema.defaultValue env type = _
  induction literal with
  | var name => rfl
  | null => rfl
  | plain literal hplain =>
    rw [evaluationBody_plain hplain, valueWith_plain hplain]
    cases type with
    | nonNull inner => exact (valueWith_plain hplain inner).symm
    | list element =>
      rw [Schema.leafValue_list, ← valueWith_plain hplain element]
      rfl
    | named name => rfl
  | list items _ =>
    cases type with
    | nonNull inner =>
      show _ = (Literal.list items).valueWith schema schema.defaultValue env inner
      unfold valueWith
      rfl
    | list element =>
      rw [valueWith_list rfl]
      rfl
    | named name => rfl
  | object fields _ =>
    by_cases hinput : ∃ inputType, schema.namedType? type = some (.inputObject inputType)
    · obtain ⟨inputType, hfind⟩ := hinput
      rw [valueWith_object hfind]
      cases type with
      | nonNull inner => exact (valueWith_object hfind).symm
      | list element =>
        have helement : schema.namedType? element = some (.inputObject inputType) := hfind
        show _ = ((Literal.object fields).valueWith schema schema.defaultValue env element).map _
        rw [valueWith_object helement, Outcome.map_map]
        rfl
      | named name =>
        have hnamed : schema.find? name = some (.inputObject inputType) := hfind
        rw [evaluationBody_object hnamed, fieldValues_eq_map, ← inputType.objectValue_eq_body hnamed,
          fieldCalls, List.map_map]
        exact Outcome.map_id _
    · rw [valueWith_object_leaf hinput]
      cases type with
      | nonNull inner => exact (valueWith_object_leaf hinput).symm
      | list element =>
        have helement : ¬∃ inputType, schema.namedType? element = some (.inputObject inputType) := hinput
        show _ = ((Literal.object fields).valueWith schema schema.defaultValue env element).map _
        rw [valueWith_object_leaf helement, Schema.leafValue_list]
      | named name => exact (evaluationBody_object_leaf hinput).symm

/-- What a runtime value is worth follows the recursion. -/
theorem Json.coerceValue_eq_body (value : Json) (type : TypeRef) :
    schema.coerceValue type value = value.evaluationBody schema schema.evaluate type := by
  show value.coerceWith schema schema.defaultValue type = _
  induction value with
  | null => rfl
  | plain value hplain =>
    rw [evaluationBody_plain hplain, coerceWith_plain hplain]
    cases type with
    | nonNull inner => exact (coerceWith_plain hplain inner).symm
    | list element =>
      rw [Schema.leafValue_list, ← coerceWith_plain hplain element]
      rfl
    | named name => rfl
  | array items _ =>
    cases type with
    | nonNull inner =>
      show _ = (Json.array items).coerceWith schema schema.defaultValue inner
      unfold coerceWith
      rfl
    | list element =>
      rw [coerceWith_array rfl]
      rfl
    | named name => rfl
  | object entries _ =>
    by_cases hinput : ∃ inputType, schema.namedType? type = some (.inputObject inputType)
    · obtain ⟨inputType, hfind⟩ := hinput
      rw [coerceWith_object hfind]
      cases type with
      | nonNull inner => exact (coerceWith_object hfind).symm
      | list element =>
        have helement : schema.namedType? element = some (.inputObject inputType) := hfind
        show _ = ((Json.object entries).coerceWith schema schema.defaultValue element).map _
        rw [coerceWith_object helement, Outcome.map_map]
        rfl
      | named name =>
        have hnamed : schema.find? name = some (.inputObject inputType) := hfind
        rw [evaluationBody_object hnamed, coerceEntries_eq_map, ← inputType.objectValue_eq_body hnamed,
          entryCalls, List.map_map]
        exact Outcome.map_id _
    · rw [coerceWith_object_leaf hinput]
      cases type with
      | nonNull inner => exact (coerceWith_object_leaf hinput).symm
      | list element =>
        have helement : ¬∃ inputType, schema.namedType? element = some (.inputObject inputType) := hinput
        show _ = ((Json.object entries).coerceWith schema schema.defaultValue element).map _
        rw [coerceWith_object_leaf helement, Schema.leafValue_list]
      | named name => exact (evaluationBody_object_leaf hinput).symm

end Follows

/-- **What literals and runtime values are worth follows the recursion.** -/
theorem Schema.follows_evaluate (schema : Schema) : schema.evaluation.Follows schema.evaluate := by
  intro call
  cases call with
  | literal env type literal => exact literal.literalValue_eq_body env type
  | value type value => exact value.coerceValue_eq_body type

/-- What a call comes to has an end if the calls that it takes come to a number. -/
theorem Schema.evaluate_ne_endless {schema : Schema} {call : EvaluationCall}
    (h : schema.evaluation.Ends call) : schema.evaluate call ≠ .endless := by
  refine h.induction (P := fun call => schema.evaluate call ≠ .endless) fun call hcalls => ?_
  rw [schema.follows_evaluate call]
  have hended : Outcome.Ended Json (schema.evaluationBody schema.evaluate call)
      (schema.evaluationBody schema.evaluate call) :=
    schema.evaluationBody_related Outcome.kept_ended hcalls
  exact hended

end GraphQLCheck
