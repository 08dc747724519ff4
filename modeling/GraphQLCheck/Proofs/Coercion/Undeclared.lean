/-
  GraphQLCheck.Proofs.Coercion.Undeclared
  ───────────────────────────────────────
  Fields that are not declared, and the order in which fields are given.

  An input object is read field by field as its type declares them, so what else is given, and in which
  order, has no influence on what it is worth.  Nor has it on what the check finds, but for one problem for
  each field that is not declared.  This is said of two values that are compared as far down as a type reads
  them: what an enum or a scalar reads is the same in both.

      SameDeclared               — values that differ in such fields and in the order of fields only
      Grounds.UnknownFieldAt     — where a field is given that is not declared

  Main facts:
    * `Json.coerceWith_eq_of_same`, `Literal.valueWith_eq_of_same`  — such values are worth the same
    * `Json.declaredProblems_eq_of_same`, `Literal.declaredProblems_eq_of_same` — and have the same problems,
                                            apart from those of fields that are not declared
    * `Grounds.Finds.unknownFields`       — there is one of these for each such field
-/
import GraphQLCheck.Proofs.Coercion.Violations

namespace GraphQLCheck

variable {α β : Type}

/-! ## §1. Values that are the same in what is declared. -/

/-- Two values that differ, as far down as the type reads lists and input objects, in two ways only: an object
may give other fields that are not declared, with any values, and it may give its fields in another order.
`list` and `object` make lists and objects of the kind. -/
inductive SameDeclared (schema : Schema) (list : List α → α) (object : List (String × α) → α) :
    TypeRef → α → α → Prop where
  | same {type : TypeRef} {value : α} : SameDeclared schema list object type value value
  | elements {type element : TypeRef} {items items' : List α} : type.view = .list element →
      items.length = items'.length →
      (∀ (index : Nat) (item item' : α), items[index]? = some item → items'[index]? = some item' →
        SameDeclared schema list object element item item') →
      SameDeclared schema list object type (list items) (list items')
  | fields {type : TypeRef} {inputType : InputObjectType} {fields fields' : List (String × α)} :
      schema.namedType? type = some (.inputObject inputType) →
      (fields.map Prod.fst).Nodup → (fields'.map Prod.fst).Nodup →
      (∀ field ∈ inputType.fields.toList,
        (fields.lookup field.name).isSome = (fields'.lookup field.name).isSome) →
      (∀ field ∈ inputType.fields.toList, ∀ value value', fields.lookup field.name = some value →
        fields'.lookup field.name = some value' →
        SameDeclared schema list object field.type value value') →
      SameDeclared schema list object type (object fields) (object fields')

/-- Two runtime values that are the same in what is declared. -/
abbrev Json.SameDeclared (schema : Schema) : TypeRef → Json → Json → Prop :=
  GraphQLCheck.SameDeclared schema .array .object

/-- Two literals that are the same in what is declared. -/
abbrev Literal.SameDeclared (schema : Schema) : TypeRef → Literal → Literal → Prop :=
  GraphQLCheck.SameDeclared schema .list .object

/-- What is made of the items of two lists is the same if it is the same of any two at one place. -/
theorem map_eq_of_getElem? {f : α → β} {items items' : List α} (hlength : items.length = items'.length)
    (h : ∀ (index : Nat) (item item' : α), items[index]? = some item → items'[index]? = some item' →
      f item = f item') : items.map f = items'.map f := by
  apply List.ext_getElem
  · rw [List.length_map, List.length_map, hlength]
  · intro index hindex hindex'
    rw [List.length_map] at hindex hindex'
    rw [List.getElem_map, List.getElem_map]
    exact h index _ _ (List.getElem?_eq_getElem hindex) (List.getElem?_eq_getElem hindex')

/-- What comes of the items of two lists, one after the other, is the same if it is the same of any two at one
place. -/
theorem mapM_eq_of_getElem? {ε : Type} {f : α → Outcome ε β} {items items' : List α}
    (hlength : items.length = items'.length)
    (h : ∀ (index : Nat) (item item' : α), items[index]? = some item → items'[index]? = some item' →
      f item = f item') : items.mapM f = items'.mapM f := by
  have hmapped : ∀ items : List α, items.mapM f = (items.map f).mapM id := by
    intro items
    rw [List.mapM_map, Function.id_comp]
  rw [hmapped, hmapped, map_eq_of_getElem? hlength h]

/-- Of two values that are both missing or both given, there is nothing or there are two values. -/
theorem eq_none_or_some_of_isSome {value? value?' : Option α} (h : value?.isSome = value?'.isSome) :
    (value? = none ∧ value?' = none) ∨ ∃ value value', value? = some value ∧ value?' = some value' := by
  cases value? with
  | none => exact .inl ⟨rfl, Option.isNone_iff_eq_none.1 (Option.isSome_eq_false_iff.1 h.symm)⟩
  | some value => exact .inr ⟨value, value?'.get h.symm, rfl, (Option.some_get _).symm⟩

/-! ## §2. What they are worth. -/

section Values

variable {schema : Schema} {default : DefaultValue} {env : Variables} {type : TypeRef}

/-- **What is not declared has no influence on what a runtime value is worth**, nor has the order of keys. -/
theorem Json.coerceWith_eq_of_same {value value' : Json} (h : Json.SameDeclared schema type value value') :
    value.coerceWith schema default type = value'.coerceWith schema default type := by
  induction h with
  | same => rfl
  | elements hview hlength _ ih =>
    rw [coerceWith_array hview, coerceWith_array hview, mapM_eq_of_getElem? hlength ih]
  | fields hfind _ _ hgiven _ ih =>
    rw [coerceWith_object hfind, coerceWith_object hfind]
    congr 1
    apply InputObjectType.objectValue_congr
    intro field hfield
    rw [lookup_coerceEntries, lookup_coerceEntries]
    rcases eq_none_or_some_of_isSome (hgiven field hfield) with
      ⟨hlookup, hlookup'⟩ | ⟨given, given', hlookup, hlookup'⟩
    · rw [hlookup, hlookup']
    · rw [hlookup, hlookup']
      exact congrArg some (ih field hfield given given' hlookup hlookup')

namespace Literal

theorem isUnbound_eq_of_same {literal literal' : Literal}
    (h : Literal.SameDeclared schema type literal literal') : literal.isUnbound env = literal'.isUnbound env := by
  cases h <;> rfl

/-- **What is not declared has no influence on what a literal is worth**, nor has the order of fields. -/
theorem valueWith_eq_of_same {literal literal' : Literal}
    (h : Literal.SameDeclared schema type literal literal') :
    literal.valueWith schema default env type = literal'.valueWith schema default env type := by
  induction h with
  | same => rfl
  | @elements _ element items items' hview hlength hsame ih =>
    have hitems : items.mapM (itemValue schema default env · element) =
        items'.mapM (itemValue schema default env · element) := by
      apply mapM_eq_of_getElem? hlength
      intro index item item' hitem hitem'
      unfold itemValue
      rw [isUnbound_eq_of_same (hsame index item item' hitem hitem'), ih index item item' hitem hitem']
    rw [valueWith_list hview, valueWith_list hview, hitems]
  | fields hfind hdistinct hdistinct' hgiven hsame ih =>
    rw [valueWith_object hfind, valueWith_object hfind]
    congr 1
    apply InputObjectType.objectValue_congr
    intro field hfield
    -- a variable without a value counts as not given, and it is the same variable in both
    rw [lookup_fieldValues, lookup_fieldValues,
      lookup_filter_of_nodup hdistinct (fun value => !value.isUnbound env),
      lookup_filter_of_nodup hdistinct' (fun value => !value.isUnbound env)]
    rcases eq_none_or_some_of_isSome (hgiven field hfield) with
      ⟨hlookup, hlookup'⟩ | ⟨given, given', hlookup, hlookup'⟩
    · rw [hlookup, hlookup']
    · have hbound : given.isUnbound env = given'.isUnbound env :=
        isUnbound_eq_of_same (hsame field hfield given given' hlookup hlookup')
      rw [hlookup, hlookup', Option.filter_some, Option.filter_some, hbound]
      cases given'.isUnbound env with
      | true => rfl
      | false => exact congrArg some (ih field hfield given given' hlookup hlookup')

end Literal

end Values

/-! ## §3. What is wrong with them. -/

/-- Whether the violation is a field that is not declared. -/
def Violation.isUnknownField : Violation α → Bool
  | .unknownField => true
  | .nullLiteral _ | .nullValue _ | .unknownType _ | .notAnObject _ | .refused _ _ => false

namespace Problem

/-- The problems apart from those of fields that are not declared. -/
def declared (problems : List (Problem α)) : List (Problem α) :=
  problems.filter fun problem => !problem.violation.isUnknownField

theorem declared_within (step : PathStep) (problems : List (Problem α)) :
    declared (problems.map (·.within step)) = (declared problems).map (·.within step) :=
  List.filter_map ..

theorem declared_inElements (elements : List (List (Problem α))) :
    declared (inElements elements) = inElements (elements.map declared) := by
  unfold inElements
  rw [declared, List.filter_flatMap, List.zipIdx_map, List.flatMap_map]
  apply List.flatMap_congr
  rintro ⟨problems, index⟩ _
  exact declared_within (.element index) problems

end Problem

/-- Apart from fields that are not declared, an object has the problems of what is given for the declared
fields. -/
theorem InputObjectType.declared_memberProblems {type : InputObjectType} {omitted : TypeRef → List (Problem β)}
    {members : List (String × (TypeRef → List (Problem β)))} :
    Problem.declared (type.memberProblems omitted members) = type.fields.toList.flatMap fun field =>
      (Problem.declared ((members.lookup field.name).getD omitted field.type)).map
        (·.within (.field field.name)) := by
  unfold memberProblems Problem.declared
  rw [List.filter_append, List.filter_flatMap]
  -- what comes before the declared fields is dropped as a whole
  have hunknown : (((members.map Prod.fst).filter fun name => !type.fields.contains name).map
      fun name => (Problem.here (.unknownField : Violation β)).within (.field name)).filter
        (fun problem => !problem.violation.isUnknownField) = [] := by
    rw [List.filter_eq_nil_iff, List.forall_mem_map]
    intro name _ h
    cases h
  rw [hunknown, List.nil_append]
  apply List.flatMap_congr
  intro field _
  exact Problem.declared_within (.field field.name) _

/-- The problems of two objects are the same, apart from fields that are not declared, if those of what is given
for declared fields are. -/
theorem InputObjectType.declared_memberProblems_congr {type : InputObjectType}
    {omitted : TypeRef → List (Problem β)} {fields fields' : List (String × α)}
    (check : α → TypeRef → List (Problem β))
    (hgiven : ∀ field ∈ type.fields.toList,
      (fields.lookup field.name).isSome = (fields'.lookup field.name).isSome)
    (h : ∀ field ∈ type.fields.toList, ∀ value value', fields.lookup field.name = some value →
      fields'.lookup field.name = some value' →
      Problem.declared (check value field.type) = Problem.declared (check value' field.type)) :
    Problem.declared (type.memberProblems omitted (fields.map fun field => (field.1, check field.2))) =
      Problem.declared (type.memberProblems omitted (fields'.map fun field => (field.1, check field.2))) := by
  rw [declared_memberProblems, declared_memberProblems]
  apply List.flatMap_congr
  intro field hfield
  rw [lookup_map_entries, lookup_map_entries]
  rcases eq_none_or_some_of_isSome (hgiven field hfield) with
    ⟨hlookup, hlookup'⟩ | ⟨value, value', hlookup, hlookup'⟩
  · rw [hlookup, hlookup']
  · rw [hlookup, hlookup']
    exact congrArg (List.map _) (h field hfield value value' hlookup hlookup')

section Problems

variable {schema : Schema} {type : TypeRef}

/-- **What is not declared changes no other problem of a runtime value**, nor does the order of keys. -/
theorem Json.declaredProblems_eq_of_same {value value' : Json}
    (h : Json.SameDeclared schema type value value') :
    Problem.declared (value.problems schema type) = Problem.declared (value'.problems schema type) := by
  induction h with
  | same => rfl
  | elements hview hlength _ ih =>
    rw [problems_array hview, problems_array hview, Problem.declared_inElements, Problem.declared_inElements,
      List.map_map, List.map_map]
    exact congrArg Problem.inElements (map_eq_of_getElem? hlength ih)
  | fields hfind _ _ hgiven _ ih =>
    rw [problems_object hfind, problems_object hfind, entryProblems_eq_map, entryProblems_eq_map]
    exact InputObjectType.declared_memberProblems_congr (problems schema) hgiven ih

/-- **What is not declared changes no other problem of a literal**, nor does the order of fields. -/
theorem Literal.declaredProblems_eq_of_same {literal literal' : Literal}
    (h : Literal.SameDeclared schema type literal literal') :
    Problem.declared (literal.problems schema type) = Problem.declared (literal'.problems schema type) := by
  induction h with
  | same => rfl
  | elements hview hlength _ ih =>
    rw [problems_list hview, problems_list hview, Problem.declared_inElements, Problem.declared_inElements,
      List.map_map, List.map_map]
    exact congrArg Problem.inElements (map_eq_of_getElem? hlength ih)
  | fields hfind _ _ hgiven _ ih =>
    rw [problems_object hfind, problems_object hfind, fieldProblems_eq_map, fieldProblems_eq_map]
    exact InputObjectType.declared_memberProblems_congr (problems schema) hgiven ih

end Problems

/-! ## §4. Fields that are not declared. -/

namespace Checked.Grounds

variable (grounds : Grounds α β) (schema : Schema)

/-- Some steps into a value, an object is looked at that gives a field that is not declared; the path leads to the
field. -/
def UnknownFieldAt (value : α) (type : TypeRef) (path : List PathStep) : Prop :=
  ∃ before part name inputType fields key,
    grounds.Examines schema value type before part (.named name) ∧
    grounds.view part = .object fields ∧ schema.find? name = some (.inputObject inputType) ∧
    key ∈ fields.map Prod.fst ∧ inputType.fields.contains key = false ∧ path = before ++ [.field key]

/-- Of the problems, those of fields that are not declared are one for each such field. -/
structure OncePerUnknownField (value : α) (type : TypeRef) (problems : List (Problem β)) : Prop where
  once : ((problems.filter (·.violation.isUnknownField)).map Problem.path).Nodup
  mem_iff : ∀ path, path ∈ (problems.filter (·.violation.isUnknownField)).map Problem.path ↔
    grounds.UnknownFieldAt schema value type path

variable {grounds schema} {value : α} {type : TypeRef} {problems : List (Problem β)}

/-- A field that is not declared is a violation of an object that is looked at, and there is no other way to one. -/
theorem violatedAt_unknownField_iff (hexcluded : ∀ inner, grounds.excluded inner ≠ .unknownField)
    {path : List PathStep} : grounds.ViolatedAt schema value type path .unknownField ↔
      grounds.UnknownFieldAt schema value type path := by
  constructor
  · rintro ⟨before, rest, part, partType, hexamines, hviolates, rfl⟩
    generalize hviolation : Violation.unknownField = violation at hviolates
    cases hviolates with
    | null _ => exact absurd hviolation.symm (hexcluded _)
    | unknownType _ _ | notAnObject _ _ _ | refused _ _ _ _ => cases hviolation
    | unknownField hview hfind hkey hunknown =>
      exact ⟨before, part, _, _, _, _, hexamines, hview, hfind, hkey, hunknown, rfl⟩
  · rintro ⟨before, part, name, inputType, fields, key, hexamines, hview, hfind, hkey, hunknown, rfl⟩
    exact ⟨before, [.field key], part, .named name, hexamines, .unknownField hview hfind hkey hunknown, rfl⟩

/-- **There is one problem for each field that is not declared**, if no object gives a field twice. -/
theorem Finds.unknownFields (hexcluded : ∀ inner, grounds.excluded inner ≠ .unknownField)
    (hdistinct : grounds.KeysDistinct schema value type) (h : grounds.Finds schema value type problems) :
    grounds.OncePerUnknownField schema value type problems where
  once := (h.nodup hdistinct).sublist (List.filter_sublist.map Problem.path)
  mem_iff path := by
    rw [← violatedAt_unknownField_iff hexcluded, List.mem_map]
    constructor
    · rintro ⟨⟨path, violation⟩, hproblem, rfl⟩
      obtain ⟨hmem, hunknown⟩ := List.mem_filter.1 hproblem
      cases violation with
      | unknownField => exact (h.mem_iff _).1 hmem
      | _ => cases hunknown
    · intro hat
      exact ⟨⟨path, .unknownField⟩, List.mem_filter.2 ⟨(h.mem_iff _).2 hat, rfl⟩, rfl⟩

end Checked.Grounds

namespace Schema

variable {schema : Schema}

theorem literalGrounds_excluded_ne (inner : TypeRef) : schema.literalGrounds.excluded inner ≠ .unknownField := by
  cases inner <;> exact nofun

theorem valueGrounds_excluded_ne (inner : TypeRef) : schema.valueGrounds.excluded inner ≠ .unknownField :=
  nofun

end Schema

/-- **What is not declared has no influence, nor has the order of keys.**  Two runtime values that are the same in
what is declared are worth the same, whether that is a value or none, and have the same problems in the same
order, apart from those of fields that are not declared.  Of these there is one for each such field of an object
that is looked at.  The same holds of literals, whatever variables have values. -/
theorem undeclared_fields_have_no_influence (schema : Schema) (type : TypeRef) :
    (∀ value value' : Json, Json.SameDeclared schema type value value' →
      schema.coerceValue type value = schema.coerceValue type value' ∧
      Problem.declared (value.problems schema type) = Problem.declared (value'.problems schema type)) ∧
    (∀ value : Json, schema.valueGrounds.KeysDistinct schema value type →
      schema.valueGrounds.OncePerUnknownField schema value type (value.problems schema type)) ∧
    (∀ literal literal' : Literal, Literal.SameDeclared schema type literal literal' →
      (∀ env : Variables, schema.literalValue env type literal = schema.literalValue env type literal') ∧
      Problem.declared (literal.problems schema type) = Problem.declared (literal'.problems schema type)) ∧
    (∀ literal : Literal, schema.literalGrounds.KeysDistinct schema (some literal) type →
      schema.literalGrounds.OncePerUnknownField schema (some literal) type (literal.problems schema type)) := by
  refine ⟨fun value value' h => ⟨?_, ?_⟩, fun value hdistinct => ?_, fun literal literal' h => ⟨fun env => ?_, ?_⟩,
    fun literal hdistinct => ?_⟩
  · exact Json.coerceWith_eq_of_same h
  · exact Json.declaredProblems_eq_of_same h
  · exact (Schema.finds_valueProblems type value).unknownFields Schema.valueGrounds_excluded_ne hdistinct
  · exact Literal.valueWith_eq_of_same h
  · exact Literal.declaredProblems_eq_of_same h
  · exact (Schema.finds_literalProblems type (some literal)).unknownFields Schema.literalGrounds_excluded_ne hdistinct

namespace Search

/-- `{"color": "red", "tags": ["lean"], "range": {"size": 9, "to": 3}}`. -/
def paintedFilter : Json :=
  .object [("color", .string "red"), ("tags", .array [.string "lean"]),
    ("range", .object [("size", .ofInt 9), ("to", .ofInt 3)])]

/-- `{"range": {"to": 3}, "tags": ["lean"]}`. -/
def plainFilter : Json :=
  .object [("range", .object [("to", .ofInt 3)]), ("tags", .array [.string "lean"])]

theorem paintedFilter_same : Json.SameDeclared schema (.named "Filter") paintedFilter plainFilter := by
  have hrange : Json.SameDeclared schema (.nonNull (.named "Range"))
      (.object [("size", .ofInt 9), ("to", .ofInt 3)]) (.object [("to", .ofInt 3)]) := by
    have hfind : schema.namedType? (.nonNull (.named "Range")) = some (.inputObject range) := rfl
    refine .fields hfind (by decide) (by decide) (by decide) ?_
    intro field hfield value value' hvalue hvalue'
    rcases List.mem_cons.1 hfield with rfl | hfield
    · cases hvalue
    · rcases List.mem_singleton.1 hfield with rfl
      cases hvalue
      cases hvalue'
      exact .same
  have hfind : schema.namedType? (.named "Filter") = some (.inputObject filter) := rfl
  refine .fields hfind (by decide) (by decide) (by decide) ?_
  intro field hfield value value' hvalue hvalue'
  rcases List.mem_cons.1 hfield with rfl | hfield
  · cases hvalue
    cases hvalue'
    exact .same
  rcases List.mem_cons.1 hfield with rfl | hfield
  · cases hvalue
  rcases List.mem_cons.1 hfield with rfl | hfield
  · cases hvalue
    cases hvalue'
    exact hrange
  rcases List.mem_cons.1 hfield with rfl | hfield
  · cases hvalue
  · rcases List.mem_singleton.1 hfield with rfl
    cases hvalue

/-- Both filters are worth the same, with the fields in the order in which they are declared, and in the first one
there is a problem for each of the two fields that are not declared. -/
theorem paintedFilter_coerces :
    (schema.coerceValue (.named "Filter") paintedFilter = .value (.object [("tags", .array [.string "lean"]),
        ("order", .string "ASC"), ("range", .object [("from", .ofInt 1), ("to", .ofInt 3)])]) ∧
      schema.coerceValue (.named "Filter") plainFilter = schema.coerceValue (.named "Filter") paintedFilter) ∧
    (Problem.declared (paintedFilter.problems schema (.named "Filter"))).map Problem.valueMessage =
      ["In field \"range\": In field \"from\": Expected \"Int!\", found null."] ∧
    schema.valueGrounds.UnknownFieldAt schema paintedFilter (.named "Filter") [.field "range", .field "size"] ∧
    schema.literalGrounds.UnknownFieldAt schema (some spoiltFilter) (.named "Filter") [.field "color"] := by
  obtain ⟨hvalues, hvalue, _, hliteral⟩ := undeclared_fields_have_no_influence schema (.named "Filter")
  obtain ⟨hworth, hproblems⟩ := hvalues paintedFilter plainFilter paintedFilter_same
  refine ⟨⟨rfl, hworth.symm⟩, ?_, ?_, ?_⟩
  · rw [hproblems]
    decide
  · rw [← (hvalue paintedFilter (Json.keysDistinct rfl)).mem_iff]
    decide
  · rw [← (hliteral spoiltFilter (Literal.keysDistinct rfl)).mem_iff]
    decide

end Search

end GraphQLCheck
