/-
  GraphQLCheck.Proofs.Coercion.Acceptance
  ───────────────────────────────────────
  What a type accepts has a value there.

  Checking and evaluating a literal are two recursions over it that never meet.  They agree as far as
  this: where the check finds nothing, the evaluation comes to a value.  An omitted field is where they
  come apart, since the check takes it for null and the evaluation takes its default, so it is assumed
  that defaults have values.

  Main facts:
    * `Literal.exists_value_of_accepted` — an accepted literal has a value
    * `Json.exists_value_of_accepted`    — and so has an accepted runtime value
    * `Literal.value_ne_null`            — the value of a literal is not null unless the literal is
-/
import GraphQLCheck.Coercion.Check
import GraphQLCheck.Proofs.Coercion.Conformance

namespace GraphQLCheck

/-! ## §1. No problems. -/

theorem Problem.inElements_eq_nil_iff {elements : List (List (Problem α))} :
    Problem.inElements elements = [] ↔ ∀ problems ∈ elements, problems = [] := by
  unfold inElements
  rw [List.flatMap_eq_nil_iff]
  constructor
  · intro h problems hmem
    obtain ⟨index, hindex, rfl⟩ := List.mem_iff_getElem.1 hmem
    have hnil := h (elements[index], index) (List.mk_mem_zipIdx_iff_getElem?.2
      (List.getElem?_eq_getElem hindex))
    exact List.map_eq_nil_iff.1 hnil
  · intro h entry hmem
    obtain ⟨problems, index⟩ := entry
    have hnil := h problems (List.fst_mem_of_mem_zipIdx hmem)
    rw [hnil]
    rfl

/-- A leaf is accepted exactly if its type reads it; an input object reads none. -/
theorem Schema.leafProblems_eq_nil_iff {schema : Schema} {read : TypeDef → Option Json} {found : α}
    {name : String} :
    schema.leafProblems read found name = [] ↔
      ∃ definition, schema.find? name = some definition ∧ (read definition).isSome = true ∧
        ∀ type, definition ≠ .inputObject type := by
  unfold leafProblems
  cases schema.find? name with
  | none => simp
  | some definition =>
    cases definition with
    | inputObject type => simp
    | _ => simp [Option.isSome_iff_ne_none]

theorem InputObjectType.memberProblems_eq_nil_iff {type : InputObjectType}
    {omitted : TypeRef → List (Problem α)}
    {members : List (String × (TypeRef → List (Problem α)))} :
    type.memberProblems omitted members = [] ↔
      (∀ name ∈ members.map Prod.fst, type.fields.contains name = true) ∧
      ∀ field ∈ type.fields.toList, (members.lookup field.name).getD omitted field.type = [] := by
  unfold memberProblems
  simp only [List.append_eq_nil_iff, List.map_eq_nil_iff, List.filter_eq_nil_iff,
    List.flatMap_eq_nil_iff, Bool.not_eq_true', Bool.not_eq_false]

/-- Where a field is checked by what is given for it, an object is accepted exactly if each of its fields
is declared, what is given for a declared field is accepted, and the other declared ones may be omitted. -/
theorem InputObjectType.memberProblems_map_eq_nil_iff {β : Type} {type : InputObjectType}
    {omitted : TypeRef → List (Problem α)} {entries : List (String × β)}
    (check : β → TypeRef → List (Problem α)) :
    type.memberProblems omitted (entries.map fun entry => (entry.1, check entry.2)) = [] ↔
      (∀ entry ∈ entries, type.fields.contains entry.1 = true) ∧
      (∀ field ∈ type.fields.toList, ∀ value, entries.lookup field.name = some value →
        check value field.type = []) ∧
      ∀ field ∈ type.fields.toList, entries.lookup field.name = none → omitted field.type = [] := by
  rw [memberProblems_eq_nil_iff, List.map_map, List.forall_mem_map]
  apply and_congr_right
  intro _
  constructor
  · intro h
    constructor
    · intro field hfield value hlookup
      have hnil := h field hfield
      rw [lookup_map_entries, hlookup] at hnil
      exact hnil
    · intro field hfield hlookup
      have hnil := h field hfield
      rw [lookup_map_entries, hlookup] at hnil
      exact hnil
  · rintro ⟨hgiven, homitted⟩ field hfield
    rw [lookup_map_entries]
    cases hlookup : entries.lookup field.name with
    | none => exact homitted field hfield hlookup
    | some value => exact hgiven field hfield value hlookup

/-- Null is accepted exactly where it is not excluded. -/
theorem Schema.nullLiteralProblems_eq_nil_iff {schema : Schema} {type : TypeRef} :
    schema.nullLiteralProblems type = [] ↔ type.isNonNull = false := by
  cases type with
  | nonNull inner => cases inner <;> simp [nullLiteralProblems, TypeRef.isNonNull]
  | list element => simp [nullLiteralProblems, TypeRef.isNonNull]
  | named name => simp [nullLiteralProblems, TypeRef.isNonNull]

namespace Literal

variable {schema : Schema} {type : TypeRef}

theorem problems_plain {literal : Literal} (h : literal.isPlain = true) (type : TypeRef) :
    literal.problems schema type =
      schema.leafProblems (·.parseLiteral literal) literal type.typeName := by
  cases literal <;> first | rfl | cases h

theorem itemProblems_eq_map (items : List Literal) (element : TypeRef) :
    itemProblems schema items element = items.map fun item => item.problems schema element := by
  induction items with
  | nil => rfl
  | cons item items ih => rw [itemProblems, ih, List.map_cons]

/-- The items of a list are checked at the type of its elements. -/
theorem problems_list {items : List Literal} {element : TypeRef} (h : type.view = .list element) :
    (Literal.list items).problems schema type =
      Problem.inElements (items.map fun item => item.problems schema element) := by
  rw [← itemProblems_eq_map]
  unfold problems
  simp only [h]

theorem problems_list_leaf {items : List Literal} {name : String} (h : type.view = .named name) :
    (Literal.list items).problems schema type =
      schema.leafProblems (·.parseLiteral (.list items)) (.list items) type.typeName := by
  unfold problems
  simp only [h]
  rw [TypeRef.typeName_of_view_named h]

theorem fieldProblems_eq_map (fields : List (String × Literal)) :
    fieldProblems schema fields =
      fields.map fun field => (field.1, fun type => field.2.problems schema type) := by
  induction fields with
  | nil => rfl
  | cons field fields ih =>
    obtain ⟨name, value⟩ := field
    rw [fieldProblems, ih, List.map_cons]

/-- The fields of an object are checked as the type declares them. -/
theorem problems_object {fields : List (String × Literal)} {inputType : InputObjectType}
    (h : schema.namedType? type = some (.inputObject inputType)) :
    (Literal.object fields).problems schema type =
      inputType.memberProblems schema.nullLiteralProblems (fieldProblems schema fields) := by
  unfold Schema.namedType? at h
  unfold problems
  simp only [h]

theorem problems_object_eq_nil_iff {fields : List (String × Literal)} {inputType : InputObjectType}
    (h : schema.namedType? type = some (.inputObject inputType)) :
    (Literal.object fields).problems schema type = [] ↔
      (∀ field ∈ fields, inputType.fields.contains field.1 = true) ∧
      (∀ field ∈ inputType.fields.toList, ∀ value, fields.lookup field.name = some value →
        value.problems schema field.type = []) ∧
      ∀ field ∈ inputType.fields.toList, fields.lookup field.name = none →
        field.type.isNonNull = false := by
  rw [problems_object h, fieldProblems_eq_map]
  simp only [← @Schema.nullLiteralProblems_eq_nil_iff schema]
  exact InputObjectType.memberProblems_map_eq_nil_iff (problems schema)

theorem problems_object_leaf {fields : List (String × Literal)}
    (h : ¬ ∃ inputType, schema.namedType? type = some (.inputObject inputType)) :
    (Literal.object fields).problems schema type =
      schema.leafProblems (·.parseLiteral (.object fields)) (.object fields) type.typeName := by
  unfold problems
  split
  next inputType hfind => exact absurd ⟨inputType, hfind⟩ h
  next => rfl

end Literal

theorem nullValueProblems_eq_nil_iff {type : TypeRef} :
    nullValueProblems type = [] ↔ type.isNonNull = false := by
  unfold nullValueProblems
  cases type.isNonNull <;> simp

namespace Json

variable {schema : Schema} {type : TypeRef}

theorem problems_plain {value : Json} (h : value.isPlain = true) (type : TypeRef) :
    value.problems schema type = schema.leafProblems (·.parseValue value) value type.typeName := by
  cases value <;> first | rfl | cases h

theorem itemProblems_eq_map (items : List Json) (element : TypeRef) :
    itemProblems schema items element = items.map fun item => item.problems schema element := by
  induction items with
  | nil => rfl
  | cons item items ih => rw [itemProblems, ih, List.map_cons]

theorem problems_array {items : List Json} {element : TypeRef} (h : type.view = .list element) :
    (Json.array items).problems schema type =
      Problem.inElements (items.map fun item => item.problems schema element) := by
  rw [← itemProblems_eq_map]
  unfold problems
  simp only [h]

theorem problems_array_leaf {items : List Json} {name : String} (h : type.view = .named name) :
    (Json.array items).problems schema type =
      schema.leafProblems (·.parseValue (.array items)) (.array items) type.typeName := by
  unfold problems
  simp only [h]
  rw [TypeRef.typeName_of_view_named h]

theorem problems_object {entries : List (String × Json)} {inputType : InputObjectType}
    (h : schema.namedType? type = some (.inputObject inputType)) :
    (Json.object entries).problems schema type =
      inputType.memberProblems nullValueProblems (entryProblems schema entries) := by
  unfold Schema.namedType? at h
  unfold problems
  simp only [h]

theorem entryProblems_eq_map (entries : List (String × Json)) :
    entryProblems schema entries =
      entries.map fun entry => (entry.1, fun type => entry.2.problems schema type) := by
  induction entries with
  | nil => rfl
  | cons entry entries ih =>
    obtain ⟨name, value⟩ := entry
    rw [entryProblems, ih, List.map_cons]

theorem problems_object_eq_nil_iff {entries : List (String × Json)} {inputType : InputObjectType}
    (h : schema.namedType? type = some (.inputObject inputType)) :
    (Json.object entries).problems schema type = [] ↔
      (∀ entry ∈ entries, inputType.fields.contains entry.1 = true) ∧
      (∀ field ∈ inputType.fields.toList, ∀ value, entries.lookup field.name = some value →
        value.problems schema field.type = []) ∧
      ∀ field ∈ inputType.fields.toList, entries.lookup field.name = none →
        field.type.isNonNull = false := by
  rw [problems_object h, entryProblems_eq_map]
  simp only [← nullValueProblems_eq_nil_iff]
  exact InputObjectType.memberProblems_map_eq_nil_iff (problems schema)

theorem problems_object_leaf {entries : List (String × Json)}
    (h : ¬ ∃ inputType, schema.namedType? type = some (.inputObject inputType)) :
    (Json.object entries).problems schema type =
      schema.leafProblems (·.parseValue (.object entries)) (.object entries) type.typeName := by
  unfold problems
  split
  next inputType hfind => exact absurd ⟨inputType, hfind⟩ h
  next => rfl

end Json

/-! ## §2. Literals whose variables have values. -/

namespace Literal

theorem isUnbound_eq_false {env : Variables} {literal : Literal}
    (h : ∀ name ∈ literal.variables, ∃ value, env.lookup name = some value) :
    literal.isUnbound env = false := by
  unfold isUnbound
  split
  next name =>
    obtain ⟨value, hvalue⟩ := h name (List.mem_singleton.2 rfl)
    rw [hvalue]
    rfl
  next => rfl

/-- Every variable in the literal has a value other than null. -/
def BoundBy (env : Variables) (literal : Literal) : Prop :=
  ∀ name ∈ literal.variables, ∃ value, env.lookup name = some value ∧ value.isNull = false

namespace BoundBy

variable {env : Variables}

theorem of_closed {literal : Literal} (h : literal.variables = []) : literal.BoundBy env := by
  intro name hmem
  rw [h] at hmem
  cases hmem

theorem item {items : List Literal} (h : (Literal.list items).BoundBy env) {item : Literal}
    (hitem : item ∈ items) : item.BoundBy env :=
  fun name hmem => h name (mem_variables_list.2 ⟨item, hitem, hmem⟩)

theorem field {fields : List (String × Literal)} (h : (Literal.object fields).BoundBy env)
    {field : String × Literal} (hfield : field ∈ fields) : field.2.BoundBy env :=
  fun name hmem => h name (mem_variables_object.2 ⟨field, hfield, hmem⟩)

theorem isUnbound {literal : Literal} (h : literal.BoundBy env) : literal.isUnbound env = false :=
  isUnbound_eq_false fun name hmem => (h name hmem).imp fun _ => And.left

end BoundBy

variable {schema : Schema} {default : DefaultValue} {env : Variables}

/-- Where no field is a variable without a value, every field of an object counts. -/
theorem lookup_fieldValues_of_bound {fields : List (String × Literal)}
    (h : ∀ field ∈ fields, field.2.isUnbound env = false) (name : String) :
    (fieldValues schema default env fields).lookup name =
      (fields.lookup name).map fun literal type => literal.valueWith schema default env type := by
  have hall : (fields.filter fun field => !field.2.isUnbound env) = fields := by
    rw [List.filter_eq_self]
    intro field hfield
    rw [h field hfield]
    rfl
  rw [lookup_fieldValues, hall]

theorem lookup_fieldValues_of_boundBy {fields : List (String × Literal)}
    (h : (Literal.object fields).BoundBy env) (name : String) :
    (fieldValues schema default env fields).lookup name =
      (fields.lookup name).map fun literal type => literal.valueWith schema default env type :=
  lookup_fieldValues_of_bound (fun _ hfield => (h.field hfield).isUnbound) name

end Literal

/-! ## §3. Accepted literals have values. -/

/-- What a type reads is worth something there, within lists if the type has list layers. -/
theorem Schema.exists_leafValue {schema : Schema} {read : TypeDef → Option Json} {found : α}
    {type : TypeRef} (h : schema.leafProblems read found type.typeName = []) :
    ∃ value, schema.leafValue read type = .value value := by
  obtain ⟨definition, hfind, hread, _⟩ := leafProblems_eq_nil_iff.1 h
  obtain ⟨inner, hinner⟩ := Option.isSome_iff_exists.1 hread
  exact ⟨_, leafValue_eq_value_iff.2 ⟨definition, inner, hfind, hinner, rfl⟩⟩

/-- An object has a value if each given field has one, and none is omitted that excludes null; what
`entries` give a field is worth `worth` of it. -/
theorem InputObjectType.exists_objectValue {β : Type} {default : DefaultValue} {type : InputObjectType}
    {entries : List (String × β)} {worth : β → TypeRef → Coerced}
    {members : List (String × (TypeRef → Coerced))}
    (hmembers : ∀ name, members.lookup name = (entries.lookup name).map worth)
    (hdefaults : ∀ field ∈ type.fields.toList, ∀ literal, field.defaultValue = some literal →
      ∃ value, default field.type literal = .value value)
    (hgiven : ∀ field ∈ type.fields.toList, ∀ given, entries.lookup field.name = some given →
      ∃ value, worth given field.type = .value value)
    (homitted : ∀ field ∈ type.fields.toList, entries.lookup field.name = none →
      field.type.isNonNull = false) :
    ∃ value, type.objectValue default members = .value value := by
  have hworth : ∀ field ∈ type.fields.toList,
      ∃ value?, field.memberValue default (members.lookup field.name) = .value value? := by
    intro field hfield
    rw [hmembers]
    cases hlookup : entries.lookup field.name with
    | some given =>
      obtain ⟨value, hvalue⟩ := hgiven field hfield given hlookup
      exact ⟨some value, InputDef.memberValue_eq_value_iff.2 (.inl ⟨_, value, rfl, hvalue, rfl⟩)⟩
    | none =>
      cases hliteral : field.defaultValue with
      | none =>
        have hnullable := homitted field hfield hlookup
        exact ⟨none, InputDef.memberValue_eq_value_iff.2
          (.inr (.inr ⟨rfl, hliteral, hnullable, rfl⟩))⟩
      | some literal =>
        obtain ⟨value, hvalue⟩ := hdefaults field hfield literal hliteral
        exact ⟨some value, InputDef.memberValue_eq_value_iff.2
          (.inr (.inl ⟨literal, value, rfl, hliteral, hvalue, rfl⟩))⟩
  obtain ⟨entries, hentries⟩ := Members.exists_of_forall hworth
  exact ⟨.object entries, objectValue_eq_value_iff.2 ⟨entries, rfl, hentries⟩⟩

/-- **An accepted literal has a value**, if defaults have values and so have its variables. -/
theorem Literal.exists_value_of_accepted {schema : Schema} {default : DefaultValue}
    (hdefaults : ∀ declared ∈ schema.defaults, ∃ value,
      default declared.1 declared.2 = .value value)
    {env : Variables} {literal : Literal} {type : TypeRef} (hbound : literal.BoundBy env)
    (h : literal.problems schema type = []) :
    ∃ value, literal.valueWith schema default env type = .value value := by
  induction literal generalizing type with
  | null =>
    have hnullable := Schema.nullLiteralProblems_eq_nil_iff.1 h
    exact ⟨.null, TypeRef.nullValue_eq_value_iff.2 ⟨hnullable, rfl⟩⟩
  | var name =>
    obtain ⟨value, hvalue, hnull⟩ := hbound name (List.mem_singleton.2 rfl)
    exact ⟨value, valueWith_variable_eq_value_iff.2 ⟨hvalue, by rw [hnull]; rfl⟩⟩
  | plain literal hplain =>
    rw [problems_plain hplain] at h
    rw [valueWith_plain hplain]
    exact Schema.exists_leafValue h
  | list items ih =>
    cases hview : type.view with
    | list element =>
      rw [problems_list hview, Problem.inElements_eq_nil_iff, List.forall_mem_map] at h
      have hitems : ∀ item ∈ items, ∃ value,
          item.itemValue schema default env element = .value value := by
        intro item hitem
        unfold itemValue
        rw [(hbound.item hitem).isUnbound]
        exact ih item hitem (hbound.item hitem) (h item hitem)
      obtain ⟨values, hvalues⟩ := Outcome.exists_mapM hitems
      rw [valueWith_list hview]
      exact ⟨.array values, Outcome.map_eq_value_iff.2 ⟨values, hvalues, rfl⟩⟩
    | named name =>
      rw [problems_list_leaf hview] at h
      rw [valueWith_list_leaf hview]
      exact Schema.exists_leafValue h
  | object fields ih =>
    by_cases hinput : ∃ inputType, schema.namedType? type = some (.inputObject inputType)
    · obtain ⟨inputType, hfind⟩ := hinput
      obtain ⟨-, hgiven, homitted⟩ := (problems_object_eq_nil_iff hfind).1 h
      have hobject : ∃ value, inputType.objectValue default (fieldValues schema default env fields) =
          .value value := by
        apply InputObjectType.exists_objectValue (lookup_fieldValues_of_boundBy hbound) _ _ homitted
        · intro field hfield literal hliteral
          exact hdefaults _ (Schema.mem_defaults hfind hfield hliteral)
        · intro field hfield given hlookup
          have hmem := mem_of_lookup hlookup
          exact ih _ hmem (hbound.field hmem) (hgiven field hfield given hlookup)
      obtain ⟨value, hvalue⟩ := hobject
      rw [valueWith_object hfind]
      exact ⟨_, Outcome.map_eq_value_iff.2 ⟨value, hvalue, rfl⟩⟩
    · rw [problems_object_leaf hinput] at h
      rw [valueWith_object_leaf hinput]
      exact Schema.exists_leafValue h

/-- **An accepted runtime value has a value**, if defaults have values. -/
theorem Json.exists_value_of_accepted {schema : Schema} {default : DefaultValue}
    (hdefaults : ∀ declared ∈ schema.defaults, ∃ value,
      default declared.1 declared.2 = .value value)
    {sent : Json} {type : TypeRef} (h : sent.problems schema type = []) :
    ∃ value, sent.coerceWith schema default type = .value value := by
  induction sent generalizing type with
  | null =>
    have hnullable := nullValueProblems_eq_nil_iff.1 h
    exact ⟨.null, TypeRef.nullValue_eq_value_iff.2 ⟨hnullable, rfl⟩⟩
  | plain sent hplain =>
    rw [problems_plain hplain] at h
    rw [coerceWith_plain hplain]
    exact Schema.exists_leafValue h
  | array items ih =>
    cases hview : type.view with
    | list element =>
      rw [problems_array hview, Problem.inElements_eq_nil_iff, List.forall_mem_map] at h
      obtain ⟨values, hvalues⟩ := Outcome.exists_mapM fun item hitem => ih item hitem (h item hitem)
      rw [coerceWith_array hview]
      exact ⟨.array values, Outcome.map_eq_value_iff.2 ⟨values, hvalues, rfl⟩⟩
    | named name =>
      rw [problems_array_leaf hview] at h
      rw [coerceWith_array_leaf hview]
      exact Schema.exists_leafValue h
  | object entries ih =>
    by_cases hinput : ∃ inputType, schema.namedType? type = some (.inputObject inputType)
    · obtain ⟨inputType, hfind⟩ := hinput
      obtain ⟨-, hgiven, homitted⟩ := (problems_object_eq_nil_iff hfind).1 h
      have hobject : ∃ value, inputType.objectValue default (coerceEntries schema default entries) =
          .value value := by
        apply InputObjectType.exists_objectValue (lookup_coerceEntries entries) _ _ homitted
        · intro field hfield literal hliteral
          exact hdefaults _ (Schema.mem_defaults hfind hfield hliteral)
        · intro field hfield given hlookup
          exact ih _ (mem_of_lookup hlookup) (hgiven field hfield given hlookup)
      obtain ⟨value, hvalue⟩ := hobject
      rw [coerceWith_object hfind]
      exact ⟨_, Outcome.map_eq_value_iff.2 ⟨value, hvalue, rfl⟩⟩
    · rw [problems_object_leaf hinput] at h
      rw [coerceWith_object_leaf hinput]
      exact Schema.exists_leafValue h

/-! ## §4. What the values of literals are not. -/

theorem Schema.leafValue_ne_null {schema : Schema} {read : TypeDef → Option Json} {type : TypeRef}
    (hread : ∀ definition inner, schema.namedType? type = some definition →
      read definition = some inner → inner ≠ .null)
    {value : Json} (h : schema.leafValue read type = .value value) : value ≠ .null := by
  obtain ⟨definition, inner, hfind, hinner, rfl⟩ := leafValue_eq_value_iff.1 h
  intro hnull
  exact hread definition inner hfind hinner (Json.nest_eq_null_iff.1 hnull).2

/-- The value of a finite literal is null only if the literal is. -/
theorem Literal.value_ne_null {schema : Schema} {default : DefaultValue}
    (hscalars : ∀ scalar, .scalar scalar ∈ schema.types.toList → scalar.LiteralNullFree)
    {env : Variables} {literal : Literal} {type : TypeRef} (hbound : literal.BoundBy env)
    (hfinite : literal.isFinite = true) (hnull : literal.isNull = false) {value : Json}
    (h : literal.valueWith schema default env type = .value value) : value ≠ .null := by
  have hread : ∀ definition inner, schema.namedType? type = some definition →
      definition.parseLiteral literal = some inner → inner ≠ .null := by
    intro definition inner hfind hinner
    have hscalar : ∀ scalar, definition = .scalar scalar → scalar.LiteralNullFree := by
      rintro scalar rfl
      exact hscalars scalar (Schema.mem_of_find? hfind)
    exact (Schema.conforms_of_parseLiteral hscalar hfind hinner hnull hfinite).2
  induction literal with
  | null => cases hnull
  | var name =>
    obtain ⟨bound, hlookup, hbound⟩ := hbound name (List.mem_singleton.2 rfl)
    obtain ⟨hvalue, _⟩ := valueWith_variable_eq_value_iff.1 h
    rw [hlookup] at hvalue
    cases hvalue
    rintro rfl
    cases hbound
  | plain literal hplain =>
    rw [valueWith_plain hplain] at h
    exact Schema.leafValue_ne_null hread h
  | list items _ =>
    cases hview : type.view with
    | list element =>
      rw [valueWith_list hview] at h
      obtain ⟨values, _, rfl⟩ := Outcome.map_eq_value_iff.1 h
      simp
    | named name =>
      rw [valueWith_list_leaf hview] at h
      exact Schema.leafValue_ne_null hread h
  | object fields _ =>
    by_cases hinput : ∃ inputType, schema.namedType? type = some (.inputObject inputType)
    · obtain ⟨inputType, hfind⟩ := hinput
      rw [valueWith_object hfind] at h
      obtain ⟨object, hobject, rfl⟩ := Outcome.map_eq_value_iff.1 h
      obtain ⟨entries, rfl, _⟩ := InputObjectType.objectValue_eq_value_iff.1 hobject
      intro hnest
      cases (Json.nest_eq_null_iff.1 hnest).2
    · rw [valueWith_object_leaf hinput] at h
      exact Schema.leafValue_ne_null hread h

/-- Null is not accepted where it is excluded. -/
theorem Literal.isNull_eq_false_of_accepted {schema : Schema} {literal : Literal} {type : TypeRef}
    (hrequired : type.isNonNull = true) (h : literal.problems schema type = []) :
    literal.isNull = false := by
  cases literal with
  | null =>
    have hnullable := Schema.nullLiteralProblems_eq_nil_iff.1 h
    rw [hrequired] at hnullable
    cases hnullable
  | _ => rfl

/-! ## §5. Schemas whose defaults have values. -/

namespace Schema

variable {schema : Schema}

/-- Every default of an input field has a value at the type of the field. -/
def DefaultsCoerce (schema : Schema) : Prop :=
  ∀ declared ∈ schema.defaults, ∃ value,
    schema.literalValue [] declared.1 declared.2 = .value value

theorem DefaultsCoerce.exists_defaultValue (h : schema.DefaultsCoerce) :
    ∀ declared ∈ schema.defaults, ∃ value,
      schema.defaultValue declared.1 declared.2 = .value value := by
  intro declared hmem
  obtain ⟨value, hvalue⟩ := h declared hmem
  exact ⟨value, (defaultValue_eq_literalValue hmem).trans hvalue⟩

theorem DefaultsCoerce.defaultsEnd (h : schema.DefaultsCoerce) : schema.DefaultsEnd := by
  intro declared hmem
  obtain ⟨value, hvalue⟩ := h declared hmem
  rw [hvalue]
  simp

end Schema

namespace Search

theorem defaultsCoerce : schema.DefaultsCoerce := by
  show ∀ declared ∈ [(TypeRef.nonNull (.named "Int"), Literal.int 1),
    (TypeRef.named "Order", Literal.enum "ASC")], _
  rw [List.forall_mem_cons, List.forall_mem_singleton]
  exact ⟨⟨.ofInt 1, rfl⟩, ⟨.string "ASC", rfl⟩⟩

/-- The literal of a filter, with a single text for a list of texts. -/
def filterLiteral : Literal :=
  .object [("range", .object [("from", .int 2)]), ("tags", .string "lean")]

/-- `{range: {from: $from}, tags: $tags, or: $or}`: variables for a number within an object, for a list and
for a filter. -/
def filterPattern : Literal :=
  .object [("range", .object [("from", .variable "from")]), ("tags", .variable "tags"),
    ("or", .variable "or")]

theorem mem_variables_filterPattern {name : String} :
    name ∈ filterPattern.variables ↔ name = "from" ∨ name = "tags" ∨ name = "or" := by
  simp [filterPattern, Literal.variables, Literal.fieldsVariables]

end Search

end GraphQLCheck
