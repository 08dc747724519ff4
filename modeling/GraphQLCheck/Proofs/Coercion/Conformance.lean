/-
  GraphQLCheck.Proofs.Coercion.Conformance
  ────────────────────────────────────────
  Every value that coercion yields is a value of its type.

  `Schema.Conforms` says what the values of a type are, without a word about how they are come by: null
  unless it is excluded, arrays of values of the element type, names of enum values, objects of declared
  fields, and for a scalar whatever the scalar reads.  That this holds of a value that is coerced is
  shown by induction on what it is coerced from; that it holds of defaults, by induction on how deep they
  are nested.

  An evaluation at a type uses no scalars and no defaults but those that the type leads to, so nothing need
  be known of others.  Each fact comes in two forms, about what a type leads to and about a whole schema.

  Main facts:
    * `Literal.conforms_of_reached`, `Json.conforms_of_reached` — one evaluation, given defaults
    * `Schema.conforms_of_reachedDefault` — all defaults
    * `Literal.conforms_of_valueWith`, `Json.conforms_of_coerceWith`, `Schema.conforms_of_default` — the
      same where all scalars and all defaults of a schema are known
-/
import GraphQLCheck.Proofs.Schema.Reached
import GraphQLCheck.Proofs.Schema.Scalars

namespace GraphQLCheck

/-! ## §1. Values of a type. -/

/-- Whether an object that coercion yields always has the field. -/
def InputDef.isAlwaysPresent (field : InputDef) : Bool :=
  field.type.isNonNull || field.defaultValue.isSome

/-- A field that an object leaves out does not exclude null and has no default, if the object has all
fields that are always there. -/
theorem InputDef.of_lookup_eq_none {field : InputDef} {entries : List (String × Json)}
    (hpresent : field.isAlwaysPresent = true → field.name ∈ entries.map Prod.fst)
    (hlookup : entries.lookup field.name = none) :
    field.type.isNonNull = false ∧ field.defaultValue = none := by
  have hnever : field.isAlwaysPresent = false := by
    rw [Bool.eq_false_iff]
    intro halways
    exact lookup_eq_none_iff_not_mem.1 hlookup (hpresent halways)
  unfold isAlwaysPresent at hnever
  rw [Bool.or_eq_false_iff, Option.isSome_eq_false_iff, Option.isNone_iff_eq_none] at hnever
  exact hnever

/-- What the values of a type are. -/
inductive Schema.Conforms (schema : Schema) : TypeRef → Json → Prop where
  /-- Null is a value of every type that does not exclude it. -/
  | null {type : TypeRef} : type.isNonNull = false → Conforms schema type .null
  | nonNull {inner : TypeRef} {value : Json} :
      value ≠ .null → Conforms schema inner value → Conforms schema (.nonNull inner) value
  | list {element : TypeRef} {items : List Json} :
      (∀ item ∈ items, Conforms schema element item) →
      Conforms schema (.list element) (.array items)
  | enum {name value : String} {type : EnumType} :
      schema.find? name = some (.enum type) → type.values.contains value = true →
      Conforms schema (.named name) (.string value)
  /-- The keys are declared, in the order of the declarations, and those of fields that exclude null or
  have a default are there. -/
  | inputObject {name : String} {type : InputObjectType} {entries : List (String × Json)} :
      schema.find? name = some (.inputObject type) →
      (entries.map Prod.fst).Sublist type.fields.names →
      (∀ field ∈ type.fields.toList, ∀ value, (field.name, value) ∈ entries →
        Conforms schema field.type value) →
      (∀ field ∈ type.fields.toList, field.isAlwaysPresent = true →
        field.name ∈ entries.map Prod.fst) →
      Conforms schema (.named name) (.object entries)
  | scalarValue {name : String} {type : ScalarType} {sent value : Json} :
      schema.find? name = some (.scalar type) → type.parseValue sent = some value →
      Conforms schema (.named name) value
  | scalarLiteral {name : String} {type : ScalarType} {literal : Literal} {value : Json} :
      schema.find? name = some (.scalar type) → type.parseLiteral literal = some value →
      Conforms schema (.named name) value

namespace Schema

variable {schema : Schema} {type : TypeRef} {value : Json}

/-- A value of the type inside all layers, within as many lists as there are, is a value of the type. -/
theorem conforms_nest (h : schema.Conforms (.named type.typeName) value) (hvalue : value ≠ .null) :
    schema.Conforms type (value.nest type.listDepth) := by
  induction type with
  | list element ih =>
    apply Conforms.list
    intro item hitem
    -- there is one item, and it has one layer less
    rw [List.mem_singleton.1 hitem]
    exact ih h
  | named name => exact h
  | nonNull inner ih =>
    apply Conforms.nonNull _ (ih h)
    intro hnull
    exact hvalue (Json.nest_eq_null_iff.1 hnull).2

theorem conforms_array {element : TypeRef} {items : List Json} (hview : type.view = .list element)
    (h : ∀ item ∈ items, schema.Conforms element item) : schema.Conforms type (.array items) := by
  induction type with
  | list inner ih =>
    cases hview
    exact .list h
  | named name => cases hview
  | nonNull inner ih => exact .nonNull (by simp) (ih hview)

/-- The members of an object make a value of its type if each is worth a value of its field's type. -/
theorem conforms_object {name : String} {inputType : InputObjectType}
    (hfind : schema.find? name = some (.inputObject inputType))
    {worth : InputDef → Option Json → Prop} {entries : List (String × Json)}
    (hmembers : Members worth inputType.fields.toList entries)
    (hpresent : ∀ field ∈ inputType.fields.toList, ∀ value, worth field (some value) →
      schema.Conforms field.type value)
    (habsent : ∀ field ∈ inputType.fields.toList, worth field none →
      field.isAlwaysPresent = false) :
    schema.Conforms (.named name) (.object entries) := by
  apply Conforms.inputObject hfind
  · exact hmembers.keys_sublist
  · intro field hfield value hentry
    exact hpresent field hfield value (hmembers.worth_of_mem inputType.fields.distinct hfield hentry)
  · intro field hfield halways
    apply Classical.byContradiction
    intro hmissing
    have hnever := habsent field hfield (hmembers.worth_of_not_mem hfield hmissing)
    rw [halways] at hnever
    cases hnever

/-! ## §2. Leaves. -/

/-- What a type reads a literal as is a value of the type other than null. -/
theorem conforms_of_parseLiteral {name : String} {definition : TypeDef} {literal : Literal}
    (hscalar : ∀ scalar, definition = .scalar scalar → scalar.LiteralNullFree)
    (hfind : schema.find? name = some definition) (hread : definition.parseLiteral literal = some value)
    (hnull : literal.isNull = false) (hfinite : literal.isFinite = true) :
    schema.Conforms (.named name) value ∧ value ≠ .null := by
  cases definition with
  | enum type =>
    cases literal with
    | enum chosen =>
      simp only [TypeDef.parseLiteral, EnumType.parseLiteral, Option.ite_none_right_eq_some,
        Option.some.injEq] at hread
      obtain ⟨hcontains, rfl⟩ := hread
      exact ⟨.enum hfind hcontains, by simp⟩
    | _ => cases hread
  | scalar type =>
    refine ⟨.scalarLiteral hfind hread, ?_⟩
    intro heq
    exact hscalar type rfl literal hnull hfinite (heq ▸ hread)
  | inputObject type => cases hread
  | interface type => cases hread
  | object type => cases hread
  | union type => cases hread

/-- What a type reads a runtime value as is a value of the type other than null. -/
theorem conforms_of_parseValue {name : String} {definition : TypeDef} {sent : Json}
    (hscalar : ∀ scalar, definition = .scalar scalar → scalar.ValueNullFree)
    (hfind : schema.find? name = some definition) (hread : definition.parseValue sent = some value)
    (hnull : sent.isNull = false) (hsized : sent.isSized = true) :
    schema.Conforms (.named name) value ∧ value ≠ .null := by
  cases definition with
  | enum type =>
    cases sent with
    | string chosen =>
      simp only [TypeDef.parseValue, EnumType.parseValue, Option.ite_none_right_eq_some,
        Option.some.injEq] at hread
      obtain ⟨hcontains, rfl⟩ := hread
      exact ⟨.enum hfind hcontains, by simp⟩
    | _ => cases hread
  | scalar type =>
    refine ⟨.scalarValue hfind hread, ?_⟩
    intro heq
    exact hscalar type rfl sent hnull hsized (heq ▸ hread)
  | inputObject type => cases hread
  | interface type => cases hread
  | object type => cases hread
  | union type => cases hread

/-- What is read as a leaf is a value of the type. -/
theorem conforms_of_leafValue {read : TypeDef → Option Json}
    (hread : ∀ definition inner, schema.namedType? type = some definition →
      read definition = some inner →
        schema.Conforms (.named type.typeName) inner ∧ inner ≠ .null)
    (h : schema.leafValue read type = .value value) : schema.Conforms type value := by
  obtain ⟨definition, inner, hfind, hinner, rfl⟩ := leafValue_eq_value_iff.1 h
  obtain ⟨hconforms, hne⟩ := hread definition inner hfind hinner
  exact conforms_nest hconforms hne

/-- A literal that is read as a leaf is a value of the type. -/
theorem conforms_of_literalLeaf {origin : TypeRef} {literal : Literal}
    (hscalars : schema.ReachedScalars origin ScalarType.LiteralNullFree)
    (hreach : schema.Reaches origin type) (hnull : literal.isNull = false)
    (hfinite : literal.isFinite = true)
    (h : schema.leafValue (·.parseLiteral literal) type = .value value) :
    schema.Conforms type value := by
  refine conforms_of_leafValue (fun definition inner hfind hinner => ?_) h
  refine conforms_of_parseLiteral (fun scalar hdefinition => ?_) hfind hinner hnull hfinite
  exact hscalars _ scalar hreach.typeName (hdefinition ▸ hfind)

/-- A runtime value that is read as a leaf is a value of the type. -/
theorem conforms_of_valueLeaf {origin : TypeRef} {sent : Json}
    (hscalars : schema.ReachedScalars origin ScalarType.ValueNullFree)
    (hreach : schema.Reaches origin type) (hnull : sent.isNull = false) (hsized : sent.isSized = true)
    (h : schema.leafValue (·.parseValue sent) type = .value value) : schema.Conforms type value := by
  refine conforms_of_leafValue (fun definition inner hfind hinner => ?_) h
  refine conforms_of_parseValue (fun scalar hdefinition => ?_) hfind hinner hnull hsized
  exact hscalars _ scalar hreach.typeName (hdefinition ▸ hfind)

/-! ## §3. Objects. -/

/-- An object whose given fields are values of their types is a value of its type, if its defaults are
values of theirs. -/
theorem conforms_of_objectValue {default : DefaultValue} {name : String}
    {inputType : InputObjectType} (hfind : schema.find? name = some (.inputObject inputType))
    (hdefaults : ∀ field ∈ inputType.fields.toList, ∀ literal, field.defaultValue = some literal →
      ∀ value, default field.type literal = .value value → schema.Conforms field.type value)
    {members : List (String × (TypeRef → Coerced))}
    (hgiven : ∀ field ∈ inputType.fields.toList, ∀ worth, members.lookup field.name = some worth →
      ∀ value, worth field.type = .value value → schema.Conforms field.type value)
    (h : inputType.objectValue default members = .value value) :
    schema.Conforms (.named name) value ∧ value ≠ .null := by
  obtain ⟨entries, rfl, hmembers⟩ := InputObjectType.objectValue_eq_value_iff.1 h
  refine ⟨conforms_object hfind hmembers ?_ ?_, by simp⟩
  · intro field hfield value hworth
    rcases InputDef.memberValue_eq_value_iff.1 hworth with
      ⟨worth, _, hlookup, hvalue, heq⟩ | ⟨literal, _, _, hliteral, hvalue, heq⟩ | ⟨_, _, _, heq⟩
    · cases heq
      exact hgiven field hfield worth hlookup value hvalue
    · cases heq
      exact hdefaults field hfield literal hliteral value hvalue
    · cases heq
  · intro field _ hworth
    rcases InputDef.memberValue_eq_value_iff.1 hworth with
      ⟨_, _, _, _, heq⟩ | ⟨_, _, _, _, _, heq⟩ | ⟨_, hdefault, hnullable, _⟩
    · cases heq
    · cases heq
    · unfold InputDef.isAlwaysPresent
      rw [hnullable, hdefault]
      rfl

end Schema

/-! ## §4. Literals and runtime values. -/

/-- A variable occurs in a literal that is read at a type: at the top, as an element of a list, or as a
declared field of an object.  The position where it stands has a type of its own. -/
inductive Literal.VariableAt (schema : Schema) (name : String) (position : TypeRef) :
    Literal → TypeRef → Prop where
  | top : VariableAt schema name position (.variable name) position
  | element {items : List Literal} {item : Literal} {type element : TypeRef} :
      type.view = .list element → item ∈ items → VariableAt schema name position item element →
      VariableAt schema name position (.list items) type
  | member {fields : List (String × Literal)} {value : Literal} {type : TypeRef}
      {inputType : InputObjectType} {field : InputDef} :
      schema.namedType? type = some (.inputObject inputType) → field ∈ inputType.fields.toList →
      (field.name, value) ∈ fields → VariableAt schema name position value field.type →
      VariableAt schema name position (.object fields) type

section Evaluations

variable {schema : Schema} {default : DefaultValue} {origin : TypeRef}

/-- The value of a finite literal is a value of the type, if the variables in it have values of the
types of their positions. -/
theorem Literal.conforms_of_reached
    (hdefaults : schema.ReachedDefaults origin fun type literal => ∀ value,
      default type literal = .value value → schema.Conforms type value)
    (hscalars : schema.ReachedScalars origin ScalarType.LiteralNullFree)
    {env : Variables} {literal : Literal} {type : TypeRef} (hreach : schema.Reaches origin type)
    (hfinite : literal.isFinite = true)
    (henv : ∀ name position, literal.VariableAt schema name position type →
      ∀ value, env.lookup name = some value → schema.Conforms position value)
    {value : Json} (h : literal.valueWith schema default env type = .value value) :
    schema.Conforms type value := by
  induction literal generalizing type value with
  | null =>
    obtain ⟨hnullable, rfl⟩ := TypeRef.nullValue_eq_value_iff.1 h
    exact .null hnullable
  | var name =>
    exact henv name type .top value (valueWith_variable_eq_value_iff.1 h).1
  | plain literal hplain =>
    rw [valueWith_plain hplain] at h
    have hnull : literal.isNull = false := by cases literal <;> first | rfl | cases hplain
    exact Schema.conforms_of_literalLeaf hscalars hreach hnull hfinite h
  | list items ih =>
    cases hview : type.view with
    | list element =>
      rw [valueWith_list hview] at h
      obtain ⟨values, hvalues, rfl⟩ := Outcome.map_eq_value_iff.1 h
      apply Schema.conforms_array hview
      have hitems : ∀ item ∈ items, ∀ value, item.itemValue schema default env element = .value value →
          schema.Conforms element value := by
        intro item hitem value hvalue
        unfold itemValue at hvalue
        split at hvalue
        next =>
          obtain ⟨hnullable, rfl⟩ := TypeRef.nullValue_eq_value_iff.1 hvalue
          exact .null hnullable
        next =>
          exact ih item hitem (hreach.element hview) (isFinite_list_iff.1 hfinite item hitem)
            (fun name position hat => henv name position (.element hview hitem hat)) hvalue
      exact Outcome.forall_mem_of_mapM hitems hvalues
    | named name =>
      rw [valueWith_list_leaf hview] at h
      exact Schema.conforms_of_literalLeaf hscalars hreach rfl hfinite h
  | object fields ih =>
    by_cases hinput : ∃ inputType, schema.namedType? type = some (.inputObject inputType)
    · obtain ⟨inputType, hfind⟩ := hinput
      rw [valueWith_object hfind] at h
      obtain ⟨object, hobject, rfl⟩ := Outcome.map_eq_value_iff.1 h
      have hgiven : ∀ field ∈ inputType.fields.toList, ∀ worth,
          (fieldValues schema default env fields).lookup field.name = some worth →
            ∀ value, worth field.type = .value value → schema.Conforms field.type value := by
        intro field hfield worth hlookup value hvalue
        rw [lookup_fieldValues] at hlookup
        obtain ⟨given, hgiven, rfl⟩ := Option.map_eq_some_iff.1 hlookup
        have hmem := (List.mem_filter.1 (mem_of_lookup hgiven)).1
        exact ih _ hmem (.member hreach.typeName hfind hfield) (isFinite_object_iff.1 hfinite _ hmem)
          (fun name position hat => henv name position (.member hfind hfield hmem hat)) hvalue
      obtain ⟨hconforms, hne⟩ := Schema.conforms_of_objectValue hfind
        (hdefaults _ inputType hreach.typeName hfind) hgiven hobject
      exact Schema.conforms_nest hconforms hne
    · rw [valueWith_object_leaf hinput] at h
      exact Schema.conforms_of_literalLeaf hscalars hreach rfl hfinite h

/-- The value of a runtime value is a value of the type. -/
theorem Json.conforms_of_reached
    (hdefaults : schema.ReachedDefaults origin fun type literal => ∀ value,
      default type literal = .value value → schema.Conforms type value)
    (hscalars : schema.ReachedScalars origin ScalarType.ValueNullFree)
    {sent : Json} {type : TypeRef} (hreach : schema.Reaches origin type) (hsized : sent.isSized = true)
    {value : Json}
    (h : sent.coerceWith schema default type = .value value) : schema.Conforms type value := by
  induction sent generalizing type value with
  | null =>
    obtain ⟨hnullable, rfl⟩ := TypeRef.nullValue_eq_value_iff.1 h
    exact .null hnullable
  | plain sent hplain =>
    rw [coerceWith_plain hplain] at h
    exact Schema.conforms_of_valueLeaf hscalars hreach (isNull_eq_false_of_isPlain hplain) hsized h
  | array items ih =>
    cases hview : type.view with
    | list element =>
      rw [coerceWith_array hview] at h
      obtain ⟨values, hvalues, rfl⟩ := Outcome.map_eq_value_iff.1 h
      apply Schema.conforms_array hview
      exact Outcome.forall_mem_of_mapM
        (fun item hitem _ hvalue =>
          ih item hitem (hreach.element hview) (isSized_array_iff.1 hsized item hitem) hvalue) hvalues
    | named name =>
      rw [coerceWith_array_leaf hview] at h
      exact Schema.conforms_of_valueLeaf hscalars hreach rfl hsized h
  | object entries ih =>
    by_cases hinput : ∃ inputType, schema.namedType? type = some (.inputObject inputType)
    · obtain ⟨inputType, hfind⟩ := hinput
      rw [coerceWith_object hfind] at h
      obtain ⟨object, hobject, rfl⟩ := Outcome.map_eq_value_iff.1 h
      have hgiven : ∀ field ∈ inputType.fields.toList, ∀ worth,
          (coerceEntries schema default entries).lookup field.name = some worth →
            ∀ value, worth field.type = .value value → schema.Conforms field.type value := by
        intro field hfield worth hlookup value hvalue
        rw [lookup_coerceEntries] at hlookup
        obtain ⟨given, hgiven, rfl⟩ := Option.map_eq_some_iff.1 hlookup
        have hmem := mem_of_lookup hgiven
        exact ih _ hmem (.member hreach.typeName hfind hfield) (isSized_object_iff.1 hsized _ hmem) hvalue
      obtain ⟨hconforms, hne⟩ := Schema.conforms_of_objectValue hfind
        (hdefaults _ inputType hreach.typeName hfind) hgiven hobject
      exact Schema.conforms_nest hconforms hne
    · rw [coerceWith_object_leaf hinput] at h
      exact Schema.conforms_of_valueLeaf hscalars hreach rfl hsized h

/-! What is known of all defaults and all scalars is known of those that a type leads to. -/

variable (hdefaults : ∀ declared ∈ schema.defaults, ∀ value,
    default declared.1 declared.2 = .value value → schema.Conforms declared.1 value)

include hdefaults

theorem Literal.conforms_of_valueWith
    (hscalars : ∀ scalar, .scalar scalar ∈ schema.types.toList → scalar.LiteralNullFree)
    {env : Variables} {literal : Literal} {type : TypeRef} (hfinite : literal.isFinite = true)
    (henv : ∀ name position, literal.VariableAt schema name position type →
      ∀ value, env.lookup name = some value → schema.Conforms position value)
    {value : Json} (h : literal.valueWith schema default env type = .value value) :
    schema.Conforms type value :=
  conforms_of_reached (Schema.reachedDefaults_of_forall hdefaults)
    (Schema.reachedScalars_of_forall hscalars) .here hfinite henv h

theorem Json.conforms_of_coerceWith
    (hscalars : ∀ scalar, .scalar scalar ∈ schema.types.toList → scalar.ValueNullFree)
    {sent : Json} {type : TypeRef} (hsized : sent.isSized = true) {value : Json}
    (h : sent.coerceWith schema default type = .value value) : schema.Conforms type value :=
  conforms_of_reached (Schema.reachedDefaults_of_forall hdefaults)
    (Schema.reachedScalars_of_forall hscalars) .here hsized h

end Evaluations

/-! ## §5. Built schemas. -/

namespace Schema

variable {schema : Schema}

/-- Every number in a default of an input field is finite. -/
def FiniteDefaults (schema : Schema) : Prop :=
  ∀ declared ∈ schema.defaults, declared.2.isFinite = true

/-- The defaults that a type leads to are values of the types of their fields, however deep others are
nested in them. -/
theorem conforms_of_reachedDefault {origin : TypeRef}
    (hscalars : schema.ReachedScalars origin ScalarType.LiteralNullFree)
    (hfinite : schema.FiniteDefaults) (depth : Nat) :
    schema.ReachedDefaults origin fun type literal => ∀ value,
      schema.evaluateWithin depth type literal = .value value → schema.Conforms type value := by
  induction depth with
  | zero =>
    intro _ _ _ _ _ _ _ _ value h
    cases h
  | succ depth ih =>
    intro name type hreach hfind field hfield literal hliteral value h
    have hfinite' := hfinite _ (mem_defaults hfind hfield hliteral)
    apply Literal.conforms_of_reached ih hscalars (.member hreach hfind hfield) hfinite' _ h
    -- no variable has a value in a default
    intro name position _ value hlookup
    cases hlookup

/-- All defaults are values of the types of their fields. -/
theorem conforms_of_default
    (hscalars : ∀ scalar, .scalar scalar ∈ schema.types.toList → scalar.LiteralNullFree)
    (hfinite : schema.FiniteDefaults) (depth : Nat) :
    ∀ declared ∈ schema.defaults, ∀ value,
      schema.evaluateWithin depth declared.1 declared.2 = .value value →
        schema.Conforms declared.1 value := by
  rintro ⟨fieldType, literal⟩ hdeclared
  obtain ⟨name, type, field, hfind, hfield, hliteral, rfl⟩ := exists_of_mem_defaults hdeclared
  exact conforms_of_reachedDefault (reachedScalars_of_forall hscalars) hfinite depth name type .here
    hfind field hfield literal hliteral

end Schema

/-- **Every value that coercion yields is a value of its type.**  In a built schema whose custom scalars
make null out of nothing but null, and whose defaults are finite, this holds of every runtime value with
integers of 64 bits, and of every finite literal in which variables have no values but those of the types
of their positions. -/
theorem coercion_yields_values_of_type {schema : Schema} (hbuilt : schema.Built)
    (hcustom : schema.CustomScalars ScalarType.NullFree) (hfinite : schema.FiniteDefaults) :
    (∀ (type : TypeRef) (sent value : Json), sent.isSized = true →
      schema.coerceValue type sent = .value value → schema.Conforms type value) ∧
    (∀ (type : TypeRef) (literal : Literal) (env : Variables), literal.isFinite = true →
      (∀ name position, literal.VariableAt schema name position type →
        ∀ value, env.lookup name = some value → schema.Conforms position value) →
      ∀ value, schema.literalValue env type literal = .value value →
        schema.Conforms type value) := by
  have hscalars := hbuilt.forall_scalar (fun _ => ScalarType.nullFree_of_builtin) hcustom
  have hdefaults := Schema.conforms_of_default (fun scalar hmem => (hscalars scalar hmem).1) hfinite
    schema.defaultCount
  constructor
  · intro type sent value hsized h
    exact Json.conforms_of_coerceWith hdefaults (fun scalar hmem => (hscalars scalar hmem).2) hsized h
  · intro type literal env hliteral henv value h
    exact Literal.conforms_of_valueWith hdefaults (fun scalar hmem => (hscalars scalar hmem).1)
      hliteral henv h

namespace Search

theorem finiteDefaults : schema.FiniteDefaults := by
  unfold Schema.FiniteDefaults
  decide

/-- A single text for a list, an object within an object, a default within it, a variable for a text. -/
theorem filter_yields_value_of_type :
    (schema.coerceValue (.nonNull (.named "Filter"))
        (.object [("range", .object [("to", .ofInt 7)]), ("tags", .string "lean")]) =
      .value (.object [("tags", .array [.string "lean"]), ("order", .string "ASC"),
        ("range", .object [("from", .ofInt 1), ("to", .ofInt 7)])]) ∧
    schema.Conforms (.nonNull (.named "Filter"))
      (.object [("tags", .array [.string "lean"]), ("order", .string "ASC"),
        ("range", .object [("from", .ofInt 1), ("to", .ofInt 7)])])) ∧
    (schema.literalValue [("tag", .string "lean")] (.list (.nonNull (.named "String")))
        (.list [.variable "tag", .string "proof"]) =
      .value (.array [.string "lean", .string "proof"]) ∧
    schema.Conforms (.list (.nonNull (.named "String")))
      (.array [.string "lean", .string "proof"])) := by
  have hcustom := customScalars (ScalarType.nullFree_of_anyScalar rfl)
  have hsound := coercion_yields_values_of_type built hcustom finiteDefaults
  refine ⟨⟨rfl, hsound.1 _ (.object [("range", .object [("to", .ofInt 7)]), ("tags", .string "lean")])
    _ rfl rfl⟩, ⟨rfl, hsound.2 _ (.list [.variable "tag", .string "proof"])
    [("tag", .string "lean")] rfl ?_ _ rfl⟩⟩
  intro name position hat value hlookup
  cases hat with
  | element hview hitem hat =>
    cases hview
    rcases List.mem_cons.1 hitem with rfl | hitem
    · cases hat
      cases hlookup
      have hread : (⟨"String", none, stringScalar⟩ : ScalarType).parseValue (.string "lean") =
        some (.string "lean") := rfl
      exact .nonNull (by simp) (.scalarValue rfl hread)
    · rw [List.mem_singleton.1 hitem] at hat
      cases hat

end Search

end GraphQLCheck
