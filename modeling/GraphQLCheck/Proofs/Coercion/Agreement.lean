/-
  GraphQLCheck.Proofs.Coercion.Agreement
  ──────────────────────────────────────
  How far checks and evaluations agree.

  A check finds what is wrong with a value at a type, and an evaluation what the value is worth there.
  What is accepted has a value.  What has a value is accepted too, unless it holds an object that the
  check looks at more closely: the evaluation leaves a field out that is not declared, and gives an
  omitted field its default, while the check refuses the first and takes the second for null.  So an
  object is refused without a field whose type excludes null, even if the field has a default.

  Main facts:
    * `accepted_literal_has_value`   — an accepted literal has a value
    * `accepted_input_has_value`     — so has an accepted input, and a variable with one is never refused
                                       without a problem to show for it
    * `accepted_iff_required_given`  — what has a value is accepted exactly if its objects give the
                                       fields that exclude null
-/
import GraphQLCheck.Proofs.Coercion.Acceptance
import GraphQLCheck.Proofs.Coercion.Variables

namespace GraphQLCheck

/-! ## §1. The objects within a value. -/

namespace InputObjectType

/-- Every field that is given is declared. -/
def Declares (type : InputObjectType) (entries : List (String × α)) : Prop :=
  ∀ entry ∈ entries, type.fields.contains entry.1 = true

/-- Every field that excludes null is given, though it has a default. -/
def GivesRequired (type : InputObjectType) (entries : List (String × α)) : Prop :=
  ∀ field ∈ type.fields.toList, field.type.isNonNull = true → field.defaultValue.isSome = true →
    (entries.lookup field.name).isSome = true

variable {β : Type} {type : InputObjectType} {entries : List (String × β)}

/-- If no field may be omitted that excludes null, those with a default are given. -/
theorem GivesRequired.of_omitted
    (h : ∀ field ∈ type.fields.toList, entries.lookup field.name = none →
      field.type.isNonNull = false) : type.GivesRequired entries := by
  intro field hfield hrequired _
  cases hlookup : entries.lookup field.name with
  | some value => rfl
  | none =>
    rw [h field hfield hlookup] at hrequired
    cases hrequired

section Parts

variable {default : DefaultValue} {worth : β → TypeRef → Coerced}
  {members : List (String × (TypeRef → Coerced))}
  (hmembers : ∀ name, members.lookup name = (entries.lookup name).map worth)
  {value : Json} (hvalue : type.objectValue default members = .value value)

include hmembers hvalue

/-- An object has a value only if what it gives has. -/
theorem exists_worth_of_objectValue {field : InputDef} (hfield : field ∈ type.fields.toList) {given : β}
    (hlookup : entries.lookup field.name = some given) :
    ∃ value, worth given field.type = .value value := by
  obtain ⟨_, _, hparts⟩ := objectValue_eq_value_iff.1 hvalue
  obtain ⟨_, hmember⟩ := hparts.exists_worth hfield
  rw [hmembers, hlookup] at hmember
  obtain ⟨value, hworth, _⟩ := Outcome.map_eq_value_iff.1 hmember
  exact ⟨value, hworth⟩

/-- A field that an object with a value omits may be null, if those are given that may not. -/
theorem GivesRequired.isNonNull_eq_false (hrequired : type.GivesRequired entries) {field : InputDef}
    (hfield : field ∈ type.fields.toList) (hlookup : entries.lookup field.name = none) :
    field.type.isNonNull = false := by
  obtain ⟨_, _, hparts⟩ := objectValue_eq_value_iff.1 hvalue
  obtain ⟨_, hmember⟩ := hparts.exists_worth hfield
  rw [hmembers, hlookup] at hmember
  rcases InputDef.memberValue_eq_value_iff.1 hmember with
    ⟨_, _, hgiven, _⟩ | ⟨literal, _, _, hliteral, _⟩ | ⟨_, _, hnullable, _⟩
  · cases hgiven
  · -- its value is its default, so it is one of those that are given
    cases hnonNull : field.type.isNonNull with
    | false => rfl
    | true =>
      have hgiven := hrequired field hfield hnonNull (by rw [hliteral]; rfl)
      rw [hlookup] at hgiven
      cases hgiven
  · exact hnullable

end Parts

end InputObjectType

/-- An object within a runtime value that is read at a type is read as an input object itself: as the
whole value, within an element of a list, or within a declared field of another such object. -/
inductive Json.ObjectAt (schema : Schema) (inputType : InputObjectType)
    (entries : List (String × Json)) : Json → TypeRef → Prop where
  | here {type : TypeRef} : schema.namedType? type = some (.inputObject inputType) →
      ObjectAt schema inputType entries (.object entries) type
  | element {items : List Json} {item : Json} {type element : TypeRef} :
      type.view = .list element → item ∈ items → ObjectAt schema inputType entries item element →
      ObjectAt schema inputType entries (.array items) type
  | member {outer : List (String × Json)} {value : Json} {type : TypeRef}
      {outerType : InputObjectType} {field : InputDef} :
      schema.namedType? type = some (.inputObject outerType) → field ∈ outerType.fields.toList →
      outer.lookup field.name = some value → ObjectAt schema inputType entries value field.type →
      ObjectAt schema inputType entries (.object outer) type

/-- An object within a literal that is read at a type is read as an input object itself. -/
inductive Literal.ObjectAt (schema : Schema) (inputType : InputObjectType)
    (fields : List (String × Literal)) : Literal → TypeRef → Prop where
  | here {type : TypeRef} : schema.namedType? type = some (.inputObject inputType) →
      ObjectAt schema inputType fields (.object fields) type
  | element {items : List Literal} {item : Literal} {type element : TypeRef} :
      type.view = .list element → item ∈ items → ObjectAt schema inputType fields item element →
      ObjectAt schema inputType fields (.list items) type
  | member {outer : List (String × Literal)} {value : Literal} {type : TypeRef}
      {outerType : InputObjectType} {field : InputDef} :
      schema.namedType? type = some (.inputObject outerType) → field ∈ outerType.fields.toList →
      outer.lookup field.name = some value → ObjectAt schema inputType fields value field.type →
      ObjectAt schema inputType fields (.object outer) type

/-- What holds of every object within a runtime value that is read as an input object. -/
def Json.EveryObject (schema : Schema) (P : InputObjectType → List (String × Json) → Prop)
    (value : Json) (type : TypeRef) : Prop :=
  ∀ inputType entries, value.ObjectAt schema inputType entries type → P inputType entries

/-- What holds of every object within a literal that is read as an input object. -/
def Literal.EveryObject (schema : Schema) (P : InputObjectType → List (String × Literal) → Prop)
    (literal : Literal) (type : TypeRef) : Prop :=
  ∀ inputType fields, literal.ObjectAt schema inputType fields type → P inputType fields

namespace Json.EveryObject

variable {schema : Schema} {P : InputObjectType → List (String × Json) → Prop} {type : TypeRef}

theorem item {items : List Json} (h : (Json.array items).EveryObject schema P type)
    {element : TypeRef} (hview : type.view = .list element) {item : Json} (hitem : item ∈ items) :
    item.EveryObject schema P element :=
  fun _ _ hat => h _ _ (.element hview hitem hat)

theorem member {entries : List (String × Json)} (h : (Json.object entries).EveryObject schema P type)
    {inputType : InputObjectType} (hfind : schema.namedType? type = some (.inputObject inputType))
    {field : InputDef} (hfield : field ∈ inputType.fields.toList) {value : Json}
    (hlookup : entries.lookup field.name = some value) : value.EveryObject schema P field.type :=
  fun _ _ hat => h _ _ (.member hfind hfield hlookup hat)

end Json.EveryObject

namespace Literal.EveryObject

variable {schema : Schema} {P : InputObjectType → List (String × Literal) → Prop} {type : TypeRef}

theorem item {items : List Literal} (h : (Literal.list items).EveryObject schema P type)
    {element : TypeRef} (hview : type.view = .list element) {item : Literal} (hitem : item ∈ items) :
    item.EveryObject schema P element :=
  fun _ _ hat => h _ _ (.element hview hitem hat)

theorem member {fields : List (String × Literal)}
    (h : (Literal.object fields).EveryObject schema P type) {inputType : InputObjectType}
    (hfind : schema.namedType? type = some (.inputObject inputType)) {field : InputDef}
    (hfield : field ∈ inputType.fields.toList) {value : Literal}
    (hlookup : fields.lookup field.name = some value) : value.EveryObject schema P field.type :=
  fun _ _ hat => h _ _ (.member hfind hfield hlookup hat)

end Literal.EveryObject

/-! ## §2. What is accepted. -/

section Accepted

variable {schema : Schema} {inputType : InputObjectType} {type : TypeRef}

/-- The objects within an accepted runtime value have declared fields only, and all that exclude null. -/
theorem Json.ObjectAt.accepted {value : Json} {entries : List (String × Json)}
    (hat : value.ObjectAt schema inputType entries type) (h : value.problems schema type = []) :
    inputType.Declares entries ∧ inputType.GivesRequired entries := by
  induction hat with
  | here hfind =>
    obtain ⟨hknown, _, homitted⟩ := (Json.problems_object_eq_nil_iff hfind).1 h
    exact ⟨hknown, .of_omitted homitted⟩
  | element hview hitem _ ih =>
    rw [Json.problems_array hview, Problem.inElements_eq_nil_iff, List.forall_mem_map] at h
    exact ih (h _ hitem)
  | member hfind hfield hlookup _ ih =>
    obtain ⟨_, hgiven, _⟩ := (Json.problems_object_eq_nil_iff hfind).1 h
    exact ih (hgiven _ hfield _ hlookup)

/-- The objects within an accepted literal have declared fields only, and all that exclude null. -/
theorem Literal.ObjectAt.accepted {literal : Literal} {fields : List (String × Literal)}
    (hat : literal.ObjectAt schema inputType fields type) (h : literal.problems schema type = []) :
    inputType.Declares fields ∧ inputType.GivesRequired fields := by
  induction hat with
  | here hfind =>
    obtain ⟨hknown, _, homitted⟩ := (Literal.problems_object_eq_nil_iff hfind).1 h
    exact ⟨hknown, .of_omitted homitted⟩
  | element hview hitem _ ih =>
    rw [Literal.problems_list hview, Problem.inElements_eq_nil_iff, List.forall_mem_map] at h
    exact ih (h _ hitem)
  | member hfind hfield hlookup _ ih =>
    obtain ⟨_, hgiven, _⟩ := (Literal.problems_object_eq_nil_iff hfind).1 h
    exact ih (hgiven _ hfield _ hlookup)

end Accepted

/-! ## §3. What has a value. -/

/-- What is worth something as a leaf is accepted, since the type reads it. -/
theorem Schema.leafProblems_eq_nil_of_leafValue {schema : Schema} {read : TypeDef → Option Json}
    (hread : ∀ inputType, read (.inputObject inputType) = none) {found : α} {type : TypeRef}
    {value : Json} (h : schema.leafValue read type = .value value) :
    schema.leafProblems read found type.typeName = [] := by
  obtain ⟨definition, inner, hfind, hinner, _⟩ := leafValue_eq_value_iff.1 h
  refine leafProblems_eq_nil_iff.2 ⟨definition, hfind, by rw [hinner]; rfl, ?_⟩
  rintro inputType rfl
  rw [hread] at hinner
  cases hinner

section Valued

variable {schema : Schema} {default : DefaultValue}

/-- **A runtime value that has a value is accepted**, if the objects within it have declared fields only
and all that exclude null. -/
theorem Json.problems_eq_nil_of_value {sent : Json} {type : TypeRef}
    (hdeclared : sent.EveryObject schema InputObjectType.Declares type)
    (hrequired : sent.EveryObject schema InputObjectType.GivesRequired type) {value : Json}
    (h : sent.coerceWith schema default type = .value value) : sent.problems schema type = [] := by
  induction sent generalizing type value with
  | null =>
    obtain ⟨hnullable, _⟩ := TypeRef.nullValue_eq_value_iff.1 h
    exact nullValueProblems_eq_nil_iff.2 hnullable
  | plain sent hplain =>
    rw [coerceWith_plain hplain] at h
    rw [problems_plain hplain]
    exact Schema.leafProblems_eq_nil_of_leafValue (fun _ => rfl) h
  | array items ih =>
    cases hview : type.view with
    | list element =>
      rw [coerceWith_array hview] at h
      obtain ⟨values, hvalues, _⟩ := Outcome.map_eq_value_iff.1 h
      rw [problems_array hview, Problem.inElements_eq_nil_iff, List.forall_mem_map]
      intro item hitem
      obtain ⟨_, hvalue⟩ := Outcome.exists_of_mapM hvalues item hitem
      exact ih item hitem (hdeclared.item hview hitem) (hrequired.item hview hitem) hvalue
    | named name =>
      rw [coerceWith_array_leaf hview] at h
      rw [problems_array_leaf hview]
      exact Schema.leafProblems_eq_nil_of_leafValue (fun _ => rfl) h
  | object entries ih =>
    by_cases hinput : ∃ inputType, schema.namedType? type = some (.inputObject inputType)
    · obtain ⟨inputType, hfind⟩ := hinput
      rw [coerceWith_object hfind] at h
      obtain ⟨object, hobject, _⟩ := Outcome.map_eq_value_iff.1 h
      have hlookups := @lookup_coerceEntries schema default entries
      refine (problems_object_eq_nil_iff hfind).2 ⟨hdeclared _ _ (.here hfind), ?_, ?_⟩
      · intro field hfield given hlookup
        obtain ⟨_, hvalue⟩ :=
          InputObjectType.exists_worth_of_objectValue hlookups hobject hfield hlookup
        exact ih _ (mem_of_lookup hlookup) (hdeclared.member hfind hfield hlookup)
          (hrequired.member hfind hfield hlookup) hvalue
      · -- an omitted field is checked as null, whatever its default
        intro field hfield hlookup
        exact (hrequired _ _ (.here hfind)).isNonNull_eq_false hlookups hobject hfield hlookup
    · rw [coerceWith_object_leaf hinput] at h
      rw [problems_object_leaf hinput]
      exact Schema.leafProblems_eq_nil_of_leafValue (fun _ => rfl) h

/-- **A literal that has a value is accepted**, if the objects within it have declared fields only and
all that exclude null, and every variable has a value. -/
theorem Literal.problems_eq_nil_of_value {env : Variables} {literal : Literal} {type : TypeRef}
    (hbound : literal.BoundBy env)
    (hdeclared : literal.EveryObject schema InputObjectType.Declares type)
    (hrequired : literal.EveryObject schema InputObjectType.GivesRequired type) {value : Json}
    (h : literal.valueWith schema default env type = .value value) :
    literal.problems schema type = [] := by
  induction literal generalizing type value with
  | null =>
    obtain ⟨hnullable, _⟩ := TypeRef.nullValue_eq_value_iff.1 h
    exact Schema.nullLiteralProblems_eq_nil_iff.2 hnullable
  | var name => rfl
  | plain literal hplain =>
    rw [valueWith_plain hplain] at h
    rw [problems_plain hplain]
    exact Schema.leafProblems_eq_nil_of_leafValue (fun _ => rfl) h
  | list items ih =>
    cases hview : type.view with
    | list element =>
      rw [valueWith_list hview] at h
      obtain ⟨values, hvalues, _⟩ := Outcome.map_eq_value_iff.1 h
      rw [problems_list hview, Problem.inElements_eq_nil_iff, List.forall_mem_map]
      intro item hitem
      obtain ⟨_, hvalue⟩ := Outcome.exists_of_mapM hvalues item hitem
      -- an item that is a variable has a value, so it was not taken for null
      unfold itemValue at hvalue
      rw [(hbound.item hitem).isUnbound] at hvalue
      exact ih item hitem (hbound.item hitem) (hdeclared.item hview hitem)
        (hrequired.item hview hitem) hvalue
    | named name =>
      rw [valueWith_list_leaf hview] at h
      rw [problems_list_leaf hview]
      exact Schema.leafProblems_eq_nil_of_leafValue (fun _ => rfl) h
  | object fields ih =>
    by_cases hinput : ∃ inputType, schema.namedType? type = some (.inputObject inputType)
    · obtain ⟨inputType, hfind⟩ := hinput
      rw [valueWith_object hfind] at h
      obtain ⟨object, hobject, _⟩ := Outcome.map_eq_value_iff.1 h
      have hlookups := @lookup_fieldValues_of_boundBy schema default env fields hbound
      refine (problems_object_eq_nil_iff hfind).2 ⟨hdeclared _ _ (.here hfind), ?_, ?_⟩
      · intro field hfield given hlookup
        have hmem := mem_of_lookup hlookup
        obtain ⟨_, hvalue⟩ :=
          InputObjectType.exists_worth_of_objectValue hlookups hobject hfield hlookup
        exact ih _ hmem (hbound.field hmem) (hdeclared.member hfind hfield hlookup)
          (hrequired.member hfind hfield hlookup) hvalue
      · -- an omitted field is checked as null, whatever its default
        intro field hfield hlookup
        exact (hrequired _ _ (.here hfind)).isNonNull_eq_false hlookups hobject hfield hlookup
    · rw [valueWith_object_leaf hinput] at h
      rw [problems_object_leaf hinput]
      exact Schema.leafProblems_eq_nil_of_leafValue (fun _ => rfl) h

end Valued

/-! ## §4. Variables that are refused. -/

section Variables

variable {schema : Schema} {inputs : Variables}

/-- An input that is refused has a problem to show for it. -/
theorem VariableDefinition.resolveInput_ne_unexplained (hdefaults : schema.DefaultsCoerce)
    {definition : VariableDefinition} {input : Json} {name typeName : String} :
    definition.resolveInput schema input ≠ .failure (.invalidVariable name typeName (.problems [])) := by
  unfold resolveInput
  simp only []
  split
  next =>
    -- null is refused as a missing value, if at all
    split <;> simp [missing]
  next =>
    split
    next hnone =>
      obtain ⟨value, hvalue⟩ := Json.exists_value_of_accepted hdefaults.exists_defaultValue hnone
      unfold Schema.coerceValue
      rw [hvalue]
      simp [Outcome.mapFailure]
    next problems hsome =>
      simp only [invalid, ne_eq, Outcome.failure.injEq, CoercionError.invalidVariable.injEq,
        ValueFault.problems.injEq, not_and]
      intro _ _ hnone
      exact hsome hnone

theorem VariableDefinition.resolve_ne_unexplained (hdefaults : schema.DefaultsCoerce)
    {definition : VariableDefinition} {name typeName : String} :
    definition.resolve schema inputs ≠ .failure (.invalidVariable name typeName (.problems [])) := by
  unfold resolve
  split
  next error herror =>
    -- a variable of no input type is refused with an error of another kind
    rintro ⟨⟩
    unfold inputTypeError? at herror
    simp only [] at herror
    split at herror
    · cases herror
    · split at herror <;> cases herror
  next =>
    split
    next input _ =>
      rw [ne_eq, Outcome.map_eq_failure_iff]
      exact resolveInput_ne_unexplained hdefaults
    next =>
      unfold resolveOmitted
      split
      next default _ =>
        rw [ne_eq, Outcome.map_eq_failure_iff, Outcome.mapFailure_eq_failure_iff]
        simp [invalid]
      next => split <;> simp [missing]

end Variables

/-! ## §5. Checks and evaluations. -/

/-- **An accepted literal has a value.**  If every default of an input field has one, and every variable in
the literal has one that is not null, a literal without a problem at a type has a value there. -/
theorem accepted_literal_has_value {schema : Schema} (hdefaults : schema.DefaultsCoerce)
    (type : TypeRef) (literal : Literal) (env : Variables) (hbound : literal.BoundBy env)
    (haccepted : literal.problems schema type = []) :
    ∃ value, schema.literalValue env type literal = .value value :=
  Literal.exists_value_of_accepted hdefaults.exists_defaultValue hbound haccepted

namespace Search

/-- The variables of a filter need values, but none of the types of their positions. -/
theorem filterPattern_has_value :
    ∃ value, schema.literalValue
      [("from", .ofInt 2), ("tags", .array [.string "lean"]), ("or", .bool true)]
      (.nonNull (.named "Filter")) filterPattern = .value value := by
  apply accepted_literal_has_value defaultsCoerce _ _ _ _ rfl
  intro name hmem
  rcases mem_variables_filterPattern.1 hmem with rfl | rfl | rfl
  · exact ⟨.ofInt 2, rfl, rfl⟩
  · exact ⟨.array [.string "lean"], rfl, rfl⟩
  · exact ⟨.bool true, rfl, rfl⟩

end Search

/-- **An accepted input has a value.**  If every default of an input field has one, a runtime value without a
problem at a type has a value there.  So the variables of an operation are never refused because of an input
that has no problem. -/
theorem accepted_input_has_value {schema : Schema} (hdefaults : schema.DefaultsCoerce) :
    (∀ (type : TypeRef) (sent : Json), sent.problems schema type = [] →
      ∃ value, schema.coerceValue type sent = .value value) ∧
    ∀ (operation : Operation) (inputs : Variables) (name typeName : String),
      schema.coerceVariables operation inputs ≠
        .failure (.invalidVariable name typeName (.problems [])) := by
  constructor
  · intro type sent haccepted
    exact Json.exists_value_of_accepted hdefaults.exists_defaultValue haccepted
  · intro operation inputs name typeName h
    obtain ⟨definition, _, hfailure⟩ := Schema.exists_of_coerceDefinitions_failure h
    exact VariableDefinition.resolve_ne_unexplained hdefaults hfailure

namespace Search

/-- A filter with a single text for a list of texts has a value; one whose range is not given in full is
refused, but not without a problem. -/
theorem filter_input_has_value :
    (∃ value, schema.coerceValue (.nonNull (.named "Filter"))
      (.object [("range", .object [("from", .ofInt 2)]), ("tags", .string "lean")]) =
        .value value) ∧
    schema.coerceVariables
      ⟨.query, none, [⟨"filter", .nonNull (.named "Filter"), none, ⟨1, 8⟩⟩], ⟨[], ⟨1, 27⟩⟩, ⟨1, 1⟩⟩
      [("filter", .object [("range", .object [])])] ≠
        .failure (.invalidVariable "filter" "Filter" (.problems [])) := by
  obtain ⟨hvalue, hexplained⟩ := accepted_input_has_value defaultsCoerce
  exact ⟨hvalue _ _ rfl, hexplained _ _ _ _⟩

end Search

/-- **What has a value is accepted exactly if its objects give the fields that exclude null.**  A runtime value
that has a value at a type, and only declared fields in its input objects, has no problem there exactly if none
of these objects omits a field that excludes null and has a default.  The same holds of a literal without
variables. -/
theorem accepted_iff_required_given {schema : Schema} :
    (∀ (type : TypeRef) (sent value : Json), schema.coerceValue type sent = .value value →
      sent.EveryObject schema InputObjectType.Declares type →
      (sent.problems schema type = [] ↔
        sent.EveryObject schema InputObjectType.GivesRequired type)) ∧
    (∀ (type : TypeRef) (literal : Literal) (value : Json), literal.variables = [] →
      schema.literalValue [] type literal = .value value →
      literal.EveryObject schema InputObjectType.Declares type →
      (literal.problems schema type = [] ↔
        literal.EveryObject schema InputObjectType.GivesRequired type)) := by
  constructor
  · intro type sent value hvalue hdeclared
    constructor
    · intro haccepted inputType entries hat
      exact (hat.accepted haccepted).2
    · intro hrequired
      exact Json.problems_eq_nil_of_value hdeclared hrequired hvalue
  · intro type literal value hclosed hvalue hdeclared
    constructor
    · intro haccepted inputType fields hat
      exact (hat.accepted haccepted).2
    · intro hrequired
      exact Literal.problems_eq_nil_of_value (.of_closed hclosed) hdeclared hrequired hvalue

namespace Search

theorem declares_empty_range :
    (Json.object []).EveryObject schema InputObjectType.Declares (.named "Range") ∧
    (Literal.object []).EveryObject schema InputObjectType.Declares (.named "Range") := by
  constructor
  · intro inputType entries hat
    cases hat with
    | here _ =>
      intro entry hentry
      cases hentry
    | member _ _ hlookup _ => cases hlookup
  · intro inputType fields hat
    cases hat with
    | here _ =>
      intro field hfield
      cases hfield
    | member _ _ hlookup _ => cases hlookup

/-- A range without a lower end does not give it, though it has a default; a filter that omits its order,
which has a default too, gives all that it must. -/
theorem filter_accepted_range_refused :
    ((Json.object []).problems schema (.named "Range") ≠ [] ∧
      ¬ (Json.object []).EveryObject schema InputObjectType.GivesRequired (.named "Range")) ∧
    (filterLiteral.problems schema (.nonNull (.named "Filter")) = [] ∧
      filterLiteral.EveryObject schema InputObjectType.GivesRequired
        (.nonNull (.named "Filter"))) := by
  obtain ⟨hinput, hliteral⟩ := @accepted_iff_required_given schema
  constructor
  · have hiff := hinput (.named "Range") (.object []) (.object [("from", .ofInt 1)]) rfl
      declares_empty_range.1
    exact ⟨List.cons_ne_nil _ _, fun hgives => List.cons_ne_nil _ _ (hiff.2 hgives)⟩
  · have hdeclared : filterLiteral.EveryObject schema InputObjectType.Declares
        (.nonNull (.named "Filter")) := fun _ _ hat => (hat.accepted rfl).1
    have hiff := hliteral (.nonNull (.named "Filter")) filterLiteral _ rfl rfl hdeclared
    exact ⟨rfl, hiff.1 rfl⟩

/-- A range without a lower end takes it from the default, both as an input and as a literal, and is
refused nevertheless, for null where null is excluded. -/
theorem range_coerces_but_refused :
    schema.Built ∧ schema.DefaultsCoerce ∧
    ((Json.object []).EveryObject schema InputObjectType.Declares (.named "Range") ∧
      schema.coerceValue (.named "Range") (.object []) = .value (.object [("from", .ofInt 1)]) ∧
      (Json.object []).problems schema (.named "Range") =
        [⟨[.field "from"], .nullValue (.nonNull (.named "Int"))⟩]) ∧
    ((Literal.object []).EveryObject schema InputObjectType.Declares (.named "Range") ∧
      schema.literalValue [] (.named "Range") (.object []) = .value (.object [("from", .ofInt 1)]) ∧
      (Literal.object []).problems schema (.named "Range") =
        [⟨[.field "from"], .nullLiteral (some (.named "Int"))⟩]) :=
  ⟨built, defaultsCoerce, ⟨declares_empty_range.1, rfl, rfl⟩, ⟨declares_empty_range.2, rfl, rfl⟩⟩

end Search

end GraphQLCheck
