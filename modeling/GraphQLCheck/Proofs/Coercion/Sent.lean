/-
  GraphQLCheck.Proofs.Coercion.Sent
  ─────────────────────────────────
  A literal that is written in place, and its runtime value that is sent for a variable.

  The two are checked and evaluated by recursions of their own, over values of different kinds.  They go
  through the same layers of types, though, and meet the same enums and scalars, so they agree as soon as
  those read a literal and its runtime value alike.  It follows that it makes no difference to a field
  whether an argument is written in place or as a variable.

  Main facts:
    * `Literal.coerceWith_sent` — the runtime value of a literal is worth what the literal is
    * `Literal.problems_sent`   — and it is accepted where the literal is
    * `VariableDefinition.resolve_sent` — so a variable that it is sent for has the literal's value
    * `Schema.coerceArguments_variable_eq_literal` — and stands for the literal in an argument
-/
import GraphQLCheck.Proofs.Coercion.Arguments
import GraphQLCheck.Proofs.Coercion.Variables
import GraphQLCheck.Proofs.Schema.Notation

namespace GraphQLCheck

/-! ## §1. Leaves. -/

/-- What a type reads a closed literal as, it reads the runtime value of the literal as too. -/
theorem TypeDef.parseValue_sent {schema : Schema}
    (hscalars : ∀ scalar, .scalar scalar ∈ schema.types.toList → scalar.ReadsAlike) {name : String}
    {definition : TypeDef} (hfind : schema.find? name = some definition) {literal : Literal}
    (hclosed : literal.variables = []) (hfinite : literal.isFinite = true) {value : Json}
    (hread : definition.parseLiteral literal = some value) :
    definition.parseValue literal.sent = some value := by
  cases definition with
  | enum type =>
    -- a bare name is sent as a text, which the enum reads as the same name
    cases literal with
    | enum chosen => exact hread
    | _ => cases hread
  | scalar type =>
    obtain ⟨sent, hsent, hvalue⟩ :=
      hscalars type (Schema.mem_of_find? hfind) literal value hclosed hfinite hread
    rw [Literal.sent_eq_of_toJson? hsent]
    exact hvalue
  | inputObject type => cases hread
  | interface type => cases hread
  | object type => cases hread
  | union type => cases hread

section Leaves

variable {schema : Schema}
  (hscalars : ∀ scalar, .scalar scalar ∈ schema.types.toList → scalar.ReadsAlike)
  {literal : Literal} (hclosed : literal.variables = []) (hfinite : literal.isFinite = true)

include hscalars hclosed hfinite

theorem Schema.leafValue_sent {type : TypeRef} {value : Json}
    (h : schema.leafValue (·.parseLiteral literal) type = .value value) :
    schema.leafValue (·.parseValue literal.sent) type = .value value := by
  obtain ⟨definition, inner, hfind, hread, rfl⟩ := leafValue_eq_value_iff.1 h
  exact leafValue_eq_value_iff.2 ⟨definition, inner, hfind,
    TypeDef.parseValue_sent hscalars hfind hclosed hfinite hread, rfl⟩

theorem Schema.leafProblems_sent {name : String}
    (h : schema.leafProblems (·.parseLiteral literal) literal name = []) :
    schema.leafProblems (·.parseValue literal.sent) literal.sent name = [] := by
  obtain ⟨definition, hfind, hread, hleaf⟩ := leafProblems_eq_nil_iff.1 h
  obtain ⟨value, hvalue⟩ := Option.isSome_iff_exists.1 hread
  have hsent := TypeDef.parseValue_sent hscalars hfind hclosed hfinite hvalue
  exact leafProblems_eq_nil_iff.2 ⟨definition, hfind, by rw [hsent]; rfl, hleaf⟩

end Leaves

namespace Literal

theorem isPlain_sent {literal : Literal} (h : literal.isPlain = true)
    (hfinite : literal.isFinite = true) : literal.sent.isPlain = true := by
  cases literal with
  | float x =>
    -- only a finite double is sent as a number
    obtain ⟨y, rfl⟩ := Double.eq_finite_of_isSome hfinite
    rfl
  | _ => first | rfl | cases h

/-! ## §2. Values. -/

/-- **The runtime value of a literal is worth what the literal is**, if scalars read both alike. -/
theorem coerceWith_sent {schema : Schema} {default : DefaultValue} {env : Variables}
    (hscalars : ∀ scalar, .scalar scalar ∈ schema.types.toList → scalar.ReadsAlike)
    {literal : Literal} {type : TypeRef} (hclosed : literal.variables = [])
    (hfinite : literal.isFinite = true) {value : Json}
    (h : literal.valueWith schema default env type = .value value) :
    literal.sent.coerceWith schema default type = .value value := by
  induction literal generalizing type value with
  | null => exact h
  | var name => cases hclosed
  | plain literal hplain =>
    rw [valueWith_plain hplain] at h
    rw [Json.coerceWith_plain (isPlain_sent hplain hfinite)]
    exact Schema.leafValue_sent hscalars hclosed hfinite h
  | list items ih =>
    cases hview : type.view with
    | list element =>
      rw [valueWith_list hview] at h
      obtain ⟨values, hvalues, rfl⟩ := Outcome.map_eq_value_iff.1 h
      rw [sent_list hclosed, Json.coerceWith_array hview, List.mapM_map]
      refine Outcome.map_eq_value_iff.2 ⟨values, ?_, rfl⟩
      apply Outcome.mapM_eq_value_of_forall _ hvalues
      intro item hitem value hvalue
      have hitemClosed := variables_item hclosed hitem
      unfold itemValue at hvalue
      rw [(BoundBy.of_closed hitemClosed).isUnbound] at hvalue
      exact ih item hitem hitemClosed (isFinite_list_iff.1 hfinite item hitem) hvalue
    | named name =>
      rw [valueWith_list_leaf hview] at h
      have hleaf := Schema.leafValue_sent hscalars hclosed hfinite h
      rw [sent_list hclosed] at hleaf ⊢
      rw [Json.coerceWith_array_leaf hview]
      exact hleaf
  | object fields ih =>
    by_cases hinput : ∃ inputType, schema.namedType? type = some (.inputObject inputType)
    · obtain ⟨inputType, hfind⟩ := hinput
      rw [valueWith_object hfind] at h
      obtain ⟨object, hobject, rfl⟩ := Outcome.map_eq_value_iff.1 h
      obtain ⟨entries, rfl, hmembers⟩ := InputObjectType.objectValue_eq_value_iff.1 hobject
      rw [sent_object hclosed, Json.coerceWith_object hfind]
      refine Outcome.map_eq_value_iff.2 ⟨.object entries, ?_, rfl⟩
      apply InputObjectType.objectValue_eq_value_iff.2
      refine ⟨entries, rfl, hmembers.mono ?_⟩
      intro field _ value? hworth
      -- with no variable to be left out, both look up the first field with the name
      rw [lookup_fieldValues_of_boundBy (.of_closed hclosed)] at hworth
      rw [Json.lookup_coerceEntries, lookup_map_entries]
      rw [InputDef.memberValue_eq_value_iff] at hworth ⊢
      cases hlookup : fields.lookup field.name with
      | none =>
        rw [hlookup] at hworth
        exact hworth
      | some given =>
        rw [hlookup] at hworth
        have hmem := mem_of_lookup hlookup
        rcases hworth with ⟨_, value, hgiven, hvalue, rfl⟩ | ⟨_, _, hgiven, _⟩ | ⟨hgiven, _⟩
        · cases hgiven
          refine .inl ⟨_, value, rfl, ?_, rfl⟩
          exact ih _ hmem (variables_field hclosed hmem) (isFinite_object_iff.1 hfinite _ hmem) hvalue
        · cases hgiven
        · cases hgiven
    · rw [valueWith_object_leaf hinput] at h
      have hleaf := Schema.leafValue_sent hscalars hclosed hfinite h
      rw [sent_object hclosed] at hleaf ⊢
      rw [Json.coerceWith_object_leaf hinput]
      exact hleaf

/-! ## §3. Problems. -/

/-- **The runtime value of an accepted literal is accepted**, if scalars read both alike. -/
theorem problems_sent {schema : Schema}
    (hscalars : ∀ scalar, .scalar scalar ∈ schema.types.toList → scalar.ReadsAlike)
    {literal : Literal} {type : TypeRef} (hclosed : literal.variables = [])
    (hfinite : literal.isFinite = true) (h : literal.problems schema type = []) :
    literal.sent.problems schema type = [] := by
  induction literal generalizing type with
  | null =>
    exact nullValueProblems_eq_nil_iff.2 (Schema.nullLiteralProblems_eq_nil_iff.1 h)
  | var name => cases hclosed
  | plain literal hplain =>
    rw [problems_plain hplain] at h
    rw [Json.problems_plain (isPlain_sent hplain hfinite)]
    exact Schema.leafProblems_sent hscalars hclosed hfinite h
  | list items ih =>
    cases hview : type.view with
    | list element =>
      rw [problems_list hview, Problem.inElements_eq_nil_iff, List.forall_mem_map] at h
      rw [sent_list hclosed, Json.problems_array hview, List.map_map, Problem.inElements_eq_nil_iff,
        List.forall_mem_map]
      intro item hitem
      exact ih item hitem (variables_item hclosed hitem) (isFinite_list_iff.1 hfinite item hitem)
        (h item hitem)
    | named name =>
      rw [problems_list_leaf hview] at h
      have hleaf := Schema.leafProblems_sent hscalars hclosed hfinite h
      rw [sent_list hclosed] at hleaf ⊢
      rw [Json.problems_array_leaf hview]
      exact hleaf
  | object fields ih =>
    by_cases hinput : ∃ inputType, schema.namedType? type = some (.inputObject inputType)
    · obtain ⟨inputType, hfind⟩ := hinput
      obtain ⟨hknown, hgiven, homitted⟩ := (problems_object_eq_nil_iff hfind).1 h
      rw [sent_object hclosed, Json.problems_object_eq_nil_iff hfind, List.forall_mem_map]
      refine ⟨hknown, ?_, ?_⟩
      · intro field hfield value hlookup
        rw [lookup_map_entries, Option.map_eq_some_iff] at hlookup
        obtain ⟨given, hlookup, rfl⟩ := hlookup
        have hmem := mem_of_lookup hlookup
        exact ih _ hmem (variables_field hclosed hmem) (isFinite_object_iff.1 hfinite _ hmem)
          (hgiven field hfield given hlookup)
      · intro field hfield hlookup
        rw [lookup_map_entries, Option.map_eq_none_iff] at hlookup
        exact homitted field hfield hlookup
    · rw [problems_object_leaf hinput] at h
      have hleaf := Schema.leafProblems_sent hscalars hclosed hfinite h
      rw [sent_object hclosed] at hleaf ⊢
      rw [Json.problems_object_leaf hinput]
      exact hleaf

end Literal

/-- An accepted literal has a value, and the same whatever the variables are. -/
theorem Literal.exists_value_of_closed {schema : Schema}
    (hscalars : ∀ scalar, .scalar scalar ∈ schema.types.toList → scalar.ReadsAlike)
    (hdefaults : schema.DefaultsCoerce) {literal : Literal} {type : TypeRef}
    (hclosed : literal.variables = []) (hfinite : literal.isFinite = true)
    (h : literal.problems schema type = []) :
    ∃ value, ∀ env : Variables, schema.literalValue env type literal = .value value := by
  have hvalue : ∀ env : Variables, ∃ value, schema.literalValue env type literal = .value value :=
    fun env => exists_value_of_accepted hdefaults.exists_defaultValue (.of_closed hclosed) h
  obtain ⟨value, hempty⟩ := hvalue []
  refine ⟨value, fun env => ?_⟩
  -- with any variables, the value is that of what the literal is sent as
  obtain ⟨value', hother⟩ := hvalue env
  have hsent := coerceWith_sent hscalars hclosed hfinite hempty
  rw [coerceWith_sent hscalars hclosed hfinite hother] at hsent
  rw [hother]
  exact hsent

/-! ## §4. Variables that a literal is sent for. -/

section Variables

variable {schema : Schema} {type : TypeRef} {literal : Literal} {value : Json}
  {definition : VariableDefinition} {inputs : Variables}

/-- A variable that an accepted literal is sent for has the value of the literal. -/
theorem VariableDefinition.resolve_sent
    (hscalars : ∀ scalar, .scalar scalar ∈ schema.types.toList → scalar.ReadsAlike)
    (hinput : schema.IsInputType definition.typeRef)
    (hclosed : literal.variables = []) (hfinite : literal.isFinite = true)
    (haccepted : literal.problems schema definition.typeRef = [])
    (hvalue : schema.literalValue [] definition.typeRef literal = .value value)
    (hsent : inputs.lookup definition.name = some literal.sent) :
    definition.resolve schema inputs = .value (some value) := by
  unfold resolve
  rw [inputTypeError?_of_isInputType hinput, hsent]
  show (definition.resolveInput schema literal.sent).map some = _
  rw [Outcome.map_eq_value_iff]
  refine ⟨value, ?_, rfl⟩
  have hcoerced : schema.coerceValue definition.typeRef literal.sent = .value value :=
    Literal.coerceWith_sent hscalars hclosed hfinite hvalue
  unfold resolveInput
  simp only []
  cases hnull : literal.sent.isNull with
  | true =>
    rw [Json.isNull_iff.1 hnull] at hcoerced
    obtain ⟨hnullable, rfl⟩ := TypeRef.nullValue_eq_value_iff.1 hcoerced
    rw [hnullable]
    rfl
  | false =>
    rw [Literal.problems_sent hscalars hclosed hfinite haccepted, hcoerced]
    rfl

theorem Schema.coerceVariables_of_resolve {operation : Operation}
    (hdefinitions : operation.variableDefinitions = [definition])
    (h : definition.resolve schema inputs = .value (some value)) :
    schema.coerceVariables operation inputs = .value [(definition.name, value)] := by
  unfold coerceVariables
  rw [hdefinitions]
  unfold coerceDefinitions
  rw [h]
  rfl

end Variables

/-! ## §5. Arguments in place and as variables. -/

namespace Field

/-- The field with a single argument. -/
def withArgument (field : Field) (argument : Argument) : Field := { field with arguments := [argument] }

theorem argument?_withArgument {field : Field} {argument : Argument} {name : String} :
    (field.withArgument argument).argument? name =
      if argument.name = name then some argument else none := by
  unfold argument? withArgument
  by_cases h : argument.name = name <;> simp [h]

end Field

/-- Two arguments for one parameter make no difference to a field if the parameter is worth the same with
both. -/
theorem Schema.coerceArguments_withArgument {schema : Schema} {definition : FieldDef}
    {parameter : InputDef} (hmem : parameter ∈ definition.parameters.toList) {field : Field}
    {argument argument' : Argument} (hname : argument.name = parameter.name)
    (hname' : argument'.name = parameter.name) {env env' : Variables}
    (h : parameter.resolveArgument schema env (field.withArgument argument) =
      parameter.resolveArgument schema env' (field.withArgument argument')) :
    schema.coerceArguments definition (field.withArgument argument) env =
      schema.coerceArguments definition (field.withArgument argument') env' := by
  unfold coerceArguments
  apply coerceParameters_congr
  intro other hother
  by_cases hsame : other.name = parameter.name
  · rw [Declarations.eq_of_name_eq hother hmem hsame]
    exact h
  · rw [InputDef.resolveArgument_of_omitted, InputDef.resolveArgument_of_omitted]
    · rw [Field.argument?_withArgument, if_neg fun heq => hsame (heq.symm.trans hname')]
    · rw [Field.argument?_withArgument, if_neg fun heq => hsame (heq.symm.trans hname)]

/-- A field has the same arguments with a literal as with a variable that has the literal's value. -/
theorem Schema.coerceArguments_variable_eq_literal {schema : Schema} {definition : FieldDef}
    {parameter : InputDef} (hmem : parameter ∈ definition.parameters.toList) {literal : Literal}
    (hclosed : literal.variables = []) {env values : Variables} {name : String} {value : Json}
    (hvalue : schema.literalValue env parameter.type literal = .value value)
    (hlookup : values.lookup name = some value) {field : Field} {place : Location} :
    schema.coerceArguments definition
        (field.withArgument ⟨parameter.name, .variable name, place⟩) values =
      schema.coerceArguments definition
        (field.withArgument ⟨parameter.name, literal, place⟩) env := by
  apply coerceArguments_withArgument hmem rfl rfl
  have hthere : ∀ argument : Argument, argument.name = parameter.name →
      (field.withArgument argument).argument? parameter.name = some argument :=
    fun argument hname => by rw [Field.argument?_withArgument, if_pos hname]
  rw [InputDef.resolveArgument_of_variable (hthere _ rfl) rfl hlookup,
    InputDef.resolveArgument_of_literalValue (hthere _ rfl) _ hvalue]
  intro other hvariable
  have hother : literal = .variable other := hvariable
  rw [hother] at hclosed
  cases hclosed

/-- **A literal in place and its runtime value sent for a variable mean the same.**  The runtime value is
worth what the literal is, and accepted where it is.  So where the literal is accepted, an operation that
declares a variable of the type gives the variable a value, and a field has the same arguments with the
variable as with the literal. -/
theorem literal_and_variable_agree {schema : Schema} (hbuilt : schema.Built)
    (hcustom : schema.CustomScalars ScalarType.ReadsAlike) (hdefaults : schema.DefaultsCoerce)
    (type : TypeRef) (literal : Literal) (hclosed : literal.variables = [])
    (hfinite : literal.isFinite = true) :
    ∃ sent, literal.toJson? = some sent ∧
      (∀ (env : Variables) (value : Json), schema.literalValue env type literal = .value value →
        schema.coerceValue type sent = .value value) ∧
      (literal.problems schema type = [] → sent.problems schema type = []) ∧
      (literal.problems schema type = [] → schema.IsInputType type → type.isReduced = true →
        ∀ (definition : FieldDef) (parameter : InputDef),
          parameter ∈ definition.parameters.toList → parameter.type = type →
        ∀ (operation : Operation) (name : String) (default : Option Literal) (place : Location),
          operation.variableDefinitions = [⟨name, type.written, default, place⟩] →
        ∀ inputs : Variables, inputs.lookup name = some sent →
          ∃ values, schema.coerceVariables operation inputs = .value values ∧
            ∀ (field : Field) (place : Location) (env : Variables),
              schema.coerceArguments definition
                  (field.withArgument ⟨parameter.name, .variable name, place⟩) values =
                schema.coerceArguments definition
                  (field.withArgument ⟨parameter.name, literal, place⟩) env) := by
  have hscalars := hbuilt.forall_scalar (fun _ => ScalarType.readsAlike_of_builtin) hcustom
  refine ⟨literal.sent, Literal.toJson?_eq_sent hclosed, ?_, ?_, ?_⟩
  · intro env value h
    exact Literal.coerceWith_sent hscalars hclosed hfinite h
  · intro h
    exact Literal.problems_sent hscalars hclosed hfinite h
  · intro haccepted hinput hreduced definition parameter hmem htype operation name default place
      hdefinitions inputs hsent
    obtain ⟨value, hvalue⟩ := Literal.exists_value_of_closed hscalars hdefaults hclosed hfinite haccepted
    have hwritten : (VariableDefinition.mk name type.written default place).typeRef = type :=
      TypeRef.ofExpr_written hreduced
    have hresolve : (VariableDefinition.mk name type.written default place).resolve schema inputs =
        .value (some value) := by
      apply VariableDefinition.resolve_sent hscalars _ hclosed hfinite _ _ hsent
      · rw [hwritten]
        exact hinput
      · rw [hwritten]
        exact haccepted
      · rw [hwritten]
        exact hvalue []
    refine ⟨[(name, value)], Schema.coerceVariables_of_resolve hdefinitions hresolve, ?_⟩
    intro field place env
    exact Schema.coerceArguments_variable_eq_literal hmem hclosed (by rw [htype]; exact hvalue env)
      List.lookup_cons_self

namespace Search

/-- `query ($filter: Filter!) { search(filter: $filter) }` -/
def operation : Operation where
  kind := .query
  name := none
  variableDefinitions := [⟨"filter", .nonNull (.named "Filter"), none, ⟨1, 8⟩⟩]
  selectionSet := ⟨[.field ⟨none, "search", [⟨"filter", .variable "filter", ⟨1, 29⟩⟩], none, ⟨1, 29⟩⟩],
    ⟨1, 27⟩⟩
  location := ⟨1, 1⟩

/-- A filter in place, and the same filter sent for a variable. -/
theorem filter_agrees_with_variable :
    ∃ sent, filterLiteral.toJson? = some sent ∧
      ∃ values, schema.coerceVariables operation [("filter", sent)] = .value values ∧
        ∀ (field : Field) (place : Location) (env : Variables),
          schema.coerceArguments search
              (field.withArgument ⟨"filter", .variable "filter", place⟩) values =
            schema.coerceArguments search
              (field.withArgument ⟨"filter", filterLiteral, place⟩) env := by
  have hcustom := customScalars (ScalarType.readsAlike_of_anyScalar rfl)
  obtain ⟨sent, hsent, _, _, hagree⟩ := literal_and_variable_agree built hcustom defaultsCoerce
    (.nonNull (.named "Filter")) filterLiteral rfl rfl
  exact ⟨sent, hsent, hagree rfl ⟨.inputObject filter, rfl, rfl⟩ rfl search
    { name := "filter", type := .nonNull (.named "Filter") } (List.mem_cons_self ..) rfl operation
    "filter" none ⟨1, 8⟩ rfl [("filter", sent)] rfl⟩

end Search

end GraphQLCheck
