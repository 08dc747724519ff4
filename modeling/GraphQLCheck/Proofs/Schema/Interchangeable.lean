/-
  GraphQLCheck.Proofs.Schema.Interchangeable
  ──────────────────────────────────────────
  Two schemas in which every name stands for the same type, but for what scalars make of null and of a
  variable.

  No scalar is ever asked for these: null is dealt with by the layers of the type, and a variable is looked
  up, before the type inside is looked at.  An item of a list and a field of an input object may be null or
  a variable again, and then the same goes for them.  So nothing that is evaluated, checked or coerced can
  tell the two schemas apart.  Nor does anything show the order in which types were registered: a type is
  always looked up under its name, and where all types are gone through, as for the number of defaults,
  each counts for itself.

  Main results, for interchangeable schemas:
    * `TypeDef.Interchangeable.parseLiteral_eq`, `parseValue_eq` — what types read, they read alike
    * `literalValue_eq`, `coerceValue_eq`    — literals and runtime values are worth the same
    * `literalProblems_eq`, `problems_eq`    — they have the same problems
    * `coerceVariables_eq`, `coerceArguments_eq` — so do variables and arguments have the same values
    * `addType_eq`                           — every type registers the same shape
-/
import GraphQLCheck.Coercion.Arguments
import GraphQLCheck.Coercion.Variables
import GraphQLCheck.Proofs.Coercion.Acceptance
import GraphQLCheck.Shape.Registry
import Mathlib.Data.List.Nodup
import Mathlib.Data.List.Perm.Basic

namespace GraphQLCheck

/-! ## §1. Types. -/

/-- Whether a literal is neither null nor a variable. -/
def Literal.isConcrete : Literal → Bool
  | .null | .variable _ => false
  | _ => true

theorem Literal.isConcrete_of_isPlain {literal : Literal} (h : literal.isPlain = true) :
    literal.isConcrete = true := by
  cases literal <;> first | rfl | cases h

/-- Two coercions are interchangeable if they read alike all that is neither null nor a variable. -/
structure ScalarCoercion.Interchangeable (coercion coercion' : ScalarCoercion) : Prop where
  parseLiteral : ∀ literal : Literal, literal.isConcrete = true →
    coercion.parseLiteral literal = coercion'.parseLiteral literal
  parseValue : ∀ value : Json, value.isNull = false →
    coercion.parseValue value = coercion'.parseValue value

/-- Two types are interchangeable if they are the same, or one scalar with interchangeable coercions. -/
inductive TypeDef.Interchangeable : TypeDef → TypeDef → Prop where
  | same (type : TypeDef) : Interchangeable type type
  | scalar {type : ScalarType} {coercion : ScalarCoercion} : type.coercion.Interchangeable coercion →
      Interchangeable (.scalar type) (.scalar { type with coercion })

namespace TypeDef

/-- The type without a coercion of its own. -/
def withoutCoercion : TypeDef → TypeDef
  | .scalar type => .scalar { type with coercion := anyScalar }
  | type => type

theorem name_withoutCoercion (type : TypeDef) : type.withoutCoercion.name = type.name := by
  cases type <;> rfl

theorem inputFields_withoutCoercion (type : TypeDef) :
    type.withoutCoercion.inputFields = type.inputFields := by
  cases type <;> rfl

namespace Interchangeable

variable {type type' : TypeDef} (h : type.Interchangeable type')
include h

/-- But for the coercions of scalars, the types are the same. -/
theorem withoutCoercion_eq : type.withoutCoercion = type'.withoutCoercion := by
  cases h <;> rfl

theorem name_eq : type.name = type'.name := by cases h <;> rfl

theorem isInput_eq : type.isInput = type'.isInput := by cases h <;> rfl

theorem isComposite_eq : type.isComposite = type'.isComposite := by cases h <;> rfl

theorem isLeaf_eq : type.isLeaf = type'.isLeaf := by cases h <;> rfl

theorem field?_eq : type.field? = type'.field? := by cases h <;> rfl

theorem ofDefinition?_eq : Shape.ofDefinition? type = Shape.ofDefinition? type' := by cases h <;> rfl

theorem eq_inputObject_iff (inputType : InputObjectType) :
    type = .inputObject inputType ↔ type' = .inputObject inputType := by
  cases h with
  | same => exact .rfl
  | scalar => exact ⟨nofun, nofun⟩

/-- What is neither null nor a variable is read alike. -/
theorem parseLiteral_eq {literal : Literal} (hconcrete : literal.isConcrete = true) :
    type.parseLiteral literal = type'.parseLiteral literal := by
  cases h with
  | same => rfl
  | scalar hcoercion => exact hcoercion.parseLiteral literal hconcrete

/-- Every runtime value is read alike, as null is accepted before a coercion is asked. -/
theorem parseValue_eq (value : Json) : type.parseValue value = type'.parseValue value := by
  cases h with
  | same => rfl
  | @scalar type coercion hcoercion =>
    show type.parseValue value = ScalarType.parseValue { type with coercion } value
    unfold ScalarType.parseValue
    cases hnull : value.isNull with
    | true => rfl
    | false => exact hcoercion.parseValue value hnull

end Interchangeable

end TypeDef

/-! ## §2. Schemas. -/

/-- Two schemas are interchangeable if a name stands for interchangeable types in them, and an operation
kind has a root of the same name. -/
structure Schema.Interchangeable (schema schema' : Schema) : Prop where
  find?_rel : ∀ name, Option.Rel TypeDef.Interchangeable (schema.find? name) (schema'.find? name)
  rootName?_eq : ∀ operation, schema.rootName? operation = schema'.rootName? operation

namespace Schema.Interchangeable

variable {schema schema' : Schema} (h : schema.Interchangeable schema')
include h

/-- A name stands for nothing in both schemas, or for interchangeable types. -/
theorem find?_cases (name : String) :
    (schema.find? name = none ∧ schema'.find? name = none) ∨
      ∃ type type', schema.find? name = some type ∧ schema'.find? name = some type' ∧
        type.Interchangeable type' := by
  have hrel := h.find?_rel name
  generalize schema.find? name = found at hrel ⊢
  generalize schema'.find? name = found' at hrel ⊢
  cases hrel with
  | none => exact .inl ⟨rfl, rfl⟩
  | some htype => exact .inr ⟨_, _, rfl, rfl, htype⟩

theorem map_find?_eq {read : TypeDef → α}
    (hread : ∀ {type type' : TypeDef}, type.Interchangeable type' → read type = read type') (name : String) :
    (schema.find? name).map read = (schema'.find? name).map read := by
  rcases h.find?_cases name with ⟨hfind, hfind'⟩ | ⟨_, _, hfind, hfind', htype⟩
  · rw [hfind, hfind']
  · rw [hfind, hfind', Option.map_some, Option.map_some, hread htype]

theorem bind_namedType?_eq {read : TypeDef → Option α}
    (hread : ∀ {type type' : TypeDef}, type.Interchangeable type' → read type = read type')
    (type : TypeRef) : (schema.namedType? type).bind read = (schema'.namedType? type).bind read := by
  unfold namedType?
  rcases h.find?_cases type.typeName with ⟨hfind, hfind'⟩ | ⟨_, _, hfind, hfind', htype⟩
  · rw [hfind, hfind']
  · rw [hfind, hfind', Option.bind_some, Option.bind_some, hread htype]

theorem namedType?_eq_inputObject_iff (type : TypeRef) (inputType : InputObjectType) :
    schema.namedType? type = some (.inputObject inputType) ↔
      schema'.namedType? type = some (.inputObject inputType) := by
  unfold namedType?
  rcases h.find?_cases type.typeName with ⟨hfind, hfind'⟩ | ⟨_, _, hfind, hfind', htype⟩
  · rw [hfind, hfind']
  · rw [hfind, hfind', Option.some.injEq, Option.some.injEq, htype.eq_inputObject_iff]

theorem map_rootType?_eq {read : TypeDef → α}
    (hread : ∀ {type type' : TypeDef}, type.Interchangeable type' → read type = read type')
    (operation : OperationKind) :
    (schema.rootType? operation).map read = (schema'.rootType? operation).map read := by
  unfold rootType?
  rw [h.rootName?_eq]
  cases schema'.rootName? operation with
  | none => rfl
  | some name => exact h.map_find?_eq hread name

/-- What a type is selected on as: itself if it is composite. -/
theorem selectedOn_rel (type : Option TypeRef) :
    Option.Rel TypeDef.Interchangeable ((type.bind schema.namedType?).filter (·.isComposite))
      ((type.bind schema'.namedType?).filter (·.isComposite)) := by
  cases type with
  | none => exact .none
  | some type =>
    show Option.Rel _ ((schema.find? type.typeName).filter _) ((schema'.find? type.typeName).filter _)
    rcases h.find?_cases type.typeName with ⟨hfind, hfind'⟩ | ⟨_, _, hfind, hfind', htype⟩
    · rw [hfind, hfind']
      exact .none
    · rw [hfind, hfind', Option.filter_some, Option.filter_some, htype.isComposite_eq]
      split
      · exact .some htype
      · exact .none

/-- But for the coercions of scalars, the schemas have the same types. -/
theorem types_perm :
    (schema.types.toList.map (·.withoutCoercion)).Perm (schema'.types.toList.map (·.withoutCoercion)) := by
  have hmem : ∀ (schema : Schema) (type : TypeDef),
      type ∈ schema.types.toList.map (·.withoutCoercion) ↔
        (schema.find? type.name).map (·.withoutCoercion) = some type := by
    intro schema type
    rw [List.mem_map, Option.map_eq_some_iff]
    refine exists_congr fun other => and_congr_left fun heq => ?_
    rw [← heq, TypeDef.name_withoutCoercion]
    exact (Iff.trans Declarations.find?_eq_some_iff ⟨And.left, fun hmem => ⟨hmem, rfl⟩⟩).symm
  have hdistinct : ∀ schema : Schema, (schema.types.toList.map (·.withoutCoercion)).Nodup := by
    intro schema
    refine List.Nodup.of_map TypeDef.name ?_
    rw [List.map_map, List.map_congr_left fun type _ => type.name_withoutCoercion]
    exact schema.types.distinct
  rw [List.perm_ext_iff_of_nodup (hdistinct schema) (hdistinct schema')]
  intro type
  rw [hmem, hmem, h.map_find?_eq (·.withoutCoercion_eq)]

theorem defaultCount_eq : schema.defaultCount = schema'.defaultCount := by
  have hfields : ∀ schema : Schema, schema.types.toList.flatMap (·.inputFields) =
      (schema.types.toList.map (·.withoutCoercion)).flatMap (·.inputFields) := by
    intro schema
    rw [List.flatMap_map]
    simp only [TypeDef.inputFields_withoutCoercion]
  unfold defaultCount
  rw [hfields, hfields]
  exact (h.types_perm.flatMap_right _).countP_eq _

/-! ## §3. Values. -/

theorem leafValue_eq {read : TypeDef → Option Json}
    (hread : ∀ {type type' : TypeDef}, type.Interchangeable type' → read type = read type')
    (type : TypeRef) : schema.leafValue read type = schema'.leafValue read type := by
  unfold leafValue
  rw [h.bind_namedType?_eq hread]

/-- A literal is worth the same, whatever defaults are worth. -/
theorem valueWith_eq (default : DefaultValue) (env : Variables) (literal : Literal) (type : TypeRef) :
    literal.valueWith schema default env type = literal.valueWith schema' default env type := by
  induction literal generalizing type with
  | null => rfl
  | var name => rfl
  | plain literal hplain =>
    rw [Literal.valueWith_plain hplain, Literal.valueWith_plain hplain,
      h.leafValue_eq (·.parseLiteral_eq (Literal.isConcrete_of_isPlain hplain))]
  | list items ih =>
    cases hview : type.view with
    | list element =>
      have hitems : (items.mapM fun item => item.itemValue schema default env element) =
          items.mapM fun item => item.itemValue schema' default env element := by
        apply Outcome.kept_eq.mapM
        intro item hitem
        unfold Literal.itemValue
        rw [ih item hitem]
      rw [Literal.valueWith_list hview, Literal.valueWith_list hview, hitems]
    | named name =>
      rw [Literal.valueWith_list_leaf hview, Literal.valueWith_list_leaf hview,
        h.leafValue_eq (·.parseLiteral_eq rfl)]
  | object fields ih =>
    by_cases hinput : ∃ inputType, schema.namedType? type = some (.inputObject inputType)
    · obtain ⟨inputType, hfind⟩ := hinput
      have hvalues : Literal.fieldValues schema default env fields =
          Literal.fieldValues schema' default env fields := by
        rw [Literal.fieldValues_eq_map, Literal.fieldValues_eq_map]
        exact List.map_congr_left fun field hfield =>
          congrArg (Prod.mk field.1) (funext fun type => ih field (List.mem_filter.1 hfield).1 type)
      rw [Literal.valueWith_object hfind,
        Literal.valueWith_object ((h.namedType?_eq_inputObject_iff type inputType).1 hfind), hvalues]
    · have hinput' : ¬ ∃ inputType, schema'.namedType? type = some (.inputObject inputType) := by
        simpa only [h.namedType?_eq_inputObject_iff] using hinput
      rw [Literal.valueWith_object_leaf hinput, Literal.valueWith_object_leaf hinput',
        h.leafValue_eq (·.parseLiteral_eq rfl)]

/-- A runtime value is worth the same, whatever defaults are worth. -/
theorem coerceWith_eq (default : DefaultValue) (value : Json) (type : TypeRef) :
    value.coerceWith schema default type = value.coerceWith schema' default type := by
  induction value generalizing type with
  | null => rfl
  | plain value hplain =>
    rw [Json.coerceWith_plain hplain, Json.coerceWith_plain hplain,
      h.leafValue_eq (·.parseValue_eq value)]
  | array items ih =>
    cases hview : type.view with
    | list element =>
      have hitems : (items.mapM fun item => item.coerceWith schema default element) =
          items.mapM fun item => item.coerceWith schema' default element :=
        Outcome.kept_eq.mapM fun item hitem => ih item hitem element
      rw [Json.coerceWith_array hview, Json.coerceWith_array hview, hitems]
    | named name =>
      rw [Json.coerceWith_array_leaf hview, Json.coerceWith_array_leaf hview,
        h.leafValue_eq (·.parseValue_eq _)]
  | object entries ih =>
    by_cases hinput : ∃ inputType, schema.namedType? type = some (.inputObject inputType)
    · obtain ⟨inputType, hfind⟩ := hinput
      have hvalues : Json.coerceEntries schema default entries =
          Json.coerceEntries schema' default entries := by
        rw [Json.coerceEntries_eq_map, Json.coerceEntries_eq_map]
        exact List.map_congr_left fun entry hentry =>
          congrArg (Prod.mk entry.1) (funext fun type => ih entry hentry type)
      rw [Json.coerceWith_object hfind,
        Json.coerceWith_object ((h.namedType?_eq_inputObject_iff type inputType).1 hfind), hvalues]
    · have hinput' : ¬ ∃ inputType, schema'.namedType? type = some (.inputObject inputType) := by
        simpa only [h.namedType?_eq_inputObject_iff] using hinput
      rw [Json.coerceWith_object_leaf hinput, Json.coerceWith_object_leaf hinput',
        h.leafValue_eq (·.parseValue_eq _)]

theorem evaluateWithin_eq (depth : Nat) : schema.evaluateWithin depth = schema'.evaluateWithin depth := by
  induction depth with
  | zero => rfl
  | succ depth ih =>
    funext type literal
    show literal.valueWith schema (schema.evaluateWithin depth) [] type = _
    rw [h.valueWith_eq, ih]
    rfl

theorem defaultValue_eq : schema.defaultValue = schema'.defaultValue := by
  unfold defaultValue
  rw [h.defaultCount_eq, h.evaluateWithin_eq]

theorem literalValue_eq (env : Variables) (type : TypeRef) (literal : Literal) :
    schema.literalValue env type literal = schema'.literalValue env type literal := by
  unfold literalValue
  rw [h.valueWith_eq, h.defaultValue_eq]

theorem coerceValue_eq (type : TypeRef) (value : Json) :
    schema.coerceValue type value = schema'.coerceValue type value := by
  unfold coerceValue
  rw [h.coerceWith_eq, h.defaultValue_eq]

/-! ## §4. Problems. -/

theorem leafProblems_eq {α : Type} {read : TypeDef → Option Json}
    (hread : ∀ {type type' : TypeDef}, type.Interchangeable type' → read type = read type') (found : α)
    (typeName : String) : schema.leafProblems read found typeName = schema'.leafProblems read found typeName := by
  unfold leafProblems
  rcases h.find?_cases typeName with ⟨hfind, hfind'⟩ | ⟨_, _, hfind, hfind', htype⟩
  · rw [hfind, hfind']
  · rw [hfind, hfind']
    have hsame := hread htype
    cases htype with
    | same => rfl
    | scalar => simp only [hsame, TypeDef.name]

theorem nullLiteralProblems_eq : schema.nullLiteralProblems = schema'.nullLiteralProblems := by
  have hnamed : ∀ name, (schema.find? name).map (fun type => TypeRef.named type.name) =
      (schema'.find? name).map fun type => .named type.name :=
    h.map_find?_eq fun htype => congrArg TypeRef.named htype.name_eq
  funext type
  unfold nullLiteralProblems
  simp only [hnamed]

/-- A literal has the same problems. -/
theorem literal_problems_eq (literal : Literal) (type : TypeRef) :
    literal.problems schema type = literal.problems schema' type := by
  induction literal generalizing type with
  | null => exact congrFun h.nullLiteralProblems_eq type
  | var name => rfl
  | plain literal hplain =>
    rw [Literal.problems_plain hplain, Literal.problems_plain hplain,
      h.leafProblems_eq (·.parseLiteral_eq (Literal.isConcrete_of_isPlain hplain))]
  | list items ih =>
    cases hview : type.view with
    | list element =>
      rw [Literal.problems_list hview, Literal.problems_list hview,
        List.map_congr_left fun item hitem => ih item hitem element]
    | named name =>
      rw [Literal.problems_list_leaf hview, Literal.problems_list_leaf hview,
        h.leafProblems_eq (·.parseLiteral_eq rfl)]
  | object fields ih =>
    by_cases hinput : ∃ inputType, schema.namedType? type = some (.inputObject inputType)
    · obtain ⟨inputType, hfind⟩ := hinput
      have hfields : Literal.fieldProblems schema fields = Literal.fieldProblems schema' fields := by
        rw [Literal.fieldProblems_eq_map, Literal.fieldProblems_eq_map]
        exact List.map_congr_left fun field hfield =>
          congrArg (Prod.mk field.1) (funext fun type => ih field hfield type)
      rw [Literal.problems_object hfind,
        Literal.problems_object ((h.namedType?_eq_inputObject_iff type inputType).1 hfind), hfields,
        h.nullLiteralProblems_eq]
    · have hinput' : ¬ ∃ inputType, schema'.namedType? type = some (.inputObject inputType) := by
        simpa only [h.namedType?_eq_inputObject_iff] using hinput
      rw [Literal.problems_object_leaf hinput, Literal.problems_object_leaf hinput',
        h.leafProblems_eq (·.parseLiteral_eq rfl)]

theorem literalProblems_eq (type : TypeRef) (literal : Option Literal) :
    schema.literalProblems type literal = schema'.literalProblems type literal := by
  cases literal with
  | none => exact congrFun h.nullLiteralProblems_eq type
  | some literal => exact h.literal_problems_eq literal type

/-- A runtime value has the same problems. -/
theorem problems_eq (value : Json) (type : TypeRef) :
    value.problems schema type = value.problems schema' type := by
  induction value generalizing type with
  | null => rfl
  | plain value hplain =>
    rw [Json.problems_plain hplain, Json.problems_plain hplain,
      h.leafProblems_eq (·.parseValue_eq value)]
  | array items ih =>
    cases hview : type.view with
    | list element =>
      rw [Json.problems_array hview, Json.problems_array hview,
        List.map_congr_left fun item hitem => ih item hitem element]
    | named name =>
      rw [Json.problems_array_leaf hview, Json.problems_array_leaf hview,
        h.leafProblems_eq (·.parseValue_eq _)]
  | object entries ih =>
    by_cases hinput : ∃ inputType, schema.namedType? type = some (.inputObject inputType)
    · obtain ⟨inputType, hfind⟩ := hinput
      have hentries : Json.entryProblems schema entries = Json.entryProblems schema' entries := by
        rw [Json.entryProblems_eq_map, Json.entryProblems_eq_map]
        exact List.map_congr_left fun entry hentry =>
          congrArg (Prod.mk entry.1) (funext fun type => ih entry hentry type)
      rw [Json.problems_object hfind,
        Json.problems_object ((h.namedType?_eq_inputObject_iff type inputType).1 hfind), hentries]
    · have hinput' : ¬ ∃ inputType, schema'.namedType? type = some (.inputObject inputType) := by
        simpa only [h.namedType?_eq_inputObject_iff] using hinput
      rw [Json.problems_object_leaf hinput, Json.problems_object_leaf hinput',
        h.leafProblems_eq (·.parseValue_eq _)]

/-! ## §5. Variables and arguments. -/

theorem inputTypeError?_eq (definition : VariableDefinition) :
    definition.inputTypeError? schema = definition.inputTypeError? schema' := by
  unfold VariableDefinition.inputTypeError?
  rcases h.find?_cases definition.typeRef.typeName with ⟨hfind, hfind'⟩ | ⟨_, _, hfind, hfind', htype⟩
  · simp only [hfind, hfind']
  · have hinput := htype.isInput_eq
    simp only [hfind, hfind', hinput]

theorem resolve_eq (inputs : Variables) (definition : VariableDefinition) :
    definition.resolve schema inputs = definition.resolve schema' inputs := by
  unfold VariableDefinition.resolve VariableDefinition.resolveInput VariableDefinition.resolveOmitted
  simp only [h.inputTypeError?_eq, h.problems_eq, h.coerceValue_eq, h.literalValue_eq]

theorem coerceVariables_eq (operation : Operation) (inputs : Variables) :
    schema.coerceVariables operation inputs = schema'.coerceVariables operation inputs := by
  have hall : ∀ (definitions : List VariableDefinition) (values : Variables),
      schema.coerceDefinitions inputs values definitions =
        schema'.coerceDefinitions inputs values definitions := by
    intro definitions
    induction definitions with
    | nil => exact fun _ => rfl
    | cons definition definitions ih =>
      intro values
      unfold coerceDefinitions
      simp only [h.resolve_eq, ih]
  exact hall operation.variableDefinitions []

theorem resolveArgument_eq (env : Variables) (field : Field) (parameter : InputDef) :
    parameter.resolveArgument schema env field = parameter.resolveArgument schema' env field := by
  have hdefault : parameter.parameterDefault schema = parameter.parameterDefault schema' := by
    unfold InputDef.parameterDefault
    simp only [h.literalValue_eq]
  unfold InputDef.resolveArgument
  simp only [h.literalValue_eq, hdefault]

theorem coerceArguments_eq (definition : FieldDef) (field : Field) (env : Variables) :
    schema.coerceArguments definition field env = schema'.coerceArguments definition field env := by
  unfold coerceArguments
  induction definition.parameters.toList with
  | nil => rfl
  | cons parameter parameters ih =>
    unfold coerceParameters
    simp only [h.resolveArgument_eq, ih]

/-! ## §6. Shapes. -/

theorem memberShape_eq (field : InputDef) : field.memberShape schema = field.memberShape schema' := by
  have hshape : Shape.ofType? schema field.type = Shape.ofType? schema' field.type := by
    unfold Shape.ofType?
    exact h.bind_namedType?_eq (fun htype => by rw [htype.ofDefinition?_eq]) field.type
  unfold InputDef.memberShape
  simp only [hshape, h.literalValue_eq]

/-- Interchangeable types register the same shape. -/
theorem addType_eq (registry : ShapeRegistry) {type type' : TypeDef} (htype : type.Interchangeable type') :
    registry.addType schema type = registry.addType schema' type' := by
  cases htype with
  | scalar => rfl
  | same type =>
    cases type with
    | inputObject type =>
      show registry.addObject ⟨type.name, type.fields.toList.map (·.memberShape schema)⟩ = _
      rw [funext h.memberShape_eq]
      rfl
    | _ => rfl

end Schema.Interchangeable

end GraphQLCheck
