/-
  GraphQLCheck.Proofs.Shape.Completion
  ────────────────────────────────────
  What coercion yields can be converted to the shape of its type, and comes back complete.

  The shape of a type is made from the same parts as the type: a list is a list, a name is the enum, the
  object or the simple shape that it stands for, and what does not exclude null is nullable.  So the
  conversion of a conforming value follows the way in which it conforms.  It changes a value in four
  places only, which `Json.completed` describes without a word about shapes: a null list is an empty one,
  a null enum its first value, an identifier in digits a text, and a field that an object leaves out null.
  Defaults of members are never needed, for a field with a default is never left out.

  Main facts:
    * `Json.completed`                  — a value of a type, completed
    * `Schema.Conforms.exists_completed` — a conforming value converts to its completion
    * `coerced_value_is_completed`       — so does every value that coercion yields
-/
import GraphQLCheck.Proofs.Coercion.Conformance
import GraphQLCheck.Proofs.Coercion.Variables
import GraphQLCheck.Proofs.Shape.Conversion
import GraphQLCheck.Proofs.Shape.Registry

namespace GraphQLCheck

/-! ## §1. Completed values. -/

/-- What null stands for, by the type of its position: an empty list, the first value of an enum, or
null. -/
def Schema.completedNull (schema : Schema) (type : TypeRef) : Json :=
  match type.view with
  | .list _ => .array []
  | .named name =>
    match schema.find? name with
    | some (.enum enumType) => (enumType.values.names.head?.map .string).getD .null
    | _ => .null

mutual
/-- A value of a type, completed: null as `Schema.completedNull` says, an identifier in digits as a text,
and every field of an object in its place, null if the object leaves it out. -/
def Json.completed (schema : Schema) : Json → TypeRef → Json
  | .null, type => schema.completedNull type
  | .array items, type =>
    match type.view with
    | .list element => .array (itemsCompleted schema items element)
    | .named _ => .array items
  | .object entries, type =>
    match schema.namedType? type with
    | some (.inputObject inputType) =>
      .object (inputType.fields.toList.map fun field =>
        (field.name,
          (((entriesCompleted schema entries).lookup field.name).map (· field.type)).getD .null))
    | _ => .object entries
  | .number n, type => if type.typeName = "ID" then .string n.render else .number n
  | .bool b, _ => .bool b
  | .string s, _ => .string s
/-- The items of a list, completed. -/
def Json.itemsCompleted (schema : Schema) : List Json → TypeRef → List Json
  | [], _ => []
  | item :: items, element => item.completed schema element :: itemsCompleted schema items element
/-- The entries of an object, completed at whatever types they have. -/
def Json.entriesCompleted (schema : Schema) : List (String × Json) → List (String × (TypeRef → Json))
  | [] => []
  | (name, value) :: entries =>
    (name, fun type => value.completed schema type) :: entriesCompleted schema entries
end

namespace Json

variable {schema : Schema} {type : TypeRef}

theorem itemsCompleted_eq_map (items : List Json) (element : TypeRef) :
    itemsCompleted schema items element = items.map fun item => item.completed schema element := by
  induction items with
  | nil => rfl
  | cons item items ih => rw [itemsCompleted, ih, List.map_cons]

theorem lookup_entriesCompleted (entries : List (String × Json)) (name : String) :
    (entriesCompleted schema entries).lookup name =
      (entries.lookup name).map fun value type => value.completed schema type := by
  have hmap : entriesCompleted schema entries =
      entries.map fun entry => (entry.1, fun type => entry.2.completed schema type) := by
    induction entries with
    | nil => rfl
    | cons entry entries ih =>
      obtain ⟨key, value⟩ := entry
      rw [entriesCompleted, ih, List.map_cons]
  rw [hmap]
  exact lookup_map_entries entries (fun value type => value.completed schema type) name

theorem completed_array {items : List Json} {element : TypeRef} (h : type.view = .list element) :
    (Json.array items).completed schema type =
      .array (items.map fun item => item.completed schema element) := by
  rw [← itemsCompleted_eq_map]
  unfold completed
  simp only [h]

theorem completed_object {entries : List (String × Json)} {inputType : InputObjectType}
    (h : schema.namedType? type = some (.inputObject inputType)) :
    (Json.object entries).completed schema type =
      .object (inputType.fields.toList.map fun field =>
        (field.name,
          ((entries.lookup field.name).map fun value => value.completed schema field.type).getD .null)) := by
  conv => lhs; unfold completed
  simp only [h, lookup_entriesCompleted, Option.map_map, Function.comp_def]

/-- It does not matter to a completion whether null is excluded. -/
theorem completed_nonNull (value : Json) (inner : TypeRef) :
    value.completed schema (.nonNull inner) = value.completed schema inner := by
  cases value <;> rfl

/-- Every value of a scalar is complete, but an identifier in digits. -/
theorem completed_scalar {name : String} {scalar : ScalarType}
    (hfind : schema.find? name = some (.scalar scalar)) (hname : name ≠ "ID") (value : Json) :
    value.completed schema (.named name) = value := by
  cases value with
  | null =>
    show schema.completedNull (.named name) = _
    simp only [Schema.completedNull, TypeRef.view, hfind]
  | object entries =>
    unfold completed Schema.namedType?
    simp only [TypeRef.typeName, hfind]
  | number n =>
    show (if name = "ID" then Json.string n.render else .number n) = _
    rw [if_neg hname]
  | _ => rfl

end Json

/-! ## §2. Simple shapes. -/

theorem Shape.ofScalar_cases (name : String) :
    Shape.ofScalar name = .any ∨ ∃ kind, Shape.ofScalar name = .primitive kind := by
  unfold ofScalar
  split
  next => exact .inr ⟨_, rfl⟩
  next => exact .inr ⟨_, rfl⟩
  next => exact .inr ⟨_, rfl⟩
  next => exact .inr ⟨_, rfl⟩
  next => exact .inr ⟨_, rfl⟩
  next => exact .inl rfl

/-- A scalar without the name of a built-in one has any shape. -/
theorem Shape.ofScalar_of_not_builtin {name : String}
    (h : ScalarType.builtinNames.contains name = false) : Shape.ofScalar name = .any := by
  unfold ofScalar
  split
  next => exact absurd h (by decide)
  next => exact absurd h (by decide)
  next => exact absurd h (by decide)
  next => exact absurd h (by decide)
  next => exact absurd h (by decide)
  next => rfl

/-- A built-in scalar has a simple shape, and its values convert to that. -/
theorem ScalarType.BuiltinValue.exists_completed {schema : Schema} {type : ScalarType} {value : Json}
    (h : type.BuiltinValue value) (hfind : schema.find? type.name = some (.scalar type)) :
    ∃ kind result, Shape.ofScalar type.name = .primitive kind ∧ kind.convert? value = some result ∧
      result.toJson = value.completed schema (.named type.name) := by
  cases h with
  | boolean b =>
    exact ⟨.boolean, .boolean b, rfl, rfl, (Json.completed_scalar hfind (by decide) _).symm⟩
  | float x =>
    exact ⟨.float, .float (.finite x), rfl, rfl, (Json.completed_scalar hfind (by decide) _).symm⟩
  | textId s => exact ⟨.string, .string s, rfl, rfl, rfl⟩
  | integerId i => exact ⟨.string, .string (JsonNumber.integer i).render, rfl, rfl, rfl⟩
  | @int i hfits =>
    refine ⟨.int, .int i, rfl, ?_, (Json.completed_scalar hfind (by decide) _).symm⟩
    have hwide : fitsInt64 i = true := by
      unfold fitsInt32 at hfits
      unfold fitsInt64
      simp only [Bool.and_eq_true, decide_eq_true_eq] at hfits ⊢
      omega
    show ((int64? i).filter fitsInt32).map Materialized.int = _
    unfold int64?
    rw [if_pos hwide, Option.filter_some_pos hfits]
    rfl
  | string s => exact ⟨.string, .string s, rfl, rfl, (Json.completed_scalar hfind (by decide) _).symm⟩

/-! ## §3. Conforming values. -/

/-- What a schema needs for all values of its input types to convert: fields are of input types, enums have
values, and names of the values of an enum, or of the fields of an input object, differ by more than the
case of their letters. -/
structure Schema.Completable (schema : Schema) : Prop where
  fieldType : ∀ type, .inputObject type ∈ schema.types.toList → ∀ field ∈ type.fields.toList,
    schema.IsInputType field.type
  fieldNames : ∀ type, .inputObject type ∈ schema.types.toList →
    Text.DistinctIgnoringCase type.fields.names
  hasValue : ∀ type, .enum type ∈ schema.types.toList → type.values.names ≠ []
  valueNames : ∀ type, .enum type ∈ schema.types.toList → Text.DistinctIgnoringCase type.values.names

namespace Schema

variable {schema : Schema} {name : String} {default : MaterializeDefault}

/-- The shape of an input type. -/
theorem IsInputType.exists_shape {type : TypeRef} (h : schema.IsInputType type) :
    ∃ definition named, schema.namedType? type = some definition ∧
      Shape.ofDefinition? definition = some named ∧
      Shape.ofType? schema type = some (Shape.ofLayers named false type) := by
  obtain ⟨definition, hfind, hinput⟩ := h
  have hnamed : ∃ named, Shape.ofDefinition? definition = some named := by
    cases definition with
    | enum type => exact ⟨_, rfl⟩
    | inputObject type => exact ⟨_, rfl⟩
    | scalar type => exact ⟨_, rfl⟩
    | interface type => cases hinput
    | object type => cases hinput
    | union type => cases hinput
  obtain ⟨named, hnamed⟩ := hnamed
  refine ⟨definition, named, hfind, hnamed, ?_⟩
  unfold Shape.ofType?
  rw [hfind]
  show ((Shape.ofDefinition? definition).bind fun named => some (Shape.ofLayers named false type)) = _
  rw [hnamed]
  rfl

/-- A null where it may be converts to what it stands for. -/
theorem Completable.exists_completedNull (h : schema.Completable) {type : TypeRef}
    (hnullable : type.isNonNull = false) {definition : TypeDef}
    (hfind : schema.namedType? type = some definition) {named : Shape}
    (hnamed : Shape.ofDefinition? definition = some named) :
    ∃ result, schema.inputShapes.materializeNull (Shape.ofLayers named false type) = .value result ∧
      result.toJson = schema.completedNull type := by
  cases type with
  | list element => exact ⟨.list [], rfl, rfl⟩
  | nonNull inner => cases hnullable
  | named name =>
    have hfind : schema.find? name = some definition := hfind
    cases definition with
    | enum enumType =>
      cases hnamed
      have hname : enumType.name = name := (Declarations.mem_of_find? hfind).2
      have hvalues := h.hasValue enumType (mem_of_find? hfind)
      cases hnames : enumType.values.names with
      | nil => exact absurd hnames hvalues
      | cons first rest =>
        refine ⟨.enum first 0, ?_, ?_⟩
        · show schema.inputShapes.materializeEnum enumType.name .null = _
          unfold ShapeRegistry.materializeEnum
          rw [hname, enum?_inputShapes hfind, hnames]
          rfl
        · simp only [completedNull, TypeRef.view, hfind, hnames]
          rfl
    | inputObject inputType =>
      cases hnamed
      refine ⟨.null, rfl, ?_⟩
      simp only [completedNull, TypeRef.view, hfind]
      rfl
    | scalar scalar =>
      cases hnamed
      refine ⟨.null, ?_, ?_⟩
      · show schema.inputShapes.materializeNull (.nullable (Shape.ofScalar scalar.name)) = _
        rcases Shape.ofScalar_cases scalar.name with hshape | ⟨kind, hshape⟩ <;> rw [hshape] <;> rfl
      · simp only [completedNull, TypeRef.view, hfind]
        rfl
    | interface _ => cases hnamed
    | object _ => cases hnamed
    | union _ => cases hnamed

/-- A value of a scalar other than null converts to what it is completed to. -/
theorem exists_completed_scalar (hbuilt : schema.Built) {scalar : ScalarType}
    (hfind : schema.find? name = some (.scalar scalar)) {value : Json} (hyields : scalar.Yields value)
    (hnull : value ≠ .null) (required : Bool) :
    ∃ result, value.materializeWith schema.inputShapes default
        (Shape.ofLayers.layer required (Shape.ofScalar scalar.name)) = .value result ∧
      result.toJson = value.completed schema (.named name) := by
  have hname : scalar.name = name := (Declarations.mem_of_find? hfind).2
  have hleaf : value.materializeWith schema.inputShapes default
      (Shape.ofLayers.layer required (Shape.ofScalar scalar.name)) =
        schema.inputShapes.materializeLeaf value (Shape.ofScalar scalar.name) := by
    rw [Json.materializeWith_eq_leaf hnull, ShapeRegistry.materializeLeaf_layer]
    all_goals
      intro other
      rcases Shape.ofScalar_cases scalar.name with hshape | ⟨kind, hshape⟩ <;> rw [hshape] <;>
        cases required <;> simp [Shape.ofLayers.layer, Shape.inner]
  rw [hleaf]
  cases hbuiltin : scalar.isBuiltin with
  | true =>
    have hvalue : scalar.BuiltinValue value := ScalarType.builtinValue_of_yields
      (hbuilt.builtin_of_isBuiltin (mem_of_find? hfind) hbuiltin) hyields hnull
    rw [← hname] at hfind ⊢
    obtain ⟨kind, result, hshape, hconvert, hcompleted⟩ := hvalue.exists_completed hfind
    refine ⟨result, ?_, hcompleted⟩
    rw [hshape]
    show Outcome.ofOption _ (kind.convert? value) = _
    rw [hconvert]
    rfl
  | false =>
    -- a custom scalar has any shape, and its values stay as they are
    have hid : name ≠ "ID" := by
      rintro rfl
      unfold ScalarType.isBuiltin at hbuiltin
      rw [hname] at hbuiltin
      exact absurd hbuiltin (by decide)
    refine ⟨.json value, ?_, (Json.completed_scalar hfind hid value).symm⟩
    rw [Shape.ofScalar_of_not_builtin hbuiltin]
    rfl

/-- A value of a scalar converts to what it is completed to, null among them. -/
theorem exists_completed_scalarType (hbuilt : schema.Built) (hcompletable : schema.Completable)
    {scalar : ScalarType} (hscalar : schema.find? name = some (.scalar scalar)) {value : Json}
    (hyields : scalar.Yields value) {definition : TypeDef}
    (hfind : schema.namedType? (.named name) = some definition) {named : Shape}
    (hnamed : Shape.ofDefinition? definition = some named) (required : Bool)
    (hrequired : required = true → value ≠ .null) :
    ∃ result, value.materializeWith schema.inputShapes default
        (Shape.ofLayers named required (.named name)) = .value result ∧
      result.toJson = value.completed schema (.named name) := by
  by_cases hnull : value = .null
  · subst hnull
    cases required with
    | true => exact absurd rfl (hrequired rfl)
    | false => exact hcompletable.exists_completedNull rfl hfind hnamed
  · have hfind : schema.find? name = some definition := hfind
    rw [hscalar] at hfind
    cases hfind
    cases hnamed
    exact exists_completed_scalar hbuilt hscalar hyields hnull required

/-- A field of an input object finds its source among the entries of a value as a member does, or else is
null. -/
theorem exists_completed_member {field : InputDef} {entries : List (String × Json)} {keys : List String}
    (hdistinct : Text.DistinctIgnoringCase keys) (hfield : field.name ∈ keys)
    (hkeys : (entries.map Prod.fst).Sublist keys)
    (hpresent : field.isAlwaysPresent = true → field.name ∈ entries.map Prod.fst)
    (hgiven : ∀ value, entries.lookup field.name = some value →
      ∃ result, value.materializeWith schema.inputShapes default (field.memberShape schema).shape =
          .value result ∧ result.toJson = value.completed schema field.type) :
    ∃ result, (field.memberShape schema).materialize default
        (Json.materializeEntries schema.inputShapes default entries) = .value result ∧
      result.toJson =
        ((entries.lookup field.name).map fun value => value.completed schema field.type).getD .null := by
  -- case does not matter, as all keys are names of fields
  have hfind : ((Json.materializeEntries schema.inputShapes default entries).find? fun entry =>
      Text.sameIgnoringCase entry.1 field.name) =
        ((Json.materializeEntries schema.inputShapes default entries).lookup field.name).map
          fun value => (field.name, value) := by
    apply find?_sameIgnoringCase
    rw [Json.keys_materializeEntries]
    exact fun name hname hsame => hdistinct name (hkeys.subset hname) field.name hfield hsame
  rw [Json.lookup_materializeEntries] at hfind
  unfold MemberShape.materialize
  rw [show (field.memberShape schema).name = field.name from rfl, hfind]
  cases hlookup : entries.lookup field.name with
  | some value =>
    obtain ⟨result, hresult, hcompleted⟩ := hgiven value hlookup
    refine ⟨result, ?_, hcompleted⟩
    show (value.materializeWith schema.inputShapes default (field.memberShape schema).shape).mapFailure _ = _
    rw [hresult]
    rfl
  | none =>
    -- the member has no default either
    obtain ⟨_, hdefault⟩ := InputDef.of_lookup_eq_none hpresent hlookup
    have hmember : (field.memberShape schema).defaultValue = none := by
      unfold InputDef.memberShape
      rw [hdefault]
      rfl
    refine ⟨.null, ?_, rfl⟩
    simp only [Option.map_none, hmember]

/-- A value of an enum converts to the member with its name. -/
theorem Completable.exists_completed_enum (hcompletable : schema.Completable) {enumType : EnumType}
    (henum : schema.find? name = some (.enum enumType)) {value : String}
    (hcontains : enumType.values.contains value = true) (required : Bool) :
    ∃ result, (Json.string value).materializeWith schema.inputShapes default
        (Shape.ofLayers.layer required (.enum enumType.name)) = .value result ∧
      result.toJson = .string value := by
  have hname : enumType.name = name := (Declarations.mem_of_find? henum).2
  have hmem : value ∈ enumType.values.names := List.contains_iff_mem.1 hcontains
  obtain ⟨number, hnumber⟩ : ∃ number,
      (EnumShape.ofNames name enumType.values.names).findName? value = some (value, number) :=
    EnumShape.findName?_ofNames (hcompletable.valueNames enumType (mem_of_find? henum)) hmem
  have htext : schema.inputShapes.materializeEnum name (.string value) = .value (.enum value number) :=
    ShapeRegistry.materializeEnum_text (enum?_inputShapes henum) hnumber
  refine ⟨.enum value number, ?_, rfl⟩
  show schema.inputShapes.materializeLeaf (.string value)
    (Shape.ofLayers.layer required (.enum enumType.name)) = _
  rw [ShapeRegistry.materializeLeaf_layer, hname]
  exact htext

/-- An object converts to its completion if what it gives its fields does. -/
theorem Completable.exists_completed_object (hcompletable : schema.Completable)
    {inputType : InputObjectType} (hinput : schema.find? name = some (.inputObject inputType))
    {entries : List (String × Json)} (hkeys : (entries.map Prod.fst).Sublist inputType.fields.names)
    (hpresent : ∀ field ∈ inputType.fields.toList, field.isAlwaysPresent = true →
      field.name ∈ entries.map Prod.fst)
    (hgiven : ∀ field ∈ inputType.fields.toList, ∀ value, entries.lookup field.name = some value →
      ∃ result, value.materializeWith schema.inputShapes default (field.memberShape schema).shape =
          .value result ∧ result.toJson = value.completed schema field.type) (required : Bool) :
    ∃ result, (Json.object entries).materializeWith schema.inputShapes default
        (Shape.ofLayers.layer required (.object inputType.name)) = .value result ∧
      result.toJson = (Json.object entries).completed schema (.named name) := by
  have hname : inputType.name = name := (Declarations.mem_of_find? hinput).2
  have hnames := hcompletable.fieldNames inputType (mem_of_find? hinput)
  have hdistinct : (inputType.fields.toList.map fun field => (field.memberShape schema).name).Nodup :=
    inputType.fields.distinct
  obtain ⟨results, hresults, hcompleted⟩ := exists_materializeMembers
    (fun field hfield => exists_completed_member hnames (List.mem_map_of_mem hfield) hkeys
      (hpresent field hfield) (hgiven field hfield)) hdistinct
  refine ⟨.object results, ?_, ?_⟩
  · have hobject := object?_inputShapes hinput
    rw [← hname] at hobject
    have hinner : (Shape.ofLayers.layer required (.object inputType.name)).inner =
        .object inputType.name := by
      cases required <;> rfl
    unfold Json.materializeWith
    simp only [hinner, hobject]
    rw [hresults]
    rfl
  · have hnamedType : schema.namedType? (.named name) = some (.inputObject inputType) := hinput
    show Json.object (Materialized.membersToJson results) = _
    rw [hcompleted, Json.completed_object hnamedType]
    rfl

/-- The shape of a field's member is that of the field's type. -/
theorem IsInputType.exists_memberShape {field : InputDef} (h : schema.IsInputType field.type) :
    ∃ definition named, schema.namedType? field.type = some definition ∧
      Shape.ofDefinition? definition = some named ∧
      (field.memberShape schema).shape = Shape.ofLayers named false field.type := by
  obtain ⟨definition, named, hfind, hnamed, hshape⟩ := h.exists_shape
  refine ⟨definition, named, hfind, hnamed, ?_⟩
  unfold InputDef.memberShape
  rw [hshape]
  rfl

/-- **A value of an input type converts to what it is completed to.**  `required` says that null is
excluded by an outer layer, so that the value is not null. -/
theorem Conforms.exists_completed (hbuilt : schema.Built) (hcompletable : schema.Completable)
    {type : TypeRef} {value : Json} (h : schema.Conforms type value) {definition : TypeDef}
    (hfind : schema.namedType? type = some definition) {named : Shape}
    (hnamed : Shape.ofDefinition? definition = some named) (required : Bool)
    (hrequired : required = true → value ≠ .null) :
    ∃ result, value.materializeWith schema.inputShapes default (Shape.ofLayers named required type) =
        .value result ∧ result.toJson = value.completed schema type := by
  -- `required` is true only at what is directly inside an exclusion of null
  induction h generalizing definition named required with
  | null hnullable =>
    cases required with
    | true => exact absurd rfl (hrequired rfl)
    | false => exact hcompletable.exists_completedNull hnullable hfind hnamed
  | nonNull hnull _ ih =>
    rw [Json.completed_nonNull]
    exact ih hfind hnamed true fun _ => hnull
  | @list element items _ ih =>
    obtain ⟨results, hresults, hcompleted⟩ := Json.exists_materializeItems
      (fun item hitem => ih item hitem hfind hnamed false fun h => absurd h Bool.false_ne_true) 0
    refine ⟨.list results, ?_, ?_⟩
    · -- a nullable list is read as a list
      cases required
      all_goals
        show (Json.materializeItems schema.inputShapes default items 0
          (Shape.ofLayers named false element)).map Materialized.list = _
        rw [hresults]
        rfl
    · show Json.array (Materialized.itemsToJson results) = _
      rw [hcompleted, Json.completed_array rfl]
  | @enum name value enumType henum hcontains =>
    have hdefinition : schema.find? name = some definition := hfind
    rw [henum] at hdefinition
    cases hdefinition
    cases hnamed
    exact hcompletable.exists_completed_enum henum hcontains required
  | @inputObject name inputType entries hinput hkeys _ hpresent ih =>
    have hdefinition : schema.find? name = some definition := hfind
    rw [hinput] at hdefinition
    cases hdefinition
    cases hnamed
    -- the shapes of the fields start anew, so nothing is required of them from outside
    apply hcompletable.exists_completed_object hinput hkeys hpresent
    intro field hfield value hlookup
    obtain ⟨fieldDefinition, fieldShape, hfieldFind, hfieldShape, hshape⟩ :=
      (hcompletable.fieldType inputType (mem_of_find? hinput) field hfield).exists_memberShape
    rw [hshape]
    exact ih field hfield value (mem_of_lookup hlookup) hfieldFind hfieldShape false
      fun h => absurd h Bool.false_ne_true
  | @scalarValue name scalar sent value hscalar hread =>
    exact exists_completed_scalarType hbuilt hcompletable hscalar (.inl ⟨sent, hread⟩) hfind hnamed
      required hrequired
  | @scalarLiteral name scalar literal value hscalar hread =>
    exact exists_completed_scalarType hbuilt hcompletable hscalar (.inr ⟨literal, hread⟩) hfind hnamed
      required hrequired

end Schema

/-- **What coercion yields always converts to the shape of its type, and comes back completed.**  In a
built schema whose custom scalars make null out of nothing but null, whose defaults are finite, whose input
fields are of input types, whose enums have values, and in which names of values and of fields differ by
more than case, every value that a runtime value with integers of 64 bits is coerced to at an input type
converts to the shape of that type, and what it is converted to stands for the completion of the value. -/
theorem coerced_value_is_completed {schema : Schema} (hbuilt : schema.Built)
    (hcustom : schema.CustomScalars ScalarType.NullFree) (hfinite : schema.FiniteDefaults)
    (hcompletable : schema.Completable) {type : TypeRef} (hinput : schema.IsInputType type)
    {sent value : Json} (hsized : sent.isSized = true) (h : schema.coerceValue type sent = .value value) :
    ∃ shape result, Shape.ofType? schema type = some shape ∧
      schema.inputShapes.materialize shape value = .value result ∧
      result.toJson = value.completed schema type := by
  have hscalars := hbuilt.forall_scalar (fun _ => ScalarType.nullFree_of_builtin) hcustom
  have hdefaults := Schema.conforms_of_default (fun scalar hmem => (hscalars scalar hmem).1) hfinite
    schema.defaultCount
  have hconforms : schema.Conforms type value := Json.conforms_of_coerceWith hdefaults
    (fun scalar hmem => (hscalars scalar hmem).2) hsized h
  obtain ⟨definition, named, hfind, hnamed, hshape⟩ := hinput.exists_shape
  obtain ⟨result, hresult, hcompleted⟩ := hconforms.exists_completed hbuilt hcompletable hfind hnamed false
    fun h => absurd h Bool.false_ne_true
  exact ⟨_, result, hshape, hresult, hcompleted⟩

namespace Search

theorem eq_of_mem_inputObjects {type : InputObjectType} (h : .inputObject type ∈ schema.types.toList) :
    type = range ∨ type = filter := by
  simpa [schema, types, SchemaBuilder.builtinTypes, ScalarType.builtins] using h

theorem eq_of_mem_enums {type : EnumType} (h : .enum type ∈ schema.types.toList) : type = order := by
  simpa [schema, types, SchemaBuilder.builtinTypes, ScalarType.builtins] using h

theorem completable : schema.Completable where
  fieldType := by
    intro type hmem field hfield
    rcases eq_of_mem_inputObjects hmem with rfl | rfl
    · simp only [range, List.mem_cons, List.not_mem_nil, or_false] at hfield
      rcases hfield with rfl | rfl
      all_goals exact ⟨_, rfl, rfl⟩
    · simp only [filter, List.mem_cons, List.not_mem_nil, or_false] at hfield
      rcases hfield with rfl | rfl | rfl | rfl | rfl
      all_goals exact ⟨_, rfl, rfl⟩
  fieldNames := by
    intro type hmem
    rcases eq_of_mem_inputObjects hmem with rfl | rfl <;> decide
  hasValue := by
    intro type hmem
    rw [eq_of_mem_enums hmem]
    decide
  valueNames := by
    intro type hmem
    rw [eq_of_mem_enums hmem]
    decide

/-- A filter with null tags and a null order, and without the fields `since` and `or`: it has no tags, the
first order, and null for the rest. -/
theorem filter_is_completed :
    schema.coerceValue (.named "Filter")
        (.object [("tags", .null), ("order", .null), ("range", .object [])]) =
      .value (.object [("tags", .null), ("order", .null), ("range", .object [("from", .ofInt 1)])]) ∧
    ∃ shape result, Shape.ofType? schema (.named "Filter") = some shape ∧
      schema.inputShapes.materialize shape
          (.object [("tags", .null), ("order", .null), ("range", .object [("from", .ofInt 1)])]) =
        .value result ∧
      result.toJson = .object [("tags", .array []), ("order", .string "ASC"),
        ("range", .object [("from", .ofInt 1), ("to", .null)]), ("since", .null), ("or", .null)] := by
  refine ⟨rfl, ?_⟩
  have hcustom := customScalars (ScalarType.nullFree_of_anyScalar rfl)
  have hinput : schema.IsInputType (.named "Filter") := ⟨_, rfl, rfl⟩
  have hsized : Json.isSized
      (.object [("tags", .null), ("order", .null), ("range", .object [])]) = true := rfl
  obtain ⟨shape, result, hshape, hresult, hcompleted⟩ :=
    coerced_value_is_completed built hcustom finiteDefaults completable hinput hsized rfl
  exact ⟨shape, result, hshape, hresult, hcompleted⟩

end Search

end GraphQLCheck
