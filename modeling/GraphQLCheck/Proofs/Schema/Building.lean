/-
  GraphQLCheck.Proofs.Schema.Building
  ───────────────────────────────────
  What building a schema comes to.

  Building looks at three things in turn: that each coercion has its scalar, that each root type is an
  object type, and that every name that some type mentions is defined.  Giving scalars their coercions
  changes neither a name nor what a type mentions, so all three are about the types as they were
  registered.

  Main results:
    * `TypeDef.mem_references_iff`      — a type's references are the names that it mentions
    * `SchemaBuilder.build_of_fits`     — what fits together has a schema if no reference dangles
    * `SchemaBuilder.build_of_not_fits` — nothing else has one
    * `SchemaBuilder.build_eq_ok_iff`   — so exactly the closed builders have a schema, and which one
-/
import GraphQLCheck.Proofs.Schema.Steps

namespace GraphQLCheck

/-! ## §1. What a type mentions. -/

/-- A type mentions a name in the type of a field, of a parameter or of an input field, among the
interfaces that it implements, or among its members. -/
inductive TypeDef.Mentions : TypeDef → Referrer → String → Prop where
  | field {type : TypeDef} {field : FieldDef} : field ∈ type.fields →
      Mentions type (.field type.name field.name) field.type.typeName
  | parameter {type : TypeDef} {field : FieldDef} {parameter : InputDef} : field ∈ type.fields →
      parameter ∈ field.parameters.toList →
      Mentions type (.parameter type.name field.name parameter.name) parameter.type.typeName
  | inputField {type : InputObjectType} {field : InputDef} : field ∈ type.fields.toList →
      Mentions (.inputObject type) (.inputField type.name field.name) field.type.typeName
  | interfaceOfInterface {type : FieldedType} {name : String} : name ∈ type.interfaces.toList →
      Mentions (.interface type) (.interface type.name) name
  | interfaceOfObject {type : FieldedType} {name : String} : name ∈ type.interfaces.toList →
      Mentions (.object type) (.object type.name) name
  | member {type : UnionType} {name : String} : name ∈ type.members.toList →
      Mentions (.union type) (.union type.name) name

theorem FieldDef.mem_references_iff {typeName : String} {field : FieldDef} {referrer : Referrer}
    {name : String} : (referrer, name) ∈ field.references typeName ↔
      (referrer = .field typeName field.name ∧ name = field.type.typeName) ∨
      ∃ parameter ∈ field.parameters.toList,
        referrer = .parameter typeName field.name parameter.name ∧ name = parameter.type.typeName := by
  unfold references
  rw [List.mem_cons, List.mem_map, Prod.mk.injEq]
  simp only [Prod.mk.injEq, eq_comm]

namespace TypeDef

/-- What the fields of a type refer to, the type mentions. -/
theorem Mentions.of_fields {type : TypeDef} {referrer : Referrer} {name : String}
    (h : (referrer, name) ∈ type.fields.flatMap (·.references type.name)) :
    type.Mentions referrer name := by
  obtain ⟨field, hfield, h⟩ := List.mem_flatMap.1 h
  rcases FieldDef.mem_references_iff.1 h with ⟨rfl, rfl⟩ | ⟨parameter, hparameter, rfl, rfl⟩
  · exact .field hfield
  · exact .parameter hfield hparameter

/-- The references of a type start with those of its fields. -/
theorem fields_references_subset (type : TypeDef) :
    type.fields.flatMap (·.references type.name) ⊆ type.references := by
  cases type with
  | interface type => exact List.subset_append_left ..
  | object type => exact List.subset_append_left ..
  | enum | inputObject | scalar | union => exact List.nil_subset _

/-- **A type's references are the names that it mentions.** -/
theorem mem_references_iff {type : TypeDef} {referrer : Referrer} {name : String} :
    (referrer, name) ∈ type.references ↔ type.Mentions referrer name := by
  constructor
  · intro h
    cases type with
    | enum type => cases h
    | scalar type => cases h
    | inputObject type =>
      obtain ⟨field, hfield, heq⟩ := List.mem_map.1 h
      cases heq
      exact .inputField hfield
    | interface type =>
      rcases List.mem_append.1 h with h | h
      · exact .of_fields h
      · obtain ⟨interface, hinterface, heq⟩ := List.mem_map.1 h
        cases heq
        exact .interfaceOfInterface hinterface
    | object type =>
      rcases List.mem_append.1 h with h | h
      · exact .of_fields h
      · obtain ⟨interface, hinterface, heq⟩ := List.mem_map.1 h
        cases heq
        exact .interfaceOfObject hinterface
    | union type =>
      obtain ⟨member, hmember, heq⟩ := List.mem_map.1 h
      cases heq
      exact .member hmember
  · intro h
    cases h with
    | field hfield =>
      apply fields_references_subset
      exact List.mem_flatMap.2 ⟨_, hfield, FieldDef.mem_references_iff.2 (.inl ⟨rfl, rfl⟩)⟩
    | parameter hfield hparameter =>
      apply fields_references_subset
      exact List.mem_flatMap.2
        ⟨_, hfield, FieldDef.mem_references_iff.2 (.inr ⟨_, hparameter, rfl, rfl⟩)⟩
    | inputField hfield => exact List.mem_map_of_mem hfield
    | interfaceOfInterface hname => exact List.mem_append_right _ (List.mem_map_of_mem hname)
    | interfaceOfObject hname => exact List.mem_append_right _ (List.mem_map_of_mem hname)
    | member hname => exact List.mem_map_of_mem hname

/-! ## §2. Coercions. -/

/-- The type with the coercion that is given under its name, if it can have one. -/
def withCoercionOf (coercions : List (String × ScalarCoercion)) (type : TypeDef) : TypeDef :=
  match coercions.lookup type.name with
  | some coercion => (type.withCoercion? coercion).getD type
  | none => type

/-- Only what a scalar converts its values by can change. -/
theorem withCoercionOf_cases (coercions : List (String × ScalarCoercion)) (type : TypeDef) :
    type.withCoercionOf coercions = type ∨ ∃ (scalar : ScalarType) (coercion : ScalarCoercion),
      type = .scalar scalar ∧ type.withCoercionOf coercions = .scalar { scalar with coercion } := by
  unfold withCoercionOf
  cases coercions.lookup type.name with
  | none => exact .inl rfl
  | some coercion =>
    cases type with
    | scalar scalar =>
      cases hbuiltin : scalar.isBuiltin with
      | true => exact .inl (by simp [withCoercion?, hbuiltin])
      | false => exact .inr ⟨scalar, coercion, rfl, by simp [withCoercion?, hbuiltin]⟩
    | enum | inputObject | interface | object | union => exact .inl rfl

variable (coercions : List (String × ScalarCoercion)) (type : TypeDef)

theorem name_withCoercionOf : (type.withCoercionOf coercions).name = type.name := by
  rcases withCoercionOf_cases coercions type with h | ⟨scalar, coercion, rfl, h⟩
  · rw [h]
  · rw [h]
    rfl

theorem references_withCoercionOf : (type.withCoercionOf coercions).references = type.references := by
  rcases withCoercionOf_cases coercions type with h | ⟨scalar, coercion, rfl, h⟩
  · rw [h]
  · rw [h]
    rfl

theorem withCoercionOf_of_isBuiltin {scalar : ScalarType} (h : scalar.isBuiltin = true) :
    (TypeDef.scalar scalar).withCoercionOf coercions = .scalar scalar := by
  unfold withCoercionOf
  cases coercions.lookup (TypeDef.scalar scalar).name with
  | none => rfl
  | some coercion => simp [withCoercion?, h]

theorem withCoercionOf_eq_object_iff {object : FieldedType} :
    type.withCoercionOf coercions = .object object ↔ type = .object object := by
  rcases withCoercionOf_cases coercions type with h | ⟨scalar, coercion, rfl, h⟩
  · rw [h]
  · rw [h]
    simp

/-- The first of some coercions, and then the others, if no other one is for the same scalar. -/
theorem withCoercionOf_cons {scalarName : String} {coercion : ScalarCoercion}
    (h : scalarName ∉ coercions.map Prod.fst) :
    type.withCoercionOf ((scalarName, coercion) :: coercions) =
      (type.withCoercionFor scalarName coercion).withCoercionOf coercions := by
  have hname := name_withCoercionFor scalarName coercion type
  unfold withCoercionOf
  rw [hname, List.lookup_cons]
  by_cases hsame : type.name = scalarName
  · have hrest : coercions.lookup type.name = none := lookup_eq_none_iff_not_mem.2 (hsame ▸ h)
    rw [hrest, hsame, beq_self_eq_true]
    unfold withCoercionFor
    rw [if_pos hsame]
  · rw [beq_eq_false_iff_ne.2 hsame]
    unfold withCoercionFor
    rw [if_neg hsame]

end TypeDef

namespace SchemaBuilder

/-- A name is that of a custom scalar. -/
def IsCustomScalar (types : Declarations TypeDef) (name : String) : Prop :=
  ∃ scalar, types.find? name = some (.scalar scalar) ∧ scalar.isBuiltin = false

theorem isCustomScalar_iff {types : Declarations TypeDef} {name : String} (coercion : ScalarCoercion) :
    IsCustomScalar types name ↔
      ∃ type, (types.find? name).bind (·.withCoercion? coercion) = some type := by
  unfold IsCustomScalar
  cases types.find? name with
  | none => simp
  | some type =>
    cases type with
    | scalar scalar => cases h : scalar.isBuiltin <;> simp [TypeDef.withCoercion?, h]
    | enum | inputObject | interface | object | union => simp [TypeDef.withCoercion?]

/-- The types with a coercion for one scalar. -/
def coerced (types : Declarations TypeDef) (scalarName : String) (coercion : ScalarCoercion) :
    Declarations TypeDef :=
  types.mapNamed (·.withCoercionFor scalarName coercion)
    (TypeDef.name_withCoercionFor scalarName coercion)

theorem applyCoercion_of_custom {types : Declarations TypeDef} {entry : String × ScalarCoercion}
    (h : IsCustomScalar types entry.1) : applyCoercion types entry = .ok (coerced types entry.1 entry.2) := by
  obtain ⟨type, htype⟩ := (isCustomScalar_iff entry.2).1 h
  unfold applyCoercion
  rw [htype]
  rfl

theorem applyCoercion_of_not_custom {types : Declarations TypeDef} {entry : String × ScalarCoercion}
    (h : ¬IsCustomScalar types entry.1) :
    applyCoercion types entry = .error (.coercionForUndefinedScalar entry.1) := by
  unfold applyCoercion
  split
  next type htype => exact absurd ((isCustomScalar_iff entry.2).2 ⟨type, htype⟩) h
  next => rfl

/-- A coercion makes no scalar of what is none, nor the other way round. -/
theorem isCustomScalar_coerced {types : Declarations TypeDef} {scalarName : String}
    {coercion : ScalarCoercion} {name : String} :
    IsCustomScalar (coerced types scalarName coercion) name ↔ IsCustomScalar types name := by
  rw [isCustomScalar_iff coercion, isCustomScalar_iff coercion]
  unfold coerced
  rw [Declarations.find?_mapNamed]
  cases types.find? name with
  | none => rfl
  | some type =>
    show (∃ _, (type.withCoercionFor scalarName coercion).withCoercion? coercion = some _) ↔
      ∃ _, type.withCoercion? coercion = some _
    unfold TypeDef.withCoercionFor
    split
    · cases type with
      | scalar scalar =>
        cases h : scalar.isBuiltin <;>
          simp only [TypeDef.withCoercion?, h, Option.getD_none, Option.getD_some, if_true,
            Bool.false_eq_true, if_false]
        have hkept : ({ scalar with coercion := coercion } : ScalarType).isBuiltin = false := h
        simp [hkept]
      | enum | inputObject | interface | object | union => rfl
    · rfl

/-- If every coercion has its scalar, each scalar gets the one under its name. -/
theorem applyCoercions_of_custom {coercions : List (String × ScalarCoercion)}
    (hdistinct : (coercions.map Prod.fst).Nodup) :
    ∀ types : Declarations TypeDef, (∀ entry ∈ coercions, IsCustomScalar types entry.1) →
      coercions.foldlM applyCoercion types =
        .ok (types.mapNamed (·.withCoercionOf coercions) (TypeDef.name_withCoercionOf coercions)) := by
  induction coercions with
  | nil =>
    intro types _
    have hsame : types.toList.map (·.withCoercionOf []) = types.toList := List.map_id _
    unfold Declarations.mapNamed
    simp only [hsame]
    rfl
  | cons entry coercions ih =>
    intro types hcustom
    rw [List.map_cons, List.nodup_cons] at hdistinct
    have hrest := ih hdistinct.2 (coerced types entry.1 entry.2) fun other hother =>
      isCustomScalar_coerced.2 (hcustom other (List.mem_cons_of_mem _ hother))
    rw [List.foldlM_cons, applyCoercion_of_custom (hcustom entry (List.mem_cons_self ..))]
    refine hrest.trans ?_
    unfold coerced Declarations.mapNamed
    simp only [List.map_map, Function.comp_def, TypeDef.withCoercionOf_cons coercions _ hdistinct.1]

/-- If some coercion has none, that is the error. -/
theorem applyCoercions_of_not_custom {coercions : List (String × ScalarCoercion)} :
    ∀ types : Declarations TypeDef, ¬(∀ entry ∈ coercions, IsCustomScalar types entry.1) →
      ∃ name, coercions.foldlM applyCoercion types = .error (.coercionForUndefinedScalar name) := by
  induction coercions with
  | nil =>
    intro types h
    exact absurd (fun _ hentry => nomatch hentry) h
  | cons entry coercions ih =>
    intro types h
    rw [List.foldlM_cons]
    by_cases hcustom : IsCustomScalar types entry.1
    · rw [applyCoercion_of_custom hcustom]
      refine ih (coerced types entry.1 entry.2) fun hall => h ?_
      intro other hother
      rcases List.mem_cons.1 hother with rfl | hother
      · exact hcustom
      · exact isCustomScalar_coerced.1 (hall other hother)
    · rw [applyCoercion_of_not_custom hcustom]
      exact ⟨entry.1, rfl⟩

/-! ## §3. Root types. -/

/-- A name is that of an object type. -/
def IsObject (types : Declarations TypeDef) (name : String) : Prop :=
  ∃ object, types.find? name = some (.object object)

/-- The name given for the root type of an operation kind is that of an object type; if none is given,
the default name is that of an object type or is not defined. -/
def RootFits (types : Declarations TypeDef) (operation : OperationKind) : Option String → Prop
  | some name => IsObject types name
  | none => types.contains (defaultRootName operation) = false ∨ IsObject types (defaultRootName operation)

/-- The name of the root type of an operation kind: the one that is given, or else the default one if it
is defined. -/
def rootName? (types : Declarations TypeDef) (operation : OperationKind) (given : Option String) :
    Option String :=
  given.or (if types.contains (defaultRootName operation) then some (defaultRootName operation) else none)

theorem check_of_isObject {types : Declarations TypeDef} {operation : OperationKind} {name : String}
    (h : IsObject types name) : resolveRoot.check types operation name = .ok (some name) := by
  obtain ⟨object, hfind⟩ := h
  unfold resolveRoot.check
  rw [hfind]

/-- The error of a name that is not that of an object type is no reference. -/
theorem check_of_not_isObject {types : Declarations TypeDef} {operation : OperationKind} {name : String}
    (h : ¬IsObject types name) : ∃ error, resolveRoot.check types operation name = .error error ∧
      ∀ referrer mentioned, error ≠ .undefinedReference referrer mentioned := by
  unfold resolveRoot.check
  split
  next object hfind => exact absurd ⟨object, hfind⟩ h
  next => exact ⟨_, rfl, fun _ _ => nofun⟩
  next => exact ⟨_, rfl, fun _ _ => nofun⟩

theorem resolveRoot_of_fits {types : Declarations TypeDef} {operation : OperationKind}
    {given : Option String} (h : RootFits types operation given) :
    resolveRoot types operation given = .ok (rootName? types operation given) := by
  cases given with
  | some name => exact check_of_isObject h
  | none =>
    unfold resolveRoot rootName?
    simp only [Option.none_or]
    cases hdefault : types.contains (defaultRootName operation) with
    | false => rfl
    | true =>
      rw [if_pos rfl, if_pos rfl]
      exact check_of_isObject (h.resolve_left (by simp [hdefault]))

theorem resolveRoot_of_not_fits {types : Declarations TypeDef} {operation : OperationKind}
    {given : Option String} (h : ¬RootFits types operation given) :
    ∃ error, resolveRoot types operation given = .error error ∧
      ∀ referrer mentioned, error ≠ .undefinedReference referrer mentioned := by
  cases given with
  | some name => exact check_of_not_isObject h
  | none =>
    obtain ⟨hdefault, hobject⟩ := not_or.1 h
    unfold resolveRoot
    simp only [Bool.not_eq_false] at hdefault ⊢
    rw [if_pos hdefault]
    exact check_of_not_isObject hobject

/-- With an object type for queries, that is what is found for them. -/
theorem resolveQuery_of_isObject {types : Declarations TypeDef} {given : Option String}
    (h : IsObject types (given.getD (defaultRootName .query))) :
    resolveRoot types .query given = .ok (some (given.getD (defaultRootName .query))) := by
  cases given with
  | some name => exact check_of_isObject h
  | none =>
    have hdefined : types.contains (defaultRootName .query) = true := by
      obtain ⟨object, hfind⟩ := h
      exact Declarations.contains_iff_find?.2 ⟨_, hfind⟩
    unfold resolveRoot
    simp only [hdefined, if_true]
    exact check_of_isObject h

/-- Without one, nothing is found, or what is found is refused. -/
theorem resolveQuery_of_not_isObject {types : Declarations TypeDef} {given : Option String}
    (h : ¬IsObject types (given.getD (defaultRootName .query))) :
    resolveRoot types .query given = .ok none ∨
      ∃ error, resolveRoot types .query given = .error error ∧
        ∀ referrer mentioned, error ≠ .undefinedReference referrer mentioned := by
  cases given with
  | some name => exact .inr (check_of_not_isObject h)
  | none =>
    unfold resolveRoot
    cases hdefault : types.contains (defaultRootName .query) with
    | false =>
      simp only [hdefault]
      exact .inl rfl
    | true =>
      simp only [hdefault, if_true]
      exact .inr (check_of_not_isObject h)

/-- What fits has an object type wherever it has a root type. -/
theorem isObject_of_rootName? {types : Declarations TypeDef} {operation : OperationKind}
    {given : Option String} {name : String} (h : RootFits types operation given)
    (hname : rootName? types operation given = some name) : IsObject types name := by
  unfold rootName? at hname
  cases given with
  | some given =>
    cases hname
    exact h
  | none =>
    rw [Option.none_or] at hname
    split at hname
    next hdefault =>
      cases hname
      exact h.resolve_left (by simp [hdefault])
    next => cases hname

/-! ## §4. References. -/

/-- A reference is the first one that dangles: no type has its name, and each one before it is defined. -/
def IsFirstDangling (types : Declarations TypeDef) (referrer : Referrer) (name : String) : Prop :=
  ∃ earlier later, types.toList.flatMap (·.references) = earlier ++ (referrer, name) :: later ∧
    (∀ reference ∈ earlier, types.contains reference.2 = true) ∧ types.contains name = false

theorem undefinedReference?_eq_some_iff {types : Declarations TypeDef} {referrer : Referrer}
    {name : String} : undefinedReference? types = some (referrer, name) ↔
      IsFirstDangling types referrer name := by
  unfold undefinedReference? IsFirstDangling
  rw [List.find?_eq_some_iff_append]
  simp only [Bool.not_eq_true', Bool.not_not]
  constructor
  · rintro ⟨hmissing, earlier, later, hsplit, hdefined⟩
    exact ⟨earlier, later, hsplit, hdefined, hmissing⟩
  · rintro ⟨earlier, later, hsplit, hdefined, hmissing⟩
    exact ⟨hmissing, earlier, later, hsplit, hdefined⟩

theorem undefinedReference?_eq_none_iff {types : Declarations TypeDef} :
    undefinedReference? types = none ↔ ∀ type ∈ types.toList, ∀ referrer name,
      type.Mentions referrer name → types.contains name = true := by
  unfold undefinedReference?
  rw [List.find?_eq_none]
  simp only [Bool.not_eq_true', Bool.not_eq_false]
  constructor
  · intro h type htype referrer name hmentions
    exact h (referrer, name) (List.mem_flatMap.2 ⟨type, htype, TypeDef.mem_references_iff.2 hmentions⟩)
  · rintro h ⟨referrer, name⟩ hmem
    obtain ⟨type, htype, href⟩ := List.mem_flatMap.1 hmem
    exact h type htype referrer name (TypeDef.mem_references_iff.1 href)

/-! ## §5. Building. -/

/-- The coercions and the root types of a builder fit its types. -/
structure Fits (builder : SchemaBuilder) : Prop where
  coercions : ∀ entry ∈ builder.coercions, IsCustomScalar builder.types entry.1
  query : IsObject builder.types (builder.roots.query.getD (defaultRootName .query))
  mutation : RootFits builder.types .mutation builder.roots.mutation
  subscription : RootFits builder.types .subscription builder.roots.subscription

/-- Everything fits together, and what some type mentions is defined. -/
structure IsClosed (builder : SchemaBuilder) : Prop extends builder.Fits where
  references : ∀ type ∈ builder.types.toList, ∀ referrer name, type.Mentions referrer name →
    builder.types.contains name = true

/-- The types of a builder, each scalar with the coercion that is given under its name. -/
def coercedTypes (builder : SchemaBuilder) : Declarations TypeDef :=
  builder.types.mapNamed (·.withCoercionOf builder.coercions)
    (TypeDef.name_withCoercionOf builder.coercions)

/-- The schema that a builder has if it has one. -/
def schema (builder : SchemaBuilder) : Schema where
  types := builder.coercedTypes
  queryType := builder.roots.query.getD (defaultRootName .query)
  mutationType := rootName? builder.types .mutation builder.roots.mutation
  subscriptionType := rootName? builder.types .subscription builder.roots.subscription

section CoercedTypes

variable (builder : SchemaBuilder)

theorem contains_coercedTypes (name : String) :
    builder.coercedTypes.contains name = builder.types.contains name :=
  Declarations.contains_mapNamed ..

theorem isObject_coercedTypes {name : String} :
    IsObject builder.coercedTypes name ↔ IsObject builder.types name := by
  unfold IsObject coercedTypes
  simp only [Declarations.find?_mapNamed, Option.map_eq_some_iff, TypeDef.withCoercionOf_eq_object_iff,
    exists_eq_right]

theorem rootFits_coercedTypes {operation : OperationKind} {given : Option String} :
    RootFits builder.coercedTypes operation given ↔ RootFits builder.types operation given := by
  cases given <;> simp only [RootFits, isObject_coercedTypes, contains_coercedTypes]

theorem rootName?_coercedTypes (operation : OperationKind) (given : Option String) :
    rootName? builder.coercedTypes operation given = rootName? builder.types operation given := by
  unfold rootName?
  rw [contains_coercedTypes]

theorem undefinedReference?_coercedTypes :
    undefinedReference? builder.coercedTypes = undefinedReference? builder.types := by
  have hreferences : builder.coercedTypes.toList.flatMap (·.references) =
      builder.types.toList.flatMap (·.references) := by
    show (builder.types.toList.map (·.withCoercionOf builder.coercions)).flatMap _ = _
    rw [List.flatMap_map]
    simp only [TypeDef.references_withCoercionOf]
  unfold undefinedReference?
  rw [hreferences]
  simp only [contains_coercedTypes]

end CoercedTypes

variable {builder : SchemaBuilder}

/-- **What fits together has a schema if no reference dangles; else the first one that does is the
error.** -/
theorem build_of_fits (hdistinct : (builder.coercions.map Prod.fst).Nodup) (h : builder.Fits) :
    builder.build = match undefinedReference? builder.types with
      | some (referrer, name) => .error (.undefinedReference referrer name)
      | none => .ok builder.schema := by
  have hcoercions := applyCoercions_of_custom hdistinct builder.types h.coercions
  have hroot : ∀ (operation : OperationKind) (given : Option String),
      RootFits builder.types operation given →
        resolveRoot builder.coercedTypes operation given = .ok (rootName? builder.types operation given) := by
    intro operation given hfits
    rw [resolveRoot_of_fits ((rootFits_coercedTypes builder).2 hfits), rootName?_coercedTypes]
  have hqueryRoot := resolveQuery_of_isObject ((isObject_coercedTypes builder).2 h.query)
  have hmutationRoot := hroot _ _ h.mutation
  have hsubscriptionRoot := hroot _ _ h.subscription
  unfold build
  rw [hcoercions]
  show (resolveRoot builder.coercedTypes .query builder.roots.query >>= _) = _
  rw [hqueryRoot]
  show (resolveRoot builder.coercedTypes .mutation builder.roots.mutation >>= _) = _
  rw [hmutationRoot]
  show (resolveRoot builder.coercedTypes .subscription builder.roots.subscription >>= _) = _
  rw [hsubscriptionRoot]
  show (match undefinedReference? builder.coercedTypes with
    | some (referrer, name) => Except.error (BuildError.undefinedReference referrer name)
    | none => Except.ok builder.schema) = _
  rw [undefinedReference?_coercedTypes]

theorem bind_error_of_error {x : Except ε α} {next : α → Except ε β} {P : ε → Prop}
    (h : ∃ error, x = .error error ∧ P error) : ∃ error, (x >>= next) = .error error ∧ P error := by
  obtain ⟨error, hx, herror⟩ := h
  exact ⟨error, by rw [hx]; rfl, herror⟩

/-- **What does not fit together has no schema, and the error is no reference.** -/
theorem build_of_not_fits (hdistinct : (builder.coercions.map Prod.fst).Nodup) (h : ¬builder.Fits) :
    ∃ error, builder.build = .error error ∧
      ∀ referrer name, error ≠ .undefinedReference referrer name := by
  -- each stage in turn: it fits, and the next one is looked at, or its error is the outcome
  unfold build
  by_cases hcoercions : ∀ entry ∈ builder.coercions, IsCustomScalar builder.types entry.1
  case neg =>
    obtain ⟨name, hname⟩ := applyCoercions_of_not_custom builder.types hcoercions
    exact bind_error_of_error ⟨_, hname, fun _ _ => nofun⟩
  rw [applyCoercions_of_custom hdistinct builder.types hcoercions]
  show ∃ error, (resolveRoot builder.coercedTypes .query builder.roots.query >>= _) = .error error ∧ _
  by_cases hquery : IsObject builder.types (builder.roots.query.getD (defaultRootName .query))
  case neg =>
    rcases resolveQuery_of_not_isObject fun hobject => hquery ((isObject_coercedTypes builder).1 hobject)
      with hnone | herror
    · rw [hnone]
      exact ⟨.noQueryType, rfl, fun _ _ => nofun⟩
    · exact bind_error_of_error herror
  rw [resolveQuery_of_isObject ((isObject_coercedTypes builder).2 hquery)]
  show ∃ error, (resolveRoot builder.coercedTypes .mutation builder.roots.mutation >>= _) = .error error ∧ _
  by_cases hmutation : RootFits builder.types .mutation builder.roots.mutation
  case neg =>
    exact bind_error_of_error (resolveRoot_of_not_fits fun hfits =>
      hmutation ((rootFits_coercedTypes builder).1 hfits))
  rw [resolveRoot_of_fits ((rootFits_coercedTypes builder).2 hmutation)]
  show ∃ error, (resolveRoot builder.coercedTypes .subscription builder.roots.subscription >>= _) =
    .error error ∧ _
  by_cases hsubscription : RootFits builder.types .subscription builder.roots.subscription
  case neg =>
    exact bind_error_of_error (resolveRoot_of_not_fits fun hfits =>
      hsubscription ((rootFits_coercedTypes builder).1 hfits))
  exact absurd ⟨hcoercions, hquery, hmutation, hsubscription⟩ h

theorem undefinedReference?_of_isClosed (h : builder.IsClosed) :
    undefinedReference? builder.types = none :=
  undefinedReference?_eq_none_iff.2 h.references

theorem build_eq_ok_iff (hdistinct : (builder.coercions.map Prod.fst).Nodup) {schema : Schema} :
    builder.build = .ok schema ↔ builder.IsClosed ∧ schema = builder.schema := by
  constructor
  · intro h
    by_cases hfits : builder.Fits
    · rw [build_of_fits hdistinct hfits] at h
      split at h
      next => cases h
      next hnone =>
        cases h
        exact ⟨⟨hfits, undefinedReference?_eq_none_iff.1 hnone⟩, rfl⟩
    · obtain ⟨error, herror, _⟩ := build_of_not_fits hdistinct hfits
      rw [herror] at h
      cases h
  · rintro ⟨hclosed, rfl⟩
    rw [build_of_fits hdistinct hclosed.toFits, undefinedReference?_of_isClosed hclosed]

theorem build_eq_undefinedReference_iff (hdistinct : (builder.coercions.map Prod.fst).Nodup)
    {referrer : Referrer} {name : String} :
    builder.build = .error (.undefinedReference referrer name) ↔
      builder.Fits ∧ IsFirstDangling builder.types referrer name := by
  constructor
  · intro h
    by_cases hfits : builder.Fits
    · rw [build_of_fits hdistinct hfits] at h
      split at h
      next hsome =>
        cases h
        exact ⟨hfits, undefinedReference?_eq_some_iff.1 hsome⟩
      next => cases h
    · obtain ⟨error, herror, hother⟩ := build_of_not_fits hdistinct hfits
      rw [herror] at h
      cases h
      exact absurd rfl (hother referrer name)
  · rintro ⟨hfits, hfirst⟩
    rw [build_of_fits hdistinct hfits, undefinedReference?_eq_some_iff.2 hfirst]

end SchemaBuilder

end GraphQLCheck
