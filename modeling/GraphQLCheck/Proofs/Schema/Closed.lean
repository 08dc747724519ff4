/-
  GraphQLCheck.Proofs.Schema.Closed
  ─────────────────────────────────
  A builder has a schema exactly if it is closed, and a schema has all that it refers to.

  Main results:
    * `SchemaBuilder.IsClosed.yields`  — what the schema of a closed builder holds
    * `builds_exactly_closed_schemas`  — for any steps: which builders have a schema, and which schema
-/
import GraphQLCheck.Proofs.Schema.Built

namespace GraphQLCheck

/-! ## §1. What a schema holds. -/

namespace SchemaBuilder

variable {builder : SchemaBuilder}

/-- What a schema holds that a builder yields after some registrations: exactly the registered types and
the built-in ones, each under its name; what these mention; and for each operation kind the object type
that is given or is named by default, if there is one. -/
structure Yields (builder : SchemaBuilder) (registrations : List Registration) (schema : Schema) : Prop where
  types : schema.types.toList = (builtinTypes.toList ++ registrations.filterMap (·.type?)).map
    (·.withCoercionOf builder.coercions)
  named : ∀ name type, schema.find? name = some type → type.name = name
  registered : ∀ type, .type type ∈ registrations →
    schema.find? type.name = some (type.withCoercionOf builder.coercions)
  builtin : ∀ scalar ∈ ScalarType.builtins, schema.find? scalar.name = some (.scalar scalar)
  defined : ∀ name, (∃ type, schema.find? name = some type) ↔
    name ∈ ScalarType.builtinNames ∨ ∃ type, .type type ∈ registrations ∧ type.name = name
  resolves : ∀ type ∈ schema.types.toList, ∀ referrer name, type.Mentions referrer name →
    ∃ found, schema.resolve name = .ok found ∧ found.name = name
  roots : ∀ operation, schema.rootName? operation =
    rootName? builder.types operation (builder.roots.named operation)
  objects : ∀ operation name, schema.rootName? operation = some name → ∃ object : FieldedType,
    object.name = name ∧ schema.rootType? operation = some (.object object) ∧
      schema.rootObject? operation = some (.ok object)

/-- A root type of a schema that a builder yields can always be had. -/
theorem Yields.rootObject?_ne_error {registrations : List Registration} {schema : Schema}
    (h : builder.Yields registrations schema) (operation : OperationKind) (fault : Schema.RootFault) :
    schema.rootObject? operation ≠ some (.error fault) := by
  intro hfault
  cases hname : schema.rootName? operation with
  | none =>
    unfold Schema.rootObject? at hfault
    rw [hname] at hfault
    cases hfault
  | some name =>
    obtain ⟨object, _, _, hobject⟩ := h.objects operation name hname
    rw [hobject] at hfault
    cases hfault

theorem find?_schema (builder : SchemaBuilder) (name : String) : builder.schema.find? name =
    (builder.types.find? name).map (·.withCoercionOf builder.coercions) :=
  Declarations.find?_mapNamed builder.types _ (TypeDef.name_withCoercionOf builder.coercions) name

theorem mentions_withCoercionOf {coercions : List (String × ScalarCoercion)} {type : TypeDef}
    {referrer : Referrer} {name : String} (h : (type.withCoercionOf coercions).Mentions referrer name) :
    type.Mentions referrer name := by
  rw [← TypeDef.mem_references_iff, TypeDef.references_withCoercionOf] at h
  exact TypeDef.mem_references_iff.1 h

/-- The built-in types are the types with the names of the built-in scalars. -/
theorem exists_builtin_iff {name : String} :
    (∃ type ∈ builtinTypes.toList, type.name = name) ↔ name ∈ ScalarType.builtinNames := by
  have hnames : builtinTypes.toList.map TypeDef.name = ScalarType.builtinNames := rfl
  rw [← hnames, List.mem_map]

/-- A closed builder's root type of an operation kind is an object type. -/
theorem IsClosed.isObject_root (h : builder.IsClosed) {operation : OperationKind} {name : String}
    (hname : builder.schema.rootName? operation = some name) : IsObject builder.types name := by
  cases operation with
  | mutation => exact isObject_of_rootName? h.mutation hname
  | query =>
    cases hname
    exact h.query
  | subscription => exact isObject_of_rootName? h.subscription hname

theorem IsClosed.rootName?_schema (h : builder.IsClosed) (operation : OperationKind) :
    builder.schema.rootName? operation =
      rootName? builder.types operation (builder.roots.named operation) := by
  cases operation with
  | mutation => rfl
  | subscription => rfl
  | query =>
    show some (builder.roots.query.getD (defaultRootName .query)) = rootName? _ _ builder.roots.query
    have hquery := h.query
    cases hgiven : builder.roots.query with
    | some name => rfl
    | none =>
      rw [hgiven] at hquery
      obtain ⟨object, hfind⟩ := hquery
      have hdefined : builder.types.contains (defaultRootName .query) = true :=
        Declarations.contains_iff_find?.2 ⟨_, hfind⟩
      unfold rootName?
      rw [if_pos hdefined]
      rfl

/-- **What the schema of a closed builder holds.** -/
theorem IsClosed.yields {registrations : List Registration} (h : builder.IsClosed)
    (hreach : builder.Reachable) (hholds : builder.Holds registrations)
    (hbuild : builder.build = .ok builder.schema) : builder.Yields registrations builder.schema where
  types := by
    rw [← hholds.types]
    rfl
  named name type hfind := (Declarations.mem_of_find? hfind).2
  registered type hregistered := by
    have hfind : builder.types.find? type.name = some type :=
      Declarations.find?_eq_some_iff.2 ⟨hholds.mem_types hregistered, rfl⟩
    rw [find?_schema, hfind]
    rfl
  builtin scalar hscalar :=
    Schema.Built.find?_builtin ⟨builder, hreach, hbuild⟩ hscalar
  defined name := by
    have hfound : (∃ type, builder.schema.find? name = some type) ↔
        ∃ type ∈ builder.types.toList, type.name = name := by
      show (∃ type, builder.coercedTypes.find? name = some type) ↔ _
      rw [← Declarations.contains_iff_find?, contains_coercedTypes, Declarations.contains_iff]
      rfl
    rw [hfound, hholds.types, ← exists_builtin_iff]
    simp only [List.mem_append, or_and_right, exists_or, List.mem_filterMap,
      Registration.type?_eq_some_iff, exists_eq_right]
  resolves type htype referrer name hmentions := by
    obtain ⟨original, hmem, rfl⟩ := List.mem_map.1 htype
    have hdefined := h.references original hmem referrer name (mentions_withCoercionOf hmentions)
    obtain ⟨found, hfind⟩ := Declarations.contains_iff_find?.1 hdefined
    refine ⟨found.withCoercionOf builder.coercions, ?_, ?_⟩
    · unfold Schema.resolve
      rw [find?_schema, hfind]
      rfl
    · rw [TypeDef.name_withCoercionOf]
      exact (Declarations.mem_of_find? hfind).2
  roots := h.rootName?_schema
  objects operation name hname := by
    obtain ⟨object, hfind⟩ := h.isObject_root hname
    have hsame : (TypeDef.object object).withCoercionOf builder.coercions = .object object :=
      (TypeDef.withCoercionOf_eq_object_iff builder.coercions _).2 rfl
    have hroot : builder.schema.find? name = some (.object object) := by
      rw [find?_schema, hfind, Option.map_some, hsame]
    refine ⟨object, (Declarations.mem_of_find? hfind).2, ?_, ?_⟩
    · unfold Schema.rootType?
      rw [hname]
      exact hroot
    · unfold Schema.rootObject? Schema.derefRoot Schema.resolve
      rw [hname, Option.map_some, hroot]

end SchemaBuilder

/-! ## §2. Closed builders. -/

/-- **Exactly the closed builders have a schema, and its root types can always be had.**  A builder that
some steps lead to holds what these registered.  It has a schema exactly if every name with a coercion is
that of a custom scalar, the type that is given for queries, or else `Query`, is an object type, the types
that are given for the other operations are object types, and the default ones if they are defined, and
every name that some type mentions is defined.  A dangling reference is an error only if all else fits, and
then it is the first one.  A schema holds exactly the types that were registered and the built-in ones,
each under its name; every name that these mention resolves; and no root type is missing or anything but
an object type. -/
theorem builds_exactly_closed_schemas {steps : List BuildStep} {builder : SchemaBuilder}
    (h : SchemaBuilder.empty.runAll steps = .ok builder) :
    ∃ registrations, BuildStep.registrationsOf steps = .ok registrations ∧ builder.Holds registrations ∧
      ((∃ schema, builder.build = .ok schema) ↔ builder.IsClosed) ∧
      (∀ referrer name, builder.build = .error (.undefinedReference referrer name) ↔
        builder.Fits ∧ SchemaBuilder.IsFirstDangling builder.types referrer name) ∧
      ∀ schema, builder.build = .ok schema → builder.Yields registrations schema ∧
        ∀ operation fault, schema.rootObject? operation ≠ some (.error fault) := by
  obtain ⟨registrations, hregistrations, hholds⟩ := SchemaBuilder.holds_of_runAll h
  have hreach := SchemaBuilder.reachable_iff_runAll.2 ⟨steps, h⟩
  have hdistinct := hholds.distinct
  refine ⟨registrations, hregistrations, hholds, ?_, ?_, ?_⟩
  · constructor
    · rintro ⟨schema, hbuild⟩
      exact ((SchemaBuilder.build_eq_ok_iff hdistinct).1 hbuild).1
    · intro hclosed
      exact ⟨_, (SchemaBuilder.build_eq_ok_iff hdistinct).2 ⟨hclosed, rfl⟩⟩
  · intro referrer name
    exact SchemaBuilder.build_eq_undefinedReference_iff hdistinct
  · intro schema hbuild
    obtain ⟨hclosed, rfl⟩ := (SchemaBuilder.build_eq_ok_iff hdistinct).1 hbuild
    have hyields := hclosed.yields hreach hholds hbuild
    exact ⟨hyields, hyields.rootObject?_ne_error⟩

namespace Search

/-- Steps that lead to the schema of the search. -/
def steps : List BuildStep :=
  .register (.coercion "Date" anyScalar) :: .register (.root .query "Query") ::
    types.map fun type => .register (.type type)

def builder : SchemaBuilder where
  types := schema.types
  roots := { query := some "Query" }
  coercions := [("Date", anyScalar)]

theorem closed_by_steps : SchemaBuilder.empty.runAll steps = .ok builder ∧ builder.IsClosed ∧
    ∃ registrations, BuildStep.registrationsOf steps = .ok registrations ∧
      builder.Yields registrations schema := by
  have hsteps : SchemaBuilder.empty.runAll steps = .ok builder := rfl
  obtain ⟨registrations, hregistrations, _, hclosed, _, hyields⟩ := builds_exactly_closed_schemas hsteps
  have hbuild : builder.build = .ok schema := rfl
  exact ⟨hsteps, hclosed.1 ⟨schema, hbuild⟩, registrations, hregistrations, (hyields schema hbuild).1⟩

end Search

end GraphQLCheck
