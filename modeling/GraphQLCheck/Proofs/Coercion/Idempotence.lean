/-
  GraphQLCheck.Proofs.Coercion.Idempotence
  ────────────────────────────────────────
  A value that coercion has yielded is accepted, and coerced to itself.

  A value that conforms to a type is already in the form that coercion brings values to: lists are within
  as many arrays as there are layers, objects have their defaults, members are in order.  What is left are
  the scalars.  If each scalar that the type leads to reads what it yields as itself, then nothing changes
  a conforming value any more, by induction on how it conforms; no default is looked at, because the fields
  that have one are all there.

  Main facts:
    * `Schema.Conforms.problems_eq_nil` — a value of a type is accepted there
    * `Schema.Conforms.coerceWith_self` — and worth itself there
    * `coercion_is_idempotent`          — so what coercion yields is accepted and worth itself
-/
import GraphQLCheck.Proofs.Coercion.Acceptance

namespace GraphQLCheck

/-! ## §1. Values as they are read at parts of a type. -/

namespace Json

variable {schema : Schema} {default : DefaultValue} {value : Json}

/-- Where a value is not null, it does not matter whether null is excluded. -/
theorem coerceWith_nonNull (hnull : value ≠ .null) (inner : TypeRef) :
    value.coerceWith schema default (.nonNull inner) = value.coerceWith schema default inner := by
  cases value <;> first | rfl | exact absurd rfl hnull

theorem problems_nonNull (hnull : value ≠ .null) (inner : TypeRef) :
    value.problems schema (.nonNull inner) = value.problems schema inner := by
  cases value <;> first | rfl | exact absurd rfl hnull

section Scalar

variable {name : String} {type : ScalarType} (hfind : schema.find? name = some (.scalar type))

include hfind

theorem not_inputObject_of_scalar :
    ¬ ∃ inputType, schema.namedType? (.named name) = some (.inputObject inputType) := by
  rintro ⟨inputType, hinput⟩
  rw [Schema.namedType?, TypeRef.typeName, hfind] at hinput
  cases hinput

/-- Every value but null is read by a scalar as a whole. -/
theorem coerceWith_scalar (hnull : value ≠ .null) :
    value.coerceWith schema default (.named name) =
      schema.leafValue (·.parseValue value) (.named name) := by
  cases value with
  | null => exact absurd rfl hnull
  | array items => exact coerceWith_array_leaf rfl
  | object entries => exact coerceWith_object_leaf (not_inputObject_of_scalar hfind)
  | _ => rfl

theorem problems_scalar (hnull : value ≠ .null) :
    value.problems schema (.named name) =
      schema.leafProblems (·.parseValue value) value name := by
  cases value with
  | null => exact absurd rfl hnull
  | array items => exact problems_array_leaf rfl
  | object entries => exact problems_object_leaf (not_inputObject_of_scalar hfind)
  | _ => rfl

/-- A scalar accepts a value that it reads. -/
theorem problems_eq_nil_of_parseValue {read : Json} (hread : type.parseValue value = some read) :
    value.problems schema (.named name) = [] := by
  by_cases hnull : value = .null
  · rw [hnull]
    rfl
  · rw [problems_scalar hfind hnull, Schema.leafProblems_eq_nil_iff]
    refine ⟨.scalar type, hfind, ?_, by simp⟩
    show (type.parseValue value).isSome = true
    rw [hread]
    rfl

/-- A value that a scalar reads as itself is worth itself. -/
theorem coerceWith_eq_self_of_parseValue (hread : type.parseValue value = some value) :
    value.coerceWith schema default (.named name) = .value value := by
  by_cases hnull : value = .null
  · rw [hnull]
    rfl
  · rw [coerceWith_scalar hfind hnull, Schema.leafValue_eq_value_iff]
    exact ⟨.scalar type, value, hfind, hread, rfl⟩

end Scalar

end Json

/-! ## §2. Conforming values. -/

namespace Schema.Conforms

variable {schema : Schema} {origin type : TypeRef} {value : Json}
  (hscalars : schema.ReachedScalars origin ScalarType.Settled)

include hscalars

/-- **A value of a type is accepted there.** -/
theorem problems_eq_nil (hreach : schema.Reaches origin type) (h : schema.Conforms type value) :
    value.problems schema type = [] := by
  -- the parts of the value are at types that are reached as well
  induction h with
  | null hnullable => exact nullValueProblems_eq_nil_iff.2 hnullable
  | nonNull hnull _ ih =>
    rw [Json.problems_nonNull hnull]
    exact ih hreach.nonNull
  | list _ ih =>
    rw [Json.problems_array rfl, Problem.inElements_eq_nil_iff, List.forall_mem_map]
    exact fun item hitem => ih item hitem hreach.list
  | enum hfind hcontains =>
    refine Schema.leafProblems_eq_nil_iff.2 ⟨_, hfind, ?_, by simp⟩
    simp [TypeDef.parseValue, EnumType.parseValue, hcontains]
  | @inputObject name inputType entries hfind hkeys _ hpresent ih =>
    have hnamed : schema.namedType? (.named name) = some (.inputObject inputType) := hfind
    refine (Json.problems_object_eq_nil_iff hnamed).2 ⟨?_, ?_, ?_⟩
    · intro entry hentry
      have hname : entry.1 ∈ inputType.fields.names := hkeys.subset (List.mem_map_of_mem hentry)
      unfold Declarations.contains
      rw [List.contains_iff_mem]
      exact hname
    · intro field hfield value hlookup
      exact ih field hfield value (mem_of_lookup hlookup) (.member hreach hfind hfield)
    · -- a field that excludes null is there
      intro field hfield hlookup
      exact (InputDef.of_lookup_eq_none (hpresent field hfield) hlookup).1
  | scalarValue hfind hread =>
    have hself := hscalars _ _ hreach hfind _ (.inl ⟨_, hread⟩)
    exact Json.problems_eq_nil_of_parseValue hfind hself
  | scalarLiteral hfind hread =>
    have hself := hscalars _ _ hreach hfind _ (.inr ⟨_, hread⟩)
    exact Json.problems_eq_nil_of_parseValue hfind hself

/-- **A value of a type is worth itself there**, whatever defaults are worth. -/
theorem coerceWith_self (hreach : schema.Reaches origin type) (h : schema.Conforms type value)
    (default : DefaultValue) : value.coerceWith schema default type = .value value := by
  induction h with
  | null hnullable => exact TypeRef.nullValue_eq_value_iff.2 ⟨hnullable, rfl⟩
  | nonNull hnull _ ih =>
    rw [Json.coerceWith_nonNull hnull]
    exact ih hreach.nonNull
  | list _ ih =>
    rw [Json.coerceWith_array rfl,
      Outcome.mapM_eq_self fun item hitem => ih item hitem hreach.list]
    rfl
  | enum hfind hcontains =>
    refine Schema.leafValue_eq_value_iff.2 ⟨_, _, hfind, ?_, rfl⟩
    simp [TypeDef.parseValue, EnumType.parseValue, hcontains]
  | @inputObject name inputType entries hfind hkeys _ hpresent ih =>
    have hnamed : schema.namedType? (.named name) = some (.inputObject inputType) := hfind
    rw [Json.coerceWith_object hnamed, Outcome.map_eq_value_iff]
    refine ⟨.object entries, InputObjectType.objectValue_eq_value_iff.2 ⟨entries, rfl, ?_⟩, rfl⟩
    apply Members.of_lookup inputType.fields.distinct hkeys
    intro field hfield
    rw [InputDef.memberValue_eq_value_iff, Json.lookup_coerceEntries]
    cases hlookup : entries.lookup field.name with
    | some value =>
      have hvalue := ih field hfield value (mem_of_lookup hlookup) (.member hreach hfind hfield)
      exact .inl ⟨_, value, rfl, hvalue, rfl⟩
    | none =>
      obtain ⟨hnullable, hdefault⟩ := InputDef.of_lookup_eq_none (hpresent field hfield) hlookup
      exact .inr (.inr ⟨rfl, hdefault, hnullable, rfl⟩)
  | scalarValue hfind hread =>
    have hself := hscalars _ _ hreach hfind _ (.inl ⟨_, hread⟩)
    exact Json.coerceWith_eq_self_of_parseValue hfind hself
  | scalarLiteral hfind hread =>
    have hself := hscalars _ _ hreach hfind _ (.inr ⟨_, hread⟩)
    exact Json.coerceWith_eq_self_of_parseValue hfind hself

end Schema.Conforms

/-! ## §3. Built schemas. -/

/-- The scalars that are known to read their values as themselves: all built-in ones but `ID`, and those
without a coercion of their own. -/
def ScalarType.IsStable (type : ScalarType) : Prop :=
  type.name ∈ ["Boolean", "Float", "Int", "String"] ∨ type.coercion = anyScalar

namespace Schema

variable {schema : Schema}

/-- In a built schema, the stable scalars that a type leads to make null out of nothing but null, and read
what they yield as itself. -/
theorem Built.reachedScalars_of_isStable (hbuilt : schema.Built) {origin : TypeRef}
    (h : schema.ReachedScalars origin ScalarType.IsStable) :
    schema.ReachedScalars origin fun scalar => scalar.NullFree ∧ scalar.Settled := by
  intro name scalar hreach hfind
  rcases h name scalar hreach hfind with hname | hany
  · have hbuiltin : scalar ∈ ScalarType.builtins := by
      apply hbuilt.builtin_of_isBuiltin (mem_of_find? hfind)
      unfold ScalarType.isBuiltin
      rw [List.contains_iff_mem]
      have hsublist : ["Boolean", "Float", "Int", "String"].Sublist ScalarType.builtinNames := by decide
      exact hsublist.subset hname
    have hid : scalar.name ≠ "ID" := by
      intro hid
      rw [hid] at hname
      exact absurd hname (by decide)
    exact ⟨ScalarType.nullFree_of_builtin hbuiltin, ScalarType.settled_of_builtin hbuiltin hid⟩
  · exact ⟨ScalarType.nullFree_of_anyScalar hany, ScalarType.settled_of_anyScalar hany⟩

end Schema

/-- **Coercion is idempotent, and what it yields is accepted.**  In a built schema with finite defaults,
if a type leads to no scalars but stable ones, then what a runtime value with integers of 64 bits is coerced
to has no problem at the type and is coerced to itself: members, their order and their values stay. -/
theorem coercion_is_idempotent {schema : Schema} (hbuilt : schema.Built) (hfinite : schema.FiniteDefaults)
    {type : TypeRef} (hstable : schema.ReachedScalars type ScalarType.IsStable) {sent value : Json}
    (hsized : sent.isSized = true) (h : schema.coerceValue type sent = .value value) :
    value.problems schema type = [] ∧ schema.coerceValue type value = .value value := by
  have hscalars := hbuilt.reachedScalars_of_isStable hstable
  have hliterals : schema.ReachedScalars type ScalarType.LiteralNullFree :=
    fun name scalar hreach hfind => (hscalars name scalar hreach hfind).1.1
  have hvalues : schema.ReachedScalars type ScalarType.ValueNullFree :=
    fun name scalar hreach hfind => (hscalars name scalar hreach hfind).1.2
  have hsettled : schema.ReachedScalars type ScalarType.Settled :=
    fun name scalar hreach hfind => (hscalars name scalar hreach hfind).2
  have hdefaults := Schema.conforms_of_reachedDefault hliterals hfinite schema.defaultCount
  have hconforms : schema.Conforms type value :=
    Json.conforms_of_reached hdefaults hvalues .here hsized h
  exact ⟨hconforms.problems_eq_nil hsettled .here,
    hconforms.coerceWith_self hsettled .here schema.defaultValue⟩

namespace Search

/-- The names inside the types that a filter leads to. -/
def filterNames : List String := ["Filter", "String", "Order", "Range", "Date", "Int"]

theorem mem_filterNames_of_reaches {type : TypeRef}
    (h : schema.Reaches (.nonNull (.named "Filter")) type) : type.typeName ∈ filterNames := by
  have hclosed : ∀ name ∈ filterNames, ∀ field ∈ (schema.find? name).elim [] TypeDef.inputFields,
      field.type.typeName ∈ filterNames := by decide
  induction h with
  | here => decide
  | list _ ih => exact ih
  | nonNull _ ih => exact ih
  | @member name inputType field _ hfind hfield ih =>
    apply hclosed name ih field
    rw [hfind]
    exact hfield

theorem stableScalars_of_filter :
    schema.ReachedScalars (.nonNull (.named "Filter")) ScalarType.IsStable := by
  intro name scalar hreach hfind
  have hname : scalar.name = name := (Declarations.mem_of_find? hfind).2
  cases hbuiltin : scalar.isBuiltin with
  | true =>
    have hstable : ∀ name ∈ filterNames, ScalarType.builtinNames.contains name = true →
        name ∈ ["Boolean", "Float", "Int", "String"] := by decide
    have hmem : name ∈ filterNames := mem_filterNames_of_reaches hreach
    rw [← hname] at hmem
    exact .inl (hstable scalar.name hmem hbuiltin)
  | false =>
    -- the only other scalar has no coercion of its own
    exact .inr (customScalars (P := fun scalar => scalar.coercion = anyScalar) rfl scalar
      (Schema.mem_of_find? hfind) hbuiltin)

/-- A text for a list, entries out of order, and an object with a default within an object with another. -/
theorem filter_coerced_twice :
    schema.coerceValue (.nonNull (.named "Filter"))
        (.object [("range", .object [("to", .ofInt 7)]), ("tags", .string "lean")]) =
      .value (.object [("tags", .array [.string "lean"]), ("order", .string "ASC"),
        ("range", .object [("from", .ofInt 1), ("to", .ofInt 7)])]) ∧
    Json.problems schema (.object [("tags", .array [.string "lean"]), ("order", .string "ASC"),
      ("range", .object [("from", .ofInt 1), ("to", .ofInt 7)])]) (.nonNull (.named "Filter")) = [] ∧
    schema.coerceValue (.nonNull (.named "Filter"))
        (.object [("tags", .array [.string "lean"]), ("order", .string "ASC"),
          ("range", .object [("from", .ofInt 1), ("to", .ofInt 7)])]) =
      .value (.object [("tags", .array [.string "lean"]), ("order", .string "ASC"),
        ("range", .object [("from", .ofInt 1), ("to", .ofInt 7)])]) := by
  refine ⟨rfl, ?_⟩
  have hsized : Json.isSized
      (.object [("range", .object [("to", .ofInt 7)]), ("tags", .string "lean")]) = true := rfl
  exact coercion_is_idempotent built finiteDefaults stableScalars_of_filter hsized rfl

end Search

end GraphQLCheck
