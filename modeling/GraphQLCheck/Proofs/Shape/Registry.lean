/-
  GraphQLCheck.Proofs.Shape.Registry
  ──────────────────────────────────
  The shape that a schema registers under the name of a type is that of the type.

  The types of a schema are registered one after the other, each under its own name, in the place of what
  is there.  No two types have one name, so nothing but the type itself touches its name, and what is found
  there in the end is what would be found if the type were the only one.

  Shapes hold the values of defaults, so there are none before every default is evaluated.

  Main facts:
    * `ShapeRegistry.sameAt_foldl_addType`              — types leave the names of others alone
    * `ShapeRegistry.sameAt_foldl_addType_of_mem`       — a type's name holds what the type has put there
    * `Schema.enum?_inputShapes`, `Schema.object?_inputShapes` — the shapes of a schema's types
    * `EnumShape.findName?_ofNames`                     — every value of an enum finds its own member
    * `Schema.evaluateDefaults_eq_endless_iff`          — the evaluation of the defaults goes on for ever exactly
                                                          if that of one of them does
-/
import GraphQLCheck.Proofs.Coercion.Defaults
import GraphQLCheck.Shape.Registry

namespace GraphQLCheck

/-! ## §1. Registering types. -/

namespace ShapeRegistry

variable {schema : Schema} {registry registry' registry'' : ShapeRegistry} {name : String}

/-- Two registries hold the same under a name. -/
def SameAt (name : String) (registry registry' : ShapeRegistry) : Prop :=
  registry'.enum? name = registry.enum? name ∧ registry'.object? name = registry.object? name

namespace SameAt

theorem refl (name : String) (registry : ShapeRegistry) : SameAt name registry registry := ⟨rfl, rfl⟩

theorem symm (h : SameAt name registry registry') : SameAt name registry' registry :=
  ⟨h.1.symm, h.2.symm⟩

theorem trans (h : SameAt name registry registry') (h' : SameAt name registry' registry'') :
    SameAt name registry registry'' := ⟨h'.1.trans h.1, h'.2.trans h.2⟩

end SameAt

/-- A type is registered under its own name only. -/
theorem sameAt_addType {definition : TypeDef} (h : name ≠ definition.name) :
    SameAt name registry (registry.addType schema definition) := by
  cases definition with
  | enum type => exact ⟨Entries.lookup_put_of_ne h, rfl⟩
  | inputObject type => exact ⟨rfl, Entries.lookup_put_of_ne h⟩
  | interface type => exact .refl name registry
  | object type => exact .refl name registry
  | scalar type => exact .refl name registry
  | union type => exact .refl name registry

/-- Types leave a name alone that none of them has. -/
theorem sameAt_foldl_addType {types : List TypeDef} (h : name ∉ types.map TypeDef.name) :
    SameAt name registry (types.foldl (addType schema) registry) := by
  induction types generalizing registry with
  | nil => exact .refl name registry
  | cons definition types ih =>
    rw [List.map_cons, List.mem_cons, not_or] at h
    exact (sameAt_addType h.1).trans (ih h.2)

/-- What a type puts under its name does not depend on what stands under other names. -/
theorem SameAt.addType {definition : TypeDef} (h : SameAt definition.name registry registry') :
    SameAt definition.name (registry.addType schema definition) (registry'.addType schema definition) := by
  cases definition with
  | enum type =>
    exact ⟨(registry'.enum?_addEnum _).trans (registry.enum?_addEnum _).symm, h.2⟩
  | inputObject type =>
    exact ⟨h.1, (registry'.object?_addObject _).trans (registry.object?_addObject _).symm⟩
  | interface type => exact h
  | object type => exact h
  | scalar type => exact h
  | union type => exact h

/-- Of types with distinct names, each one's name holds in the end what it would hold if the type were the
only one. -/
theorem sameAt_foldl_addType_of_mem {types : List TypeDef} (hdistinct : (types.map TypeDef.name).Nodup)
    {definition : TypeDef} (hmem : definition ∈ types) :
    SameAt definition.name (registry.addType schema definition)
      (types.foldl (addType schema) registry) := by
  induction types generalizing registry with
  | nil => cases hmem
  | cons first types ih =>
    rw [List.map_cons, List.nodup_cons] at hdistinct
    rcases List.mem_cons.1 hmem with rfl | hmem
    · exact sameAt_foldl_addType hdistinct.1
    · have hother : definition.name ≠ first.name := by
        intro hname
        exact hdistinct.1 (hname ▸ List.mem_map_of_mem hmem)
      exact (sameAt_addType hother).addType.trans (ih hdistinct.2 hmem)

end ShapeRegistry

/-! ## §2. The shapes of a schema. -/

namespace Schema

variable {schema : Schema} {name : String}

/-- Under the name of a type stands what the type alone puts there. -/
theorem sameAt_inputShapes_of_find? {definition : TypeDef} (hfind : schema.find? name = some definition) :
    ShapeRegistry.SameAt name (ShapeRegistry.addType schema {} definition) schema.inputShapes := by
  obtain ⟨hmem, hname⟩ := Declarations.mem_of_find? hfind
  have hname : definition.name = name := hname
  rw [← hname]
  exact ShapeRegistry.sameAt_foldl_addType_of_mem schema.types.distinct hmem

/-- Under a name without a type stands nothing. -/
theorem sameAt_inputShapes_of_none (hfind : schema.find? name = none) :
    ShapeRegistry.SameAt name {} schema.inputShapes := by
  apply ShapeRegistry.sameAt_foldl_addType
  intro hmem
  obtain ⟨definition, hdefinition, hname⟩ := List.mem_map.1 hmem
  have hsome : schema.find? name = some definition :=
    Declarations.find?_eq_some_iff.2 ⟨hdefinition, hname⟩
  rw [hfind] at hsome
  cases hsome

/-- Under the name of an enum stands the shape of its values. -/
theorem enum?_inputShapes {type : EnumType} (hfind : schema.find? name = some (.enum type)) :
    schema.inputShapes.enum? name = some (.ofNames name type.values.names) := by
  have hname : type.name = name := (Declarations.mem_of_find? hfind).2
  rw [(sameAt_inputShapes_of_find? hfind).1, ← hname]
  exact ShapeRegistry.enum?_addEnum {} (.ofNames type.name type.values.names)

/-- Under the name of an input object stand its fields as members. -/
theorem object?_inputShapes {type : InputObjectType}
    (hfind : schema.find? name = some (.inputObject type)) :
    schema.inputShapes.object? name =
      some ⟨name, type.fields.toList.map fun field => field.memberShape schema⟩ := by
  have hname : type.name = name := (Declarations.mem_of_find? hfind).2
  rw [(sameAt_inputShapes_of_find? hfind).2, ← hname]
  exact ShapeRegistry.object?_addObject {}
    ⟨type.name, type.fields.toList.map fun field => field.memberShape schema⟩

/-- The members of an input object have the distinct names of the fields. -/
theorem nodup_memberShapes (schema : Schema) (type : InputObjectType) :
    ((type.fields.toList.map fun field => field.memberShape schema).map MemberShape.name).Nodup := by
  rw [List.map_map]
  exact type.fields.distinct

/-- An object among the shapes is an input object. -/
theorem exists_of_object?_inputShapes {object : ObjectShape} (h : schema.inputShapes.object? name = some object) :
    ∃ type, schema.find? name = some (.inputObject type) ∧
      object = ⟨name, type.fields.toList.map fun field => field.memberShape schema⟩ := by
  cases hfind : schema.find? name with
  | none =>
    rw [(sameAt_inputShapes_of_none hfind).2] at h
    cases h
  | some definition =>
    cases definition with
    | inputObject type =>
      rw [object?_inputShapes hfind] at h
      exact ⟨type, rfl, (Option.some.inj h).symm⟩
    | _ =>
      -- nothing else puts an object under its name
      rw [(sameAt_inputShapes_of_find? hfind).2] at h
      cases h

end Schema

/-! ## §3. Names in any letter case. -/

theorem Text.sameIgnoringCase_self (s : String) : Text.sameIgnoringCase s s = true := by
  unfold Text.sameIgnoringCase
  exact beq_self_eq_true _

/-- No two names are the same but for the case of their letters. -/
def Text.DistinctIgnoringCase (names : List String) : Prop :=
  ∀ first ∈ names, ∀ second ∈ names, Text.sameIgnoringCase first second = true → first = second

instance (names : List String) : Decidable (Text.DistinctIgnoringCase names) :=
  inferInstanceAs (Decidable (∀ first ∈ names, ∀ second ∈ names, _))

/-- Where names differ by more than case, what is found in any case is what is found. -/
theorem find?_sameIgnoringCase {entries : List (String × α)} {key : String}
    (h : ∀ name ∈ entries.map Prod.fst, Text.sameIgnoringCase name key = true → name = key) :
    (entries.find? fun entry => Text.sameIgnoringCase entry.1 key) =
      (entries.lookup key).map fun value => (key, value) := by
  induction entries with
  | nil => rfl
  | cons entry entries ih =>
    obtain ⟨name, value⟩ := entry
    rw [List.map_cons] at h
    by_cases hname : name = key
    · subst hname
      rw [List.find?_cons, Text.sameIgnoringCase_self, List.lookup_cons, beq_self_eq_true]
      rfl
    · have hother : Text.sameIgnoringCase name key = false := by
        rw [Bool.eq_false_iff]
        intro hsame
        exact hname (h name (List.mem_cons_self ..) hsame)
      have hne : (key == name) = false := beq_eq_false_iff_ne.2 fun heq => hname heq.symm
      rw [List.find?_cons, hother, List.lookup_cons, hne]
      exact ih fun other hmem => h other (List.mem_cons_of_mem _ hmem)

namespace EnumShape

theorem map_fst_ofNames (name : String) (names : List String) :
    (EnumShape.ofNames name names).members.map Prod.fst = names := by
  unfold EnumShape.ofNames
  rw [List.map_map]
  exact List.zipIdx_map_fst 0 names

/-- Every value of an enum finds the member with its name. -/
theorem findName?_ofNames {name value : String} {names : List String}
    (hdistinct : Text.DistinctIgnoringCase names) (hmem : value ∈ names) :
    ∃ number, (EnumShape.ofNames name names).findName? value = some (value, number) := by
  have hkeys := map_fst_ofNames name names
  unfold findName?
  rw [find?_sameIgnoringCase]
  · cases hlookup : (EnumShape.ofNames name names).members.lookup value with
    | some number => exact ⟨number, rfl⟩
    | none =>
      have hmissing := lookup_eq_none_iff_not_mem.1 hlookup
      rw [hkeys] at hmissing
      exact absurd hmem hmissing
  · rw [hkeys]
    exact fun other hother hsame => hdistinct other hother value hmem hsame

end EnumShape

/-! ## §4. The evaluation of defaults. -/

/-- The default of an input field is evaluated exactly if its evaluation ends. -/
theorem InputDef.evaluateDefault_eq_value_iff {schema : Schema} {field : InputDef} :
    (field.evaluateDefault schema : Outcome ε Unit) = .value () ↔
      ∀ literal, field.defaultValue = some literal → schema.literalValue [] field.type literal ≠ .endless := by
  unfold evaluateDefault
  cases field.defaultValue with
  | none => simp
  | some literal =>
    simp only [Option.some_inj, forall_eq']
    cases schema.literalValue [] field.type literal <;> simp [Outcome.attempt, Outcome.map, Outcome.bind]

theorem InputDef.evaluateDefault_ne_failure {schema : Schema} {field : InputDef} {e : ε} :
    field.evaluateDefault schema ≠ .failure e := by
  unfold evaluateDefault
  cases field.defaultValue with
  | none => exact nofun
  | some literal => exact mt Outcome.map_eq_failure_iff.1 Outcome.attempt_ne_failure

namespace Schema

variable {schema : Schema}

/-- The defaults are evaluated exactly if all their evaluations end. -/
theorem evaluateDefaults_eq_value_iff :
    (schema.evaluateDefaults : Outcome ε Unit) = .value () ↔ schema.DefaultsEnd := by
  unfold evaluateDefaults DefaultsEnd defaults
  simp only [Outcome.forM_eq_value_iff, InputDef.evaluateDefault_eq_value_iff, List.forall_mem_filterMap,
    Option.map_eq_some_iff, forall_exists_index, and_imp, forall_apply_eq_imp_iff₂]

/-- The evaluation of the defaults goes on for ever exactly if that of one of them does. -/
theorem evaluateDefaults_eq_endless_iff :
    (schema.evaluateDefaults : Outcome ε Unit) = .endless ↔ ¬ schema.DefaultsEnd := by
  rw [← @evaluateDefaults_eq_value_iff schema ε]
  cases h : (schema.evaluateDefaults : Outcome ε Unit) with
  | value _ => simp
  | failure e => exact absurd h (Outcome.forM_ne_failure fun _ _ => InputDef.evaluateDefault_ne_failure)
  | endless => simp

end Schema

end GraphQLCheck
