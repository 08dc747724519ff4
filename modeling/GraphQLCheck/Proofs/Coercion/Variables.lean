/-
  GraphQLCheck.Proofs.Coercion.Variables
  ──────────────────────────────────────
  The variables of an operation are bound one after the other, each on its own.

  What a variable is worth depends on the inputs alone, never on the variables before it.  So a run over
  the definitions is known from its steps: it fails because of one variable that fails on its own, what
  every step keeps is kept by the run, and with distinct names each variable ends up with what it is worth.

  Main facts:
    * `VariableDefinition.resolve_eq_value_iff`       — how a variable comes to what it is worth
    * `VariableDefinition.variable?_of_resolve`       — the error of a variable names it
    * `VariableDefinition.resolve_ne_endless`         — what a variable is worth has an end
    * `Schema.coerceDefinitions_cons`                 — one step, and the rest of the run
    * `Schema.exists_of_coerceDefinitions_failure`    — a run that fails, fails in one of its steps
    * `Schema.invariant_of_coerceDefinitions`         — what every step keeps is kept by the run
    * `Schema.mem_of_coerceDefinitions`, `Schema.lookup_of_coerceDefinitions` — what a run binds
-/
import GraphQLCheck.Coercion.Variables
import GraphQLCheck.Proofs.Coercion.Defaults

namespace GraphQLCheck

/-! ## §1. One variable. -/

/-- The type inside all layers can be that of a variable. -/
def Schema.IsInputType (schema : Schema) (type : TypeRef) : Prop :=
  ∃ definition, schema.namedType? type = some definition ∧ definition.isInput = true

namespace VariableDefinition

variable {schema : Schema} {inputs : Variables} {definition : VariableDefinition}

/-- An input is worth null where it is null and may be, and else what it coerces to, if it has no
problem. -/
theorem resolveInput_eq_value_iff {input value : Json} :
    definition.resolveInput schema input = .value value ↔
      (input.isNull = true ∧ definition.typeRef.isNonNull = false ∧ value = .null) ∨
      (input.isNull = false ∧ input.problems schema definition.typeRef = [] ∧
        schema.coerceValue definition.typeRef input = .value value) := by
  unfold resolveInput
  simp only []
  cases hnull : input.isNull with
  | true =>
    rw [if_pos rfl]
    cases definition.typeRef.isNonNull with
    | true => simp
    | false => simp [@eq_comm _ value]
  | false =>
    rw [if_neg Bool.false_ne_true]
    split
    next hnone => simp [hnone, Outcome.mapFailure_eq_value_iff]
    next hsome =>
      constructor
      · intro h
        cases h
      · rintro (⟨hnull, _⟩ | ⟨_, hnone, _⟩)
        · cases hnull
        · exact absurd hnone hsome

/-- A variable that no input is sent for is worth its default, or else nothing, where it may. -/
theorem resolveOmitted_eq_value_iff {value? : Option Json} :
    definition.resolveOmitted schema = .value value? ↔
      (∃ literal value, definition.defaultValue = some literal ∧
        schema.literalValue [] definition.typeRef literal = .value value ∧ value? = some value) ∨
      (definition.defaultValue = none ∧ definition.typeRef.isNonNull = false ∧ value? = none) := by
  unfold resolveOmitted
  cases definition.defaultValue with
  | some literal =>
    simp only []
    rw [Outcome.map_eq_value_iff]
    simp [Outcome.mapFailure_eq_value_iff, @eq_comm _ value?]
  | none =>
    cases definition.typeRef.isNonNull with
    | true => simp
    | false => simp [@eq_comm _ value?]

/-- A variable of an input type is worth what its input is, or what it is without one. -/
theorem resolve_eq_value_iff {value? : Option Json} :
    definition.resolve schema inputs = .value value? ↔
      definition.inputTypeError? schema = none ∧
        ((∃ input value, inputs.lookup definition.name = some input ∧
          definition.resolveInput schema input = .value value ∧ value? = some value) ∨
        (inputs.lookup definition.name = none ∧ definition.resolveOmitted schema = .value value?)) := by
  unfold resolve
  cases definition.inputTypeError? schema with
  | some error => simp
  | none =>
    cases inputs.lookup definition.name with
    | none => simp
    | some input =>
      simp only []
      rw [Outcome.map_eq_value_iff]
      simp [@eq_comm _ value?]

theorem inputTypeError?_of_isInputType
    (h : schema.IsInputType definition.typeRef) : definition.inputTypeError? schema = none := by
  obtain ⟨type, hfind, hinput⟩ := h
  unfold Schema.namedType? at hfind
  unfold inputTypeError?
  simp only [hfind, hinput, if_true]

/-- A variable of no input type is refused for being one of those two kinds. -/
theorem eq_of_inputTypeError? {error : CoercionError} (h : definition.inputTypeError? schema = some error) :
    error = .unknownVariableType definition.name definition.typeRef.typeName ∨
      error = .nonInputVariable definition.name definition.typeRef.typeName := by
  unfold inputTypeError? at h
  simp only [] at h
  split at h
  next =>
    cases h
    exact .inl rfl
  next =>
    split at h
    next => cases h
    next =>
      cases h
      exact .inr rfl

end VariableDefinition

/-- The variable that an error names, if it names one. -/
def CoercionError.variable? : CoercionError → Option String
  | .invalidVariable name _ _ => some name
  | .missingVariable name _ => some name
  | .nonInputVariable name _ => some name
  | .unknownVariableType name _ => some name
  | .invalidArgument .. => none

namespace VariableDefinition

variable {schema : Schema} {inputs : Variables} {definition : VariableDefinition} {error : CoercionError}

theorem variable?_of_resolveInput {input : Json}
    (h : definition.resolveInput schema input = .failure error) :
    error.variable? = some definition.name := by
  unfold resolveInput at h
  simp only [] at h
  split at h
  next =>
    split at h
    next =>
      cases h
      rfl
    next => cases h
  next =>
    split at h
    next =>
      obtain ⟨_, _, rfl⟩ := Outcome.mapFailure_eq_failure_iff.1 h
      rfl
    next =>
      cases h
      rfl

theorem variable?_of_resolveOmitted (h : definition.resolveOmitted schema = .failure error) :
    error.variable? = some definition.name := by
  unfold resolveOmitted at h
  split at h
  next =>
    rw [Outcome.map_eq_failure_iff] at h
    obtain ⟨_, _, rfl⟩ := Outcome.mapFailure_eq_failure_iff.1 h
    rfl
  next =>
    split at h
    next =>
      cases h
      rfl
    next => cases h

/-- **The error of a variable names it.** -/
theorem variable?_of_resolve (h : definition.resolve schema inputs = .failure error) :
    error.variable? = some definition.name := by
  unfold resolve at h
  split at h
  next error herror =>
    cases h
    rcases eq_of_inputTypeError? herror with rfl | rfl <;> rfl
  next =>
    split at h
    next => exact variable?_of_resolveInput (Outcome.map_eq_failure_iff.1 h)
    next => exact variable?_of_resolveOmitted h

/-- What a variable is worth has an end, if the evaluations of defaults have. -/
theorem resolve_ne_endless (hdefaults : schema.DefaultsEnd) :
    definition.resolve schema inputs ≠ .endless := by
  have homitted : definition.resolveOmitted schema ≠ .endless := by
    unfold resolveOmitted
    split
    next literal _ =>
      rw [ne_eq, Outcome.map_eq_endless_iff, Outcome.mapFailure_eq_endless_iff]
      exact hdefaults.literalValue_ne_endless [] definition.typeRef literal
    next => split <;> exact nofun
  have hsent : ∀ input, definition.resolveInput schema input ≠ .endless := by
    intro input
    unfold resolveInput
    simp only []
    split
    next => split <;> exact nofun
    next =>
      split
      next =>
        rw [ne_eq, Outcome.mapFailure_eq_endless_iff]
        exact hdefaults.coerceValue_ne_endless definition.typeRef input
      next => exact nofun
  unfold resolve
  split
  next => exact nofun
  next =>
    split
    next input _ =>
      rw [ne_eq, Outcome.map_eq_endless_iff]
      exact hsent input
    next => exact homitted

end VariableDefinition

/-! ## §2. Steps. -/

/-- The values after those of a variable are added, if it has one. -/
def VariableDefinition.bindIn (definition : VariableDefinition) (values : Variables) :
    Option Json → Variables
  | some value => Entries.put values definition.name value
  | none => values

namespace VariableDefinition

variable {definition : VariableDefinition} {values : Variables} {value? : Option Json}

theorem lookup_bindIn_of_ne {name : String} (h : name ≠ definition.name) :
    (definition.bindIn values value?).lookup name = values.lookup name := by
  cases value? with
  | none => rfl
  | some value => exact Entries.lookup_put_of_ne h

/-- A variable that had no value before has what it is worth. -/
theorem lookup_bindIn_self (h : values.lookup definition.name = none) :
    (definition.bindIn values value?).lookup definition.name = value? := by
  cases value? with
  | none => exact h
  | some value => exact Entries.lookup_put_self values definition.name value

end VariableDefinition

namespace Schema

variable {schema : Schema} {inputs values result : Variables} {definitions : List VariableDefinition}

theorem coerceDefinitions_cons (definition : VariableDefinition) :
    schema.coerceDefinitions inputs values (definition :: definitions) =
      definition.resolve schema inputs >>= fun value? =>
        schema.coerceDefinitions inputs (definition.bindIn values value?) definitions := by
  rw [coerceDefinitions]
  congr 1
  funext value?
  cases value? <;> rfl

/-! ## §3. Runs. -/

/-- The variables of an operation are refused because of one of them, for the reason that it has on its
own. -/
theorem exists_of_coerceDefinitions_failure {error : CoercionError}
    (h : schema.coerceDefinitions inputs values definitions = .failure error) :
    ∃ definition ∈ definitions, definition.resolve schema inputs = .failure error := by
  induction definitions generalizing values with
  | nil => cases h
  | cons definition definitions ih =>
    rw [coerceDefinitions_cons] at h
    rcases Outcome.bind_eq_failure_iff.1 h with hfailure | ⟨_, _, hrest⟩
    · exact ⟨definition, List.mem_cons_self .., hfailure⟩
    · obtain ⟨other, hmem, hfailure⟩ := ih hrest
      exact ⟨other, List.mem_cons_of_mem _ hmem, hfailure⟩

/-- A run has no end only if one of the variables has none. -/
theorem exists_of_coerceDefinitions_endless
    (h : schema.coerceDefinitions inputs values definitions = .endless) :
    ∃ definition ∈ definitions, definition.resolve schema inputs = .endless := by
  induction definitions generalizing values with
  | nil => cases h
  | cons definition definitions ih =>
    rw [coerceDefinitions_cons] at h
    cases hresolve : definition.resolve schema inputs with
    | endless => exact ⟨definition, List.mem_cons_self .., hresolve⟩
    | failure error =>
      rw [hresolve] at h
      cases h
    | value value? =>
      rw [hresolve, Outcome.bind_value] at h
      obtain ⟨other, hmem, hendless⟩ := ih h
      exact ⟨other, List.mem_cons_of_mem _ hmem, hendless⟩

theorem DefaultsEnd.coerceVariables_ne_endless (h : schema.DefaultsEnd) (operation : Operation)
    (inputs : Variables) : schema.coerceVariables operation inputs ≠ .endless := by
  intro hendless
  obtain ⟨definition, _, hresolve⟩ := exists_of_coerceDefinitions_endless hendless
  exact definition.resolve_ne_endless h hresolve

/-- What every step keeps is kept by a run. -/
theorem invariant_of_coerceDefinitions {P : Variables → Prop}
    (hstep : ∀ definition ∈ definitions, ∀ values value?,
      definition.resolve schema inputs = .value value? → P values → P (definition.bindIn values value?))
    (hvalues : P values) (h : schema.coerceDefinitions inputs values definitions = .value result) :
    P result := by
  induction definitions generalizing values with
  | nil =>
    cases h
    exact hvalues
  | cons definition definitions ih =>
    rw [coerceDefinitions_cons] at h
    obtain ⟨value?, hvalue, hrest⟩ := Outcome.bind_eq_value_iff.1 h
    have hnext := hstep definition (List.mem_cons_self ..) values value? hvalue hvalues
    exact ih (fun other hother => hstep other (List.mem_cons_of_mem _ hother)) hnext hrest

/-- Every value that a run binds is what one of the variables is worth. -/
theorem mem_of_coerceDefinitions (h : schema.coerceDefinitions inputs [] definitions = .value result) :
    ∀ entry ∈ result, ∃ definition ∈ definitions, definition.name = entry.1 ∧
      definition.resolve schema inputs = .value (some entry.2) := by
  apply invariant_of_coerceDefinitions (P := fun current => ∀ entry ∈ current, ∃ definition ∈ definitions,
    definition.name = entry.1 ∧ definition.resolve schema inputs = .value (some entry.2)) _ _ h
  · intro definition hmem current value? hvalue hcurrent entry hentry
    cases value? with
    | none => exact hcurrent entry hentry
    | some value =>
      rcases Entries.mem_of_mem_put hentry with rfl | hentry
      · exact ⟨definition, hmem, rfl, hvalue⟩
      · exact hcurrent entry hentry
  · intro entry hentry
    cases hentry

/-- A run leaves what is found under the names that it does not define. -/
theorem lookup_of_not_mem_definitions {name : String}
    (hname : name ∉ definitions.map VariableDefinition.name)
    (h : schema.coerceDefinitions inputs values definitions = .value result) :
    result.lookup name = values.lookup name := by
  refine invariant_of_coerceDefinitions (P := fun current => current.lookup name = values.lookup name)
    (fun definition hmem current value? _ hcurrent => ?_) rfl h
  have hne : name ≠ definition.name := by
    rintro rfl
    exact hname (List.mem_map_of_mem hmem)
  rw [VariableDefinition.lookup_bindIn_of_ne hne]
  exact hcurrent

/-- With distinct names, each variable ends up with what it is worth. -/
theorem lookup_of_coerceDefinitions (hdistinct : (definitions.map VariableDefinition.name).Nodup)
    (hnew : ∀ definition ∈ definitions, values.lookup definition.name = none)
    (h : schema.coerceDefinitions inputs values definitions = .value result) :
    ∀ definition ∈ definitions, ∃ value?, definition.resolve schema inputs = .value value? ∧
      result.lookup definition.name = value? := by
  -- names that are still to come are not among the values yet
  induction definitions generalizing values with
  | nil =>
    intro definition hmem
    cases hmem
  | cons first definitions ih =>
    rw [List.map_cons, List.nodup_cons] at hdistinct
    rw [coerceDefinitions_cons] at h
    obtain ⟨first?, hfirst, hrest⟩ := Outcome.bind_eq_value_iff.1 h
    intro definition hmem
    rcases List.mem_cons.1 hmem with rfl | hmem
    · -- the rest of the run does not bind the name again
      refine ⟨first?, hfirst, ?_⟩
      rw [lookup_of_not_mem_definitions hdistinct.1 hrest]
      exact VariableDefinition.lookup_bindIn_self (hnew definition (List.mem_cons_self ..))
    · refine ih hdistinct.2 ?_ hrest definition hmem
      intro other hother
      have hne : other.name ≠ first.name := by
        intro hname
        exact hdistinct.1 (hname ▸ List.mem_map_of_mem hother)
      rw [VariableDefinition.lookup_bindIn_of_ne hne]
      exact hnew other (List.mem_cons_of_mem _ hother)

end Schema

end GraphQLCheck
