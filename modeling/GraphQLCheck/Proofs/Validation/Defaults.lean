/-
  GraphQLCheck.Proofs.Validation.Defaults
  ───────────────────────────────────────
  The defaults of variables that validation has passed are never refused.

  Validation meets every variable definition of every operation on its walk, and reports a default that the
  variable's type does not accept, or that its type makes useless by excluding null.  Coercion looks at a
  default only when no input is sent for the variable.  So in a document without reports such a variable
  has the value of its default, unless it is of no input type, which the rule does not look into: null is
  accepted at a name that stands for nothing.

  Main facts:
    * `exists_enter_variableDefinition`         — the walk enters every variable definition
    * `VariableDefinition.accepted_of_valid`    — a default without a report is accepted
    * `validated_default_is_bound`              — a variable without an input has the value of its default
-/
import Mathlib.Data.List.Nodup
import GraphQLCheck.Proofs.Coercion.Variables
import GraphQLCheck.Proofs.Validation.Arguments

namespace GraphQLCheck

/-! ## §1. Variable definitions along the walk. -/

section Walk

variable {schema : Schema} {document : Document}

/-- The walk starts by entering the document. -/
theorem exists_enter_document :
    ∃ step ∈ walkSteps schema document {} document.events, step.event = .enter (.document document) := by
  show ∃ step ∈ walkSteps schema document {} (Node.around (.document document) _), _
  exact ⟨_, List.mem_cons_self .., rfl⟩

/-- The walk enters every definition of a variable of every operation. -/
theorem exists_enter_variableDefinition {operation : Operation} (hoperation : operation ∈ document.operations)
    {definition : VariableDefinition} (hmem : definition ∈ operation.variableDefinitions) :
    ∃ step ∈ walkSteps schema document {} document.events,
      step.event = .enter (.variableDefinition definition) := by
  -- from the document to the operation, and from there to the definition
  obtain ⟨top, htop, hdocument⟩ : ∃ step ∈ walkSteps schema document {} document.events,
    step.event = .enter (.document document) := exists_enter_document
  have hoperationChild : Node.operation operation ∈ (Node.document document).children := by
    obtain ⟨definition, hdefinition, hsome⟩ := List.mem_filterMap.1 hoperation
    cases definition with
    | fragment part => cases hsome
    | operation other =>
      cases hsome
      exact List.mem_map_of_mem hdefinition
  obtain ⟨middle, hmiddle, hentered, _⟩ := enter_child_of_enter htop hdocument hoperationChild
  have hdefinitionChild :
      Node.variableDefinition definition ∈ (Node.operation operation).children :=
    List.mem_append_left _ (List.mem_map_of_mem hmem)
  obtain ⟨step, hstep, hentered, _⟩ := enter_child_of_enter hmiddle hentered hdefinitionChild
  exact ⟨step, hstep, hentered⟩

/-- A default that is not reported is one of a type that does not exclude null, and accepted there. -/
theorem VariableDefinition.accepted_of_valid
    (hvalid : document.validate schema [Rule.defaultValuesOfCorrectType] = [])
    {operation : Operation} (hoperation : operation ∈ document.operations)
    {definition : VariableDefinition} (hmem : definition ∈ operation.variableDefinitions)
    {literal : Literal} (hdefault : definition.defaultValue = some literal) :
    definition.typeRef.isNonNull = false ∧ literal.problems schema definition.typeRef = [] := by
  obtain ⟨step, hstep, hentered⟩ : ∃ step ∈ walkSteps schema document {} document.events,
    step.event = .enter (.variableDefinition definition) :=
      exists_enter_variableDefinition hoperation hmem
  have hreport := Rule.report_eq_nil_of_validate (List.mem_singleton.2 rfl) hvalid step hstep
  rw [hentered, schema_of_mem_walkSteps hstep] at hreport
  have herrors : Rule.defaultErrors schema definition literal = [] := by
    simpa [hdefault] using hreport
  unfold Rule.defaultErrors at herrors
  simp only [] at herrors
  split at herrors
  next => cases herrors
  next hnullable =>
    exact ⟨Bool.eq_false_iff.2 hnullable, Rule.problemsError_eq_nil_iff.1 herrors⟩

end Walk

/-! ## §2. Variables without an input. -/

namespace VariableDefinition

variable {schema : Schema} {inputs : Variables} {definition : VariableDefinition} {literal : Literal}

/-- A closed default that is accepted has a value. -/
theorem resolveOmitted_of_accepted (hdefaults : schema.DefaultsCoerce)
    (hdefault : definition.defaultValue = some literal) (hclosed : literal.variables = [])
    (haccepted : literal.problems schema definition.typeRef = []) :
    ∃ value, schema.literalValue [] definition.typeRef literal = .value value ∧
      definition.resolveOmitted schema = .value (some value) := by
  obtain ⟨value, hvalue⟩ := Literal.exists_value_of_accepted hdefaults.exists_defaultValue
    (Literal.BoundBy.of_closed hclosed) haccepted
  exact ⟨value, hvalue,
    resolveOmitted_eq_value_iff.2 (.inl ⟨literal, value, hdefault, hvalue, rfl⟩)⟩

end VariableDefinition

/-- **The default of a variable that validation has passed is what the variable is bound to.**  If every
default of an input field has a value, no default of a variable in the document is reported, and the
variables of an operation have distinct names and defaults without variables, then the operation has values
for its variables, in which each one that no input is sent for and that has a default is worth that default;
or it is refused, and the error names no such variable unless it is of no input type. -/
theorem validated_default_is_bound {schema : Schema} (hdefaults : schema.DefaultsCoerce)
    {document : Document} (hvalid : document.validate schema [Rule.defaultValuesOfCorrectType] = [])
    {operation : Operation} (hoperation : operation ∈ document.operations)
    (hdistinct : (operation.variableDefinitions.map VariableDefinition.name).Nodup)
    (hclosed : ∀ definition ∈ operation.variableDefinitions, ∀ literal,
      definition.defaultValue = some literal → literal.variables = []) (inputs : Variables) :
    (∃ values, schema.coerceVariables operation inputs = .value values ∧
      ∀ definition ∈ operation.variableDefinitions, ∀ literal, definition.defaultValue = some literal →
        inputs.lookup definition.name = none →
          ∃ value, schema.literalValue [] definition.typeRef literal = .value value ∧
            values.lookup definition.name = some value) ∨
    (∃ error, schema.coerceVariables operation inputs = .failure error ∧
      ∀ definition ∈ operation.variableDefinitions, definition.defaultValue.isSome = true →
        inputs.lookup definition.name = none → error.variable? = some definition.name →
          error = .unknownVariableType definition.name definition.typeRef.typeName ∨
            error = .nonInputVariable definition.name definition.typeRef.typeName) := by
  -- a variable without an input comes to the value of its default
  have homitted : ∀ definition ∈ operation.variableDefinitions, ∀ literal,
      definition.defaultValue = some literal → ∃ value,
        schema.literalValue [] definition.typeRef literal = .value value ∧
          definition.resolveOmitted schema = .value (some value) := by
    intro definition hmem literal hdefault
    exact VariableDefinition.resolveOmitted_of_accepted hdefaults hdefault
      (hclosed definition hmem literal hdefault)
      (VariableDefinition.accepted_of_valid hvalid hoperation hmem hdefault).2
  cases hrun : schema.coerceVariables operation inputs with
  | value values =>
    left
    refine ⟨values, rfl, ?_⟩
    intro definition hmem literal hdefault hinput
    obtain ⟨value?, hresolve, hlookup⟩ :=
      Schema.lookup_of_coerceDefinitions hdistinct (fun _ _ => rfl) hrun definition hmem
    obtain ⟨value, hvalue, hworth⟩ := homitted definition hmem literal hdefault
    obtain ⟨_, ⟨input, _, hsent, _⟩ | ⟨_, hresolve⟩⟩ :=
      VariableDefinition.resolve_eq_value_iff.1 hresolve
    · rw [hinput] at hsent
      cases hsent
    · rw [hworth] at hresolve
      cases hresolve
      exact ⟨value, hvalue, hlookup⟩
  | failure error =>
    right
    refine ⟨error, rfl, ?_⟩
    intro definition hmem hdefault hinput hnamed
    obtain ⟨other, hother, hfailure⟩ := Schema.exists_of_coerceDefinitions_failure hrun
    -- the error names the variable that failed, so this is the one
    have hname : other.name = definition.name := by
      have hnamed' := VariableDefinition.variable?_of_resolve hfailure
      rw [hnamed] at hnamed'
      exact (Option.some.inj hnamed').symm
    have hsame := List.inj_on_of_nodup_map hdistinct hother hmem hname
    rw [hsame] at hfailure
    unfold VariableDefinition.resolve at hfailure
    cases herror : definition.inputTypeError? schema with
    | some found =>
      rw [herror] at hfailure
      cases hfailure
      exact VariableDefinition.eq_of_inputTypeError? herror
    | none =>
      obtain ⟨literal, hliteral⟩ := Option.isSome_iff_exists.1 hdefault
      obtain ⟨value, _, hworth⟩ := homitted definition hmem literal hliteral
      simp only [herror, hinput, hworth] at hfailure
      cases hfailure
  | endless => exact absurd hrun (hdefaults.defaultsEnd.coerceVariables_ne_endless operation inputs)

namespace Search

/-- A filter that gives a range all of its fields. -/
def fromLiteral : Literal := .object [("range", .object [("from", .int 2)])]

/-- `query ($filter: Filter = {range: {from: 2}}, $first: Int = 5) { search }` -/
def defaultedQuery : Operation :=
  ⟨.query, none, [⟨"filter", .named "Filter", some fromLiteral, ⟨1, 8⟩⟩,
    ⟨"first", .named "Int", some (.int 5), ⟨1, 46⟩⟩],
    ⟨[.field ⟨none, "search", [], none, ⟨1, 66⟩⟩], ⟨1, 64⟩⟩, ⟨1, 1⟩⟩

/-- An input is sent for one of the variables, and the other has the value of its default. -/
theorem filter_default_is_bound :
    schema.coerceVariables defaultedQuery [("first", .ofInt 3)] = .value
      [("filter", .object [("order", .string "ASC"), ("range", .object [("from", .ofInt 2)])]),
        ("first", .ofInt 3)] ∧
    ∃ values, schema.coerceVariables defaultedQuery [("first", .ofInt 3)] = .value values ∧
      ∃ value, schema.literalValue [] (.named "Filter") fromLiteral = .value value ∧
        values.lookup "filter" = some value := by
  have hvalid : (Document.mk [.operation defaultedQuery]).validate schema
      [Rule.defaultValuesOfCorrectType] = [] := rfl
  have hclosed : ∀ definition ∈ defaultedQuery.variableDefinitions, ∀ literal,
      definition.defaultValue = some literal → literal.variables = [] := by
    simp [defaultedQuery, fromLiteral, Literal.variables, Literal.fieldsVariables]
  refine ⟨rfl, ?_⟩
  rcases validated_default_is_bound defaultsCoerce hvalid (List.mem_singleton.2 rfl) (by decide) hclosed
    [("first", .ofInt 3)] with ⟨values, hrun, hbound⟩ | ⟨error, hrun, _⟩
  · exact ⟨values, hrun, hbound _ (List.mem_cons_self ..) fromLiteral rfl rfl⟩
  · cases hrun

end Search

end GraphQLCheck
