/-
  GraphQLCheck.Proofs.Coercion.Locality
  ─────────────────────────────────────
  The variables of an operation are coerced as each is alone.

  An operation can be cut down to one of its variables.  If it fails with all of them, the first one that
  fails alone gives the error, and if it does not, the values are those of its variables, one after the
  other.  Which variables have a value is known without any coercion: those that an input is sent for, and
  those with a default.

      Operation.only              — the operation with one variable
      VariableDefinition.Takes    — what a variable is worth
      VariableDefinition.binding? — the variable with that

  Main results:
    * `VariableDefinition.takes_of_resolve`    — what a variable comes to is what it takes
    * `Schema.coerceVariables_only`            — one variable
    * `Schema.coerceDefinitions_eq_value_iff`  — what a run binds, in order
    * `Schema.coerceDefinitions_eq_failure_iff` — the first variable that fails gives the error
    * `variables_are_coerced_exactly`          — which variables have values, which ones, and what they are
                                                 read from
-/
import GraphQLCheck.Proofs.Coercion.Variables
import GraphQLCheck.Proofs.Schema.Built

namespace GraphQLCheck

/-! ## §1. One variable. -/

/-- The operation with one variable only. -/
def Operation.only (operation : Operation) (definition : VariableDefinition) : Operation :=
  { operation with variableDefinitions := [definition] }

namespace VariableDefinition

variable {schema : Schema} {inputs : Variables} {definition : VariableDefinition}

/-- A variable has a value if an input is sent for it, or if it has a default. -/
def isGiven (inputs : Variables) (definition : VariableDefinition) : Bool :=
  (inputs.lookup definition.name).isSome || definition.defaultValue.isSome

/-- The variable with what it is worth, if it is worth something. -/
def binding? (schema : Schema) (inputs : Variables) (definition : VariableDefinition) :
    Option (String × Json) :=
  match definition.resolve schema inputs with
  | .value (some value) => some (definition.name, value)
  | _ => none

theorem binding?_of_resolve {value? : Option Json} (h : definition.resolve schema inputs = .value value?) :
    definition.binding? schema inputs = value?.map fun value => (definition.name, value) := by
  unfold binding?
  rw [h]
  cases value? <;> rfl

/-- What a variable is worth: null for null, what another input coerces to, and without an input what its
default is worth, or else nothing. -/
inductive Takes (schema : Schema) (inputs : Variables) (definition : VariableDefinition) :
    Option Json → Prop where
  | null : inputs.lookup definition.name = some .null → Takes schema inputs definition (some .null)
  | sent {input value : Json} : inputs.lookup definition.name = some input → input ≠ .null →
      schema.coerceValue definition.typeRef input = .value value →
      Takes schema inputs definition (some value)
  | default {literal : Literal} {value : Json} : inputs.lookup definition.name = none →
      definition.defaultValue = some literal →
      schema.literalValue [] definition.typeRef literal = .value value →
      Takes schema inputs definition (some value)
  | nothing : inputs.lookup definition.name = none → definition.defaultValue = none →
      definition.typeRef.isNonNull = false → Takes schema inputs definition none

theorem takes_of_resolve {value? : Option Json} (h : definition.resolve schema inputs = .value value?) :
    definition.Takes schema inputs value? := by
  obtain ⟨_, ⟨input, value, hinput, hvalue, rfl⟩ | ⟨homitted, hvalue⟩⟩ := resolve_eq_value_iff.1 h
  · rcases resolveInput_eq_value_iff.1 hvalue with ⟨hnull, _, rfl⟩ | ⟨hnull, _, hcoerce⟩
    · cases input with
      | null => exact .null hinput
      | _ => cases hnull
    · refine .sent hinput ?_ hcoerce
      rintro rfl
      cases hnull
  · rcases resolveOmitted_eq_value_iff.1 hvalue with ⟨_, _, hliteral, hworth, rfl⟩ | ⟨hnone, hnullable, rfl⟩
    · exact .default homitted hliteral hworth
    · exact .nothing homitted hnone hnullable

namespace Takes

variable {value? : Option Json} (h : definition.Takes schema inputs value?)
include h

/-- Which variables are worth something is known without what they are worth. -/
theorem isSome_eq : value?.isSome = definition.isGiven inputs := by
  unfold isGiven
  cases h with
  | null hinput => rw [hinput]; rfl
  | sent hinput => rw [hinput]; rfl
  | default homitted hliteral => rw [homitted, hliteral]; rfl
  | nothing homitted hnone => rw [homitted, hnone]; rfl

/-- A variable that excludes null is worth something. -/
theorem isSome_of_isNonNull (hrequired : definition.typeRef.isNonNull = true) :
    value?.isSome = true := by
  cases h with
  | nothing _ _ hnullable =>
    rw [hrequired] at hnullable
    cases hnullable
  | _ => rfl

end Takes

/-- All that is read of the inputs is what is sent for the variable. -/
theorem resolve_congr {inputs' : Variables}
    (h : inputs.lookup definition.name = inputs'.lookup definition.name) :
    definition.resolve schema inputs = definition.resolve schema inputs' := by
  unfold resolve
  rw [h]

end VariableDefinition

namespace Schema

variable {schema : Schema} {inputs values result : Variables} {definitions : List VariableDefinition}

/-- With one variable, an operation has what the variable is worth. -/
theorem coerceVariables_only (operation : Operation) (definition : VariableDefinition) :
    schema.coerceVariables (operation.only definition) inputs =
      (definition.resolve schema inputs).map fun value? =>
        (value?.map fun value => (definition.name, value)).toList := by
  show schema.coerceDefinitions inputs [] [definition] = _
  rw [coerceDefinitions_cons]
  cases definition.resolve schema inputs with
  | value value? => cases value? <;> rfl
  | failure => rfl
  | endless => rfl

theorem coerceVariables_only_eq_failure_iff {operation : Operation} {definition : VariableDefinition}
    {error : CoercionError} :
    schema.coerceVariables (operation.only definition) inputs = .failure error ↔
      definition.resolve schema inputs = .failure error := by
  rw [coerceVariables_only, Outcome.map_eq_failure_iff]

theorem coerceVariables_only_succeeds_iff {operation : Operation} {definition : VariableDefinition} :
    (∃ values, schema.coerceVariables (operation.only definition) inputs = .value values) ↔
      ∃ value?, definition.resolve schema inputs = .value value? := by
  rw [coerceVariables_only]
  simp only [Outcome.map_eq_value_iff]
  constructor
  · rintro ⟨_, value?, hvalue, _⟩
    exact ⟨value?, hvalue⟩
  · rintro ⟨value?, hvalue⟩
    exact ⟨_, value?, hvalue, rfl⟩

/-! ## §2. Runs. -/

/-- With distinct names, a run adds the bindings of its variables, in their order. -/
theorem coerceDefinitions_eq_value_iff (hdistinct : (definitions.map VariableDefinition.name).Nodup)
    (hnew : ∀ definition ∈ definitions, definition.name ∉ values.map Prod.fst) :
    schema.coerceDefinitions inputs values definitions = .value result ↔
      (∀ definition ∈ definitions, ∃ value?, definition.resolve schema inputs = .value value?) ∧
        result = values ++ definitions.filterMap (·.binding? schema inputs) := by
  -- names that are still to come are not among the values yet
  induction definitions generalizing values with
  | nil => simp [coerceDefinitions, @eq_comm _ result]
  | cons first definitions ih =>
    rw [List.map_cons, List.nodup_cons] at hdistinct
    rw [List.forall_mem_cons] at hnew
    have hlater : ∀ definition ∈ definitions, first.name ≠ definition.name := by
      intro definition hmem hname
      exact hdistinct.1 (hname ▸ List.mem_map_of_mem hmem)
    rw [coerceDefinitions_cons, Outcome.bind_eq_value_iff, List.forall_mem_cons]
    have hrest : ∀ value?, first.resolve schema inputs = .value value? →
        (schema.coerceDefinitions inputs (first.bindIn values value?) definitions = .value result ↔
          (∀ definition ∈ definitions, ∃ value?, definition.resolve schema inputs = .value value?) ∧
            result = values ++ (first :: definitions).filterMap (·.binding? schema inputs)) := by
      intro value? hvalue
      have hbinding := VariableDefinition.binding?_of_resolve hvalue
      cases value? with
      | none =>
        rw [List.filterMap_cons_none hbinding]
        exact ih hdistinct.2 hnew.2
      | some value =>
        -- the name is new, so its value comes last
        have hput : first.bindIn values (some value) = values ++ [(first.name, value)] :=
          Entries.put_of_not_mem hnew.1
        have hnext : ∀ definition ∈ definitions,
            definition.name ∉ (values ++ [(first.name, value)]).map Prod.fst := by
          intro definition hmem
          rw [List.map_append, List.mem_append, not_or]
          refine ⟨hnew.2 definition hmem, fun hsame => ?_⟩
          exact hlater definition hmem (List.mem_singleton.1 hsame).symm
        rw [List.filterMap_cons_some hbinding, hput, ih hdistinct.2 hnext, List.append_assoc,
          List.singleton_append]
    constructor
    · rintro ⟨value?, hvalue, hrun⟩
      obtain ⟨hall, hresult⟩ := (hrest value? hvalue).1 hrun
      exact ⟨⟨⟨value?, hvalue⟩, hall⟩, hresult⟩
    · rintro ⟨⟨⟨value?, hvalue⟩, hall⟩, hresult⟩
      exact ⟨value?, hvalue, (hrest value? hvalue).2 ⟨hall, hresult⟩⟩

/-- A run fails because of the first of its variables that fails, with the error of that one. -/
theorem coerceDefinitions_eq_failure_iff {error : CoercionError} :
    schema.coerceDefinitions inputs values definitions = .failure error ↔
      ∃ before definition after, definitions = before ++ definition :: after ∧
        (∀ other ∈ before, ∃ value?, other.resolve schema inputs = .value value?) ∧
        definition.resolve schema inputs = .failure error := by
  induction definitions generalizing values with
  | nil =>
    constructor
    · intro h
      cases h
    · rintro ⟨before, definition, after, hsplit, _⟩
      exact absurd hsplit.symm (List.append_ne_nil_of_right_ne_nil before (List.cons_ne_nil _ _))
  | cons first definitions ih =>
    rw [coerceDefinitions_cons, Outcome.bind_eq_failure_iff]
    constructor
    · rintro (hfailure | ⟨value?, hvalue, hrest⟩)
      · exact ⟨[], first, definitions, rfl, List.forall_mem_nil _, hfailure⟩
      · -- the first one is worth something, so the error comes from a later one
        obtain ⟨before, definition, after, rfl, hbefore, hfailure⟩ := ih.1 hrest
        refine ⟨first :: before, definition, after, rfl, ?_, hfailure⟩
        rw [List.forall_mem_cons]
        exact ⟨⟨value?, hvalue⟩, hbefore⟩
    · rintro ⟨before, definition, after, hsplit, hbefore, hfailure⟩
      cases before with
      | nil =>
        cases hsplit
        exact .inl hfailure
      | cons _ before =>
        cases hsplit
        rw [List.forall_mem_cons] at hbefore
        obtain ⟨⟨value?, hvalue⟩, hbefore⟩ := hbefore
        exact .inr ⟨value?, hvalue, ih.2 ⟨before, definition, after, rfl, hbefore, hfailure⟩⟩

/-- All that is read of the inputs is what is sent for the variables. -/
theorem coerceDefinitions_congr {inputs' : Variables}
    (h : ∀ definition ∈ definitions, inputs.lookup definition.name = inputs'.lookup definition.name) :
    schema.coerceDefinitions inputs values definitions =
      schema.coerceDefinitions inputs' values definitions := by
  induction definitions generalizing values with
  | nil => rfl
  | cons first definitions ih =>
    rw [List.forall_mem_cons] at h
    rw [coerceDefinitions_cons, coerceDefinitions_cons, VariableDefinition.resolve_congr h.1]
    simp only [ih h.2]

/-- The names that a run binds, if none of its variables fails. -/
theorem keys_bindings
    (h : ∀ definition ∈ definitions, ∃ value?, definition.resolve schema inputs = .value value?) :
    (definitions.filterMap (·.binding? schema inputs)).map Prod.fst =
      (definitions.filter (·.isGiven inputs)).map VariableDefinition.name := by
  induction definitions with
  | nil => rfl
  | cons first definitions ih =>
    rw [List.forall_mem_cons] at h
    obtain ⟨⟨value?, hvalue⟩, hrest⟩ := h
    have hbinding := VariableDefinition.binding?_of_resolve hvalue
    have hgiven := (VariableDefinition.takes_of_resolve hvalue).isSome_eq
    cases value? with
    | none =>
      have hskip : ¬first.isGiven inputs = true := by
        rw [← hgiven]
        exact nofun
      rw [List.filterMap_cons_none hbinding, List.filter_cons_of_neg hskip, ih hrest]
    | some value =>
      rw [List.filterMap_cons_some hbinding, List.filter_cons_of_pos hgiven.symm, List.map_cons,
        List.map_cons, ih hrest]

end Schema

/-! ## §3. Exactness. -/

/-- **Variables are coerced exactly, each on its own.**  Let the variables of an operation have distinct
names.  If the operation has values, these are for the variables, in their order, that an input is sent for
or that have a default, and for no others: null for null, what the input coerces to for another one, and what
the default is worth where no input is sent.  A variable that excludes null is among them.  There are values
exactly if each variable has them alone; otherwise the error names the first variable that fails alone, and
it is the error of that one.  Inputs that are the same for the variables make no difference. -/
theorem variables_are_coerced_exactly (schema : Schema) {operation : Operation}
    (hdistinct : (operation.variableDefinitions.map VariableDefinition.name).Nodup) (inputs : Variables) :
    (∀ values, schema.coerceVariables operation inputs = .value values →
      values.map Prod.fst = (operation.variableDefinitions.filter fun definition =>
        (inputs.lookup definition.name).isSome || definition.defaultValue.isSome).map
          VariableDefinition.name ∧
      ∀ definition ∈ operation.variableDefinitions,
        definition.Takes schema inputs (values.lookup definition.name) ∧
        (definition.typeRef.isNonNull = true → (values.lookup definition.name).isSome = true)) ∧
    ((∃ values, schema.coerceVariables operation inputs = .value values) ↔
      ∀ definition ∈ operation.variableDefinitions,
        ∃ values, schema.coerceVariables (operation.only definition) inputs = .value values) ∧
    (∀ error, schema.coerceVariables operation inputs = .failure error ↔
      ∃ before definition after, operation.variableDefinitions = before ++ definition :: after ∧
        (∀ other ∈ before,
          ∃ values, schema.coerceVariables (operation.only other) inputs = .value values) ∧
        schema.coerceVariables (operation.only definition) inputs = .failure error ∧
        error.variable? = some definition.name) ∧
    ∀ inputs' : Variables,
      (∀ definition ∈ operation.variableDefinitions,
        inputs.lookup definition.name = inputs'.lookup definition.name) →
      schema.coerceVariables operation inputs = schema.coerceVariables operation inputs' := by
  have hrun : ∀ {values}, schema.coerceVariables operation inputs = .value values ↔ _ :=
    Schema.coerceDefinitions_eq_value_iff hdistinct fun _ _ => nofun
  refine ⟨fun values hvalues => ⟨?_, fun definition hmem => ?_⟩, ?_, fun error => ?_,
    fun inputs' hsame => Schema.coerceDefinitions_congr hsame⟩
  · -- which entries there are is known from the inputs and the defaults alone
    obtain ⟨hall, rfl⟩ := hrun.1 hvalues
    exact Schema.keys_bindings hall
  · obtain ⟨value?, hvalue, hlookup⟩ :=
      Schema.lookup_of_coerceDefinitions hdistinct (fun _ _ => rfl) hvalues definition hmem
    have htakes := VariableDefinition.takes_of_resolve hvalue
    rw [hlookup]
    exact ⟨htakes, htakes.isSome_of_isNonNull⟩
  · simp only [Schema.coerceVariables_only_succeeds_iff, hrun]
    exact ⟨fun ⟨_, hall, _⟩ => hall, fun hall => ⟨_, hall, rfl⟩⟩
  · simp only [Schema.coerceVariables_only_succeeds_iff, Schema.coerceVariables_only_eq_failure_iff]
    refine Schema.coerceDefinitions_eq_failure_iff.trans ?_
    constructor
    · rintro ⟨before, definition, after, hsplit, hbefore, hfailure⟩
      exact ⟨before, definition, after, hsplit, hbefore, hfailure,
        VariableDefinition.variable?_of_resolve hfailure⟩
    · rintro ⟨before, definition, after, hsplit, hbefore, hfailure, _⟩
      exact ⟨before, definition, after, hsplit, hbefore, hfailure⟩

namespace Search

/-- `query ($since: Date, $filter: Filter!, $first: Int = 5) { search }` -/
def paged : Operation where
  kind := .query
  name := none
  variableDefinitions := [⟨"since", .named "Date", none, ⟨1, 8⟩⟩,
    ⟨"filter", .nonNull (.named "Filter"), none, ⟨1, 22⟩⟩, ⟨"first", .named "Int", some (.int 5), ⟨1, 40⟩⟩]
  selectionSet := ⟨[.field ⟨none, "search", [], none, ⟨1, 58⟩⟩], ⟨1, 56⟩⟩
  location := ⟨1, 1⟩

/-- The filter that is sent, `{"range": {"from": 2}}`. -/
def sentFilter : Json := .object [("range", .object [("from", .ofInt 2)])]

/-- Inputs may be moved and added.  Without any for the filter, that of `first` is not looked at. -/
theorem paged_is_coerced_exactly :
    (paged.variableDefinitions.map VariableDefinition.name).Nodup ∧
    schema.coerceVariables paged [("page", .ofInt 2), ("filter", sentFilter), ("since", .null)] = .value
      [("since", .null), ("filter", .object [("order", .string "ASC"),
        ("range", .object [("from", .ofInt 2)])]), ("first", .ofInt 5)] ∧
    schema.coerceVariables paged [("first", .string "two")] =
      .failure (.missingVariable "filter" "Filter") := by
  have hdistinct : (paged.variableDefinitions.map VariableDefinition.name).Nodup := by decide
  obtain ⟨_, _, _, hlocal⟩ :=
    variables_are_coerced_exactly schema hdistinct [("since", .null), ("filter", sentFilter)]
  obtain ⟨_, _, hfailure, _⟩ := variables_are_coerced_exactly schema hdistinct [("first", .string "two")]
  have hsame : ∀ definition ∈ paged.variableDefinitions,
      [("since", Json.null), ("filter", sentFilter)].lookup definition.name =
        [("page", Json.ofInt 2), ("filter", sentFilter), ("since", .null)].lookup definition.name := by
    simp only [paged, List.forall_mem_cons]
    exact ⟨rfl, rfl, rfl, nofun⟩
  refine ⟨hdistinct, (hlocal _ hsame).symm, (hfailure _).2 ?_⟩
  refine ⟨[_], _, _, rfl, ?_, rfl, rfl⟩
  rw [List.forall_mem_singleton]
  exact ⟨[], rfl⟩

end Search

end GraphQLCheck
