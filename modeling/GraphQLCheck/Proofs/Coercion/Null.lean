/-
  GraphQLCheck.Proofs.Coercion.Null
  ─────────────────────────────────
  Where null may stand in a value, and where it gets all the same.

  A type excludes null at the positions of its exclusions: at the top, in the elements of lists, in the
  fields of input objects.  A value that conforms to its type holds no null there, so coercion leaves none
  as long as every number that it reads is finite.  A numeral beyond the range of the doubles is read as an
  infinite double, and the runtime value of such a double is null: it passes every exclusion of null above
  it, for these look at the literal, and the literal is a number.

  Main facts:
    * `Schema.Conforms.not_nullAt`          — a value of a type holds no null where null is excluded
    * `finite_literals_leave_no_null`       — nor does what literals, arguments and variables are worth
    * `infinite_literal_leaves_null`        — but a literal that is not finite is worth null
-/
import Mathlib
import GraphQLCheck.Document.Reading
import GraphQLCheck.Proofs.Coercion.Arguments
import GraphQLCheck.Proofs.Coercion.Variables

namespace GraphQLCheck

/-! ## §1. Null where it is excluded. -/

/-- A null stands within a value, which is read at a type, where the type of its position excludes it: at
the top, as an element of a list, or as a member of an object. -/
inductive Json.NullAt (schema : Schema) : Json → TypeRef → Prop where
  | here {type : TypeRef} : type.isNonNull = true → NullAt schema .null type
  | element {items : List Json} {item : Json} {type element : TypeRef} :
      type.view = .list element → item ∈ items → NullAt schema item element →
      NullAt schema (.array items) type
  | member {entries : List (String × Json)} {value : Json} {type : TypeRef} {name : String}
      {inputType : InputObjectType} {field : InputDef} :
      type.view = .named name → schema.find? name = some (.inputObject inputType) →
      field ∈ inputType.fields.toList → (field.name, value) ∈ entries → NullAt schema value field.type →
      NullAt schema (.object entries) type

namespace Schema.Conforms

variable {schema : Schema} {type : TypeRef} {value : Json}

/-- The items of an array that is a value of a type are values of its elements. -/
theorem item {items : List Json} (h : schema.Conforms type (.array items)) {element : TypeRef}
    (hview : type.view = .list element) : ∀ item ∈ items, schema.Conforms element item := by
  induction type with
  | list inner ih =>
    cases hview
    cases h with
    | list hitems => exact hitems
  | named name => cases hview
  | nonNull inner ih =>
    cases h with
    | nonNull _ hinner => exact ih hinner hview

/-- The entries of an object that is a value of an input object are values of its fields. -/
theorem member {entries : List (String × Json)} (h : schema.Conforms type (.object entries))
    {name : String} (hview : type.view = .named name) {inputType : InputObjectType}
    (hfind : schema.find? name = some (.inputObject inputType)) :
    ∀ field ∈ inputType.fields.toList, ∀ value, (field.name, value) ∈ entries →
      schema.Conforms field.type value := by
  induction type with
  | list inner ih => cases hview
  | named other =>
    cases hview
    cases h with
    | inputObject hother _ hmembers _ =>
      rw [hfind] at hother
      cases hother
      exact hmembers
    | scalarValue hscalar _ =>
      rw [hfind] at hscalar
      cases hscalar
    | scalarLiteral hscalar _ =>
      rw [hfind] at hscalar
      cases hscalar
  | nonNull inner ih =>
    cases h with
    | nonNull _ hinner => exact ih hinner hview

/-- **A value of a type holds no null where null is excluded.** -/
theorem not_nullAt (h : schema.Conforms type value) : ¬ value.NullAt schema type := by
  intro hnull
  -- along the way to the null: the parts of a conforming value conform, and at the end is an exclusion
  induction hnull with
  | @here type hrequired =>
    cases type with
    | nonNull inner =>
      cases h with
      | nonNull hne _ => exact hne rfl
      | null hnullable => cases hnullable
    | list inner => cases hrequired
    | named name => cases hrequired
  | element hview hitem _ ih => exact ih (h.item hview _ hitem)
  | member hview hfind hfield hentry _ ih => exact ih (h.member hview hfind _ hfield _ hentry)

end Schema.Conforms

/-! ## §2. Arguments and variables. -/

theorem Literal.VariableAt.mem_variables {schema : Schema} {name : String} {position type : TypeRef}
    {literal : Literal} (h : literal.VariableAt schema name position type) :
    name ∈ literal.variables := by
  induction h with
  | top => exact List.mem_singleton.2 rfl
  | element _ hitem _ ih => exact mem_variables_list.2 ⟨_, hitem, ih⟩
  | member _ _ hentry _ ih => exact mem_variables_object.2 ⟨_, hentry, ih⟩

section Evaluations

variable {schema : Schema}
  (hdefaults : ∀ declared ∈ schema.defaults, ∀ value,
    schema.defaultValue declared.1 declared.2 = .value value → schema.Conforms declared.1 value)
  (hscalars : ∀ scalar, .scalar scalar ∈ schema.types.toList → scalar.NullFree)

include hdefaults hscalars

/-- The value of a finite literal in which no variable has a value is a value of the type. -/
theorem Schema.conforms_of_unbound {env : Variables} {type : TypeRef} {literal : Literal}
    (hfinite : literal.isFinite = true)
    (hunbound : ∀ name ∈ literal.variables, env.lookup name = none) {value : Json}
    (h : schema.literalValue env type literal = .value value) : schema.Conforms type value := by
  apply Literal.conforms_of_valueWith hdefaults (fun scalar hmem => (hscalars scalar hmem).1) hfinite _ h
  intro name position hat bound hlookup
  rw [hunbound name hat.mem_variables] at hlookup
  cases hlookup

/-- What a parameter is worth is a value of its type, if literals in place of variables are given for it
and it may be left with that. -/
theorem InputDef.conforms_of_resolveArgument {env : Variables} {field : Field} {parameter : InputDef}
    (hgiven : ∀ argument ∈ field.arguments,
      argument.value.variables = [] ∧ argument.value.isFinite = true)
    (hdefault : ∀ literal, parameter.defaultValue = some literal → literal.isFinite = true)
    {value : Json} (h : parameter.resolveArgument schema env field = .value (some value))
    (hadmits : parameter.admits (some value) = true) : schema.Conforms parameter.type value := by
  have hparameterDefault : ∀ value, parameter.parameterDefault schema = .value (some value) →
      schema.Conforms parameter.type value := by
    intro value h
    unfold parameterDefault at h
    split at h
    next literal hliteral =>
      exact Schema.conforms_of_unbound hdefaults hscalars (hdefault literal hliteral)
        (fun _ _ => rfl) (Outcome.attempt_eq_some_iff.1 h)
    next => cases h
  have hargument : ∀ literal, (field.argument? parameter.name).map Argument.value = some literal →
      literal.variables = [] ∧ literal.isFinite = true := by
    intro literal hliteral
    obtain ⟨argument, hfind, rfl⟩ := Option.map_eq_some_iff.1 hliteral
    exact hgiven argument (List.mem_of_find?_eq_some hfind)
  unfold resolveArgument at h
  split at h
  next => exact hparameterDefault value h
  next name hname =>
    -- no variable is given
    cases (hargument _ hname).1
  next literal _ hliteral =>
    obtain ⟨hclosed, hfinite⟩ := hargument _ hliteral
    obtain ⟨literal?, hattempt, h⟩ := Outcome.bind_eq_value_iff.1 h
    cases literal? with
    | some found =>
      cases h
      refine Schema.conforms_of_unbound hdefaults hscalars hfinite ?_ (Outcome.attempt_eq_some_iff.1 hattempt)
      rw [hclosed]
      intro name hname
      cases hname
    | none =>
      obtain ⟨default?, hdefault', h⟩ := Outcome.bind_eq_value_iff.1 h
      cases default? with
      | some found =>
        cases h
        exact hparameterDefault value hdefault'
      | none =>
        -- null takes the place of a literal without a value, where it may
        cases h
        apply Schema.Conforms.null
        unfold admits at hadmits
        simpa [Json.isNull] using hadmits

/-- What a variable is worth is a value of its type. -/
theorem VariableDefinition.conforms_of_resolve {inputs : Variables} {definition : VariableDefinition}
    (hsent : ∀ entry ∈ inputs, entry.2.isSized = true)
    (hdefault : ∀ literal, definition.defaultValue = some literal → literal.isFinite = true)
    {value : Json} (h : definition.resolve schema inputs = .value (some value)) :
    schema.Conforms definition.typeRef value := by
  obtain ⟨_, ⟨input, found, hinput, h, heq⟩ | ⟨_, h⟩⟩ := resolve_eq_value_iff.1 h
  · cases heq
    rcases resolveInput_eq_value_iff.1 h with ⟨_, hnullable, rfl⟩ | ⟨_, _, hvalue⟩
    · exact .null hnullable
    · exact Json.conforms_of_coerceWith hdefaults (fun scalar hmem => (hscalars scalar hmem).2)
        (hsent _ (mem_of_lookup hinput)) hvalue
  · rcases resolveOmitted_eq_value_iff.1 h with ⟨literal, found, hliteral, hvalue, heq⟩ | ⟨_, _, heq⟩
    · cases heq
      -- no variable has a value in a default
      exact Schema.conforms_of_unbound hdefaults hscalars (hdefault literal hliteral)
        (fun _ _ => rfl) hvalue
    · cases heq

end Evaluations

/-- **Finite literals leave no null where null is excluded.**  In a built schema whose custom scalars make
null out of nothing but null, and whose defaults are finite, no null stands where the type of its position
excludes it: neither in the value of a finite literal without variables, nor in the values of arguments that
are such literals, nor in those of variables with such defaults and with inputs of 64 bits. -/
theorem finite_literals_leave_no_null {schema : Schema} (hbuilt : schema.Built)
    (hcustom : schema.CustomScalars ScalarType.NullFree) (hfinite : schema.FiniteDefaults) :
    (∀ (env : Variables) (type : TypeRef) (literal : Literal) (value : Json), literal.variables = [] →
      literal.isFinite = true → schema.literalValue env type literal = .value value →
        ¬ value.NullAt schema type) ∧
    (∀ (definition : FieldDef) (field : Field) (env values : Variables),
      (∀ argument ∈ field.arguments,
        argument.value.variables = [] ∧ argument.value.isFinite = true) →
      (∀ parameter ∈ definition.parameters.toList, ∀ literal, parameter.defaultValue = some literal →
        literal.isFinite = true) →
      schema.coerceArguments definition field env = .value values →
        ∀ parameter ∈ definition.parameters.toList, ∀ value, values.lookup parameter.name = some value →
          ¬ value.NullAt schema parameter.type) ∧
    (∀ (operation : Operation) (inputs values : Variables),
      (∀ entry ∈ inputs, entry.2.isSized = true) →
      (∀ definition ∈ operation.variableDefinitions, ∀ literal, definition.defaultValue = some literal →
        literal.isFinite = true) →
      schema.coerceVariables operation inputs = .value values →
        ∀ entry ∈ values, ∃ definition ∈ operation.variableDefinitions, definition.name = entry.1 ∧
          ¬ entry.2.NullAt schema definition.typeRef) := by
  have hscalars := hbuilt.forall_scalar (fun _ => ScalarType.nullFree_of_builtin) hcustom
  have hdefaults := Schema.conforms_of_default (fun scalar hmem => (hscalars scalar hmem).1) hfinite
    schema.defaultCount
  refine ⟨?_, ?_, ?_⟩
  · intro env type literal value hclosed hliteral h
    have hunbound : ∀ name ∈ literal.variables, env.lookup name = none := by
      rw [hclosed]
      intro name hname
      cases hname
    exact (Schema.conforms_of_unbound hdefaults hscalars hliteral hunbound h).not_nullAt
  · intro definition field env values hgiven hdefault h parameter hmem value hlookup
    have hmembers := Schema.coerceParameters_eq_value_iff.1 h
    obtain ⟨hresolve, hadmits⟩ :=
      hmembers.worth_of_mem definition.parameters.distinct hmem (mem_of_lookup hlookup)
    exact (InputDef.conforms_of_resolveArgument hdefaults hscalars hgiven (hdefault parameter hmem)
      hresolve hadmits).not_nullAt
  · intro operation inputs values hsent hdefault h entry hentry
    obtain ⟨definition, hmem, hname, hresolve⟩ := Schema.mem_of_coerceDefinitions h entry hentry
    refine ⟨definition, hmem, hname, ?_⟩
    exact (VariableDefinition.conforms_of_resolve hdefaults hscalars hsent (hdefault definition hmem)
      hresolve).not_nullAt

/-! ## §3. A literal beyond the doubles.

The mean of samples, none of which may be null:

    type Query { mean(samples: [Float!]!): Float }
-/

namespace Survey

def samples : InputDef where
  name := "samples"
  type := .nonNull (.list (.nonNull (.named "Float")))

def mean : FieldDef where
  name := "mean"
  type := .named "Float"
  parameters := ⟨[samples], by decide⟩

def query : FieldedType where
  name := "Query"
  fields := ⟨[mean], by decide⟩

def schema : Schema where
  types := ⟨SchemaBuilder.builtinTypes.toList ++ [.object query], by decide⟩
  queryType := "Query"
  mutationType := none
  subscriptionType := none

theorem built : schema.Built :=
  ⟨{ types := schema.types, roots := {}, coercions := [] },
    SchemaBuilder.Reachable.addTypes [.object query] .empty rfl, rfl⟩

/-- There are no scalars but the built-in ones. -/
theorem customScalars {P : ScalarType → Prop} : schema.CustomScalars P := by
  intro scalar hmem hcustom
  simp only [schema, SchemaBuilder.builtinTypes, ScalarType.builtins, List.map_cons, List.map_nil,
    List.cons_append, List.nil_append, List.mem_cons, List.not_mem_nil, or_false,
    TypeDef.scalar.injEq, reduceCtorEq] at hmem
  rcases hmem with rfl | rfl | rfl | rfl | rfl <;> cases hcustom

/-- The field `mean(samples: literal)`. -/
def meanOf (literal : Literal) : Field where
  aliasName := none
  name := "mean"
  arguments := [⟨"samples", literal, ⟨1, 40⟩⟩]
  selectionSet := none
  location := ⟨1, 40⟩

/-- The operation `query($samples: [Float!]! = literal) { mean(samples: literal) }`. -/
def meanQuery (literal : Literal) : Operation where
  kind := .query
  name := none
  variableDefinitions := [⟨"samples", .nonNull (.list (.nonNull (.named "Float"))), some literal, ⟨1, 7⟩⟩]
  selectionSet := ⟨[.field (meanOf literal)], ⟨1, 38⟩⟩
  location := ⟨1, 1⟩

/-- A list of a number within the range of the doubles: as a literal, as an argument and as a default. -/
theorem finite_samples_leave_no_null :
    (∃ value, schema.literalValue [] samples.type (.list [.int 1]) = .value value ∧
      ¬ value.NullAt schema samples.type) ∧
    (∃ value, schema.coerceArguments mean (meanOf (.list [.int 1])) [] = .value [("samples", value)] ∧
      ¬ value.NullAt schema samples.type) ∧
    (∃ value, schema.coerceVariables (meanQuery (.list [.int 1])) [] = .value [("samples", value)] ∧
      ¬ value.NullAt schema samples.type) := by
  have hfinite : schema.FiniteDefaults := by
    intro declared hdeclared
    cases hdeclared
  obtain ⟨hliteral, harguments, hvariables⟩ := finite_literals_leave_no_null built customScalars hfinite
  refine ⟨⟨_, rfl, ?_⟩, ⟨_, rfl, ?_⟩, ⟨_, rfl, ?_⟩⟩
  · exact hliteral [] samples.type (.list [.int 1]) _ rfl rfl rfl
  · have hgiven : ∀ argument ∈ (meanOf (.list [.int 1])).arguments,
        argument.value.variables = [] ∧ argument.value.isFinite = true := by
      intro argument hmem
      rw [List.mem_singleton.1 hmem]
      exact ⟨rfl, rfl⟩
    have hdefault : ∀ parameter ∈ mean.parameters.toList, ∀ literal,
        parameter.defaultValue = some literal → literal.isFinite = true := by
      intro parameter hmem literal hliteral
      rw [List.mem_singleton.1 hmem] at hliteral
      cases hliteral
    exact harguments mean (meanOf (.list [.int 1])) [] _ hgiven hdefault rfl samples
      (List.mem_singleton.2 rfl) _ rfl
  · have hdefault : ∀ definition ∈ (meanQuery (.list [.int 1])).variableDefinitions, ∀ literal,
        definition.defaultValue = some literal → literal.isFinite = true := by
      intro definition hmem literal hliteral
      rw [List.mem_singleton.1 hmem] at hliteral
      cases hliteral
      rfl
    obtain ⟨definition, hmem, _, hnone⟩ := hvariables (meanQuery (.list [.int 1])) [] _
      (by simp) hdefault rfl _ (List.mem_singleton.2 rfl)
    rw [List.mem_singleton.1 hmem] at hnone
    exact hnone

/-- **A numeral beyond the doubles leaves null where null is excluded**: alone and in a list, as an argument
and as the default of a variable, in a document that can be read. -/
theorem infinite_literal_leaves_null :
    schema.Built ∧ (schema.CustomScalars fun _ => False) ∧
    Document.ofText "query($samples: [Float!]! = [1e400]) { mean(samples: [1e400]) }" =
      .ok ⟨[.operation (meanQuery (.list [.float (.infinite false)]))]⟩ ∧
    (schema.literalValue [] (.nonNull (.named "Float")) (.float (.infinite false)) = .value .null ∧
      Json.NullAt schema .null (.nonNull (.named "Float"))) ∧
    ∃ value, schema.literalValue [] samples.type (.list [.float (.infinite false)]) = .value value ∧
      schema.coerceArguments mean (meanOf (.list [.float (.infinite false)])) [] =
        .value [("samples", value)] ∧
      schema.coerceVariables (meanQuery (.list [.float (.infinite false)])) [] =
        .value [("samples", value)] ∧
      value.NullAt schema samples.type := by
  refine ⟨built, customScalars, by cbv, ⟨rfl, .here rfl⟩, .array [.null], rfl, rfl, rfl, ?_⟩
  exact .element rfl (List.mem_singleton.2 rfl) (.here rfl)

end Survey

end GraphQLCheck
