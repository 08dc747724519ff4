/-
  GraphQLCheck.Proofs.Coercion.Arguments
  ──────────────────────────────────────
  What the arguments of a field are worth, parameter by parameter.

  A parameter alone never fails: it has a value, or none.  Only when it does not admit that is there an
  error, which names it, and the parameters after it are not looked at.  So the values of a field's
  arguments are determined by what each parameter is worth, and this depends on no other parameter.

  Main facts:
    * `InputDef.exists_resolveArgument`      — a parameter has a value, or none
    * `Schema.coerceParameters_eq_value_iff` — values of parameters are entries of them, as for objects
    * `Schema.coerceParameters_cases`        — without values, one does not admit what it is worth
    * `Schema.coerceArguments_of_admitted`   — a parameter that admits what it is worth has it
-/
import GraphQLCheck.Coercion.Arguments
import GraphQLCheck.Proofs.Coercion.Acceptance

namespace GraphQLCheck

/-! ## §1. One parameter. -/

theorem Outcome.exists_attempt {outcome : Outcome ε α} (h : outcome ≠ .endless) :
    ∃ value?, (outcome.attempt : Outcome ε' (Option α)) = .value value? := by
  cases outcome with
  | value a => exact ⟨some a, rfl⟩
  | failure e => exact ⟨none, rfl⟩
  | endless => exact absurd rfl h

namespace InputDef

variable {schema : Schema} {parameter : InputDef} {field : Field} {env : Variables}

theorem exists_parameterDefault (hdefaults : schema.DefaultsEnd) :
    ∃ value?, parameter.parameterDefault schema = .value value? := by
  unfold parameterDefault
  cases parameter.defaultValue with
  | none => exact ⟨none, rfl⟩
  | some literal =>
    exact Outcome.exists_attempt (hdefaults.literalValue_ne_endless [] parameter.type literal)

/-- A parameter has a value, or none, if the evaluations of defaults end; it does not fail. -/
theorem exists_resolveArgument (hdefaults : schema.DefaultsEnd) :
    ∃ value?, parameter.resolveArgument schema env field = .value value? := by
  obtain ⟨default?, hdefault⟩ : ∃ value?, parameter.parameterDefault schema = .value value? :=
    exists_parameterDefault hdefaults
  unfold resolveArgument
  split
  next => exact ⟨default?, hdefault⟩
  next name _ =>
    cases env.lookup name with
    | none => exact ⟨default?, hdefault⟩
    | some value => exact ⟨some value, rfl⟩
  next literal _ _ =>
    obtain ⟨value?, hvalue⟩ : ∃ value?, ((schema.literalValue env parameter.type literal).attempt :
      Outcome CoercionError (Option Json)) = .value value? :=
        Outcome.exists_attempt (hdefaults.literalValue_ne_endless env parameter.type literal)
    rw [hvalue, Outcome.bind_value]
    cases value? with
    | some value => exact ⟨some value, rfl⟩
    | none =>
      rw [hdefault, Outcome.bind_value]
      cases default? with
      | some value => exact ⟨some value, rfl⟩
      | none => exact ⟨some .null, rfl⟩

/-- An argument that is no variable is worth what its literal is, if that has a value. -/
theorem resolveArgument_of_literalValue {argument : Argument}
    (hargument : field.argument? parameter.name = some argument)
    (hvariable : ∀ name, argument.value ≠ .variable name) {value : Json}
    (h : schema.literalValue env parameter.type argument.value = .value value) :
    parameter.resolveArgument schema env field = .value (some value) := by
  unfold resolveArgument
  rw [hargument, Option.map_some]
  split
  next hnone => cases hnone
  next name hname => exact absurd (Option.some.inj hname) (hvariable name)
  next literal _ hliteral =>
    cases hliteral
    rw [h]
    rfl

/-- An argument that is a variable is worth what the variable is. -/
theorem resolveArgument_of_variable {argument : Argument}
    (hargument : field.argument? parameter.name = some argument) {name : String}
    (hvariable : argument.value = .variable name) {value : Json}
    (hvalue : env.lookup name = some value) :
    parameter.resolveArgument schema env field = .value (some value) := by
  unfold resolveArgument
  rw [hargument, Option.map_some, hvariable]
  simp only [hvalue]

/-- A parameter may be left with the value of a literal that its type accepts. -/
theorem admits_of_accepted
    (hscalars : ∀ scalar, .scalar scalar ∈ schema.types.toList → scalar.LiteralNullFree)
    {literal : Literal} (hbound : literal.BoundBy env) (hfinite : literal.isFinite = true)
    (haccepted : literal.problems schema parameter.type = []) {value : Json}
    (h : schema.literalValue env parameter.type literal = .value value) :
    parameter.admits (some value) = true := by
  unfold admits
  cases hrequired : parameter.type.isNonNull with
  | false => rfl
  | true =>
    have hnull := Literal.isNull_eq_false_of_accepted hrequired haccepted
    have hne := Literal.value_ne_null hscalars hbound hfinite hnull h
    cases value <;> first | rfl | exact absurd rfl hne

/-- A parameter without an argument is worth the same whatever the variables are. -/
theorem resolveArgument_of_omitted (hargument : field.argument? parameter.name = none) :
    parameter.resolveArgument schema env field = parameter.parameterDefault schema := by
  unfold resolveArgument
  rw [hargument]
  rfl

end InputDef

/-! ## §2. All parameters. -/

namespace Schema

variable {schema : Schema} {fieldName : String} {field field' : Field} {env env' : Variables}
  {parameters : List InputDef}

/-- What a parameter is worth for a field, if it may be left with that. -/
def Admitted (schema : Schema) (field : Field) (env : Variables) (parameter : InputDef)
    (value? : Option Json) : Prop :=
  parameter.resolveArgument schema env field = .value value? ∧ parameter.admits value? = true

/-- The values of parameters are entries of them. -/
theorem coerceParameters_eq_value_iff {values : Variables} :
    schema.coerceParameters fieldName field env parameters = .value values ↔
      Members (schema.Admitted field env) parameters values := by
  induction parameters generalizing values with
  | nil =>
    constructor
    · intro h
      cases h
      exact .nil
    · intro h
      cases h
      rfl
  | cons parameter parameters ih =>
    unfold coerceParameters
    constructor
    · intro h
      obtain ⟨value?, hvalue, h⟩ := Outcome.bind_eq_value_iff.1 h
      split at h
      next hadmits =>
        obtain ⟨rest, hrest, h⟩ := Outcome.bind_eq_value_iff.1 h
        cases value? with
        | none =>
          cases h
          exact .absent ⟨hvalue, hadmits⟩ (ih.1 hrest)
        | some value =>
          cases h
          exact .present ⟨hvalue, hadmits⟩ (ih.1 hrest)
      next => cases h
    · intro h
      cases h with
      | present hworth hrest =>
        rw [hworth.1, Outcome.bind_value, if_pos hworth.2, ih.2 hrest]
        rfl
      | absent hworth hrest =>
        rw [hworth.1, Outcome.bind_value, if_pos hworth.2, ih.2 hrest]
        rfl

/-- Parameters have values, or one of them does not admit what it is worth and is named in the error. -/
theorem coerceParameters_cases (fieldName : String)
    (h : ∀ parameter ∈ parameters, ∃ value?,
      parameter.resolveArgument schema env field = .value value?) :
    (∃ values, schema.coerceParameters fieldName field env parameters = .value values) ∨
      ∃ parameter ∈ parameters, (∀ value?, ¬ schema.Admitted field env parameter value?) ∧
        schema.coerceParameters fieldName field env parameters =
          .failure (.invalidArgument parameter.name fieldName parameter.type) := by
  induction parameters with
  | nil => exact .inl ⟨[], rfl⟩
  | cons parameter parameters ih =>
    obtain ⟨value?, hvalue⟩ := h parameter (List.mem_cons_self ..)
    unfold coerceParameters
    rw [hvalue, Outcome.bind_value]
    cases hadmits : parameter.admits value? with
    | false =>
      -- this is the first one, and what comes after it is not looked at
      right
      refine ⟨parameter, List.mem_cons_self .., ?_, rfl⟩
      rintro other? ⟨hother, hadmitted⟩
      have hsame : value? = other? := Outcome.value.inj (hvalue.symm.trans hother)
      rw [hsame, hadmitted] at hadmits
      cases hadmits
    | true =>
      rw [if_pos rfl]
      rcases ih fun other hother => h other (List.mem_cons_of_mem _ hother) with
        ⟨values, hvalues⟩ | ⟨other, hother, hnever, hfailure⟩
      · left
        rw [hvalues, Outcome.bind_value]
        cases value? with
        | none => exact ⟨values, rfl⟩
        | some value => exact ⟨_, rfl⟩
      · right
        refine ⟨other, List.mem_cons_of_mem _ hother, hnever, ?_⟩
        rw [hfailure]
        rfl

/-- What holds of each parameter holds of all: fields are worth the same if each parameter is. -/
theorem coerceParameters_congr
    (h : ∀ parameter ∈ parameters,
      parameter.resolveArgument schema env field = parameter.resolveArgument schema env' field') :
    schema.coerceParameters fieldName field env parameters =
      schema.coerceParameters fieldName field' env' parameters := by
  induction parameters with
  | nil => rfl
  | cons parameter parameters ih =>
    unfold coerceParameters
    rw [h parameter (List.mem_cons_self ..),
      ih fun other hother => h other (List.mem_cons_of_mem _ hother)]

theorem DefaultsEnd.coerceArguments_ne_endless (h : schema.DefaultsEnd) (definition : FieldDef)
    (field : Field) (env : Variables) : schema.coerceArguments definition field env ≠ .endless := by
  unfold coerceArguments
  rcases coerceParameters_cases definition.name fun _ _ => InputDef.exists_resolveArgument h with
    ⟨_, hrun⟩ | ⟨_, _, _, hrun⟩
  · rw [hrun]
    exact nofun
  · rw [hrun]
    exact nofun

/-- **A parameter that admits what it is worth has it**: either it is bound to that, or there are no
values because of another parameter. -/
theorem coerceArguments_of_admitted (hdefaults : schema.DefaultsCoerce) {definition : FieldDef}
    {parameter : InputDef} (hmem : parameter ∈ definition.parameters.toList) {value : Json}
    (hadmitted : schema.Admitted field env parameter (some value)) :
    (∃ values, schema.coerceArguments definition field env = .value values ∧
      values.lookup parameter.name = some value) ∨
    ∃ other ∈ definition.parameters.toList, other.name ≠ parameter.name ∧
      schema.coerceArguments definition field env =
        .failure (.invalidArgument other.name definition.name other.type) := by
  have hdistinct := definition.parameters.distinct
  have hresolve : ∀ parameter ∈ definition.parameters.toList, ∃ value?,
      parameter.resolveArgument schema env field = .value value? :=
    fun _ _ => InputDef.exists_resolveArgument hdefaults.defaultsEnd
  unfold coerceArguments
  rcases coerceParameters_cases definition.name hresolve with
    ⟨values, hvalues⟩ | ⟨other, hother, hnever, hfailure⟩
  · left
    refine ⟨values, hvalues, ?_⟩
    apply (coerceParameters_eq_value_iff.1 hvalues).lookup_eq hdistinct hmem
    intro other? hother
    have hboth := hadmitted.1.symm.trans hother.1
    exact (Outcome.value.inj hboth).symm
  · right
    refine ⟨other, hother, ?_, hfailure⟩
    intro hname
    have hsame : other = parameter := Declarations.eq_of_name_eq hother hmem hname
    rw [hsame] at hnever
    exact hnever _ hadmitted

end Schema

end GraphQLCheck
