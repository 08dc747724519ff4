/-
  GraphQLCheck.Proofs.Coercion.Parameters
  ───────────────────────────────────────
  What each parameter resolves to, and that the arguments of a field are coerced to exactly that.

  What a parameter resolves to is described by a relation, with one case for each thing that may be given
  for it.  Arguments are coerced to the entries of parameters that resolve to something.  They fail exactly
  if a parameter that excludes null resolves to null or to nothing, and the first one that does is named.
  All that is read of a field is the first argument with the name of each parameter, so other arguments may
  be moved and added.

      InputDef.DefaultsTo  — what the default of a parameter is worth
      InputDef.ResolvesTo  — what a parameter resolves to
      Argument.Rearranged  — arguments that the declared names do not tell apart

  Main results:
    * `InputDef.resolveArgument_eq_value_iff`   — the relation is what the function computes
    * `Schema.coerceParameters_eq_failure_iff`  — the first parameter that fails is named
    * `Argument.Rearranged.find?_eq`            — rearranged arguments have the same first ones
    * `arguments_are_coerced_exactly`           — when arguments have values, which ones, and what they are
                                                  read from
-/
import GraphQLCheck.Proofs.Coercion.Arguments
import GraphQLCheck.Proofs.Recursion.Defaults

namespace GraphQLCheck

/-! ## §1. What a parameter resolves to. -/

namespace InputDef

/-- What the default of a parameter is worth: nothing, if there is none or if it cannot be evaluated. -/
inductive DefaultsTo (schema : Schema) (parameter : InputDef) : Option Json → Prop where
  | missing : parameter.defaultValue = none → DefaultsTo schema parameter none
  | refused {literal : Literal} : parameter.defaultValue = some literal →
      schema.literalValue [] parameter.type literal = .failure () → DefaultsTo schema parameter none
  | evaluated {literal : Literal} {value : Json} : parameter.defaultValue = some literal →
      schema.literalValue [] parameter.type literal = .value value →
      DefaultsTo schema parameter (some value)

/-- What a parameter resolves to for a field.  Without an argument, and with a variable that has no value,
this is what its default is worth.  A variable stands for its value and a literal for what it is worth; one
that cannot be evaluated is replaced by the default, or else by null. -/
inductive ResolvesTo (schema : Schema) (field : Field) (env : Variables) (parameter : InputDef) :
    Option Json → Prop where
  | omitted {value? : Option Json} : field.argument? parameter.name = none →
      parameter.DefaultsTo schema value? → ResolvesTo schema field env parameter value?
  | bound {argument : Argument} {name : String} {value : Json} :
      field.argument? parameter.name = some argument → argument.value = .variable name →
      env.lookup name = some value → ResolvesTo schema field env parameter (some value)
  | unbound {argument : Argument} {name : String} {value? : Option Json} :
      field.argument? parameter.name = some argument → argument.value = .variable name →
      env.lookup name = none → parameter.DefaultsTo schema value? →
      ResolvesTo schema field env parameter value?
  | evaluated {argument : Argument} {value : Json} :
      field.argument? parameter.name = some argument → (∀ name, argument.value ≠ .variable name) →
      schema.literalValue env parameter.type argument.value = .value value →
      ResolvesTo schema field env parameter (some value)
  | replaced {argument : Argument} {value? : Option Json} :
      field.argument? parameter.name = some argument → (∀ name, argument.value ≠ .variable name) →
      schema.literalValue env parameter.type argument.value = .failure () →
      parameter.DefaultsTo schema value? →
      ResolvesTo schema field env parameter (some (value?.getD .null))

/-- A parameter that excludes null resolves to null, or to nothing. -/
def Unmet (schema : Schema) (field : Field) (env : Variables) (parameter : InputDef) : Prop :=
  parameter.type.isNonNull = true ∧
    (parameter.ResolvesTo schema field env none ∨ parameter.ResolvesTo schema field env (some .null))

/-- A parameter resolves to something that it may be left with. -/
def Met (schema : Schema) (field : Field) (env : Variables) (parameter : InputDef) : Prop :=
  (∃ value?, parameter.ResolvesTo schema field env value?) ∧ ¬parameter.Unmet schema field env

variable {schema : Schema} {field : Field} {env : Variables} {parameter : InputDef}
  {value? other? : Option Json}

theorem parameterDefault_eq_value_iff :
    parameter.parameterDefault schema = .value value? ↔ parameter.DefaultsTo schema value? := by
  unfold parameterDefault
  constructor
  · intro h
    split at h
    next literal hliteral =>
      rcases Outcome.attempt_eq_value_iff.1 h with ⟨value, hvalue, rfl⟩ | ⟨error, herror, rfl⟩
      · exact .evaluated hliteral hvalue
      · exact .refused hliteral herror
    next hnone =>
      cases h
      exact .missing hnone
  · intro h
    cases h with
    | missing hnone => rw [hnone]
    | refused hliteral herror =>
      rw [hliteral]
      exact Outcome.attempt_eq_value_iff.2 (.inr ⟨_, herror, rfl⟩)
    | evaluated hliteral hvalue =>
      rw [hliteral]
      exact Outcome.attempt_eq_value_iff.2 (.inl ⟨_, hvalue, rfl⟩)

/-- **The value of a parameter for a field is what it resolves to.** -/
theorem resolveArgument_eq_value_iff :
    parameter.resolveArgument schema env field = .value value? ↔
      parameter.ResolvesTo schema field env value? := by
  unfold resolveArgument
  constructor
  · intro h
    split at h
    next hnone => exact .omitted (Option.map_eq_none_iff.1 hnone) (parameterDefault_eq_value_iff.1 h)
    next name hname =>
      obtain ⟨argument, hargument, hvariable⟩ := Option.map_eq_some_iff.1 hname
      split at h
      next value hvalue =>
        cases h
        exact .bound hargument hvariable hvalue
      next hnone => exact .unbound hargument hvariable hnone (parameterDefault_eq_value_iff.1 h)
    next literal hvariable hliteral =>
      obtain ⟨argument, hargument, rfl⟩ := Option.map_eq_some_iff.1 hliteral
      obtain ⟨literal?, hattempt, h⟩ := Outcome.bind_eq_value_iff.1 h
      rcases Outcome.attempt_eq_value_iff.1 hattempt with ⟨value, hvalue, rfl⟩ | ⟨error, herror, rfl⟩
      · cases h
        exact .evaluated hargument hvariable hvalue
      · -- the default takes the place of the literal, or null does
        obtain ⟨default?, hdefault, h⟩ := Outcome.bind_eq_value_iff.1 h
        have hreplaced := ResolvesTo.replaced hargument hvariable herror
          (parameterDefault_eq_value_iff.1 hdefault)
        cases default? <;> cases h <;> exact hreplaced
  · intro h
    cases h with
    | omitted hnone hdefault =>
      rw [hnone]
      exact parameterDefault_eq_value_iff.2 hdefault
    | bound hargument hvariable hvalue =>
      rw [hargument, Option.map_some, hvariable]
      simp only [hvalue]
    | unbound hargument hvariable hnone hdefault =>
      rw [hargument, Option.map_some, hvariable]
      simp only [hnone]
      exact parameterDefault_eq_value_iff.2 hdefault
    | @evaluated argument value hargument hvariable hvalue =>
      exact resolveArgument_of_literalValue hargument hvariable hvalue
    | @replaced argument default? hargument hvariable herror hdefault =>
      rw [hargument, Option.map_some]
      split
      next hnone => cases hnone
      next name hname => exact absurd (Option.some.inj hname) (hvariable name)
      next literal _ hliteral =>
        cases hliteral
        rw [herror]
        show (parameter.parameterDefault schema >>= _) = _
        rw [parameterDefault_eq_value_iff.2 hdefault, Outcome.bind_value]
        cases default? <;> rfl

/-- A parameter resolves to one thing only. -/
theorem ResolvesTo.unique (h : parameter.ResolvesTo schema field env value?)
    (hother : parameter.ResolvesTo schema field env other?) : other? = value? := by
  have hsame := (resolveArgument_eq_value_iff.2 hother).symm.trans (resolveArgument_eq_value_iff.2 h)
  exact Outcome.value.inj hsame

/-- A parameter alone never fails. -/
theorem resolveArgument_ne_failure {error : CoercionError} :
    parameter.resolveArgument schema env field ≠ .failure error := by
  have hdefault : parameter.parameterDefault schema ≠ .failure error := by
    unfold parameterDefault
    split
    next => exact Outcome.attempt_ne_failure
    next => exact nofun
  unfold resolveArgument
  split
  next => exact hdefault
  next =>
    split
    next => exact nofun
    next => exact hdefault
  next =>
    rw [ne_eq, Outcome.bind_eq_failure_iff]
    rintro (hattempt | ⟨literal?, _, h⟩)
    · exact Outcome.attempt_ne_failure hattempt
    · split at h
      next => cases h
      next =>
        rcases Outcome.bind_eq_failure_iff.1 h with hfailure | ⟨default?, _, hpure⟩
        · exact hdefault hfailure
        · cases default? <;> cases hpure

theorem admits_eq_false_iff :
    parameter.admits value? = false ↔
      parameter.type.isNonNull = true ∧ (value? = none ∨ value? = some .null) := by
  unfold admits
  cases parameter.type.isNonNull with
  | false => simp
  | true =>
    cases value? with
    | none => simp
    | some value => cases value <;> simp [Json.isNull]

/-- What a parameter does not admit is what leaves it unmet. -/
theorem ResolvesTo.unmet_iff (h : parameter.ResolvesTo schema field env value?) :
    parameter.Unmet schema field env ↔ parameter.admits value? = false := by
  rw [admits_eq_false_iff]
  apply and_congr_right
  intro _
  -- it resolves to nothing else
  constructor
  · rintro (hnone | hnull)
    · exact .inl (hnone.unique h)
    · exact .inr (hnull.unique h)
  · rintro (rfl | rfl)
    · exact .inl h
    · exact .inr h

/-- A parameter that is met has a value that it admits, or may be left without one. -/
theorem met_iff_exists_admitted :
    parameter.Met schema field env ↔ ∃ value?, schema.Admitted field env parameter value? := by
  constructor
  · rintro ⟨⟨value?, h⟩, hmet⟩
    rw [h.unmet_iff, Bool.not_eq_false] at hmet
    exact ⟨value?, resolveArgument_eq_value_iff.2 h, hmet⟩
  · rintro ⟨value?, hvalue, hadmits⟩
    have h := resolveArgument_eq_value_iff.1 hvalue
    refine ⟨⟨value?, h⟩, ?_⟩
    rw [h.unmet_iff, hadmits]
    exact nofun

/-- A parameter with a default that can be evaluated does not resolve to nothing. -/
theorem ResolvesTo.isSome_of_default (h : parameter.ResolvesTo schema field env value?)
    {literal : Literal} {value : Json} (hliteral : parameter.defaultValue = some literal)
    (hvalue : schema.literalValue [] parameter.type literal = .value value) : value?.isSome = true := by
  -- wherever the default is taken, it is worth the value
  have hworth : ∀ {default?}, parameter.DefaultsTo schema default? → default?.isSome = true := by
    intro default? hdefault
    cases hdefault with
    | missing hnone =>
      rw [hliteral] at hnone
      cases hnone
    | refused hother herror =>
      rw [hliteral] at hother
      cases hother
      rw [hvalue] at herror
      cases herror
    | evaluated => rfl
  cases h with
  | omitted _ hdefault => exact hworth hdefault
  | unbound _ _ _ hdefault => exact hworth hdefault
  | bound => rfl
  | evaluated => rfl
  | replaced => rfl

/-- A parameter that a literal is given for does not resolve to nothing. -/
theorem ResolvesTo.isSome_of_literal (h : parameter.ResolvesTo schema field env value?)
    {argument : Argument} (hargument : field.argument? parameter.name = some argument)
    (hliteral : ∀ name, argument.value ≠ .variable name) : value?.isSome = true := by
  cases h with
  | omitted hnone =>
    rw [hargument] at hnone
    cases hnone
  | unbound hother hvariable =>
    rw [hargument] at hother
    cases hother
    exact absurd hvariable (hliteral _)
  | bound => rfl
  | evaluated => rfl
  | replaced => rfl

end InputDef

/-! ## §2. All parameters. -/

namespace Schema

variable {schema : Schema} {fieldName : String} {field : Field} {env : Variables}
  {parameters : List InputDef}

/-- There are values exactly if every parameter is met. -/
theorem coerceParameters_succeeds_iff :
    (∃ values, schema.coerceParameters fieldName field env parameters = .value values) ↔
      ∀ parameter ∈ parameters, parameter.Met schema field env := by
  simp only [coerceParameters_eq_value_iff, InputDef.met_iff_exists_admitted]
  constructor
  · rintro ⟨values, hvalues⟩ parameter hmem
    exact hvalues.exists_worth hmem
  · exact Members.exists_of_forall

/-- The first parameter that is not met is named. -/
theorem coerceParameters_eq_failure_iff {error : CoercionError} :
    schema.coerceParameters fieldName field env parameters = .failure error ↔
      ∃ before parameter after, parameters = before ++ parameter :: after ∧
        (∀ other ∈ before, other.Met schema field env) ∧ parameter.Unmet schema field env ∧
        error = .invalidArgument parameter.name fieldName parameter.type := by
  induction parameters with
  | nil =>
    constructor
    · intro h
      cases h
    · rintro ⟨before, parameter, after, hsplit, _⟩
      exact absurd hsplit.symm (List.append_ne_nil_of_right_ne_nil before (List.cons_ne_nil _ _))
  | cons first parameters ih =>
    unfold coerceParameters
    rw [Outcome.bind_eq_failure_iff]
    constructor
    · rintro (hfailure | ⟨value?, hvalue, h⟩)
      · exact absurd hfailure InputDef.resolveArgument_ne_failure
      · split at h
        next hadmits =>
          -- the run goes on, and fails later
          rcases Outcome.bind_eq_failure_iff.1 h with hrest | ⟨rest, _, hpure⟩
          · obtain ⟨before, parameter, after, rfl, hbefore, hfailed⟩ := ih.1 hrest
            refine ⟨first :: before, parameter, after, rfl, ?_, hfailed⟩
            rw [List.forall_mem_cons]
            exact ⟨InputDef.met_iff_exists_admitted.2 ⟨value?, hvalue, hadmits⟩, hbefore⟩
          · cases value? <;> cases hpure
        next hadmits =>
          -- this is the first one, and what comes after it is not looked at
          cases h
          refine ⟨[], first, parameters, rfl, List.forall_mem_nil _, ?_, rfl⟩
          rw [(InputDef.resolveArgument_eq_value_iff.1 hvalue).unmet_iff]
          exact Bool.eq_false_of_not_eq_true hadmits
    · rintro ⟨before, parameter, after, hsplit, hbefore, hunmet, rfl⟩
      right
      cases before with
      | nil =>
        cases hsplit
        obtain ⟨value?, hresolves⟩ : ∃ value?, first.ResolvesTo schema field env value? :=
          hunmet.2.elim (fun hnone => ⟨_, hnone⟩) fun hnull => ⟨_, hnull⟩
        have hadmits := hresolves.unmet_iff.1 hunmet
        refine ⟨value?, InputDef.resolveArgument_eq_value_iff.2 hresolves, ?_⟩
        rw [hadmits]
        rfl
      | cons _ before =>
        cases hsplit
        rw [List.forall_mem_cons] at hbefore
        obtain ⟨value?, hvalue, hadmits⟩ := InputDef.met_iff_exists_admitted.1 hbefore.1
        refine ⟨value?, hvalue, ?_⟩
        rw [if_pos hadmits, ih.2 ⟨before, parameter, after, rfl, hbefore.2, hunmet, rfl⟩]
        rfl

/-- Each parameter is bound to what it resolves to. -/
theorem resolvesTo_lookup (hdistinct : (parameters.map InputDef.name).Nodup) {values : Variables}
    (h : schema.coerceParameters fieldName field env parameters = .value values) {parameter : InputDef}
    (hmem : parameter ∈ parameters) :
    parameter.ResolvesTo schema field env (values.lookup parameter.name) ∧
      ¬parameter.Unmet schema field env := by
  have hmembers := coerceParameters_eq_value_iff.1 h
  obtain ⟨value?, hvalue, hadmits⟩ := hmembers.exists_worth hmem
  have hresolves := InputDef.resolveArgument_eq_value_iff.1 hvalue
  have hlookup : values.lookup parameter.name = value? :=
    hmembers.lookup_eq hdistinct hmem fun other? hother =>
      hresolves.unique (InputDef.resolveArgument_eq_value_iff.1 hother.1)
  rw [hlookup, hresolves.unmet_iff, hadmits]
  exact ⟨hresolves, nofun⟩

end Schema

/-! ## §3. What is read of a field. -/

namespace Argument

/-- Arguments that the declared names do not tell apart: those of different names may change places, and an
argument may be added if one of its name comes before it or if its name is not declared. -/
inductive Rearranged (declared : List String) : List Argument → List Argument → Prop where
  | refl (arguments : List Argument) : Rearranged declared arguments arguments
  | swap {first second : Argument} (rest : List Argument) : first.name ≠ second.name →
      Rearranged declared (first :: second :: rest) (second :: first :: rest)
  | repeated (first again : Argument) (between rest : List Argument) : again.name = first.name →
      Rearranged declared (first :: (between ++ rest)) (first :: (between ++ again :: rest))
  | undeclared (argument : Argument) (arguments : List Argument) : argument.name ∉ declared →
      Rearranged declared arguments (argument :: arguments)
  | cons (argument : Argument) {arguments arguments' : List Argument} :
      Rearranged declared arguments arguments' →
      Rearranged declared (argument :: arguments) (argument :: arguments')
  | symm {arguments arguments' : List Argument} : Rearranged declared arguments arguments' →
      Rearranged declared arguments' arguments
  | trans {arguments between arguments' : List Argument} : Rearranged declared arguments between →
      Rearranged declared between arguments' → Rearranged declared arguments arguments'

/-- Rearranged arguments have the same first argument of each declared name. -/
theorem Rearranged.find?_eq {declared : List String} {arguments arguments' : List Argument}
    (h : Rearranged declared arguments arguments') {name : String} (hname : name ∈ declared) :
    arguments.find? (·.name == name) = arguments'.find? (·.name == name) := by
  -- each single change keeps what is found under every declared name
  induction h with
  | refl => rfl
  | @swap first second rest hne =>
    simp only [List.find?_cons]
    cases hfirst : first.name == name with
    | false => rfl
    | true =>
      -- the name is that of one of them only
      have hsecond : (second.name == name) = false := by
        rw [← eq_of_beq hfirst]
        exact beq_eq_false_iff_ne.2 hne.symm
      rw [hsecond]
  | repeated first again between rest hsame =>
    -- the one before it is found first
    simp only [List.find?_cons, List.find?_append, hsame]
    cases first.name == name <;> rfl
  | undeclared argument arguments hundeclared =>
    have hother : (argument.name == name) = false := by
      refine beq_eq_false_iff_ne.2 ?_
      rintro rfl
      exact hundeclared hname
    rw [List.find?_cons, hother]
  | cons argument _ ih =>
    simp only [List.find?_cons, ih]
  | symm _ ih => exact ih.symm
  | trans _ _ ih ih' => exact ih.trans ih'

end Argument

/-- Of a field only the values of its first arguments for the parameters are read. -/
theorem Schema.coerceArguments_congr {schema : Schema} {definition : FieldDef} {field field' : Field}
    {env : Variables}
    (h : ∀ parameter ∈ definition.parameters.toList,
      (field.argument? parameter.name).map Argument.value =
        (field'.argument? parameter.name).map Argument.value) :
    schema.coerceArguments definition field env = schema.coerceArguments definition field' env := by
  unfold coerceArguments
  apply coerceParameters_congr
  intro parameter hmem
  unfold InputDef.resolveArgument
  rw [h parameter hmem]

/-! ## §4. Exactness. -/

/-- **Arguments are coerced exactly.**  Each parameter resolves to one thing, unless defaults are circular.
There are values for the arguments of a field exactly if none of its parameters that excludes null resolves
to null or to nothing, and otherwise the first one that does is named.  The keys are names of parameters in
their order, and each parameter has what it resolves to: this is not null if it excludes null, and not
nothing if its default can be evaluated or if a literal is given for it.  All that is read of the field are
the first arguments for the parameters, so arguments may be rearranged. -/
theorem arguments_are_coerced_exactly (schema : Schema) (definition : FieldDef) (field : Field)
    (env : Variables) :
    (schema.DefaultsAcyclic →
      ∀ parameter : InputDef, ∃! value?, parameter.ResolvesTo schema field env value?) ∧
    ((∃ values, schema.coerceArguments definition field env = .value values) ↔
      ∀ parameter ∈ definition.parameters.toList,
        (∃ value?, parameter.ResolvesTo schema field env value?) ∧
          ¬parameter.Unmet schema field env) ∧
    (∀ error, schema.coerceArguments definition field env = .failure error ↔
      ∃ before parameter after, definition.parameters.toList = before ++ parameter :: after ∧
        (∀ other ∈ before, (∃ value?, other.ResolvesTo schema field env value?) ∧
          ¬other.Unmet schema field env) ∧
        parameter.Unmet schema field env ∧
        error = .invalidArgument parameter.name definition.name parameter.type) ∧
    (∀ values, schema.coerceArguments definition field env = .value values →
      (values.map Prod.fst).Sublist definition.parameters.names ∧
      ∀ parameter ∈ definition.parameters.toList,
        parameter.ResolvesTo schema field env (values.lookup parameter.name) ∧
        (parameter.type.isNonNull = true →
          ∃ value, values.lookup parameter.name = some value ∧ value ≠ .null) ∧
        (∀ literal value, parameter.defaultValue = some literal →
          schema.literalValue [] parameter.type literal = .value value →
          (values.lookup parameter.name).isSome = true) ∧
        ∀ argument, field.argument? parameter.name = some argument →
          (∀ name, argument.value ≠ .variable name) →
          (values.lookup parameter.name).isSome = true) ∧
    (∀ field' : Field,
      (∀ parameter ∈ definition.parameters.toList,
        (field.argument? parameter.name).map Argument.value =
          (field'.argument? parameter.name).map Argument.value) →
      schema.coerceArguments definition field env = schema.coerceArguments definition field' env) ∧
    ∀ arguments, Argument.Rearranged definition.parameters.names field.arguments arguments →
      schema.coerceArguments definition field env =
        schema.coerceArguments definition { field with arguments := arguments } env := by
  refine ⟨fun hacyclic parameter => ?_, Schema.coerceParameters_succeeds_iff,
    fun error => Schema.coerceParameters_eq_failure_iff, fun values hvalues => ?_,
    fun field' => Schema.coerceArguments_congr, fun arguments hrearranged => ?_⟩
  · obtain ⟨value?, hvalue⟩ : ∃ value?, parameter.resolveArgument schema env field = .value value? :=
      InputDef.exists_resolveArgument hacyclic.defaultsEnd
    have hresolves := InputDef.resolveArgument_eq_value_iff.1 hvalue
    exact ⟨value?, hresolves, fun other? hother => hresolves.unique hother⟩
  · refine ⟨(Schema.coerceParameters_eq_value_iff.1 hvalues).keys_sublist, fun parameter hmem => ?_⟩
    obtain ⟨hresolves, hmet⟩ := Schema.resolvesTo_lookup definition.parameters.distinct hvalues hmem
    refine ⟨hresolves, fun hrequired => ?_, fun literal value => hresolves.isSome_of_default,
      fun argument => hresolves.isSome_of_literal⟩
    rw [hresolves.unmet_iff, InputDef.admits_eq_false_iff] at hmet
    cases hlookup : values.lookup parameter.name with
    | none => exact absurd ⟨hrequired, .inl hlookup⟩ hmet
    | some value =>
      refine ⟨value, rfl, ?_⟩
      rintro rfl
      exact hmet ⟨hrequired, .inr hlookup⟩
  · apply Schema.coerceArguments_congr
    intro parameter hmem
    exact congrArg (Option.map Argument.value) (hrearranged.find?_eq (List.mem_map_of_mem hmem))

namespace Search

theorem defaultsAcyclic : schema.DefaultsAcyclic := by
  apply Schema.defaultsAcyclic_of_isPlain
  show ∀ declared ∈ [(TypeRef.nonNull (.named "Int"), Literal.int 1),
    (TypeRef.named "Order", Literal.enum "ASC")], _
  rw [List.forall_mem_cons, List.forall_mem_singleton]
  exact ⟨rfl, rfl⟩

/-- The arguments `filter: {range: {from: 2}, tags: "lean"}, first: $n`. -/
def given : List Argument :=
  [⟨"filter", filterLiteral, ⟨1, 3⟩⟩, ⟨"first", .variable "n", ⟨1, 3⟩⟩]

/-- The arguments `order: ASC, first: $n, filter: {range: {from: 2}, tags: "lean"}, first: null`. -/
def regiven : List Argument :=
  [⟨"order", .enum "ASC", ⟨1, 3⟩⟩, ⟨"first", .variable "n", ⟨1, 3⟩⟩, ⟨"filter", filterLiteral, ⟨1, 3⟩⟩,
    ⟨"first", .null, ⟨1, 3⟩⟩]

theorem rearranged : Argument.Rearranged search.parameters.names given regiven :=
  (Argument.Rearranged.swap [] (by decide)).trans
    ((Argument.Rearranged.repeated ⟨"first", .variable "n", ⟨1, 3⟩⟩ ⟨"first", .null, ⟨1, 3⟩⟩
      [⟨"filter", filterLiteral, ⟨1, 3⟩⟩] [] rfl).trans
    (.undeclared ⟨"order", .enum "ASC", ⟨1, 3⟩⟩ _ (by
      show "order" ∉ search.parameters.names
      decide)))

/-- A variable without a value leaves the default, and a filter that is missing is named. -/
theorem search_is_coerced_exactly :
    schema.DefaultsAcyclic ∧ Argument.Rearranged search.parameters.names given regiven ∧
    schema.coerceArguments search ⟨none, "search", regiven, none, ⟨1, 3⟩⟩ [] = .value
      [("filter", .object [("tags", .array [.string "lean"]), ("order", .string "ASC"),
        ("range", .object [("from", .ofInt 2)])]), ("first", .ofInt 10)] ∧
    schema.coerceArguments search ⟨none, "search", given.tail, none, ⟨1, 3⟩⟩ [] =
      .failure (.invalidArgument "filter" "search" (.nonNull (.named "Filter"))) := by
  obtain ⟨_, _, _, _, _, hrearranged⟩ :=
    arguments_are_coerced_exactly schema search ⟨none, "search", given, none, ⟨1, 3⟩⟩ []
  obtain ⟨_, _, hfailure, _⟩ :=
    arguments_are_coerced_exactly schema search ⟨none, "search", given.tail, none, ⟨1, 3⟩⟩ []
  refine ⟨defaultsAcyclic, rearranged, (hrearranged regiven rearranged).symm, (hfailure _).2 ?_⟩
  exact ⟨[], _, _, rfl, nofun, ⟨rfl, .inl (.omitted rfl (.missing rfl))⟩, rfl⟩

end Search

end GraphQLCheck
