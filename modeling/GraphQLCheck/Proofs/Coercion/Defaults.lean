/-
  GraphQLCheck.Proofs.Coercion.Defaults
  ─────────────────────────────────────
  The defaults of input fields, and why the depth to which they are followed does not show.

  A default may use other defaults, which are followed to a depth that is the number of defaults there
  are.  A greater depth changes nothing: a value depends on the depth through the outcomes of declared
  defaults alone, and these only become more as the depth grows.

  Main facts:
    * `Literal.valueWith_related`, `Json.coerceWith_related` — a value depends on defaults and variables only
                                       through what those that it uses are worth
    * `defaultValue_eq_literalValue` — a default is worth what its literal is worth without variables
    * `Schema.DefaultsEnd`           — if the evaluations of all defaults end, so does every evaluation
-/
import GraphQLCheck.Proofs.Coercion.Parts
import GraphQLCheck.Proofs.Value.Depth
import GraphQLCheck.Proofs.Value.Variables

namespace GraphQLCheck

/-! ## §1. Declared defaults. -/

namespace Schema

/-- The defaults of input fields, each with the type of its field. -/
def defaults (schema : Schema) : List (TypeRef × Literal) :=
  (schema.types.toList.flatMap (·.inputFields)).filterMap fun field =>
    field.defaultValue.map (field.type, ·)

theorem length_defaults (schema : Schema) : schema.defaults.length = schema.defaultCount := by
  unfold defaults defaultCount
  rw [List.length_filterMap_eq_countP]
  congr 1
  funext field
  cases field.defaultValue <;> rfl

theorem mem_defaults {schema : Schema} {name : String} {type : InputObjectType} {field : InputDef}
    {literal : Literal} (hfind : schema.find? name = some (.inputObject type))
    (hfield : field ∈ type.fields.toList) (hdefault : field.defaultValue = some literal) :
    (field.type, literal) ∈ schema.defaults := by
  unfold defaults
  rw [List.mem_filterMap]
  refine ⟨field, ?_, by rw [hdefault]; rfl⟩
  exact List.mem_flatMap.2 ⟨_, (Declarations.mem_of_find? hfind).1, hfield⟩

/-- A default of the schema is that of a field of an input object. -/
theorem exists_of_mem_defaults {schema : Schema} {declared : TypeRef × Literal}
    (h : declared ∈ schema.defaults) : ∃ name type field,
      schema.find? name = some (.inputObject type) ∧ field ∈ type.fields.toList ∧
        field.defaultValue = some declared.2 ∧ field.type = declared.1 := by
  unfold defaults at h
  obtain ⟨field, hfield, hdeclared⟩ := List.mem_filterMap.1 h
  obtain ⟨definition, hmem, hfield⟩ := List.mem_flatMap.1 hfield
  obtain ⟨literal, hliteral, rfl⟩ := Option.map_eq_some_iff.1 hdeclared
  cases definition with
  | inputObject type =>
    exact ⟨_, type, field, Declarations.find?_eq_some_iff.2 ⟨hmem, rfl⟩, hfield, hliteral, rfl⟩
  | _ => cases hfield

end Schema

/-! ## §2. What a value depends on. -/

section Related

variable {R : (α : Type) → Outcome Unit α → Outcome Unit α → Prop} {schema : Schema}
  {default default' : DefaultValue}

theorem Outcome.Kept.nullValue (kept : Outcome.Kept R) (type : TypeRef) :
    R Json type.nullValue type.nullValue := by
  apply kept.refl
  unfold TypeRef.nullValue
  cases type.isNonNull <;> simp [Coerced.none]

/-- What a field of an input object is worth depends on its default only through what that is
worth. -/
theorem InputDef.memberValue_related (kept : Outcome.Kept R) {field : InputDef}
    (hdefault : ∀ literal, field.defaultValue = some literal →
      R Json (default field.type literal) (default' field.type literal))
    {given given' : Option (TypeRef → Coerced)}
    (hgiven : (given = none ∧ given' = none) ∨
      ∃ worth worth', given = some worth ∧ given' = some worth' ∧
        R Json (worth field.type) (worth' field.type)) :
    R (Option Json) (field.memberValue default given) (field.memberValue default' given') := by
  rcases hgiven with ⟨rfl, rfl⟩ | ⟨worth, worth', rfl, rfl, hworth⟩
  · unfold memberValue
    cases hliteral : field.defaultValue with
    | some literal => exact kept.map (hdefault literal hliteral) some
    | none =>
      apply kept.refl
      cases field.type.isNonNull <;> simp
  · exact kept.map hworth some

theorem membersOf_related (kept : Outcome.Kept R)
    {members members' : List (String × (TypeRef → Coerced))} {fields : List InputDef}
    (h : ∀ field ∈ fields,
      R (Option Json) (field.memberValue default (members.lookup field.name))
        (field.memberValue default' (members'.lookup field.name))) :
    R _ (membersOf default members fields) (membersOf default' members' fields) := by
  induction fields with
  | nil => exact kept.pure _
  | cons field fields ih =>
    unfold membersOf
    apply kept.bind (h field (List.mem_cons_self ..))
    intro value?
    apply kept.bind (ih fun other hother => h other (List.mem_cons_of_mem _ hother))
    intro rest
    cases value? <;> exact kept.pure _

namespace Literal

variable {env env' : Variables}

theorem isUnbound_congr {literal : Literal}
    (h : ∀ name ∈ literal.variables, env.lookup name = env'.lookup name) :
    literal.isUnbound env = literal.isUnbound env' := by
  unfold isUnbound
  split
  next name => rw [h name (List.mem_singleton.2 rfl)]
  next => rfl

theorem itemValue_related (kept : Outcome.Kept R) {item : Literal} {element : TypeRef}
    (hunbound : item.isUnbound env = item.isUnbound env')
    (h : R Json (item.valueWith schema default env element)
      (item.valueWith schema default' env' element)) :
    R Json (item.itemValue schema default env element)
      (item.itemValue schema default' env' element) := by
  unfold itemValue
  rw [hunbound]
  cases item.isUnbound env' with
  | true => exact kept.nullValue element
  | false => exact h

/-- A value depends on the defaults only through what the declared ones are worth, and on the variables
only through those that occur: what relates the declared defaults relates the values. -/
theorem valueWith_related (kept : Outcome.Kept R)
    (h : ∀ declared ∈ schema.defaults,
      R Json (default declared.1 declared.2) (default' declared.1 declared.2))
    (literal : Literal) (type : TypeRef)
    (henv : ∀ name ∈ literal.variables, env.lookup name = env'.lookup name) :
    R Json (literal.valueWith schema default env type)
      (literal.valueWith schema default' env' type) := by
  induction literal generalizing type with
  | null => exact kept.nullValue type
  | var name =>
    -- no default is looked at
    have hvalue : env.valueAt name type = env'.valueAt name type := by
      unfold Variables.valueAt
      rw [henv name (List.mem_singleton.2 rfl)]
    show R Json (env.valueAt name type) (env'.valueAt name type)
    rw [hvalue]
    apply kept.refl
    unfold Variables.valueAt
    split
    next => split <;> simp [Coerced.none]
    next => simp [Coerced.none]
  | plain literal hplain =>
    rw [valueWith_plain hplain, valueWith_plain hplain]
    exact kept.refl _ Schema.leafValue_ne_endless
  | list items ih =>
    have hitem : ∀ item ∈ items, ∀ name ∈ item.variables, env.lookup name = env'.lookup name :=
      fun item hitem name hname => henv name (mem_variables_list.2 ⟨item, hitem, hname⟩)
    cases hview : type.view with
    | list element =>
      rw [valueWith_list hview, valueWith_list hview]
      apply kept.map
      apply kept.mapM
      intro item hmem
      exact itemValue_related kept (isUnbound_congr (hitem item hmem))
        (ih item hmem element (hitem item hmem))
    | named name =>
      rw [valueWith_list_leaf hview, valueWith_list_leaf hview]
      exact kept.refl _ Schema.leafValue_ne_endless
  | object fields ih =>
    have hfield : ∀ field ∈ fields, ∀ name ∈ field.2.variables,
        env.lookup name = env'.lookup name :=
      fun field hfield name hname => henv name (mem_variables_object.2 ⟨field, hfield, hname⟩)
    by_cases hinput : ∃ inputType, schema.namedType? type = some (.inputObject inputType)
    · obtain ⟨inputType, hfind⟩ := hinput
      have hbound : (fields.filter fun field => !field.2.isUnbound env) =
          fields.filter fun field => !field.2.isUnbound env' := by
        apply List.filter_congr
        intro field hmem
        rw [isUnbound_congr (hfield field hmem)]
      rw [valueWith_object hfind, valueWith_object hfind]
      apply kept.map
      apply kept.map
      apply membersOf_related kept
      intro declared hdeclared
      apply InputDef.memberValue_related kept
      · intro literal hliteral
        exact h _ (Schema.mem_defaults hfind hdeclared hliteral)
      · rw [lookup_fieldValues, lookup_fieldValues, hbound]
        cases hlookup : (fields.filter fun field => !field.2.isUnbound env').lookup declared.name with
        | none => exact .inl ⟨rfl, rfl⟩
        | some literal =>
          have hmem := (List.mem_filter.1 (mem_of_lookup hlookup)).1
          exact .inr ⟨_, _, rfl, rfl, ih _ hmem declared.type (hfield _ hmem)⟩
    · rw [valueWith_object_leaf hinput, valueWith_object_leaf hinput]
      exact kept.refl _ Schema.leafValue_ne_endless

end Literal

/-- A runtime value has no variables, so it depends on the declared defaults alone. -/
theorem Json.coerceWith_related (kept : Outcome.Kept R)
    (h : ∀ declared ∈ schema.defaults,
      R Json (default declared.1 declared.2) (default' declared.1 declared.2))
    (value : Json) (type : TypeRef) :
    R Json (value.coerceWith schema default type) (value.coerceWith schema default' type) := by
  induction value generalizing type with
  | null => exact kept.nullValue type
  | plain value hplain =>
    rw [coerceWith_plain hplain, coerceWith_plain hplain]
    exact kept.refl _ Schema.leafValue_ne_endless
  | array items ih =>
    cases hview : type.view with
    | list element =>
      rw [coerceWith_array hview, coerceWith_array hview]
      apply kept.map
      apply kept.mapM
      intro item hmem
      exact ih item hmem element
    | named name =>
      rw [coerceWith_array_leaf hview, coerceWith_array_leaf hview]
      exact kept.refl _ Schema.leafValue_ne_endless
  | object entries ih =>
    by_cases hinput : ∃ inputType, schema.namedType? type = some (.inputObject inputType)
    · obtain ⟨inputType, hfind⟩ := hinput
      rw [coerceWith_object hfind, coerceWith_object hfind]
      apply kept.map
      apply kept.map
      apply membersOf_related kept
      intro declared hdeclared
      apply InputDef.memberValue_related kept
      · intro literal hliteral
        exact h _ (Schema.mem_defaults hfind hdeclared hliteral)
      · rw [lookup_coerceEntries, lookup_coerceEntries]
        cases hlookup : entries.lookup declared.name with
        | none => exact .inl ⟨rfl, rfl⟩
        | some value =>
          exact .inr ⟨_, _, rfl, rfl, ih _ (mem_of_lookup hlookup) declared.type⟩
    · rw [coerceWith_object_leaf hinput, coerceWith_object_leaf hinput]
      exact kept.refl _ Schema.leafValue_ne_endless

end Related

/-! ## §3. Deeper evaluations. -/

namespace Schema

variable (schema : Schema)

/-- What is known of a default at some depth is known of it at the next. -/
theorem evaluateWithin_below_succ (depth : Nat) (type : TypeRef) (literal : Literal) :
    Outcome.Below Json (schema.evaluateWithin depth type literal)
      (schema.evaluateWithin (depth + 1) type literal) := by
  induction depth generalizing type literal with
  | zero => exact .inl rfl
  | succ depth ih =>
    exact Literal.valueWith_related Outcome.kept_below (fun declared _ => ih declared.1 declared.2)
      literal type fun _ _ => rfl

/-- The outcomes of defaults become more as the depth grows, until a step brings no new one. -/
theorem deepening_defaults : Outcome.Deepening schema.defaults fun depth declared =>
    schema.evaluateWithin depth declared.1 declared.2 where
  below_succ depth declared := schema.evaluateWithin_below_succ depth declared.1 declared.2
  settled _ hstable declared _ :=
    -- the outcomes of defaults are the same at both depths, and the value depends on nothing else
    Literal.valueWith_related Outcome.kept_eq (fun other hother => hstable other hother) declared.2
      declared.1 fun _ _ => rfl

variable {schema}

/-- **A default is worth what its literal is worth without variables**, however deep the defaults are
nested that it uses. -/
theorem defaultValue_eq_literalValue {declared : TypeRef × Literal}
    (h : declared ∈ schema.defaults) :
    schema.defaultValue declared.1 declared.2 = schema.literalValue [] declared.1 declared.2 := by
  have hstable := schema.deepening_defaults.stable declared h
  rw [length_defaults] at hstable
  exact hstable.symm

/-! ## §4. Defaults that come to an end. -/

/-- The evaluation of every default of an input field has an end, with a value or without one. -/
def DefaultsEnd (schema : Schema) : Prop :=
  ∀ declared ∈ schema.defaults, schema.literalValue [] declared.1 declared.2 ≠ .endless

namespace DefaultsEnd

variable (h : schema.DefaultsEnd)
include h

theorem defaultValue_ne_endless :
    ∀ declared ∈ schema.defaults, schema.defaultValue declared.1 declared.2 ≠ .endless := by
  intro declared hmem
  rw [defaultValue_eq_literalValue hmem]
  exact h declared hmem

/-- The evaluation of a literal ends if those of the defaults do. -/
theorem literalValue_ne_endless (env : Variables) (type : TypeRef) (literal : Literal) :
    schema.literalValue env type literal ≠ .endless := by
  have hended : Outcome.Ended Json (schema.literalValue env type literal)
      (schema.literalValue env type literal) :=
    Literal.valueWith_related Outcome.kept_ended h.defaultValue_ne_endless literal type fun _ _ => rfl
  exact hended

/-- The evaluation of a runtime value ends if those of the defaults do. -/
theorem coerceValue_ne_endless (type : TypeRef) (value : Json) :
    schema.coerceValue type value ≠ .endless := by
  have hended : Outcome.Ended Json (schema.coerceValue type value) (schema.coerceValue type value) :=
    Json.coerceWith_related Outcome.kept_ended h.defaultValue_ne_endless value type
  exact hended

end DefaultsEnd

end Schema

end GraphQLCheck
