/-
  GraphQLCheck.Proofs.Recursion.Defaults
  ──────────────────────────────────────
  Evaluations end if no default of an input field leads back to itself.

  From call to call, what is evaluated becomes smaller, or its type does, but for one kind of call: a field
  that a literal leaves out takes its default.  So a default depends on those of the fields that it leaves
  out itself, wherever it is read as an input object, and an evaluation that goes on for ever goes on from
  one default to another that it depends on.  A schema has finitely many defaults.  If they do not depend on
  each other in a circle, this comes to an end, even where an input object has fields of its own type.

  Main results:
    * `Literal.Omits`                      — a literal leaves a field out where it is read as an input object
    * `Schema.DefaultedField.DependsOn`    — a default depends on another one
    * `Schema.DefaultsAcyclic.ends`        — without a circle, the evaluation ends from every call
    * `Schema.DefaultsAcyclic.defaultsEnd` — so every default has an outcome
-/
import GraphQLCheck.Proofs.Recursion.Evaluation
import Mathlib.Data.Set.Finite.Basic

namespace GraphQLCheck

/-! ## §1. Fields that are left out. -/

/-- A literal, read at a type, leaves a field of an input object out: going down to items and to fields, one
comes to an object that is read as the input object and that gives no literal for the field, or only a
variable. -/
inductive Literal.Omits (schema : Schema) (owner : InputObjectType) (field : InputDef) :
    Literal → TypeRef → Prop where
  | here {fields : List (String × Literal)} {type : TypeRef} :
      schema.namedType? type = some (.inputObject owner) → field ∈ owner.fields.toList →
      (∀ given ∈ fields, given.1 = field.name → ∃ name, given.2 = .variable name) →
      Omits schema owner field (.object fields) type
  | item {items : List Literal} {item : Literal} {type element : TypeRef} :
      type.view = .list element → item ∈ items → Omits schema owner field item element →
      Omits schema owner field (.list items) type
  | member {fields : List (String × Literal)} {type : TypeRef} {outer : InputObjectType}
      {inner : InputDef} {literal : Literal} :
      schema.namedType? type = some (.inputObject outer) → inner ∈ outer.fields.toList →
      (inner.name, literal) ∈ fields → Omits schema owner field literal inner.type →
      Omits schema owner field (.object fields) type

namespace Literal.Omits

variable {schema : Schema} {owner : InputObjectType} {field : InputDef} {literal : Literal}

/-- Whether null is excluded does not matter. -/
theorem nonNull {inner : TypeRef} (h : literal.Omits schema owner field inner) :
    literal.Omits schema owner field (.nonNull inner) := by
  cases h with
  | here hfind hfield homitted => exact .here hfind hfield homitted
  | item hview hitem hrest => exact .item hview hitem hrest
  | member hfind hinner hgiven hrest => exact .member hfind hinner hgiven hrest

/-- Nor does it for a single item whether it stands in a list. -/
theorem singleItem {fields : List (String × Literal)} {element : TypeRef}
    (h : (Literal.object fields).Omits schema owner field element) :
    (Literal.object fields).Omits schema owner field (.list element) := by
  cases h with
  | here hfind hfield homitted => exact .here hfind hfield homitted
  | member hfind hinner hgiven hrest => exact .member hfind hinner hgiven hrest

end Literal.Omits

/-! ## §2. Defaults that depend on each other. -/

namespace Schema

/-- An input field with a default. -/
structure DefaultedField (schema : Schema) where
  owner : InputObjectType
  field : InputDef
  default : Literal
  declared : schema.find? owner.name = some (.inputObject owner)
  mem : field ∈ owner.fields.toList
  defaulted : field.defaultValue = some default

namespace DefaultedField

variable {schema : Schema}

/-- The call that evaluates the default. -/
def call (field : schema.DefaultedField) : EvaluationCall := .literal [] field.field.type field.default

/-- A default depends on that of a field that it leaves out. -/
def DependsOn (field other : schema.DefaultedField) : Prop :=
  field.default.Omits schema other.owner other.field field.field.type

/-- There are finitely many fields with a default. -/
instance : Finite schema.DefaultedField := by
  let declared : List (InputObjectType × InputDef) := schema.types.toList.flatMap fun
    | .inputObject type => type.fields.toList.map fun field => (type, field)
    | _ => []
  have hmem : ∀ field : schema.DefaultedField, (field.owner, field.field) ∈ declared := by
    intro field
    refine List.mem_flatMap.2 ⟨_, (Declarations.mem_of_find? field.declared).1, ?_⟩
    exact List.mem_map_of_mem field.mem
  have hfinite : Finite {pair // pair ∈ declared} := declared.finite_toSet.to_subtype
  refine Finite.of_injective
    (fun field => (⟨(field.owner, field.field), hmem field⟩ : {pair // pair ∈ declared})) ?_
  intro field other hsame
  obtain ⟨owner, declared, default, hdeclared, hfield, hdefault⟩ := field
  obtain ⟨owner', declared', default', hdeclared', hfield', hdefault'⟩ := other
  cases hsame
  rw [hdefault] at hdefault'
  cases hdefault'
  rfl

end DefaultedField

/-- No default of an input field depends on itself by way of others. -/
def DefaultsAcyclic (schema : Schema) : Prop :=
  ∀ field : schema.DefaultedField, ¬Relation.TransGen DefaultedField.DependsOn field field

/-- Only lists and objects leave fields out, so other defaults depend on none. -/
theorem defaultsAcyclic_of_isPlain {schema : Schema}
    (h : ∀ declared ∈ schema.defaults, declared.2.isPlain = true) : schema.DefaultsAcyclic := by
  refine not_transGen_self_of_lt (fun _ => 0) ?_
  rintro ⟨owner, field, default, hdeclared, hfield, hdefault⟩ other
    (homits : default.Omits _ other.owner other.field _)
  have hplain : default.isPlain = true := h _ (mem_defaults hdeclared hfield hdefault)
  cases homits <;> cases hplain

end Schema

/-! ## §3. Evaluations that end. -/

section Ends

variable {schema : Schema}

/-- The calls for an input object end if those for the given fields do, and those for the defaults of the
fields that are not given. -/
theorem InputObjectType.ends_memberCalls {type : InputObjectType} {name : String}
    (hfind : schema.find? name = some (.inputObject type))
    {members : List (String × (TypeRef → EvaluationCall))}
    (hgiven : ∀ field ∈ type.fields.toList, ∀ call, (field.name, call) ∈ members →
      schema.evaluation.Ends (call field.type))
    (homitted : ∀ field : schema.DefaultedField, field.owner = type →
      field.field.name ∉ members.map Prod.fst → schema.evaluation.Ends field.call) :
    ∀ call ∈ type.memberCalls members, schema.evaluation.Ends call := by
  intro call hcall
  obtain ⟨field, hfield, hcall⟩ := List.mem_filterMap.1 hcall
  unfold InputDef.memberCall? at hcall
  split at hcall
  next given hlookup =>
    cases hcall
    exact hgiven field hfield given (mem_of_lookup hlookup)
  next default hlookup hdefault =>
    cases hcall
    have hdeclared : schema.find? type.name = some (.inputObject type) :=
      Declarations.find?_eq_some_iff.2 ⟨(Declarations.mem_of_find? hfind).1, rfl⟩
    exact homitted ⟨type, field, default, hdeclared, hfield, hdefault⟩ rfl
      (lookup_eq_none_iff_not_mem.1 hlookup)
  next => cases hcall

/-- The evaluation of a literal ends if those of the defaults do of the fields that the literal leaves
out. -/
theorem Literal.ends_evaluation {env : Variables} (literal : Literal) (type : TypeRef)
    (h : ∀ field : schema.DefaultedField, literal.Omits schema field.owner field.field type →
      schema.evaluation.Ends field.call) :
    schema.evaluation.Ends (.literal env type literal) := by
  induction literal generalizing type with
  | null => exact .of_nil rfl
  | var name => exact .of_nil rfl
  | plain literal hplain =>
    -- no other literal is reached, so only the layers of the type count
    clear h
    induction type with
    | nonNull inner ih => exact .of_singleton (evaluationCalls_plain hplain (.nonNull inner)) ih
    | list element ih => exact .of_singleton (evaluationCalls_plain hplain (.list element)) ih
    | named name => exact .of_nil (evaluationCalls_plain hplain (.named name))
  | list items ih =>
    induction type with
    | nonNull inner ihType =>
      exact .of_singleton rfl (ihType fun field homits => h field homits.nonNull)
    | list element _ =>
      apply Recursion.Ends.of_calls
      intro call hcall
      obtain ⟨item, hitem, rfl⟩ := List.mem_map.1 hcall
      have hitem := (List.mem_filter.1 hitem).1
      exact ih item hitem element fun field homits => h field (.item rfl hitem homits)
    | named name => exact .of_nil rfl
  | object fields ih =>
    induction type with
    | nonNull inner ihType =>
      exact .of_singleton rfl (ihType fun field homits => h field homits.nonNull)
    | list element ihType =>
      exact .of_singleton rfl (ihType fun field homits => h field homits.singleItem)
    | named name =>
      by_cases hinput : ∃ inputType, schema.find? name = some (.inputObject inputType)
      · obtain ⟨inputType, hfind⟩ := hinput
        apply Recursion.Ends.of_calls
        show ∀ call ∈ (Literal.object fields).evaluationCalls schema env (.named name), _
        rw [evaluationCalls_object hfind]
        apply inputType.ends_memberCalls hfind
        · intro field hfield call hcall
          obtain ⟨⟨_, literal⟩, hliteral, heq⟩ := List.mem_map.1 hcall
          cases heq
          have hgiven := (List.mem_filter.1 hliteral).1
          exact ih _ hgiven field.type fun other homits => h other (.member hfind hfield hgiven homits)
        · intro field howner hnot
          refine h field (.here (howner ▸ hfind) field.mem fun given hgiven hname => ?_)
          -- what is given is not among the calls, so it is a variable without a value
          by_contra hliteral
          have hbound : given.2.isUnbound env = false := by
            unfold isUnbound
            split
            next name hvariable => exact absurd ⟨name, hvariable⟩ hliteral
            next => rfl
          apply hnot
          rw [fieldCalls, List.map_map]
          exact List.mem_map.2 ⟨given, List.mem_filter.2 ⟨hgiven, by rw [hbound]; rfl⟩, hname⟩
      · exact .of_nil (evaluationCalls_object_leaf hinput)

/-- The evaluation of a runtime value ends if those of the defaults do. -/
theorem Json.ends_evaluation (h : ∀ field : schema.DefaultedField, schema.evaluation.Ends field.call)
    (value : Json) (type : TypeRef) : schema.evaluation.Ends (.value type value) := by
  induction value generalizing type with
  | null => exact .of_nil rfl
  | plain value hplain =>
    induction type with
    | nonNull inner ih => exact .of_singleton (evaluationCalls_plain hplain (.nonNull inner)) ih
    | list element ih => exact .of_singleton (evaluationCalls_plain hplain (.list element)) ih
    | named name => exact .of_nil (evaluationCalls_plain hplain (.named name))
  | array items ih =>
    induction type with
    | nonNull inner ihType => exact .of_singleton rfl ihType
    | list element _ =>
      apply Recursion.Ends.of_calls
      intro call hcall
      obtain ⟨item, hitem, rfl⟩ := List.mem_map.1 hcall
      exact ih item hitem element
    | named name => exact .of_nil rfl
  | object entries ih =>
    induction type with
    | nonNull inner ihType => exact .of_singleton rfl ihType
    | list element ihType => exact .of_singleton rfl ihType
    | named name =>
      by_cases hinput : ∃ inputType, schema.find? name = some (.inputObject inputType)
      · obtain ⟨inputType, hfind⟩ := hinput
        apply Recursion.Ends.of_calls
        show ∀ call ∈ (Json.object entries).evaluationCalls schema (.named name), _
        rw [evaluationCalls_object hfind]
        refine inputType.ends_memberCalls hfind ?_ fun field _ _ => h field
        intro field _ call hcall
        obtain ⟨⟨_, value⟩, hvalue, heq⟩ := List.mem_map.1 hcall
        cases heq
        exact ih _ hvalue field.type
      · exact .of_nil (evaluationCalls_object_leaf hinput)

end Ends

namespace Schema.DefaultsAcyclic

variable {schema : Schema} (h : schema.DefaultsAcyclic)
include h

theorem ends_default (field : schema.DefaultedField) : schema.evaluation.Ends field.call :=
  (wellFounded_of_acyclic h).induction field fun field ih =>
    field.default.ends_evaluation field.field.type ih

/-- **Without a circle of defaults, the evaluation ends from every call.** -/
theorem ends (call : EvaluationCall) : schema.evaluation.Ends call := by
  cases call with
  | literal env type literal =>
    exact literal.ends_evaluation type fun field _ => h.ends_default field
  | value type value => exact value.ends_evaluation h.ends_default type

theorem defaultsEnd : schema.DefaultsEnd :=
  fun declared _ => evaluate_ne_endless (h.ends (.literal [] declared.1 declared.2))

end Schema.DefaultsAcyclic

end GraphQLCheck
