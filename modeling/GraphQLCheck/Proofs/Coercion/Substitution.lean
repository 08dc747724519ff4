/-
  GraphQLCheck.Proofs.Coercion.Substitution
  ─────────────────────────────────────────
  A variable that is bound to a value, and a literal of that value written in its place.

  Binding and writing agree where a variable stands for a whole value of a known type: as the whole
  literal, as an item of a list that is read item by item, or as a declared field of an input object.
  Within a literal that is read as a leaf it does not.  Where it stands, the evaluation takes the value
  of a variable as it is, with no regard to the type except that null may be excluded; so the value must
  be one of the type already, as the value of a literal at that type is.

      Literal.substitute  — literals in place of variables
      Literal.VariablesAt — variables stand where their types are expected
      Schema.Binds        — a variable has the value of a literal

  Main facts:
    * `Literal.literalValue_substitute`        — both are worth the same
    * `Literal.problems_substitute_eq_nil_iff` — and what is written in place is accepted exactly if the
                                                 literal and all that is written into it are
-/
import GraphQLCheck.Proofs.Coercion.Acceptance

namespace GraphQLCheck

/-! ## §1. Literals in place of variables. -/

mutual
/-- The literal with a literal in place of each variable. -/
def Literal.substitute (σ : String → Literal) : Literal → Literal
  | .variable name => σ name
  | .list items => .list (substituteItems σ items)
  | .object fields => .object (substituteFields σ fields)
  | literal => literal
/-- The items of a list, with literals in place of variables. -/
def Literal.substituteItems (σ : String → Literal) : List Literal → List Literal
  | [] => []
  | item :: items => item.substitute σ :: substituteItems σ items
/-- The fields of an object, with literals in place of variables. -/
def Literal.substituteFields (σ : String → Literal) : List (String × Literal) → List (String × Literal)
  | [] => []
  | (name, value) :: fields => (name, value.substitute σ) :: substituteFields σ fields
end

namespace Literal

variable {σ : String → Literal}

theorem substitute_plain {literal : Literal} (h : literal.isPlain = true) :
    literal.substitute σ = literal := by
  cases literal <;> first | rfl | cases h

theorem substitute_list (items : List Literal) :
    (Literal.list items).substitute σ = .list (items.map (substitute σ)) := by
  show Literal.list (substituteItems σ items) = _
  congr 1
  induction items with
  | nil => rfl
  | cons item items ih => rw [substituteItems, ih, List.map_cons]

theorem substitute_object (fields : List (String × Literal)) :
    (Literal.object fields).substitute σ =
      .object (fields.map fun field => (field.1, field.2.substitute σ)) := by
  show Literal.object (substituteFields σ fields) = _
  congr 1
  induction fields with
  | nil => rfl
  | cons field fields ih =>
    obtain ⟨name, value⟩ := field
    rw [substituteFields, ih, List.map_cons]

/-- Nothing is written into a closed literal. -/
theorem substitute_of_closed {literal : Literal} (h : literal.variables = []) :
    literal.substitute σ = literal := by
  induction literal with
  | null => rfl
  | var name => cases h
  | plain literal hplain => exact substitute_plain hplain
  | list items ih =>
    rw [substitute_list, List.map_congr_left fun item hitem => ih item hitem (variables_item h hitem),
      List.map_id']
  | object fields ih =>
    have hfields : ∀ field ∈ fields, (field.1, field.2.substitute σ) = field := by
      intro field hfield
      rw [ih field hfield (variables_field h hfield)]
    rw [substitute_object, List.map_congr_left hfields, List.map_id']

/-- The variables that occur afterwards are those of what is written in place. -/
theorem mem_variables_substitute {literal : Literal} {name : String} :
    name ∈ (literal.substitute σ).variables ↔
      ∃ replaced ∈ literal.variables, name ∈ (σ replaced).variables := by
  induction literal with
  | null => simp [substitute, Literal.variables]
  | var replaced => simp [substitute, Literal.variables]
  | plain literal hplain =>
    have hclosed : literal.variables = [] := by cases literal <;> first | rfl | cases hplain
    simp [substitute_plain hplain, hclosed]
  | list items ih =>
    rw [substitute_list]
    simp only [mem_variables_list, List.mem_map]
    constructor
    · rintro ⟨_, ⟨item, hitem, rfl⟩, hname⟩
      obtain ⟨replaced, hreplaced, hname⟩ := (ih item hitem).1 hname
      exact ⟨replaced, ⟨item, hitem, hreplaced⟩, hname⟩
    · rintro ⟨replaced, ⟨item, hitem, hreplaced⟩, hname⟩
      exact ⟨_, ⟨item, hitem, rfl⟩, (ih item hitem).2 ⟨replaced, hreplaced, hname⟩⟩
  | object fields ih =>
    rw [substitute_object]
    simp only [mem_variables_object, List.mem_map]
    constructor
    · rintro ⟨_, ⟨field, hfield, rfl⟩, hname⟩
      obtain ⟨replaced, hreplaced, hname⟩ := (ih field hfield).1 hname
      exact ⟨replaced, ⟨field, hfield, hreplaced⟩, hname⟩
    · rintro ⟨replaced, ⟨field, hfield, hreplaced⟩, hname⟩
      exact ⟨_, ⟨field, hfield, rfl⟩, (ih field hfield).2 ⟨replaced, hreplaced, hname⟩⟩

/-- A literal is closed if all that is written into it is. -/
theorem variables_substitute_eq_nil {literal : Literal}
    (h : ∀ name ∈ literal.variables, (σ name).variables = []) :
    (literal.substitute σ).variables = [] := by
  rw [List.eq_nil_iff_forall_not_mem]
  intro name hname
  obtain ⟨replaced, hreplaced, hname⟩ := mem_variables_substitute.1 hname
  rw [h replaced hreplaced] at hname
  cases hname

end Literal

/-! ## §2. Variables where their types are expected. -/

/-- Every variable stands for a whole value, and where it stands the type is its own: a variable is the
whole literal, or in an item of a list that is read at a list type, or in a declared field of an object
that is read at an input object type.  Everything else is closed. -/
inductive Literal.VariablesAt (schema : Schema) (position : String → TypeRef) :
    Literal → TypeRef → Prop where
  | var (name : String) : VariablesAt schema position (.variable name) (position name)
  | closed {literal : Literal} {type : TypeRef} :
      literal.variables = [] → VariablesAt schema position literal type
  | list {items : List Literal} {type element : TypeRef} :
      type.view = .list element → (∀ item ∈ items, VariablesAt schema position item element) →
      VariablesAt schema position (.list items) type
  /-- An object has no field twice, and one that is not declared is closed. -/
  | object {fields : List (String × Literal)} {type : TypeRef} {inputType : InputObjectType} :
      schema.namedType? type = some (.inputObject inputType) → (fields.map Prod.fst).Nodup →
      (∀ field ∈ inputType.fields.toList, ∀ value, fields.lookup field.name = some value →
        VariablesAt schema position value field.type) →
      (∀ field ∈ fields, inputType.fields.contains field.1 = false → field.2.variables = []) →
      VariablesAt schema position (.object fields) type

/-- A variable is bound to the value that a closed literal has at the type of the variable. -/
structure Schema.Binds (schema : Schema) (env : Variables) (name : String) (type : TypeRef)
    (literal : Literal) : Prop where
  closed : literal.variables = []
  finite : literal.isFinite = true
  value : ∃ value, schema.literalValue [] type literal = .value value ∧ env.lookup name = some value

/-! ## §3. Values. -/

/-- A closed literal is worth the same under all variables. -/
theorem Literal.valueWith_of_closed {schema : Schema} {default : DefaultValue} {literal : Literal}
    (h : literal.variables = []) (env env' : Variables) (type : TypeRef) :
    literal.valueWith schema default env type = literal.valueWith schema default env' type := by
  apply valueWith_related Outcome.kept_eq (fun _ _ => rfl)
  intro name hname
  rw [h] at hname
  cases hname

/-- Null is not the value of a finite closed literal where it is excluded. -/
theorem Literal.value_ne_null_of_isNonNull {schema : Schema} {default : DefaultValue}
    (hscalars : ∀ scalar, .scalar scalar ∈ schema.types.toList → scalar.LiteralNullFree)
    {env : Variables} {literal : Literal} {type : TypeRef} (hclosed : literal.variables = [])
    (hfinite : literal.isFinite = true) (hrequired : type.isNonNull = true) {value : Json}
    (h : literal.valueWith schema default env type = .value value) : value ≠ .null := by
  cases hnull : literal.isNull with
  | false => exact value_ne_null hscalars (.of_closed hclosed) hfinite hnull h
  | true =>
    cases literal with
    | null =>
      obtain ⟨hnullable, _⟩ := TypeRef.nullValue_eq_value_iff.1 h
      rw [hrequired] at hnullable
      cases hnullable
    | _ => cases hnull

section Substitution

variable {schema : Schema} {position : String → TypeRef} {σ : String → Literal} {env : Variables}

/-- A variable is worth what the literal is that it is bound to. -/
theorem Schema.Binds.literalValue_variable
    (hscalars : ∀ scalar, .scalar scalar ∈ schema.types.toList → scalar.LiteralNullFree)
    {name : String} {type : TypeRef} {literal : Literal} (h : schema.Binds env name type literal) :
    schema.literalValue env type (.variable name) = schema.literalValue [] type literal := by
  obtain ⟨value, hvalue, hlookup⟩ := h.value
  rw [hvalue]
  -- the bound value is taken as it is; all that the type can refuse is null
  refine Literal.valueWith_variable_eq_value_iff.2 ⟨hlookup, ?_⟩
  cases hrequired : type.isNonNull with
  | false => rw [Bool.and_false]
  | true =>
    rw [Bool.and_true, Bool.eq_false_iff]
    intro hnull
    exact Literal.value_ne_null_of_isNonNull hscalars h.closed h.finite hrequired hvalue
      (Json.isNull_iff.1 hnull)

/-- A literal whose variables are bound is none without a value. -/
theorem Literal.isUnbound_of_binds {literal : Literal}
    (h : ∀ name ∈ literal.variables, schema.Binds env name (position name) (σ name)) :
    literal.isUnbound env = false :=
  isUnbound_eq_false fun name hname => (h name hname).value.imp fun _ => And.right

theorem Literal.isUnbound_substitute {literal : Literal}
    (h : ∀ name ∈ literal.variables, schema.Binds env name (position name) (σ name)) :
    (literal.substitute σ).isUnbound [] = false :=
  (BoundBy.of_closed (variables_substitute_eq_nil fun name hname => (h name hname).closed)).isUnbound

/-- **Binding variables and writing literals in their place are worth the same.** -/
theorem Literal.literalValue_substitute
    (hscalars : ∀ scalar, .scalar scalar ∈ schema.types.toList → scalar.LiteralNullFree)
    {literal : Literal} {type : TypeRef} (hplaced : literal.VariablesAt schema position type)
    (hbinds : ∀ name ∈ literal.variables, schema.Binds env name (position name) (σ name)) :
    schema.literalValue env type literal = schema.literalValue [] type (literal.substitute σ) := by
  -- induction on how the variables stand in the literal: each step goes on to a part at its own type
  induction hplaced with
  | var name => exact (hbinds name (List.mem_singleton.2 rfl)).literalValue_variable hscalars
  | closed hclosed =>
    rw [substitute_of_closed hclosed]
    exact valueWith_of_closed hclosed env [] _
  | @list items type element hview _ ih =>
    rw [substitute_list]
    show valueWith schema _ env _ type = valueWith schema _ [] _ type
    rw [valueWith_list hview, valueWith_list hview, List.mapM_map]
    apply Outcome.kept_eq.map
    apply Outcome.kept_eq.mapM
    intro item hitem
    show itemValue schema _ env item element = itemValue schema _ [] (item.substitute σ) element
    have hitemBinds : ∀ name ∈ item.variables, schema.Binds env name (position name) (σ name) :=
      fun name hname => hbinds name (mem_variables_list.2 ⟨item, hitem, hname⟩)
    -- no item is null for want of a value, before or after
    unfold itemValue
    rw [isUnbound_of_binds hitemBinds, isUnbound_substitute hitemBinds]
    exact ih item hitem hitemBinds
  | @object fields type inputType hfind _ _ _ ih =>
    have hfieldBinds : ∀ field ∈ fields, ∀ name ∈ field.2.variables,
        schema.Binds env name (position name) (σ name) :=
      fun field hfield name hname => hbinds name (mem_variables_object.2 ⟨field, hfield, hname⟩)
    have hsubstituted : ∀ field ∈ fields.map fun field => (field.1, field.2.substitute σ),
        field.2.isUnbound [] = false := by
      intro _ hmem
      obtain ⟨field, hfield, rfl⟩ := List.mem_map.1 hmem
      exact isUnbound_substitute (hfieldBinds field hfield)
    rw [substitute_object]
    show valueWith schema _ env _ type = valueWith schema _ [] _ type
    rw [valueWith_object hfind, valueWith_object hfind]
    apply Outcome.kept_eq.map
    apply Outcome.kept_eq.map
    apply membersOf_related Outcome.kept_eq
    intro declared hdeclared
    apply InputDef.memberValue_related Outcome.kept_eq (fun _ _ => rfl)
    -- no field is left out for want of a value, so a declared field is given before if it is after
    rw [lookup_fieldValues_of_bound fun field hfield => isUnbound_of_binds (hfieldBinds field hfield),
      lookup_fieldValues_of_bound hsubstituted, lookup_map_entries]
    cases hlookup : fields.lookup declared.name with
    | none => exact .inl ⟨rfl, rfl⟩
    | some value =>
      exact .inr ⟨_, _, rfl, rfl,
        ih declared hdeclared value hlookup (hfieldBinds _ (mem_of_lookup hlookup))⟩

/-! ## §4. Problems. -/

/-- **What is written in place of variables is accepted exactly if each part is**: the literal with the
variables, and at the type of each variable what is written for it. -/
theorem Literal.problems_substitute_eq_nil_iff {literal : Literal} {type : TypeRef}
    (hplaced : literal.VariablesAt schema position type) :
    (literal.substitute σ).problems schema type = [] ↔
      literal.problems schema type = [] ∧
      ∀ name ∈ literal.variables, (σ name).problems schema (position name) = [] := by
  induction hplaced with
  | var name =>
    show (σ name).problems schema (position name) = [] ↔ _ = [] ∧ ∀ other ∈ [name], _
    rw [List.forall_mem_singleton]
    exact ⟨fun h => ⟨rfl, h⟩, And.right⟩
  | closed hclosed =>
    rw [substitute_of_closed hclosed, hclosed]
    simp
  | @list items type element hview _ ih =>
    rw [substitute_list, problems_list hview, problems_list hview, Problem.inElements_eq_nil_iff,
      Problem.inElements_eq_nil_iff, List.map_map, List.forall_mem_map, List.forall_mem_map]
    constructor
    · intro h
      refine ⟨fun item hitem => ((ih item hitem).1 (h item hitem)).1, fun name hname => ?_⟩
      obtain ⟨item, hitem, hname⟩ := mem_variables_list.1 hname
      exact ((ih item hitem).1 (h item hitem)).2 name hname
    · rintro ⟨h, hσ⟩ item hitem
      exact (ih item hitem).2
        ⟨h item hitem, fun name hname => hσ name (mem_variables_list.2 ⟨item, hitem, hname⟩)⟩
  | @object fields type inputType hfind hdistinct _ _ ih =>
    rw [substitute_object, problems_object_eq_nil_iff hfind, problems_object_eq_nil_iff hfind,
      List.forall_mem_map]
    simp only [lookup_map_entries, Option.map_eq_some_iff, Option.map_eq_none_iff]
    constructor
    · rintro ⟨hknown, hgiven, homitted⟩
      have hparts : ∀ field ∈ inputType.fields.toList, ∀ value, fields.lookup field.name = some value →
          value.problems schema field.type = [] ∧
          ∀ name ∈ value.variables, (σ name).problems schema (position name) = [] :=
        fun field hfield value hlookup =>
          (ih field hfield value hlookup).1 (hgiven field hfield _ ⟨value, hlookup, rfl⟩)
      refine ⟨⟨hknown, fun field hfield value hlookup => (hparts field hfield value hlookup).1,
        homitted⟩, fun name hname => ?_⟩
      -- a field that holds a variable is declared, as all fields are
      obtain ⟨⟨key, value⟩, hmem, hname⟩ := mem_variables_object.1 hname
      obtain ⟨field, hfield, rfl⟩ := Declarations.contains_iff.1 (hknown _ hmem)
      exact (hparts field hfield value (lookup_of_mem hdistinct hmem)).2 name hname
    · rintro ⟨⟨hknown, hgiven, homitted⟩, hσ⟩
      refine ⟨hknown, ?_, homitted⟩
      rintro field hfield _ ⟨value, hlookup, rfl⟩
      exact (ih field hfield value hlookup).2 ⟨hgiven field hfield value hlookup, fun name hname =>
        hσ name (mem_variables_object.2 ⟨_, mem_of_lookup hlookup, hname⟩)⟩

end Substitution

/-! ## §5. Bound variables and literals in their place. -/

/-- **Binding variables equals writing literals in their place.**  If null is the value of no finite literal
but null under any custom scalar, the variables of a literal stand where their types are expected, and each
is bound to what a closed finite literal is worth at its type, then the literal is worth what it is with these
literals in place; and that one is accepted exactly if the literal with the variables is, and each literal in
place at the type of its variable. -/
theorem binding_equals_substitution {schema : Schema} (hbuilt : schema.Built)
    (hcustom : schema.CustomScalars ScalarType.LiteralNullFree) {position : String → TypeRef}
    {type : TypeRef} {literal : Literal} (hplaced : literal.VariablesAt schema position type)
    {σ : String → Literal} {env : Variables}
    (hbinds : ∀ name ∈ literal.variables, schema.Binds env name (position name) (σ name)) :
    schema.literalValue env type literal = schema.literalValue [] type (literal.substitute σ) ∧
    ((literal.substitute σ).problems schema type = [] ↔
      literal.problems schema type = [] ∧
      ∀ name ∈ literal.variables, (σ name).problems schema (position name) = []) := by
  have hscalars := hbuilt.forall_scalar (fun _ => ScalarType.literalNullFree_of_builtin) hcustom
  exact ⟨Literal.literalValue_substitute hscalars hplaced hbinds,
    Literal.problems_substitute_eq_nil_iff hplaced⟩

namespace Search

/-- The types of the variables of a filter. -/
def patternPosition : String → TypeRef
  | "from" => .nonNull (.named "Int")
  | "tags" => .list (.nonNull (.named "String"))
  | _ => .named "Filter"

/-- The variables of a filter stand where their types are expected. -/
theorem filterPattern_variablesAt :
    filterPattern.VariablesAt schema patternPosition (.nonNull (.named "Filter")) := by
  have hrange : (Literal.object [("from", .variable "from")]).VariablesAt schema patternPosition
      (.nonNull (.named "Range")) := by
    apply @Literal.VariablesAt.object _ _ _ _ range rfl (by decide)
    · intro field hfield value hlookup
      simp only [range, List.mem_cons, List.not_mem_nil, or_false] at hfield
      rcases hfield with rfl | rfl
      · cases hlookup
        exact .var "from"
      · cases hlookup
    · intro field hfield hunknown
      cases List.mem_singleton.1 hfield
      cases hunknown
  apply @Literal.VariablesAt.object _ _ _ _ filter rfl (by decide)
  · intro field hfield value hlookup
    simp only [filter, List.mem_cons, List.not_mem_nil, or_false] at hfield
    rcases hfield with rfl | rfl | rfl | rfl | rfl
    · cases hlookup
      exact .var "tags"
    · cases hlookup
    · cases hlookup
      exact hrange
    · cases hlookup
    · cases hlookup
      exact .var "or"
  · intro field hfield hunknown
    simp only [List.mem_cons, List.not_mem_nil, or_false] at hfield
    rcases hfield with rfl | rfl | rfl <;> cases hunknown

/-- What is written in place of the variables; a single text for a list of texts, and a filter that omits
its order. -/
def patternLiterals : String → Literal
  | "from" => .int 2
  | "tags" => .string "lean"
  | _ => .object [("range", .object [("from", .int 3)])]

/-- What that is worth: the text in a list, and the filter with the default of its order. -/
def patternValues : Variables :=
  [("from", .ofInt 2), ("tags", .array [.string "lean"]),
    ("or", .object [("order", .string "ASC"), ("range", .object [("from", .ofInt 3)])])]

/-- A filter is worth the same with its parts bound and with its parts written, and is accepted since they
are. -/
theorem filter_bound_equals_written :
    schema.literalValue patternValues (.nonNull (.named "Filter")) filterPattern =
      schema.literalValue [] (.nonNull (.named "Filter")) (filterPattern.substitute patternLiterals) ∧
    (filterPattern.substitute patternLiterals).problems schema (.nonNull (.named "Filter")) = [] := by
  have hbinds : ∀ name ∈ filterPattern.variables,
      schema.Binds patternValues name (patternPosition name) (patternLiterals name) := by
    intro name hmem
    rcases mem_variables_filterPattern.1 hmem with rfl | rfl | rfl
    · exact ⟨rfl, rfl, _, rfl, rfl⟩
    · exact ⟨rfl, rfl, _, rfl, rfl⟩
    · exact ⟨rfl, rfl, _, rfl, rfl⟩
  obtain ⟨hvalue, haccepted⟩ := binding_equals_substitution built
    (customScalars (ScalarType.nullFree_of_anyScalar rfl).1) filterPattern_variablesAt hbinds
  refine ⟨hvalue, haccepted.2 ⟨rfl, ?_⟩⟩
  intro name hmem
  rcases mem_variables_filterPattern.1 hmem with rfl | rfl | rfl <;> rfl

end Search

end GraphQLCheck
