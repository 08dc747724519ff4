/-
  GraphQLCheck.Proofs.Schema.Recoerced
  ────────────────────────────────────
  No scalar has to know what to make of null or of a variable.

  A schema can be given other coercions in place of its own.  As long as these read alike all that is neither
  null nor a variable, the schema stays interchangeable with what it was, so what is evaluated, checked and
  coerced stays the same.  Validation keeps the types themselves along its walk, but all that it looks at is
  their kind, their name and their fields.

  Main results:
    * `Schema.Recoerced`               — one schema is the other with other coercions
    * `Tracker.Interchangeable.enter`  — one step of the walk keeps trackers interchangeable
    * `Schema.Interchangeable.validate_eq` — documents have the same errors in interchangeable schemas
    * `scalars_are_not_asked_for_null_or_variables` — nothing depends on what a coercion makes of these
-/
import GraphQLCheck.Proofs.Schema.Built
import GraphQLCheck.Proofs.Validation.Arguments
import GraphQLCheck.Proofs.Validation.ByName
import Mathlib.Data.List.Forall2

namespace GraphQLCheck

/-! ## §1. Validation. -/

/-- Two trackers are interchangeable if they know the same, but that the types that are selected on may be
interchangeable ones. -/
structure Tracker.Interchangeable (tracker tracker' : Tracker) : Prop where
  argument_eq : tracker.argument = tracker'.argument
  fieldDefs_eq : tracker.fieldDefs = tracker'.fieldDefs
  inputTypes_eq : tracker.inputTypes = tracker'.inputTypes
  types_eq : tracker.types = tracker'.types
  parentTypes_rel :
    List.Forall₂ (Option.Rel TypeDef.Interchangeable) tracker.parentTypes tracker'.parentTypes

namespace Tracker.Interchangeable

variable {schema schema' : Schema} {tracker tracker' : Tracker} (h : tracker.Interchangeable tracker')
include h

theorem currentType_eq : tracker.currentType = tracker'.currentType := by
  unfold currentType
  rw [h.types_eq]

/-- The type that is selected on has the same fields. -/
theorem bind_fieldOf_eq (name : String) :
    (tracker.parentType.bind fun parent => fieldOf parent name) =
      tracker'.parentType.bind fun parent => fieldOf parent name := by
  have hrel := h.parentTypes_rel
  unfold parentType
  generalize tracker.parentTypes = parents at hrel ⊢
  generalize tracker'.parentTypes = parents' at hrel ⊢
  cases hrel with
  | nil => rfl
  | cons hparent _ =>
    cases hparent with
    | none => rfl
    | some htype =>
      show fieldOf _ name = fieldOf _ name
      unfold fieldOf
      rw [htype.field?_eq]

/-- One step of the walk. -/
theorem enter (hschema : schema.Interchangeable schema') (node : Node) :
    (tracker.enter schema node).Interchangeable (tracker'.enter schema' node) := by
  have hdefined : ∀ name, definedType schema name = definedType schema' name := by
    intro name
    exact hschema.map_find?_eq (fun _ => rfl) name
  have hfield := h.bind_fieldOf_eq
  obtain ⟨argument, fieldDefs, inputTypes, parentTypes, types⟩ := tracker
  obtain ⟨argument', fieldDefs', inputTypes', parentTypes', types'⟩ := tracker'
  obtain ⟨hargument, hfieldDefs, hinputTypes, htypes, hparents⟩ := h
  cases hargument
  cases hfieldDefs
  cases hinputTypes
  cases htypes
  cases node with
  | field f =>
    have htype := congrArg (Option.map FieldDef.type) (hfield f.name)
    exact ⟨rfl, congrArg (· :: fieldDefs) (hfield f.name), rfl, congrArg (· :: types) htype, hparents⟩
  | fragment part => exact ⟨rfl, rfl, rfl, congrArg (· :: types) (hdefined part.typeCondition), hparents⟩
  | inlineFragment part =>
    obtain ⟨condition, set, location⟩ := part
    cases condition with
    | none => exact ⟨rfl, rfl, rfl, rfl, hparents⟩
    | some condition => exact ⟨rfl, rfl, rfl, congrArg (· :: types) (hdefined condition), hparents⟩
  | operation op =>
    have hroot : (schema.rootType? op.kind).map (fun type => TypeRef.named type.name) =
        (schema'.rootType? op.kind).map fun type => .named type.name :=
      hschema.map_rootType?_eq (fun htype => congrArg TypeRef.named htype.name_eq) op.kind
    exact ⟨rfl, rfl, rfl, congrArg (· :: types) hroot, hparents⟩
  | selectionSet set => exact ⟨rfl, rfl, rfl, rfl, .cons (hschema.selectedOn_rel _) hparents⟩
  | _ => exact ⟨rfl, rfl, rfl, rfl, hparents⟩

/-- Leaving a node takes the same away from both. -/
theorem leave (node : Node) : (tracker.leave node).Interchangeable (tracker'.leave node) := by
  have htypes : tracker.types.tail = tracker'.types.tail := congrArg List.tail h.types_eq
  have hinputs : tracker.inputTypes.tail = tracker'.inputTypes.tail := congrArg List.tail h.inputTypes_eq
  cases node with
  | document document => exact h
  | fragmentSpread spread => exact h
  | variableDefinition definition => exact { h with inputTypes_eq := hinputs }
  | argument a => exact { h with argument_eq := rfl, inputTypes_eq := hinputs }
  | field f => exact { h with fieldDefs_eq := congrArg List.tail h.fieldDefs_eq, types_eq := htypes }
  | fragment part => exact { h with types_eq := htypes }
  | inlineFragment part => exact { h with types_eq := htypes }
  | operation op => exact { h with types_eq := htypes }
  | selectionSet set =>
    refine { h with parentTypes_rel := ?_ }
    have hparents := h.parentTypes_rel
    show List.Forall₂ _ tracker.parentTypes.tail tracker'.parentTypes.tail
    generalize tracker.parentTypes = parents at hparents ⊢
    generalize tracker'.parentTypes = parents' at hparents ⊢
    cases hparents with
    | nil => exact .nil
    | cons _ hrest => exact hrest

theorem after (hschema : schema.Interchangeable schema') (event : Event) :
    (tracker.after schema event).Interchangeable (tracker'.after schema' event) := by
  cases event with
  | enter node => exact h.enter hschema node
  | leave node => exact h.leave node

theorem seen (hschema : schema.Interchangeable schema') (event : Event) :
    (tracker.seen schema event).Interchangeable (tracker'.seen schema' event) := by
  cases event with
  | enter node => exact h.enter hschema node
  | leave node => exact h

end Tracker.Interchangeable

/-- Steps of the walk over one document in interchangeable schemas. -/
structure WalkStep.Interchangeable (step step' : WalkStep) : Prop where
  schema : step.schema.Interchangeable step'.schema
  document_eq : step.document = step'.document
  tracker : step.tracker.Interchangeable step'.tracker
  event_eq : step.event = step'.event

namespace Rule

/-- The rules that documents are checked against do not tell such steps apart. -/
theorem respects_interchangeable_of_mem {rule : Rule} (h : rule ∈ defaults) :
    rule.Respects WalkStep.Interchangeable := by
  simp only [defaults, List.mem_cons, List.not_mem_nil, or_false] at h
  rcases h with rfl | rfl | rfl | rfl | rfl
  -- what there is to know of operations stands in the document
  · exact ⟨fun hstep _ => by simp only [uniqueOperationNames, hstep.event_eq],
      fun hstep _ => by simp only [uniqueOperationNames, hstep.event_eq]⟩
  · exact ⟨fun hstep _ => by simp only [loneAnonymousOperation, hstep.event_eq],
      fun hstep _ => by simp only [loneAnonymousOperation, hstep.event_eq]⟩
  · apply respects_stateless
    intro step step' hstep
    have herror : fieldLeafError? step.schema step'.tracker.currentType =
        fieldLeafError? step'.schema step'.tracker.currentType := by
      funext field
      unfold fieldLeafError?
      refine Option.bind_congr fun type _ => hstep.schema.bind_namedType?_eq (fun htype => ?_) type
      rw [htype.isLeaf_eq]
    rw [hstep.event_eq, hstep.tracker.currentType_eq, herror]
  · apply respects_stateless
    intro step step' hstep
    simp only [hstep.event_eq, hstep.tracker.argument_eq, hstep.schema.literal_problems_eq]
  · apply respects_stateless
    intro step step' hstep
    have herrors : defaultErrors step.schema = defaultErrors step'.schema := by
      funext definition default
      unfold defaultErrors
      simp only [hstep.schema.literal_problems_eq]
    rw [hstep.event_eq, herrors]

end Rule

namespace Schema.Interchangeable

variable {schema schema' : Schema} (h : schema.Interchangeable schema')
include h

theorem forall₂_walkSteps (document : Document) (events : List Event) {tracker tracker' : Tracker}
    (htracker : tracker.Interchangeable tracker') :
    List.Forall₂ WalkStep.Interchangeable (walkSteps schema document tracker events)
      (walkSteps schema' document tracker' events) := by
  induction events generalizing tracker tracker' with
  | nil => exact .nil
  | cons event events ih =>
    exact .cons ⟨h, rfl, htracker.seen h event, rfl⟩ (ih (htracker.after h event))

/-- **A document has the same errors in interchangeable schemas**, with the rules that documents are checked
against. -/
theorem validate_eq (document : Document) :
    document.validate schema Rule.defaults = document.validate schema' Rule.defaults :=
  Document.validate_eq_of_respects
    (h.forall₂_walkSteps document document.events ⟨rfl, rfl, rfl, rfl, .nil⟩)
    fun _ hrule => Rule.respects_interchangeable_of_mem hrule

end Schema.Interchangeable

/-! ## §2. Other coercions. -/

/-- One schema is the other with interchangeable coercions in the place of some; they differ in nothing
else. -/
structure Schema.Recoerced (schema schema' : Schema) : Prop where
  types : List.Forall₂ TypeDef.Interchangeable schema.types.toList schema'.types.toList
  queryType_eq : schema.queryType = schema'.queryType
  mutationType_eq : schema.mutationType = schema'.mutationType
  subscriptionType_eq : schema.subscriptionType = schema'.subscriptionType

namespace Schema.Recoerced

variable {schema schema' : Schema} (h : schema.Recoerced schema')
include h

theorem interchangeable : schema.Interchangeable schema' where
  find?_rel name := by
    have htypes := h.types
    unfold find? Declarations.find?
    generalize schema.types.toList = types at htypes ⊢
    generalize schema'.types.toList = types' at htypes ⊢
    induction htypes with
    | nil => exact .none
    | @cons type type' types types' htype _ ih =>
      -- a type has its name in both schemas, so both are found or neither
      have hname : Named.nameOf type = Named.nameOf type' := htype.name_eq
      rw [List.find?_cons, List.find?_cons, hname]
      cases Named.nameOf type' == name with
      | true => exact .some htype
      | false => exact ih
  rootName?_eq operation := by
    cases operation with
    | query => exact congrArg some h.queryType_eq
    | mutation => exact h.mutationType_eq
    | subscription => exact h.subscriptionType_eq

/-- The same shapes are registered, in the same order. -/
theorem inputShapes_eq : schema.inputShapes = schema'.inputShapes := by
  have hall : ∀ {types types' : List TypeDef}, List.Forall₂ TypeDef.Interchangeable types types' →
      ∀ registry : ShapeRegistry, types.foldl (ShapeRegistry.addType schema) registry =
        types'.foldl (ShapeRegistry.addType schema') registry := by
    intro types types' htypes
    induction htypes with
    | nil => exact fun _ => rfl
    | cons htype _ ih =>
      intro registry
      rw [List.foldl_cons, List.foldl_cons, h.interchangeable.addType_eq registry htype, ih]
  exact hall h.types {}

end Schema.Recoerced

/-- **No scalar has to know what to make of null or of a variable.**  Let two schemas differ only in what
coercions read literals that are null or a variable as, and runtime values that are null.  Then literals and
runtime values have the same problems and are worth the same, variables and arguments are coerced to the
same, the shapes are the same, and every document has the same errors. -/
theorem scalars_are_not_asked_for_null_or_variables {schema schema' : Schema}
    (h : schema.Recoerced schema') :
    (∀ type literal, schema.literalProblems type literal = schema'.literalProblems type literal) ∧
    (∀ env type literal, schema.literalValue env type literal = schema'.literalValue env type literal) ∧
    (∀ (value : Json) type, value.problems schema type = value.problems schema' type) ∧
    (∀ type value, schema.coerceValue type value = schema'.coerceValue type value) ∧
    (∀ operation inputs,
      schema.coerceVariables operation inputs = schema'.coerceVariables operation inputs) ∧
    (∀ definition field env,
      schema.coerceArguments definition field env = schema'.coerceArguments definition field env) ∧
    schema.inputShapes = schema'.inputShapes ∧
    ∀ document : Document,
      document.validate schema Rule.defaults = document.validate schema' Rule.defaults :=
  have hsame := h.interchangeable
  ⟨hsame.literalProblems_eq, hsame.literalValue_eq, hsame.problems_eq, hsame.coerceValue_eq,
    hsame.coerceVariables_eq, hsame.coerceArguments_eq, h.inputShapes_eq, hsame.validate_eq⟩

namespace Search

/-- Reads dates as they are, and takes null and variables for one. -/
def eagerDates : ScalarCoercion where
  serialize := some
  parseValue value := if value.isNull then some (.string "today") else some value
  parseLiteral literal := if literal.isConcrete then literal.toJson? else some (.string "today")

/-- The schema with the other coercion of dates. -/
def eagerSchema : Schema where
  types := schema.types.mapNamed (·.withCoercionFor "Date" eagerDates)
    (TypeDef.name_withCoercionFor "Date" eagerDates)
  queryType := "Query"
  mutationType := none
  subscriptionType := none

theorem eagerBuilt : eagerSchema.Built :=
  ⟨{ types := schema.types, roots := {}, coercions := [("Date", eagerDates)] },
    .addCoercion "Date" eagerDates (SchemaBuilder.Reachable.addTypes types .empty rfl), rfl⟩

theorem recoerced : schema.Recoerced eagerSchema where
  types := by
    have hdates : date.coercion.Interchangeable eagerDates := by
      constructor
      · intro literal hconcrete
        exact (if_pos hconcrete).symm
      · intro value hnull
        exact (if_neg (by rw [hnull]; exact Bool.false_ne_true)).symm
    show List.Forall₂ TypeDef.Interchangeable schema.types.toList
      (schema.types.toList.map (·.withCoercionFor "Date" eagerDates))
    rw [List.forall₂_map_right_iff, List.forall₂_same]
    intro type hmem
    simp only [schema, types, SchemaBuilder.builtinTypes, ScalarType.builtins, List.map_cons,
      List.map_nil, List.cons_append, List.nil_append, List.mem_cons, List.not_mem_nil, or_false] at hmem
    rcases hmem with rfl | rfl | rfl | rfl | rfl | rfl | rfl | rfl | rfl | rfl
    case inr.inr.inr.inr.inr.inr.inl => exact .scalar hdates
    all_goals exact .same _
  queryType_eq := rfl
  mutationType_eq := rfl
  subscriptionType_eq := rfl

/-- A filter that gives no date: `{range: {}, since: null, or: {range: {}, since: $since}}`. -/
def undatedFilter : Literal :=
  .object [("range", .object []), ("since", .null),
    ("or", .object [("range", .object []), ("since", .variable "since")])]

/-- The coercions take null for different dates, and still no date comes of null or of a variable. -/
theorem undatedFilter_is_worth_the_same :
    (schema.Built ∧ eagerSchema.Built ∧ schema.Recoerced eagerSchema) ∧
    date.coercion.parseLiteral .null ≠ eagerDates.parseLiteral .null ∧
    eagerSchema.literalValue [("since", .null)] (.named "Filter") undatedFilter =
      .value (.object [("order", .string "ASC"), ("range", .object [("from", .ofInt 1)]), ("since", .null),
        ("or", .object [("order", .string "ASC"), ("range", .object [("from", .ofInt 1)]),
          ("since", .null)])]) ∧
    schema.literalValue [("since", .null)] (.named "Filter") undatedFilter =
      eagerSchema.literalValue [("since", .null)] (.named "Filter") undatedFilter ∧
    schema.inputShapes = eagerSchema.inputShapes ∧
    document.validate schema Rule.defaults = document.validate eagerSchema Rule.defaults := by
  have hdates : date.coercion.parseLiteral .null ≠ eagerDates.parseLiteral .null := by
    show some Json.null ≠ some (.string "today")
    exact nofun
  have hsame := scalars_are_not_asked_for_null_or_variables recoerced
  obtain ⟨_, hvalue, _, _, _, _, hshapes, hvalidate⟩ := hsame
  exact ⟨⟨built, eagerBuilt, recoerced⟩, hdates, rfl, hvalue [("since", .null)] (.named "Filter") undatedFilter,
    hshapes, hvalidate document⟩

end Search

end GraphQLCheck
