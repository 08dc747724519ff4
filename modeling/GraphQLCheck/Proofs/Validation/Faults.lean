/-
  GraphQLCheck.Proofs.Validation.Faults
  ─────────────────────────────────────
  The rules about types report exactly the nodes that are at fault by the typing of the document.

  What is at fault is said of a node and its typing alone.  A walk enters every node with its typing from
  the top down, so a rule that reports a node as it enters it reports the faults of the document, in the
  order of the document.

  A field that its type does not have is no end of the walk.  What stands beneath it has no types, and so no
  faults, up to a fragment with a type condition.

      TypedNode                — a node with its typing
      Node.typedNodes          — the nodes at and beneath a node, each before its children
      TypedNode.LeafFault, TypedNode.ArgumentFault, TypedNode.DefaultFault — what the rules look for

  Main results:
    * `Rule.Find.locations_validate`   — rules that find faults report the faults of a document
    * `TypedNode.Untyped.descend`      — without a type condition, nothing beneath has a type
    * `rules_report_what_is_at_fault`  — both, for the rules about types
-/
import GraphQLCheck.Proofs.Validation.Composition
import Mathlib.Logic.Relation

namespace GraphQLCheck

/-! ## §1. Nodes and their typings. -/

/-- A node of a document with its typing. -/
structure TypedNode where
  node : Node
  typing : Typing

namespace TypedNode

/-- Where errors about the node are reported. -/
def locations (place : TypedNode) : List Location := place.node.location?.toList

/-- A node is a child of another one, and has its typing from there. -/
structure IsChild (schema : Schema) (outer inner : TypedNode) : Prop where
  mem : inner.node ∈ outer.node.children
  typing_eq : inner.typing = outer.typing.descend schema inner.node

/-- The node that a step of a walk enters, if it enters one. -/
def entered? : Event × Typing → Option TypedNode
  | (.enter node, typing) => some ⟨node, typing⟩
  | (.leave _, _) => none

end TypedNode

namespace Node

variable {schema : Schema} {outer : Typing}

/-- The nodes at and beneath a node with their typings, each before its children. -/
def typedNodes (schema : Schema) (outer : Typing) (node : Node) : List TypedNode :=
  (node.typedWalk schema outer).filterMap TypedNode.entered?

theorem typedNodes_eq (schema : Schema) (outer : Typing) (node : Node) :
    node.typedNodes schema outer = ⟨node, outer.descend schema node⟩ ::
      node.children.flatMap (typedNodes schema (outer.descend schema node)) := by
  unfold typedNodes
  rw [typedWalk_eq, List.filterMap_append]
  show _ :: List.filterMap _ (List.flatMap _ _) ++ [] = _
  rw [List.filterMap_flatMap, List.append_nil]

/-- No node is passed over, whatever the types are. -/
theorem map_node_typedNodes (node : Node) :
    (node.typedNodes schema outer).map (·.node) = node.preorder := by
  induction node using childInduction generalizing outer with
  | step node ih =>
    rw [typedNodes_eq, preorder_eq, List.map_cons, List.map_flatMap]
    exact congrArg (node :: ·) (List.flatMap_congr fun child hchild => ih child hchild)

/-- The children of a typed node are typed from there. -/
theorem mem_typedNodes_child {node : Node} {place inner : TypedNode}
    (h : place ∈ node.typedNodes schema outer) (hchild : place.IsChild schema inner) :
    inner ∈ node.typedNodes schema outer := by
  obtain ⟨inner, typing⟩ := inner
  obtain ⟨hmem, htyping⟩ := hchild
  obtain ⟨⟨event, around⟩, hstep, hentered⟩ := List.mem_filterMap.1 h
  cases event with
  | leave other => cases hentered
  | enter other =>
    cases hentered
    refine List.mem_filterMap.2 ⟨_, mem_typedWalk_child hstep hmem, ?_⟩
    rw [← htyping]
    rfl

/-- The typed nodes are those that are reached from the top down. -/
theorem mem_typedNodes_iff {node : Node} {place : TypedNode} :
    place ∈ node.typedNodes schema outer ↔
      Relation.ReflTransGen (TypedNode.IsChild schema) ⟨node, outer.descend schema node⟩ place := by
  constructor
  · intro h
    induction node using childInduction generalizing outer with
    | step node ih =>
      rw [typedNodes_eq] at h
      rcases List.mem_cons.1 h with rfl | h
      · exact .refl
      · obtain ⟨child, hchild, h⟩ := List.mem_flatMap.1 h
        exact .head ⟨hchild, rfl⟩ (ih child hchild h)
  · intro h
    induction h with
    | refl =>
      rw [typedNodes_eq]
      exact List.mem_cons_self ..
    | tail _ hchild ih => exact mem_typedNodes_child ih hchild

/-- The typing of a node is one step down from that of the node around it. -/
theorem exists_descend_of_mem {node : Node} {place : TypedNode}
    (h : place ∈ node.typedNodes schema outer) :
    ∃ around : Typing, place.typing = around.descend schema place.node := by
  cases mem_typedNodes_iff.1 h with
  | refl => exact ⟨outer, rfl⟩
  | @tail around _ _ hchild => exact ⟨around.typing, hchild.typing_eq⟩

end Node

/-- The nodes of a document with their typings, in document order. -/
def Document.typedNodes (schema : Schema) (document : Document) : List TypedNode :=
  (Node.document document).typedNodes schema {}

/-! ## §2. Faults. -/

namespace TypedNode

/-- A field of a known type is at fault if a selection has to end there and goes on, or has to go on and
ends: at scalars and enums it ends. -/
def LeafFault (schema : Schema) : TypedNode → Prop
  | ⟨.field f, typing⟩ => ∃ type ∈ typing.type, ∃ named ∈ schema.namedType? type,
      (named.kind = .scalar ∨ named.kind = .enum ↔ f.hasSubSelection = true)
  | _ => False

/-- An argument for a known parameter is at fault if its literal has problems. -/
def ArgumentFault (schema : Schema) : TypedNode → Prop
  | ⟨.argument a, typing⟩ => ∃ parameter ∈ typing.parameter,
      schema.literalProblems parameter.type (some a.value) ≠ []
  | _ => False

/-- A variable with a default is at fault if it excludes null, or if its default has problems. -/
def DefaultFault (schema : Schema) : TypedNode → Prop
  | ⟨.variableDefinition definition, _⟩ => ∃ literal ∈ definition.defaultValue,
      (TypeRef.ofExpr definition.type).isNonNull = true ∨
        schema.literalProblems (.ofExpr definition.type) (some literal) ≠ []
  | _ => False

/-- A node is at fault in one of these ways. -/
def Fault (schema : Schema) (place : TypedNode) : Prop :=
  place.LeafFault schema ∨ place.ArgumentFault schema ∨ place.DefaultFault schema

variable {schema : Schema}

instance : DecidablePred (LeafFault schema) := fun ⟨node, typing⟩ =>
  match node with
  | .field f => inferInstanceAs (Decidable (∃ type ∈ typing.type, ∃ named ∈ schema.namedType? type,
      (named.kind = .scalar ∨ named.kind = .enum ↔ f.hasSubSelection = true)))
  | .argument _ | .document _ | .fragment _ | .fragmentSpread _ | .inlineFragment _ | .operation _
  | .selectionSet _ | .variableDefinition _ => isFalse id

instance : DecidablePred (ArgumentFault schema) := fun ⟨node, typing⟩ =>
  match node with
  | .argument a => inferInstanceAs (Decidable (∃ parameter ∈ typing.parameter,
      schema.literalProblems parameter.type (some a.value) ≠ []))
  | .document _ | .field _ | .fragment _ | .fragmentSpread _ | .inlineFragment _ | .operation _
  | .selectionSet _ | .variableDefinition _ => isFalse id

instance : DecidablePred (DefaultFault schema) := fun ⟨node, _⟩ =>
  match node with
  | .variableDefinition definition => inferInstanceAs (Decidable (∃ literal ∈ definition.defaultValue,
      (TypeRef.ofExpr definition.type).isNonNull = true ∨
        schema.literalProblems (.ofExpr definition.type) (some literal) ≠ []))
  | .argument _ | .document _ | .field _ | .fragment _ | .fragmentSpread _ | .inlineFragment _
  | .operation _ | .selectionSet _ => isFalse id

instance : DecidablePred (Fault schema) := fun place =>
  inferInstanceAs (Decidable (place.LeafFault schema ∨ place.ArgumentFault schema ∨
    place.DefaultFault schema))

end TypedNode

/-! ## §3. Rules that find faults. -/

/-- Rules find the nodes with a fault: they report one error as they enter such a node, at its location,
and nothing else. -/
structure Rule.Find (rules : List Rule) (fault : Schema → TypedNode → Prop)
    [∀ schema, DecidablePred (fault schema)] : Prop where
  isLocal : ∀ rule ∈ rules, rule.IsLocal
  enter : ∀ (step : WalkStep) (node : Node), step.event = .enter node →
    (step.report rules).map (·.locations) =
      if fault step.schema ⟨node, step.tracker.typing⟩ then [node.location?.toList] else []
  leave : ∀ (step : WalkStep) (node : Node), step.event = .leave node → step.report rules = []

/-- **Rules that find faults report the faults of a document**, in document order. -/
theorem Rule.Find.locations_validate {rules : List Rule} {fault : Schema → TypedNode → Prop}
    [∀ schema, DecidablePred (fault schema)] (h : Rule.Find rules fault) (schema : Schema)
    (document : Document) :
    (document.validate schema rules).map (·.locations) =
      ((document.typedNodes schema).filter (fault schema ·)).map (·.locations) := by
  have hwalk : (walkSteps schema ⟨[]⟩ {} document.events).map (·.typed) =
      (Node.document document).typedWalk schema {} :=
    typed_events ⟨rfl, rfl⟩ (.document document)
  have hschema : ∀ step ∈ walkSteps schema ⟨[]⟩ {} document.events, step.schema = schema :=
    fun _ => schema_of_mem_walkSteps
  -- both sides are read off the same steps: the errors of each, and the node that it enters
  unfold Document.typedNodes Node.typedNodes
  rw [Document.validate_eq_flatMap_report h.isLocal, ← hwalk]
  generalize walkSteps schema ⟨[]⟩ {} document.events = steps at hschema ⊢
  induction steps with
  | nil => rfl
  | cons step steps ih =>
    rw [List.forall_mem_cons] at hschema
    rw [List.flatMap_cons, List.map_append, ih hschema.2, List.map_cons]
    cases hevent : step.event with
    | leave node =>
      have hskip : TypedNode.entered? step.typed = none := by
        rw [WalkStep.typed, hevent]
        rfl
      rw [h.leave step node hevent, List.filterMap_cons_none hskip]
      rfl
    | enter node =>
      have hentered : TypedNode.entered? step.typed = some ⟨node, step.tracker.typing⟩ := by
        rw [WalkStep.typed, hevent]
        rfl
      rw [h.enter step node hevent, hschema.1, List.filterMap_cons_some hentered, List.filter_cons]
      by_cases hfault : fault schema ⟨node, step.tracker.typing⟩
      · rw [if_pos hfault, if_pos (decide_eq_true hfault)]
        rfl
      · rw [if_neg hfault, if_neg (by rw [decide_eq_false hfault]; exact Bool.false_ne_true)]
        rfl

namespace Rule.Find

/-- Rules that find different faults, no two of them at one node, find them all. -/
theorem append {rules rules' : List Rule} {fault fault' : Schema → TypedNode → Prop}
    [∀ schema, DecidablePred (fault schema)] [∀ schema, DecidablePred (fault' schema)]
    (h : Find rules fault) (h' : Find rules' fault')
    (hdifferent : ∀ schema place, fault schema place → ¬fault' schema place) :
    Find (rules ++ rules') fun schema place => fault schema place ∨ fault' schema place where
  isLocal rule hrule := (List.mem_append.1 hrule).elim (h.isLocal rule) (h'.isLocal rule)
  enter step node hevent := by
    unfold WalkStep.report
    rw [List.flatMap_append, List.map_append]
    show (step.report rules).map _ ++ (step.report rules').map _ = _
    rw [h.enter step node hevent, h'.enter step node hevent]
    by_cases hfault : fault step.schema ⟨node, step.tracker.typing⟩
    · -- then the node does not have the other fault
      have hother := hdifferent _ _ hfault
      simp only [hfault, hother, if_true, if_false, true_or, List.append_nil]
    · simp only [hfault, if_false, false_or, List.nil_append]
  leave step node hevent := by
    unfold WalkStep.report
    rw [List.flatMap_append]
    show step.report rules ++ step.report rules' = []
    rw [h.leave step node hevent, h'.leave step node hevent, List.append_nil]

end Rule.Find

namespace Rule

theorem map_locations_problemsError (message : String) (location : Location)
    (problems : List (Problem Literal)) :
    (problemsError message location problems).map (·.locations) =
      if problems ≠ [] then [[location]] else [] := by
  cases problems <;> simp [problemsError]

theorem map_locations_fieldLeafError? {schema : Schema} (type? : Option TypeRef) (field : Field) :
    (fieldLeafError? schema type? field).toList.map ValidationError.locations =
      if ∃ type ∈ type?, ∃ named ∈ schema.namedType? type,
          (named.kind = .scalar ∨ named.kind = .enum ↔ field.hasSubSelection = true)
        then [[field.location]] else [] := by
  have hleaf : ∀ named : TypeDef, named.isLeaf = field.hasSubSelection ↔
      (named.kind = .scalar ∨ named.kind = .enum ↔ field.hasSubSelection = true) := by
    intro named
    rw [Bool.eq_iff_iff]
    unfold TypeDef.isLeaf
    cases named.kind <;> simp [TypeKind.isLeaf]
  cases type? with
  | none => simp [fieldLeafError?]
  | some type =>
    simp only [← hleaf, Option.mem_some_iff, exists_eq_left']
    show ((schema.namedType? type).bind _).toList.map _ = _
    cases schema.namedType? type with
    | none => simp
    | some named =>
      simp only [Option.bind_some, Option.mem_some_iff, exists_eq_left']
      split <;> rfl

theorem map_locations_defaultErrors {schema : Schema} (definition : VariableDefinition)
    (default : Literal) :
    (defaultErrors schema definition default).map (·.locations) =
      if (TypeRef.ofExpr definition.type).isNonNull = true ∨
          default.problems schema (.ofExpr definition.type) ≠ []
        then [[definition.location]] else [] := by
  unfold defaultErrors
  simp only []
  cases (TypeRef.ofExpr definition.type).isNonNull with
  | true => simp
  | false => simp [map_locations_problemsError]

/-- What a single rule finds is seen from what it reports on entering and on leaving a node. -/
theorem find_singleton {rule : Rule} {fault : Schema → TypedNode → Prop}
    [∀ schema, DecidablePred (fault schema)] (hlocal : rule.IsLocal)
    (henter : ∀ schema document tracker node,
      (rule.report ⟨schema, document, tracker, .enter node⟩ rule.start).map (·.locations) =
        if fault schema ⟨node, tracker.typing⟩ then [node.location?.toList] else [])
    (hleave : ∀ schema document tracker node,
      rule.report ⟨schema, document, tracker, .leave node⟩ rule.start = []) : Find [rule] fault where
  isLocal := List.forall_mem_singleton.2 hlocal
  enter step node hevent := by
    obtain ⟨schema, document, tracker, event⟩ := step
    cases hevent
    rw [WalkStep.report, List.flatMap_singleton]
    exact henter schema document tracker node
  leave step node hevent := by
    obtain ⟨schema, document, tracker, event⟩ := step
    cases hevent
    rw [WalkStep.report, List.flatMap_singleton]
    exact hleave schema document tracker node

/-- What is selected on a field is right, or the field is at fault. -/
theorem find_scalarLeafs : Find [scalarLeafs] TypedNode.LeafFault := by
  refine find_singleton isLocal_scalarLeafs (fun schema _ tracker node => ?_) fun _ _ _ _ => rfl
  cases node with
  | field f => exact map_locations_fieldLeafError? tracker.currentType f
  | _ => rfl

/-- The literal of an argument is right, or the argument is at fault. -/
theorem find_argumentsOfCorrectType : Find [argumentsOfCorrectType] TypedNode.ArgumentFault := by
  refine find_singleton isLocal_argumentsOfCorrectType (fun schema _ tracker node => ?_)
    fun _ _ _ _ => rfl
  cases node with
  | argument a =>
    obtain ⟨parameter?, fieldDefs, inputTypes, parentTypes, types⟩ := tracker
    cases parameter? with
    | none => exact (if_neg (fun ⟨_, hparameter, _⟩ => Option.not_mem_none _ hparameter)).symm
    | some parameter =>
      refine (map_locations_problemsError _ a.location _).trans (if_congr ?_ rfl rfl)
      show _ ↔ ∃ known ∈ some parameter, schema.literalProblems known.type (some a.value) ≠ []
      simp only [Option.mem_some_iff, exists_eq_left']
      rfl
  | _ => rfl

/-- The default of a variable is right, or the variable is at fault. -/
theorem find_defaultValuesOfCorrectType :
    Find [defaultValuesOfCorrectType] TypedNode.DefaultFault := by
  refine find_singleton isLocal_defaultValuesOfCorrectType (fun schema _ _ node => ?_)
    fun _ _ _ _ => rfl
  cases node with
  | variableDefinition definition =>
    obtain ⟨name, type, default?, location⟩ := definition
    cases default? with
    | none => exact (if_neg (fun ⟨_, hdefault, _⟩ => Option.not_mem_none _ hdefault)).symm
    | some default =>
      refine (map_locations_defaultErrors ⟨name, type, some default, location⟩ default).trans
        (if_congr ?_ rfl rfl)
      show _ ↔ ∃ literal ∈ some default, (TypeRef.ofExpr type).isNonNull = true ∨
        schema.literalProblems (.ofExpr type) (some literal) ≠ []
      simp only [Option.mem_some_iff, exists_eq_left']
      rfl
  | _ => rfl

/-- The rules about types find all faults: a field, an argument and a variable are never the same node. -/
theorem find_all : Find [scalarLeafs, argumentsOfCorrectType, defaultValuesOfCorrectType]
    TypedNode.Fault := by
  refine find_scalarLeafs.append (find_argumentsOfCorrectType.append find_defaultValuesOfCorrectType ?_) ?_
  · rintro schema ⟨node, typing⟩ hfault
    cases node <;> first | exact id | cases hfault
  · rintro schema ⟨node, typing⟩ hfault
    cases node <;> first | exact fun hother => hother.elim id id | cases hfault

end Rule

/-! ## §4. Nodes without a type. -/

/-- A node that has a type of its own, whatever stands around it: an operation, or a fragment with a type
condition. -/
def Node.givesType : Node → Bool
  | .operation _ | .fragment _ => true
  | .inlineFragment part => part.typeCondition.isSome
  | _ => false

namespace TypedNode

variable {schema : Schema} {place inner : TypedNode}

/-- Nothing is known of the types at a node. -/
structure Untyped (place : TypedNode) : Prop where
  type_eq : place.typing.type = none
  field_eq : place.typing.field = none
  parameter_eq : place.typing.parameter = none
  /-- No fields can be selected in a selection set. -/
  parent_eq : ∀ set, place.node = .selectionSet set → place.typing.parent = none
  /-- The node is none of those with a type of their own, nor a variable of an operation. -/
  givesType_eq : place.node.givesType = false
  ne_variable : ∀ definition, place.node ≠ .variableDefinition definition

/-- A field that its type does not have is without types. -/
theorem untyped_of_field {document : Document} (h : place ∈ document.typedNodes schema) {f : Field}
    (hfield : place.node = .field f) (htype : place.typing.type = none) : place.Untyped := by
  obtain ⟨node, typing⟩ := place
  obtain ⟨around, htyping⟩ := Node.exists_descend_of_mem h
  cases hfield
  cases htyping
  exact ⟨htype, Option.map_eq_none_iff.1 htype, rfl, nofun, rfl, nofun⟩

/-- Fields are selected in selection sets only. -/
theorem exists_set_of_field_mem {node : Node} {f : Field} (h : .field f ∈ node.children) :
    ∃ set, node = .selectionSet set := by
  cases node with
  | selectionSet set => exact ⟨set, rfl⟩
  | document d =>
    obtain ⟨definition, _, hnode⟩ := List.mem_map.1 h
    cases definition <;> cases hnode
  | _ => simp [Node.children] at h

/-- Variables are defined by operations only. -/
theorem exists_operation_of_variable_mem {node : Node} {definition : VariableDefinition}
    (h : .variableDefinition definition ∈ node.children) : ∃ op, node = .operation op := by
  cases node with
  | operation op => exact ⟨op, rfl⟩
  | document d =>
    obtain ⟨other, _, hnode⟩ := List.mem_map.1 h
    cases other <;> cases hnode
  | selectionSet set =>
    obtain ⟨selection, _, hnode⟩ := List.mem_map.1 h
    cases selection <;> cases hnode
  | _ => simp [Node.children] at h

/-- **Nothing is known of the types beneath a node without types**, but for what has a type of its own. -/
theorem Untyped.of_isChild (h : place.Untyped) (hchild : place.IsChild schema inner)
    (hnone : inner.node.givesType = false) : inner.Untyped := by
  obtain ⟨node, typing⟩ := place
  obtain ⟨child, childTyping⟩ := inner
  obtain ⟨hmem, htyping⟩ := hchild
  obtain ⟨htype, hfield, _, hparent, hgives, _⟩ := h
  obtain rfl : childTyping = typing.descend schema child := htyping
  cases child with
  | argument a =>
    have hparameter : typing.field.bind (·.parameter? a.name) = none := by
      rw [show typing.field = none from hfield]
      rfl
    exact ⟨htype, hfield, hparameter, nofun, rfl, nofun⟩
  | field f =>
    -- it stands in a selection set in which no fields can be selected
    obtain ⟨set, hset⟩ := exists_set_of_field_mem hmem
    have hnothing : typing.parent = none := hparent set hset
    have hdefinition : (if f.name = "__typename" then typing.parent.map fun _ => FieldDef.typename
        else typing.parent.bind (·.field? f.name)) = none := by
      rw [hnothing]
      split <;> rfl
    exact ⟨Option.map_eq_none_iff.2 hdefinition, hdefinition, rfl, nofun, rfl, nofun⟩
  | inlineFragment part =>
    obtain ⟨condition, set, location⟩ := part
    cases condition with
    | some condition => cases hnone
    | none => exact ⟨Option.map_eq_none_iff.2 htype, hfield, rfl, nofun, rfl, nofun⟩
  | selectionSet set =>
    have hnothing : ((typing.type.bind fun type => schema.find? type.typeName).filter
        (·.isComposite)) = none := by
      rw [show typing.type = none from htype]
      rfl
    exact ⟨htype, hfield, rfl, fun _ _ => hnothing, rfl, nofun⟩
  | variableDefinition definition =>
    -- an operation has a type of its own, so no variable stands beneath a node without types
    obtain ⟨op, hop⟩ := exists_operation_of_variable_mem hmem
    cases hop
    cases hgives
  | operation op => cases hnone
  | fragment part => cases hnone
  | document d => exact ⟨htype, hfield, rfl, nofun, rfl, nofun⟩
  | fragmentSpread spread => exact ⟨htype, hfield, rfl, nofun, rfl, nofun⟩

/-- What stands beneath a node without types, with no type condition in between, is walked and is without
types too. -/
theorem Untyped.of_reflTransGen {document : Document} (hmem : place ∈ document.typedNodes schema)
    (h : place.Untyped) (hbeneath : Relation.ReflTransGen
      (fun outer inner => outer.IsChild schema inner ∧ inner.node.givesType = false) place inner) :
    inner ∈ document.typedNodes schema ∧ inner.Untyped := by
  induction hbeneath with
  | refl => exact ⟨hmem, h⟩
  | tail _ hstep ih => exact ⟨Node.mem_typedNodes_child ih.1 hstep.1, ih.2.of_isChild hstep.1 hstep.2⟩

/-- A node without types is not at fault. -/
theorem Untyped.not_fault (h : place.Untyped) : ¬place.Fault schema := by
  obtain ⟨node, typing⟩ := place
  obtain ⟨htype, _, hparameter, _, _, hvariable⟩ := h
  cases node with
  | field f =>
    rintro (⟨type, hmem, _⟩ | hfault | hfault)
    · rw [show typing.type = none from htype] at hmem
      cases hmem
    · exact hfault
    · exact hfault
  | argument a =>
    rintro (hfault | ⟨parameter, hmem, _⟩ | hfault)
    · exact hfault
    · rw [show typing.parameter = none from hparameter] at hmem
      cases hmem
    · exact hfault
  | variableDefinition definition => exact absurd rfl (hvariable definition)
  | _ => exact fun hfault => hfault.elim id fun hother => hother.elim id id

/-- In a fragment with a type condition the fields of that type can be selected, wherever it stands. -/
theorem exists_set_of_condition {document : Document} (h : place ∈ document.typedNodes schema)
    {part : InlineFragment} (hpart : place.node = .inlineFragment part) {condition : String}
    (hcondition : part.typeCondition = some condition) :
    ∃ inner ∈ document.typedNodes schema, place.IsChild schema inner ∧
      inner.node = .selectionSet part.selectionSet ∧
      inner.typing.parent = (schema.find? condition).filter (·.isComposite) := by
  obtain ⟨around, htyping⟩ := Node.exists_descend_of_mem h
  have htype : place.typing.type =
      if (schema.find? condition).isSome then some (.named condition) else none := by
    obtain ⟨named, set, location⟩ := part
    cases hcondition
    rw [htyping, hpart]
    rfl
  have hmem : .selectionSet part.selectionSet ∈ place.node.children := by
    rw [hpart]
    exact List.mem_singleton.2 rfl
  have hchild : place.IsChild schema ⟨.selectionSet part.selectionSet,
      place.typing.descend schema (.selectionSet part.selectionSet)⟩ := ⟨hmem, rfl⟩
  refine ⟨_, Node.mem_typedNodes_child h hchild, hchild, rfl, ?_⟩
  show Option.filter _ (place.typing.type.bind _) = _
  rw [htype]
  cases hfind : schema.find? condition with
  | none => rfl
  | some named =>
    show Option.filter _ (schema.find? condition) = _
    rw [hfind]

end TypedNode

/-! ## §5. Exactness. -/

/-- **The rules about types report exactly what is at fault by the typing of the document.**  A document is
typed from the top down, without passing any node over.  Each rule reports one error for each node with its
fault, at the location of the node and in document order: fields that are selected on against their type,
arguments whose literals are refused, and variables whose defaults are refused or of no use.  So do all three
together.  Beneath a field that its type does not have everything is walked, but nothing is at fault until a
fragment has a type condition; in it the fields of the type that it names are selected again. -/
theorem rules_report_what_is_at_fault (schema : Schema) (document : Document) :
    ((document.typedNodes schema).map (·.node) = (Node.document document).preorder ∧
      ∀ place, place ∈ document.typedNodes schema ↔
        Relation.ReflTransGen (TypedNode.IsChild schema) ⟨.document document, {}⟩ place) ∧
    ((document.validate schema [.scalarLeafs]).map (·.locations) =
        ((document.typedNodes schema).filter (·.LeafFault schema)).map (·.locations) ∧
      (document.validate schema [.argumentsOfCorrectType]).map (·.locations) =
        ((document.typedNodes schema).filter (·.ArgumentFault schema)).map (·.locations) ∧
      (document.validate schema [.defaultValuesOfCorrectType]).map (·.locations) =
        ((document.typedNodes schema).filter (·.DefaultFault schema)).map (·.locations) ∧
      (document.validate schema
          [.scalarLeafs, .argumentsOfCorrectType, .defaultValuesOfCorrectType]).map (·.locations) =
        ((document.typedNodes schema).filter (·.Fault schema)).map (·.locations)) ∧
    (∀ place ∈ document.typedNodes schema, ∀ f, place.node = .field f → place.typing.type = none →
      ∀ inner, Relation.ReflTransGen
          (fun outer inner => outer.IsChild schema inner ∧ inner.node.givesType = false) place inner →
        inner ∈ document.typedNodes schema ∧ inner.typing.type = none ∧ ¬inner.Fault schema) ∧
    ∀ place ∈ document.typedNodes schema, ∀ part condition, place.node = .inlineFragment part →
      part.typeCondition = some condition →
        ∃ inner ∈ document.typedNodes schema, place.IsChild schema inner ∧
          inner.node = .selectionSet part.selectionSet ∧
          inner.typing.parent = (schema.find? condition).filter (·.isComposite) := by
  refine ⟨⟨Node.map_node_typedNodes _, fun place => Node.mem_typedNodes_iff⟩,
    ⟨Rule.find_scalarLeafs.locations_validate schema document,
      Rule.find_argumentsOfCorrectType.locations_validate schema document,
      Rule.find_defaultValuesOfCorrectType.locations_validate schema document,
      Rule.find_all.locations_validate schema document⟩,
    fun place hmem f hfield htype inner hbeneath => ?_,
    fun place hmem part condition hpart => TypedNode.exists_set_of_condition hmem hpart⟩
  have huntyped := TypedNode.untyped_of_field hmem hfield htype
  obtain ⟨hinner, huntyped⟩ := huntyped.of_reflTransGen hmem hbeneath
  exact ⟨hinner, huntyped.type_eq, huntyped.not_fault⟩

namespace Search

/-- `search(filter: 3)` -/
def wrongSearch (place : Location) : Field := ⟨none, "search", [⟨"filter", .int 3, place⟩], none, place⟩

/-- `lost(first: "two") { search(filter: 3) }` -/
def lost : Field :=
  ⟨none, "lost", [⟨"first", .string "two", ⟨3, 5⟩⟩],
    some ⟨[.field (wrongSearch ⟨3, 26⟩)], ⟨3, 24⟩⟩, ⟨3, 5⟩⟩

/-- `search(first: "two") { lost ... on Query { search(filter: 3) } }` -/
def selecting : Field :=
  ⟨none, "search", [⟨"first", .string "two", ⟨2, 3⟩⟩],
    some ⟨[.field lost, .inlineFragment
      ⟨some "Query", ⟨[.field (wrongSearch ⟨4, 20⟩)], ⟨4, 18⟩⟩, ⟨4, 5⟩⟩], ⟨2, 24⟩⟩, ⟨2, 3⟩⟩

/-- `query ($n: Int! = 1) { search }` -/
def misled : Operation :=
  ⟨.query, none, [⟨"n", .nonNull (.named "Int"), some (.int 1), ⟨1, 8⟩⟩],
    ⟨[.field selecting], ⟨1, 22⟩⟩, ⟨1, 1⟩⟩

/-- The wrong search is reported in the fragment on the type of queries, but not beneath the field that texts
do not have. -/
theorem misled_is_reported_exactly :
    ((Document.mk [.operation misled]).validate schema
        [.scalarLeafs, .argumentsOfCorrectType, .defaultValuesOfCorrectType]).map (·.locations) =
      [[⟨1, 8⟩], [⟨2, 3⟩], [⟨2, 3⟩], [⟨4, 20⟩]] ∧
    (((Document.mk [.operation misled]).typedNodes schema).filter (·.Fault schema)).map (·.locations) =
      [[⟨1, 8⟩], [⟨2, 3⟩], [⟨2, 3⟩], [⟨4, 20⟩]] ∧
    ⟨.field (wrongSearch ⟨3, 26⟩), {}⟩ ∈ (Document.mk [.operation misled]).typedNodes schema ∧
      ¬(TypedNode.mk (.field (wrongSearch ⟨3, 26⟩)) {}).Fault schema := by
  obtain ⟨⟨_, hreached⟩, ⟨_, _, _, hall⟩, hbeneath, _⟩ :=
    rules_report_what_is_at_fault schema ⟨[.operation misled]⟩
  have hlost : ⟨.field lost, {}⟩ ∈ (Document.mk [.operation misled]).typedNodes schema := by
    rw [hreached]
    refine .head (b := ⟨.operation misled, _⟩) ⟨List.mem_singleton.2 rfl, rfl⟩ ?_
    refine .head (b := ⟨.selectionSet misled.selectionSet, _⟩)
      ⟨List.mem_cons_of_mem _ (List.mem_singleton.2 rfl), rfl⟩ ?_
    refine .head (b := ⟨.field selecting, _⟩) ⟨List.mem_singleton.2 rfl, rfl⟩ ?_
    refine .head (b := ⟨.selectionSet _, _⟩) ⟨List.mem_cons_of_mem _ (List.mem_singleton.2 rfl), rfl⟩ ?_
    exact .single ⟨List.mem_cons_self .., rfl⟩
  obtain ⟨hmem, _, hfault⟩ := hbeneath _ hlost lost rfl rfl ⟨.field (wrongSearch ⟨3, 26⟩), {}⟩
    (.head (b := ⟨.selectionSet ⟨[.field (wrongSearch ⟨3, 26⟩)], ⟨3, 24⟩⟩, {}⟩)
      ⟨⟨List.mem_cons_of_mem _ (List.mem_singleton.2 rfl), rfl⟩, rfl⟩
      (.single ⟨⟨List.mem_singleton.2 rfl, rfl⟩, rfl⟩))
  have hrun : ((Document.mk [.operation misled]).validate schema
      [.scalarLeafs, .argumentsOfCorrectType, .defaultValuesOfCorrectType]).map (·.locations) =
    [[⟨1, 8⟩], [⟨2, 3⟩], [⟨2, 3⟩], [⟨4, 20⟩]] := rfl
  exact ⟨hrun, hall.symm.trans hrun, hmem, hfault⟩

end Search

end GraphQLCheck
