/-
  GraphQLCheck.Proofs.Validation.Typing
  ─────────────────────────────────────
  The types at the places of a document, given from the top down.

  A node's typing follows from the typing of the node around it: `Typing.descend` says how, for one step
  down.  Nothing is pushed or popped here; what holds around a node is handed to each of its children
  anew.  The tracker keeps lists instead and changes them at each step of the walk.  That the two agree
  rests on one invariant: a node leaves the tracker as it was on entering it, as long as no argument or
  variable is open, and these have nothing beneath them.

  Main results:
    * `Node.typedWalk`          — the walk over a node with the typing at each step, from the top down
    * `Tracker.afterAll_events` — the walk over a node leaves the tracker as it was
    * `typed_events`            — what rules see of types along the walk is the typing
-/
import GraphQLCheck.Proofs.Document.Nodes
import GraphQLCheck.Validation.Rule

namespace GraphQLCheck

/-! ## §1. The typing of a place. -/

/-- The types at a place of a document. -/
structure Typing where
  /-- The type of the innermost operation, fragment or field. -/
  type : Option TypeRef := none
  /-- The type that the innermost selection set selects on. -/
  parent : Option TypeDef := none
  /-- The definition of the innermost field. -/
  field : Option FieldDef := none
  /-- What the argument is given for. -/
  parameter : Option InputDef := none
  /-- The type of the argument or of the variable. -/
  input : Option TypeRef := none

namespace Typing

/-- The typing of a node, given that of the node around it. -/
def descend (schema : Schema) (outer : Typing) : Node → Typing
  | .operation op =>
    { outer with
      type := (schema.rootType? op.kind).map fun root => .named root.name
      parameter := none, input := none }
  | .fragment part =>
    { outer with
      type := if (schema.find? part.typeCondition).isSome then some (.named part.typeCondition) else none
      parameter := none, input := none }
  | .inlineFragment ⟨some condition, _, _⟩ =>
    { outer with
      type := if (schema.find? condition).isSome then some (.named condition) else none
      parameter := none, input := none }
  | .inlineFragment ⟨none, _, _⟩ =>
    { outer with
      type := outer.type.map fun type => .named type.typeName
      parameter := none, input := none }
  | .selectionSet _ =>
    { outer with
      parent := (outer.type.bind fun type => schema.find? type.typeName).filter (·.isComposite)
      parameter := none, input := none }
  | .field f =>
    let definition :=
      if f.name = "__typename" then outer.parent.map fun _ => FieldDef.typename
      else outer.parent.bind (·.field? f.name)
    { outer with
      field := definition, type := definition.map (·.type)
      parameter := none, input := none }
  | .argument a =>
    let parameter := outer.field.bind (·.parameter? a.name)
    { outer with parameter, input := parameter.map (·.type) }
  | .variableDefinition definition =>
    { outer with parameter := none, input := some (.ofExpr definition.type) }
  | .document _ | .fragmentSpread _ => { outer with parameter := none, input := none }

end Typing

namespace Node

/-- The walk from a node, with the typing of the place at each step: a node has one typing, on entering
it and on leaving it, and hands it to its children. -/
def typedWalk (schema : Schema) (outer : Typing) (node : Node) : List (Event × Typing) :=
  let inner := outer.descend schema node
  (.enter node, inner) ::
    node.children.attach.flatMap (fun ⟨child, _⟩ => typedWalk schema inner child) ++
      [(.leave node, inner)]
termination_by sizeOf node
decreasing_by exact sizeOf_child_lt ‹_›

theorem typedWalk_eq (schema : Schema) (outer : Typing) (node : Node) :
    node.typedWalk schema outer =
      (.enter node, outer.descend schema node) ::
        node.children.flatMap (typedWalk schema (outer.descend schema node)) ++
          [(.leave node, outer.descend schema node)] := by
  rw [typedWalk]
  simp only []
  rw [List.flatMap_subtype (g := typedWalk schema (outer.descend schema node)) (fun _ _ => rfl),
    List.unattach_attach]

end Node

/-! ## §2. Steps of the tracker. -/

namespace Tracker

/-- What the tracker says of a place. -/
def typing (tracker : Tracker) : Typing where
  type := tracker.currentType
  parent := tracker.parentType
  field := tracker.fieldDef
  parameter := tracker.argument
  input := tracker.inputType

/-- No argument and no variable is open. -/
def IsClosed (tracker : Tracker) : Prop := tracker.argument = none ∧ tracker.inputTypes = []

theorem bind_fieldOf (parent : Option TypeDef) (name : String) :
    (parent.bind fun parent => fieldOf parent name) =
      if name = "__typename" then parent.map fun _ => FieldDef.typename
      else parent.bind (·.field? name) := by
  unfold fieldOf
  cases parent <;> split <;> rfl

/-- Entering a node is one step down. -/
theorem typing_enter {schema : Schema} {tracker : Tracker} (h : tracker.IsClosed) (node : Node) :
    (tracker.enter schema node).typing = tracker.typing.descend schema node := by
  obtain ⟨argument, fieldDefs, inputTypes, parentTypes, types⟩ := tracker
  obtain ⟨hargument, hinput⟩ := h
  cases hargument
  cases hinput
  cases node with
  | inlineFragment part =>
    obtain ⟨condition, set, location⟩ := part
    cases condition with
    | none => rfl
    | some condition =>
      simp only [enter, within, definedType, typing, Typing.descend]
      cases schema.find? condition <;> rfl
  | fragment part =>
    simp only [enter, within, definedType, typing, Typing.descend]
    cases schema.find? part.typeCondition <;> rfl
  | field f =>
    simp only [enter, typing, Typing.descend, bind_fieldOf]
    rfl
  | _ => rfl

/-- Leaving a node takes back what entering it did. -/
theorem leave_enter {schema : Schema} {tracker : Tracker} (h : tracker.IsClosed) (node : Node) :
    (tracker.enter schema node).leave node = tracker := by
  obtain ⟨argument, fieldDefs, inputTypes, parentTypes, types⟩ := tracker
  obtain ⟨hargument, hinput⟩ := h
  cases hargument
  cases node with
  | inlineFragment part =>
    obtain ⟨condition, set, location⟩ := part
    cases condition <;> rfl
  | _ => rfl

/-- What opens an argument or a variable has nothing beneath it. -/
theorem isClosed_enter {schema : Schema} {tracker : Tracker} (h : tracker.IsClosed) {node child : Node}
    (hchild : child ∈ node.children) : (tracker.enter schema node).IsClosed := by
  cases node with
  | argument a => cases hchild
  | variableDefinition definition => cases hchild
  | inlineFragment part =>
    obtain ⟨condition, set, location⟩ := part
    cases condition <;> exact h
  | _ => exact h

/-! ## §3. The walk. -/

/-- The tracker after some steps. -/
def afterAll (schema : Schema) (tracker : Tracker) (events : List Event) : Tracker :=
  events.foldl (after schema) tracker

variable {schema : Schema}

theorem afterAll_append (tracker : Tracker) (events events' : List Event) :
    tracker.afterAll schema (events ++ events') =
      (tracker.afterAll schema events).afterAll schema events' :=
  List.foldl_append ..

theorem afterAll_flatMap {tracker : Tracker} {nodes : List Node}
    (h : ∀ node ∈ nodes, tracker.afterAll schema node.events = tracker) :
    tracker.afterAll schema (nodes.flatMap (·.events)) = tracker := by
  induction nodes with
  | nil => rfl
  | cons node nodes ih =>
    rw [List.flatMap_cons, afterAll_append, h node (List.mem_cons_self ..)]
    exact ih fun other hother => h other (List.mem_cons_of_mem _ hother)

/-- **The walk over a node leaves the tracker as it was.** -/
theorem afterAll_events {tracker : Tracker} (h : tracker.IsClosed) (node : Node) :
    tracker.afterAll schema node.events = tracker := by
  induction node using Node.childInduction generalizing tracker with
  | step node ih =>
    -- each child finds the tracker as it was on entering the node, and leaves it so
    rw [Node.events_eq]
    show (tracker.enter schema node).afterAll schema
      (node.children.flatMap (·.events) ++ [.leave node]) = tracker
    rw [afterAll_append, afterAll_flatMap fun child hchild => ih child hchild (isClosed_enter h hchild)]
    exact leave_enter h node

end Tracker

section Walk

variable {schema : Schema} {document : Document}

theorem walkSteps_append (tracker : Tracker) (events events' : List Event) :
    walkSteps schema document tracker (events ++ events') =
      walkSteps schema document tracker events ++
        walkSteps schema document (tracker.afterAll schema events) events' := by
  induction events generalizing tracker with
  | nil => rfl
  | cons event events ih =>
    show _ :: walkSteps schema document (tracker.after schema event) (events ++ events') = _
    rw [ih]
    rfl

/-- A step of the walk, and what is known of types there. -/
def WalkStep.typed (step : WalkStep) : Event × Typing := (step.event, step.tracker.typing)

theorem typed_flatMap {tracker : Tracker} (h : tracker.IsClosed) {nodes : List Node}
    (hnodes : ∀ node ∈ nodes, (walkSteps schema document tracker node.events).map (·.typed) =
      node.typedWalk schema tracker.typing) :
    (walkSteps schema document tracker (nodes.flatMap (·.events))).map (·.typed) =
      nodes.flatMap (Node.typedWalk schema tracker.typing) := by
  induction nodes with
  | nil => rfl
  | cons node nodes ih =>
    rw [List.flatMap_cons, List.flatMap_cons, walkSteps_append, List.map_append,
      hnodes node (List.mem_cons_self ..), Tracker.afterAll_events h,
      ih fun other hother => hnodes other (List.mem_cons_of_mem _ hother)]

/-- What is known of types along the walk over a node is its typing from the top down. -/
theorem typed_events {tracker : Tracker} (h : tracker.IsClosed) (node : Node) :
    (walkSteps schema document tracker node.events).map (·.typed) =
      node.typedWalk schema tracker.typing := by
  induction node using Node.childInduction generalizing tracker with
  | step node ih =>
    have hopen : (tracker.enter schema node).afterAll schema (node.children.flatMap (·.events)) =
        tracker.enter schema node :=
      Tracker.afterAll_flatMap fun child hchild =>
        Tracker.afterAll_events (Tracker.isClosed_enter h hchild) child
    have hchildren : (walkSteps schema document (tracker.enter schema node)
          (node.children.flatMap (·.events))).map (·.typed) =
        node.children.flatMap (Node.typedWalk schema (tracker.enter schema node).typing) := by
      -- an argument is open once it is entered, but it has no children that would see that
      cases hnone : node.children with
      | nil => rfl
      | cons child children =>
        have hclosed : (tracker.enter schema node).IsClosed :=
          Tracker.isClosed_enter h (by rw [hnone]; exact List.mem_cons_self ..)
        rw [← hnone]
        exact typed_flatMap hclosed fun child hchild => ih child hchild hclosed
    rw [Node.events_eq, Node.typedWalk_eq, ← Tracker.typing_enter h]
    show _ :: (walkSteps schema document (tracker.enter schema node)
      (node.children.flatMap (·.events) ++ [.leave node])).map (·.typed) = _
    rw [walkSteps_append, List.map_append, hchildren, hopen]
    rfl

end Walk

/-- **What rules see of types is the typing of the document from the top down**, at every step of the
walk, on entering a node and on leaving it. -/
theorem walkSteps_typed (schema : Schema) (document : Document) :
    (walkSteps schema document {} document.events).map (·.typed) =
      (Node.document document).typedWalk schema {} :=
  typed_events ⟨rfl, rfl⟩ (.document document)

end GraphQLCheck
