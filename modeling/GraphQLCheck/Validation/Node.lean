/-
  GraphQLCheck.Validation.Node
  ────────────────────────────
  The nodes of a document, and the one depth-first walk over them.

      Node.children — the nodes directly beneath a node, in document order
      Node.events   — the walk from a node: it is entered, its children are walked, it is left
      Node.events_eq — the walk is what its description says

  A fragment spread is a leaf: a fragment is walked where it is defined.
-/
import GraphQLCheck.Document.Basic

namespace GraphQLCheck

/-- A node of a document. -/
inductive Node where
  | argument (argument : Argument)
  | document (document : Document)
  | field (field : Field)
  | fragment (fragment : Fragment)
  | fragmentSpread (spread : FragmentSpread)
  | inlineFragment (part : InlineFragment)
  | operation (operation : Operation)
  | selectionSet (set : SelectionSet)
  | variableDefinition (definition : VariableDefinition)

/-- A step of a walk. -/
inductive Event where
  | enter (node : Node)
  | leave (node : Node)

/-- The node that a selection is. -/
def Selection.node : Selection → Node
  | .field f => .field f
  | .fragmentSpread spread => .fragmentSpread spread
  | .inlineFragment part => .inlineFragment part

/-- The node that a definition is. -/
def Definition.node : Definition → Node
  | .operation op => .operation op
  | .fragment part => .fragment part

namespace Node

/-- The nodes directly beneath a node, in document order. -/
def children : Node → List Node
  | .document d => d.definitions.map (·.node)
  | .field f => f.arguments.map .argument ++ (f.selectionSet.map .selectionSet).toList
  | .fragment part => [.selectionSet part.selectionSet]
  | .inlineFragment part => [.selectionSet part.selectionSet]
  | .operation op => op.variableDefinitions.map .variableDefinition ++ [.selectionSet op.selectionSet]
  | .selectionSet set => set.selections.map (·.node)
  | .argument _ | .fragmentSpread _ | .variableDefinition _ => []

/-- Where a node starts; a document has no location of its own. -/
def location? : Node → Option Location
  | .argument a => some a.location
  | .document _ => none
  | .field f => some f.location
  | .fragment part => some part.location
  | .fragmentSpread spread => some spread.location
  | .inlineFragment part => some part.location
  | .operation op => some op.location
  | .selectionSet set => some set.location
  | .variableDefinition definition => some definition.location

/-- A node is entered and left, with other steps in between. -/
def around (node : Node) (inner : List Event) : List Event := .enter node :: inner ++ [.leave node]

end Node

/-! ## The walk. -/

mutual
/-- The walk over a field. -/
def Field.events : Field → List Event
  | ⟨aliasName, name, arguments, set, location⟩ =>
    Node.around (.field ⟨aliasName, name, arguments, set, location⟩)
      (arguments.flatMap (fun a => Node.around (.argument a) []) ++ SelectionSet.eventsOption set)
/-- The walk over an inline fragment. -/
def InlineFragment.events : InlineFragment → List Event
  | ⟨typeCondition, set, location⟩ =>
    Node.around (.inlineFragment ⟨typeCondition, set, location⟩) set.events
/-- The walk over a selection. -/
def Selection.events : Selection → List Event
  | .field f => f.events
  | .fragmentSpread spread => Node.around (.fragmentSpread spread) []
  | .inlineFragment part => part.events
/-- The walk over a selection set. -/
def SelectionSet.events : SelectionSet → List Event
  | ⟨selections, location⟩ =>
    Node.around (.selectionSet ⟨selections, location⟩) (Selection.eventsList selections)
/-- The walk over a selection set that may be missing. -/
def SelectionSet.eventsOption : Option SelectionSet → List Event
  | none => []
  | some set => set.events
/-- The walk over selections. -/
def Selection.eventsList : List Selection → List Event
  | [] => []
  | selection :: selections => selection.events ++ Selection.eventsList selections
end

/-- The walk over a definition. -/
def Definition.events : Definition → List Event
  | .operation op =>
    Node.around (.operation op)
      (op.variableDefinitions.flatMap (fun v => Node.around (.variableDefinition v) [])
        ++ op.selectionSet.events)
  | .fragment part => Node.around (.fragment part) part.selectionSet.events

/-- The walk over a document. -/
def Document.events (document : Document) : List Event :=
  Node.around (.document document) (document.definitions.flatMap (·.events))

theorem Selection.eventsList_eq (selections : List Selection) :
    Selection.eventsList selections = selections.flatMap (·.events) := by
  induction selections with
  | nil => rfl
  | cons selection selections ih => simp [Selection.eventsList, ih]

namespace Node

/-- The walk from a node. -/
def events : Node → List Event
  | .argument a => around (.argument a) []
  | .document d => d.events
  | .field f => f.events
  | .fragment part => (Definition.fragment part).events
  | .fragmentSpread spread => around (.fragmentSpread spread) []
  | .inlineFragment part => part.events
  | .operation op => (Definition.operation op).events
  | .selectionSet set => set.events
  | .variableDefinition definition => around (.variableDefinition definition) []

@[simp] theorem events_selectionNode (selection : Selection) :
    selection.node.events = selection.events := by
  cases selection <;> rfl

@[simp] theorem events_definitionNode (definition : Definition) :
    definition.node.events = definition.events := by
  cases definition <;> rfl

/-- A node is entered, then its children are walked in order, then it is left. -/
theorem events_eq (node : Node) :
    node.events = around node (node.children.flatMap (·.events)) := by
  cases node with
  | argument a => rfl
  | fragmentSpread spread => rfl
  | variableDefinition definition => rfl
  | document d =>
    show d.events = _
    simp only [Document.events, children, List.flatMap_map, events_definitionNode]
  | field f =>
    obtain ⟨aliasName, name, arguments, set, location⟩ := f
    cases set <;>
      simp [events, Field.events, children, List.flatMap_map, SelectionSet.eventsOption]
  | fragment part => simp [events, Definition.events, children]
  | inlineFragment part =>
    obtain ⟨typeCondition, set, location⟩ := part
    simp [events, InlineFragment.events, children]
  | operation op => simp [events, Definition.events, children, List.flatMap_map]
  | selectionSet set =>
    obtain ⟨selections, location⟩ := set
    show SelectionSet.events ⟨selections, location⟩ = _
    simp only [SelectionSet.events, children, List.flatMap_map, Selection.eventsList_eq,
      events_selectionNode]

/-- The nodes at and beneath a node, each before its children. -/
def preorder (node : Node) : List Node :=
  node.events.filterMap fun
    | .enter node => some node
    | .leave _ => none

end Node

end GraphQLCheck
