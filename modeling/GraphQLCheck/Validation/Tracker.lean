/-
  GraphQLCheck.Validation.Tracker
  ───────────────────────────────
  The types at a place of a document, kept up to date step by step along a walk.

      Tracker.enter, Tracker.leave — the two steps
      Tracker.seen                 — what holds while a step is looked at: a node is within what it
                                     opens from the moment it is entered until it has been left

  An answer is none where nothing is known, as within a field that its type does not have.
-/
import GraphQLCheck.Schema.Basic
import GraphQLCheck.Validation.Node

namespace GraphQLCheck

/-- What is known at a place.  The innermost entry of each list comes first. -/
structure Tracker where
  argument : Option InputDef := none
  fieldDefs : List (Option FieldDef) := []
  inputTypes : List (Option TypeRef) := []
  parentTypes : List (Option TypeDef) := []
  types : List (Option TypeRef) := []

namespace Tracker

/-! ## §1. What is known. -/

/-- The type of the innermost operation, fragment or field. -/
def currentType (tracker : Tracker) : Option TypeRef := tracker.types.head?.join

/-- The definition of the innermost field. -/
def fieldDef (tracker : Tracker) : Option FieldDef := tracker.fieldDefs.head?.join

/-- The type of the argument or the variable. -/
def inputType (tracker : Tracker) : Option TypeRef := tracker.inputTypes.head?.join

/-- The type that the innermost selection set selects on. -/
def parentType (tracker : Tracker) : Option TypeDef := tracker.parentTypes.head?.join

/-! ## §2. Steps. -/

/-- A reference to a named type, if it is defined. -/
def definedType (schema : Schema) (name : String) : Option TypeRef :=
  (schema.find? name).map fun _ => .named name

/-- The definition of a field of a type; every type has the field `__typename`. -/
def fieldOf (parent : TypeDef) (name : String) : Option FieldDef :=
  if name = "__typename" then some .typename else parent.field? name

/-- Go on within something of a type. -/
def within (tracker : Tracker) (type : Option TypeRef) : Tracker :=
  { tracker with types := type :: tracker.types }

/-- Enter a node. -/
def enter (schema : Schema) (tracker : Tracker) : Node → Tracker
  | .argument a =>
    let parameter := tracker.fieldDef.bind (·.parameter? a.name)
    { tracker with
      argument := parameter
      inputTypes := parameter.map (·.type) :: tracker.inputTypes }
  | .field f =>
    let definition := tracker.parentType.bind fun parent => fieldOf parent f.name
    { tracker with
      fieldDefs := definition :: tracker.fieldDefs
      types := definition.map (·.type) :: tracker.types }
  | .fragment part => tracker.within (definedType schema part.typeCondition)
  | .inlineFragment part =>
    match part.typeCondition with
    | some name => tracker.within (definedType schema name)
    | none => tracker.within (tracker.currentType.map fun type => .named type.typeName)
  | .operation op => tracker.within ((schema.rootType? op.kind).map fun type => .named type.name)
  | .selectionSet _ =>
    -- nothing can be selected on an enum or a scalar
    let parent := (tracker.currentType.bind schema.namedType?).filter (·.isComposite)
    { tracker with parentTypes := parent :: tracker.parentTypes }
  | .variableDefinition definition =>
    { tracker with inputTypes := some (.ofExpr definition.type) :: tracker.inputTypes }
  | .document _ | .fragmentSpread _ => tracker

/-- Leave a node. -/
def leave (tracker : Tracker) : Node → Tracker
  | .argument _ => { tracker with argument := none, inputTypes := tracker.inputTypes.tail }
  | .field _ => { tracker with fieldDefs := tracker.fieldDefs.tail, types := tracker.types.tail }
  | .fragment _ | .inlineFragment _ | .operation _ => { tracker with types := tracker.types.tail }
  | .selectionSet _ => { tracker with parentTypes := tracker.parentTypes.tail }
  | .variableDefinition _ => { tracker with inputTypes := tracker.inputTypes.tail }
  | .document _ | .fragmentSpread _ => tracker

/-- What is known after a step. -/
def after (schema : Schema) (tracker : Tracker) : Event → Tracker
  | .enter node => tracker.enter schema node
  | .leave node => tracker.leave node

/-- What is known while a step is looked at. -/
def seen (schema : Schema) (tracker : Tracker) : Event → Tracker
  | .enter node => tracker.enter schema node
  | .leave _ => tracker

end Tracker

end GraphQLCheck
