/-
  GraphQLCheck.Proofs.Document.RoundTrip
  ──────────────────────────────────────
  Documents that are stored and read back.

  A document is stored as a JSON value, and the value as text.  The value holds all of the document, and the
  text holds all of the value but for doubles that are read as a neighbour.  So nothing is lost on the way:
  neither the order of definitions, arguments and fields, nor what is empty and what is missing, nor a
  location; and what is stored alike is the same.

  Main results:
    * `Node.isSized_stored`         — the integers in stored forms have 64 bits
    * `stored_document_reads_back`  — a document is read back from its stored form, and from its text
-/
import GraphQLCheck.Proofs.Document.Stored
import GraphQLCheck.Proofs.Json.ReadsBack

namespace GraphQLCheck

open Stored

/-! ## §1. Integers in stored forms. -/

theorem Location.isSized_stored {place : Location} (h : place.isStorable = true) :
    place.stored.isSized = true := by
  have ⟨hline, hcolumn⟩ : fitsNat64 place.line = true ∧ fitsNat64 place.column = true :=
    Bool.and_eq_true_iff.1 h
  simp [stored, Json.ofInt, Json.isSized, Json.entriesSized, JsonNumber.isSized, hline, hcolumn]

theorem Stored.isSized_variant {name : String} {content : Json} (h : content.isSized = true) :
    (variant name content).isSized = true := by
  simp [variant, Json.isSized, Json.entriesSized, h]

theorem Stored.isSized_text (name : Option String) : (text name).isSized = true := by
  cases name <;> rfl

theorem Stored.itemsSized_map {write : α → Json} {l : List α} (h : ∀ a ∈ l, (write a).isSized = true) :
    Json.itemsSized (l.map write) = true :=
  Json.isSized_array_iff.2 (List.forall_mem_map.2 h)

theorem TypeExpr.isSized_stored (type : TypeExpr) : type.stored.isSized = true := by
  induction type with
  | named name => rfl
  | list element ih => exact isSized_variant ih
  | nonNull inner ih => exact isSized_variant ih

theorem Literal.isSized_stored {literal : Literal} (h : literal.isStorable = true) :
    literal.stored.isSized = true := by
  induction literal with
  | null => rfl
  | var name => rfl
  | plain literal hplain =>
    unfold isStorable at h
    rw [Bool.and_eq_true] at h
    cases literal with
    | int i =>
      have hfits : fitsInt64 i = true := h.1
      simp [stored, variant, Json.ofInt, Json.isSized, Json.entriesSized, JsonNumber.isSized, hfits]
    | float x =>
      obtain ⟨y, rfl⟩ := Double.eq_finite_of_isSome h.1
      rfl
    | string s => rfl
    | boolean b => rfl
    | enum name => rfl
    | _ => cases hplain
  | list items ih =>
    have hitems : (Json.array (storedItems items)).isSized = true := by
      rw [storedItems_eq_map]
      exact itemsSized_map fun item hitem => ih item hitem (isStorable_item h item hitem)
    exact isSized_variant hitems
  | object fields ih =>
    have hfields : (Json.object (storedFields fields)).isSized = true := by
      rw [storedFields_eq_map, Json.isSized_object_iff, List.forall_mem_map]
      exact fun field hfield => ih field hfield ((isStorable_field h).2 field hfield)
    exact isSized_variant hfields

/-- The stored form of a node. -/
def Node.stored : Node → Json
  | .argument a => a.stored
  | .document d => d.stored
  | .field f => f.stored
  | .fragment part => part.stored
  | .fragmentSpread spread => spread.stored
  | .inlineFragment part => part.stored
  | .operation op => op.stored
  | .selectionSet set => set.stored
  | .variableDefinition d => d.stored

theorem Selection.isSized_stored {selection : Selection} (h : selection.node.stored.isSized = true) :
    selection.stored.isSized = true := by
  cases selection <;> exact isSized_variant h

theorem Definition.isSized_stored {definition : Definition} (h : definition.node.stored.isSized = true) :
    definition.stored.isSized = true := by
  cases definition <;> exact isSized_variant h

namespace Node

theorem isSized_location {node : Node} (h : node.isStorable = true) {place : Location}
    (hplace : node.location? = some place) : place.stored.isSized = true := by
  have hstorable := (Bool.and_eq_true_iff.1 h).1
  rw [hplace] at hstorable
  exact Location.isSized_stored hstorable

theorem isSized_literal {node : Node} (h : node.isStorable = true) {literal : Literal}
    (hliteral : node.literal? = some literal) : literal.stored.isSized = true := by
  have hstorable := (Bool.and_eq_true_iff.1 h).2
  rw [hliteral] at hstorable
  exact Literal.isSized_stored hstorable

/-- The integers in the stored form of a node have 64 bits. -/
theorem isSized_stored {node : Node} (h : node.isWhollyStorable = true) : node.stored.isSized = true := by
  induction node using childInduction with
  | step node ih =>
    obtain ⟨hnode, hchildren⟩ := isWhollyStorable_iff.1 h
    have hsized : ∀ child ∈ node.children, child.stored.isSized = true :=
      fun child hchild => ih child hchild (hchildren child hchild)
    have hlocation {place : Location} (hplace : node.location? = some place) : place.stored.isSized = true :=
      isSized_location hnode hplace
    have hliteral {literal : Literal} (hliteral : node.literal? = some literal) : literal.stored.isSized = true :=
      isSized_literal hnode hliteral
    -- a record is an object of its parts, so each part has to be looked at
    cases node with
    | argument a =>
      simp [stored, Argument.stored, Json.isSized, Json.entriesSized, hliteral rfl, hlocation rfl]
    | fragmentSpread spread =>
      simp [stored, FragmentSpread.stored, Json.isSized, Json.entriesSized, hlocation rfl]
    | variableDefinition d =>
      have hdefault : (d.defaultValue.elim .null (·.stored) : Json).isSized = true := by
        cases hsome : d.defaultValue with
        | none => rfl
        | some literal => exact hliteral hsome
      simp [stored, VariableDefinition.stored, Json.isSized, Json.entriesSized, TypeExpr.isSized_stored, hdefault,
        hlocation rfl]
    | field f =>
      obtain ⟨aliasName, name, arguments, set, location⟩ := f
      have harguments : Json.itemsSized (arguments.map (·.stored)) = true :=
        itemsSized_map fun argument hargument =>
          hsized (.argument argument) (List.mem_append_left _ (List.mem_map_of_mem hargument))
      have hset : (SelectionSet.storedOption set).isSized = true := by
        cases set with
        | none => rfl
        | some set => exact hsized _ (List.mem_append_right _ (List.mem_singleton.2 rfl))
      simp [stored, Field.stored, Json.isSized, Json.entriesSized, isSized_text, harguments, hset, hlocation rfl]
    | inlineFragment part =>
      obtain ⟨typeCondition, set, location⟩ := part
      have hset : set.stored.isSized = true := hsized _ (List.mem_singleton.2 rfl)
      simp [stored, InlineFragment.stored, Json.isSized, Json.entriesSized, isSized_text, hset, hlocation rfl]
    | selectionSet set =>
      obtain ⟨selections, location⟩ := set
      have hselections : Json.itemsSized (Selection.storedList selections) = true := by
        rw [Selection.storedList_eq_map]
        exact itemsSized_map fun selection hselection =>
          Selection.isSized_stored (hsized _ (List.mem_map_of_mem hselection))
      simp [stored, SelectionSet.stored, Json.isSized, Json.entriesSized, hselections, hlocation rfl]
    | fragment part =>
      have hset : part.selectionSet.stored.isSized = true := hsized _ (List.mem_singleton.2 rfl)
      simp [stored, Fragment.stored, Json.isSized, Json.entriesSized, hset, hlocation rfl]
    | operation op =>
      have hkind : op.kind.stored.isSized = true := by cases op.kind <;> rfl
      have hvariables : Json.itemsSized (op.variableDefinitions.map (·.stored)) = true :=
        itemsSized_map fun definition hdefinition =>
          hsized (.variableDefinition definition) (List.mem_append_left _ (List.mem_map_of_mem hdefinition))
      have hset : op.selectionSet.stored.isSized = true :=
        hsized _ (List.mem_append_right _ (List.mem_singleton.2 rfl))
      simp [stored, Operation.stored, Json.isSized, Json.entriesSized, isSized_text, hkind, hvariables, hset,
        hlocation rfl]
    | document d =>
      have hdefinitions : Json.itemsSized (d.definitions.map (·.stored)) = true :=
        itemsSized_map fun definition hdefinition =>
          Definition.isSized_stored (hsized _ (List.mem_map_of_mem hdefinition))
      simp [stored, Document.stored, Json.isSized, Json.entriesSized, hdefinitions]

end Node

/-! ## §2. The round trip. -/

namespace Document

/-- Whether the stored form of a document holds all of it: integers and locations have 64 bits, doubles are
finite, and objects give each field once. -/
def isStorable (document : Document) : Bool := (Node.document document).isWhollyStorable

/-- Whether the doubles in a document are read back from their texts. -/
def DoublesReadBack (document : Document) : Prop :=
  ∀ x ∈ document.stored.doubles, (JsonNumber.float x).ReadsBack

/-- A document is read back from the text of its stored form. -/
theorem ofStored?_readWritten? {document : Document} (h : document.isStorable = true)
    (hnesting : document.stored.nesting ≤ Json.nestingLimit) (hdoubles : document.DoublesReadBack) :
    (Json.readWritten? document.stored.render).bind ofStored? = some document := by
  have hnumbers : document.stored.NumbersReadBack :=
    ⟨Node.isSized_stored h, hdoubles⟩
  rw [Json.readWritten?_render hnumbers hnesting]
  exact ofStored?_stored hnesting h

end Document

/-- **A document is read back from its stored form.**  Take documents of which the stored form holds
everything and is nested within the limit of JSON text.  The stored form of such a document is read as the
document, and so is the text of the stored form if its doubles are read back from their texts.  So no two
such documents have the same stored form, nor the same text. -/
theorem stored_document_reads_back {document : Document} (h : document.isStorable = true)
    (hnesting : document.stored.nesting ≤ Json.nestingLimit) :
    Document.ofStored? (.ofJson document.stored) = some document ∧
    (document.DoublesReadBack →
      (Json.readWritten? document.stored.render).bind Document.ofStored? = some document) ∧
    ∀ other : Document, other.isStorable = true → other.stored.nesting ≤ Json.nestingLimit →
      (other.stored = document.stored → other = document) ∧
      (other.DoublesReadBack → document.DoublesReadBack →
        other.stored.render = document.stored.render → other = document) := by
  refine ⟨Document.ofStored?_stored hnesting h, Document.ofStored?_readWritten? h hnesting,
    fun other hother hotherNesting => ⟨fun hsame => ?_, fun hotherDoubles hdoubles hsame => ?_⟩⟩
  · have hread := Document.ofStored?_stored hotherNesting hother
    rw [hsame, Document.ofStored?_stored hnesting h] at hread
    exact (Option.some.inj hread).symm
  · have hread := Document.ofStored?_readWritten? hother hotherNesting hotherDoubles
    rw [hsame, Document.ofStored?_readWritten? h hnesting hdoubles] at hread
    exact (Option.some.inj hread).symm

namespace Stock

/-- The double 0.75. -/
def share : FiniteDouble := ⟨false, 6755399441055744, 1021, by decide, by decide, .inr (by decide)⟩

/-- A query and a fragment, with a default of the variable `after` and a selection set of the field `hits` that
may be missing. -/
def listing (after : Option Literal) (hits : Option SelectionSet) : Document where
  definitions :=
    [.operation
      { kind := .query, name := some "Stock", location := ⟨1, 1⟩
        variableDefinitions :=
          [⟨"first", .named "Int", none, ⟨1, 13⟩⟩, ⟨"after", .list (.nonNull (.named "ID")), after, ⟨1, 26⟩⟩,
            ⟨"share", .nonNull (.named "Float"), some (.float (.finite share)), ⟨1, 48⟩⟩]
        selectionSet := ⟨
          [.field ⟨some "hits", "search",
              [⟨"filter", .object [("term", .string "a\"b\n"), ("limit", .variable "first"),
                  ("codes", .list [.int (-2), .int 7, .null]), ("mode", .enum "FAST")], ⟨2, 3⟩⟩,
                ⟨"deep", .boolean true, ⟨2, 3⟩⟩], hits, ⟨2, 3⟩⟩,
            .inlineFragment ⟨some "Query", ⟨[.fragmentSpread ⟨"Rest", ⟨4, 18⟩⟩], ⟨4, 16⟩⟩, ⟨4, 3⟩⟩,
            .inlineFragment ⟨none, ⟨[], ⟨5, 7⟩⟩, ⟨5, 3⟩⟩], ⟨1, 70⟩⟩ },
      .fragment ⟨"Rest", "Query", ⟨[.field ⟨none, "__typename", [], none, ⟨7, 26⟩⟩], ⟨7, 24⟩⟩, ⟨7, 1⟩⟩]

/-- The default is `null`, and nothing is selected on the field. -/
def blank : Document := listing (some .null) (some ⟨[], ⟨2, 80⟩⟩)

/-- There is no default, and no selection set. -/
def bare : Document := listing none none

theorem doublesReadBack_of_doubles_eq {document : Document} (h : document.stored.doubles = [share]) :
    document.DoublesReadBack := by
  intro x hx
  rw [h, List.mem_singleton] at hx
  subst hx
  unfold JsonNumber.ReadsBack
  decide +kernel

/-- What is empty is read back as empty, and told from what is missing. -/
theorem blank_reads_back :
    blank.isStorable = true ∧ blank.stored.nesting ≤ Json.nestingLimit ∧ blank.DoublesReadBack ∧
    Document.ofStored? (.ofJson blank.stored) = some blank ∧
    (Json.readWritten? blank.stored.render).bind Document.ofStored? = some blank ∧
    bare.stored ≠ blank.stored ∧ bare.stored.render ≠ blank.stored.render := by
  have hstorable : blank.isStorable = true := rfl
  have hnesting : blank.stored.nesting ≤ Json.nestingLimit := by decide
  have hdoubles : blank.DoublesReadBack := doublesReadBack_of_doubles_eq rfl
  have ⟨hread, htext, hother⟩ := stored_document_reads_back hstorable hnesting
  have ⟨hstored, hrendered⟩ := hother bare rfl (by decide)
  have hne : bare ≠ blank := nofun
  exact ⟨hstorable, hnesting, hdoubles, hread, htext hdoubles, fun h => hne (hstored h),
    fun h => hne (hrendered (doublesReadBack_of_doubles_eq rfl) hdoubles h)⟩

end Stock

end GraphQLCheck
