/-
  GraphQLCheck.Proofs.Document.Stored
  ───────────────────────────────────
  Stored forms hold what was stored.

  A part of a record is found under its name, and the alternative of a choice is told by its name, so each
  reader takes apart what the writer put together.  A part that is missing is stored as `null`, and the
  literal `null` as a text, so these stay apart.

  Main results:
    * `Node.isStorable`            — what a node holds itself has a stored form
    * `SelectionSet.ofStored?_stored` — a selection set is read back, within the nesting limit
    * `Document.ofStored?_stored`  — a document is read back
-/
import GraphQLCheck.Document.Stored
import GraphQLCheck.Proofs.Document.Nodes
import GraphQLCheck.Proofs.Json.Written
import GraphQLCheck.Proofs.Value.Entries
import GraphQLCheck.Proofs.Value.Finite
import GraphQLCheck.Proofs.Value.Nesting

namespace GraphQLCheck

/-! ## §1. Records and arrays. -/

/-- Of entries with distinct keys, one has the key of an entry. -/
theorem filter_key_eq_singleton {entries : List (String × α)} (hdistinct : (entries.map Prod.fst).Nodup)
    {entry : String × α} (hmem : entry ∈ entries) : entries.filter (·.1 == entry.1) = [entry] := by
  induction entries with
  | nil => cases hmem
  | cons first rest ih =>
    rw [List.map_cons, List.nodup_cons] at hdistinct
    rcases List.mem_cons.1 hmem with rfl | hmem
    · have hrest : rest.filter (·.1 == entry.1) = [] := by
        rw [List.filter_eq_nil_iff]
        intro other hother hkey
        exact hdistinct.1 (beq_iff_eq.1 hkey ▸ List.mem_map_of_mem hother)
      rw [List.filter_cons, if_pos (beq_self_eq_true entry.1), hrest]
    · have hne : first.1 ≠ entry.1 := fun hkey => hdistinct.1 (hkey ▸ List.mem_map_of_mem hmem)
      rw [List.filter_cons, if_neg fun hkey => hne (beq_iff_eq.1 hkey), ih hdistinct.2 hmem]

namespace Stored

/-- Each part of a record is found under its name. -/
theorem parts?_ofJson {names : List String} {entries : List (String × Json)}
    (hnames : entries.map Prod.fst = names) (h : names.Nodup) :
    parts? names (.ofJson (.object entries)) = some (entries.map fun entry => some (.ofJson entry.2)) := by
  subst hnames
  have hwritten : ((entries.map fun entry => (entry.1, WrittenJson.ofJson entry.2)).map Prod.fst).Nodup := by
    rw [List.map_map]
    exact h
  show (entries.map Prod.fst).mapM (part? (WrittenJson.ofFields entries)) = _
  rw [WrittenJson.ofFields_eq_map, List.mapM_map]
  apply mapM_eq_some_of_forall
  intro entry hentry
  show part? (entries.map fun entry => (entry.1, WrittenJson.ofJson entry.2)) entry.1 = _
  unfold part?
  rw [filter_key_eq_singleton hwritten (List.mem_map_of_mem hentry)]

/-- An array is read if its items are. -/
theorem list?_ofJson {read : WrittenJson → Option α} {write : α → Json} {l : List α}
    (h : ∀ a ∈ l, read (.ofJson (write a)) = some a) :
    list? read (.ofJson (.array (l.map write))) = some l := by
  show (WrittenJson.ofItems (l.map write)).mapM read = _
  rw [WrittenJson.ofItems_eq_map, List.map_map, List.mapM_map]
  show l.mapM (fun a => read (.ofJson (write a))) = _
  rw [mapM_eq_some_of_forall h, List.map_id']

/-- A part that may be missing is read, as long as it is not stored as `null`. -/
theorem nullable_ofJson {read : WrittenJson → Option α} {write : α → Json} {part : Option α}
    (hnull : ∀ a, part = some a → write a ≠ .null)
    (h : ∀ a, part = some a → read (.ofJson (write a)) = some a) :
    nullable read (some (.ofJson (part.elim .null write))) = some part := by
  cases part with
  | none => rfl
  | some a =>
    have hread := h a rfl
    have hwritten : nullable read (some (.ofJson (write a))) = (read (.ofJson (write a))).map some := by
      cases hwrite : write a with
      | null => exact absurd hwrite (hnull a rfl)
      | _ => rfl
    show nullable read (some (.ofJson (write a))) = _
    rw [hwritten, hread]
    rfl

theorem nullable_text (name : Option String) :
    nullable text? (some (.ofJson (text name))) = some name := by
  cases name <;> rfl

theorem nat?_ofInt {n : Nat} (h : fitsNat64 n = true) : nat? (.ofJson (.ofInt n)) = some n := by
  show (if 0 ≤ (n : Int) ∧ fitsNat64 (n : Int).toNat then some (n : Int).toNat else none) = _
  rw [Int.toNat_natCast, if_pos ⟨Int.natCast_nonneg n, h⟩]

theorem int?_ofInt {i : Int} (h : fitsInt64 i = true) : int? (.ofJson (.ofInt i)) = some i := by
  show int64? i = _
  unfold int64?
  rw [if_pos h]

end Stored

open Stored

/-! ## §2. Locations, types, literals. -/

/-- Whether a location has 64 bits for each of its parts. -/
def Location.isStorable (place : Location) : Bool := fitsNat64 place.line && fitsNat64 place.column

theorem Location.ofStored?_stored {place : Location} (h : place.isStorable = true) :
    ofStored? (.ofJson place.stored) = some place := by
  unfold isStorable at h
  rw [Bool.and_eq_true] at h
  have hparts : parts? ["line", "column"] (.ofJson place.stored) =
      some [some (.ofJson (.ofInt place.line)), some (.ofJson (.ofInt place.column))] :=
    parts?_ofJson rfl (by decide)
  unfold ofStored?
  rw [hparts]
  simp [required, nat?_ofInt h.1, nat?_ofInt h.2]

theorem TypeExpr.ofStored?_stored (type : TypeExpr) : ofStored? (.ofJson type.stored) = some type := by
  induction type with
  | named name => rfl
  | list element ih =>
    show (ofStored? (.ofJson element.stored)).map _ = _
    rw [ih]
    rfl
  | nonNull inner ih =>
    show (ofStored? (.ofJson inner.stored)).map _ = _
    rw [ih]
    rfl

namespace Literal

/-! ### Literals. -/

mutual
/-- Whether every object in the literal gives each of its fields once. -/
def isDistinct : Literal → Bool
  | .list items => itemsDistinct items
  | .object fields => decide (fields.map Prod.fst).Nodup && fieldsDistinct fields
  | .null | .int _ | .float _ | .string _ | .boolean _ | .enum _ | .variable _ => true
/-- Whether every object in the items of a list gives each of its fields once. -/
def itemsDistinct : List Literal → Bool
  | [] => true
  | item :: items => item.isDistinct && itemsDistinct items
/-- Whether every object in the fields of an object gives each of its fields once. -/
def fieldsDistinct : List (String × Literal) → Bool
  | [] => true
  | (_, value) :: fields => value.isDistinct && fieldsDistinct fields
end

/-- Whether the stored form of a literal holds all of it: its integers have 64 bits, its doubles are finite,
and its objects give each field once. -/
def isStorable (literal : Literal) : Bool := literal.isFinite && literal.isDistinct

theorem isDistinct_list_iff {items : List Literal} :
    (Literal.list items).isDistinct = true ↔ ∀ item ∈ items, item.isDistinct = true := by
  show itemsDistinct items = true ↔ _
  induction items with
  | nil => simp [itemsDistinct]
  | cons item items ih => simp [itemsDistinct, ih]

theorem isDistinct_object_iff {fields : List (String × Literal)} :
    (Literal.object fields).isDistinct = true ↔
      (fields.map Prod.fst).Nodup ∧ ∀ field ∈ fields, field.2.isDistinct = true := by
  have hfields : fieldsDistinct fields = true ↔ ∀ field ∈ fields, field.2.isDistinct = true := by
    induction fields with
    | nil => simp [fieldsDistinct]
    | cons field fields ih => simp [fieldsDistinct, ih]
  show (decide (fields.map Prod.fst).Nodup && fieldsDistinct fields) = true ↔ _
  rw [Bool.and_eq_true, decide_eq_true_eq, hfields]

theorem isStorable_item {items : List Literal} (h : (Literal.list items).isStorable = true) :
    ∀ item ∈ items, item.isStorable = true := by
  unfold isStorable at h ⊢
  rw [Bool.and_eq_true, isFinite_list_iff, isDistinct_list_iff] at h
  intro item hitem
  rw [h.1 item hitem, h.2 item hitem]
  rfl

theorem isStorable_field {fields : List (String × Literal)} (h : (Literal.object fields).isStorable = true) :
    (fields.map Prod.fst).Nodup ∧ ∀ field ∈ fields, field.2.isStorable = true := by
  unfold isStorable at h ⊢
  rw [Bool.and_eq_true, isFinite_object_iff, isDistinct_object_iff] at h
  refine ⟨h.2.1, fun field hfield => ?_⟩
  rw [h.1 field hfield, h.2.2 field hfield]
  rfl

theorem storedItems_eq_map (items : List Literal) : storedItems items = items.map stored := by
  induction items with
  | nil => rfl
  | cons item items ih => rw [storedItems, ih, List.map_cons]

theorem storedFields_eq_map (fields : List (String × Literal)) :
    storedFields fields = fields.map fun field => (field.1, field.2.stored) := by
  induction fields with
  | nil => rfl
  | cons field fields ih =>
    obtain ⟨name, value⟩ := field
    rw [storedFields, ih, List.map_cons]

theorem itemsOfStored?_eq_mapM (items : List WrittenJson) : itemsOfStored? items = items.mapM ofStored? := by
  induction items with
  | nil => rfl
  | cons item items ih =>
    rw [itemsOfStored?, ih, List.mapM_cons]
    rfl

theorem fieldsOfStored?_eq_mapM (fields : List (String × WrittenJson)) :
    fieldsOfStored? fields = fields.mapM fun field => (ofStored? field.2).map (field.1, ·) := by
  induction fields with
  | nil => rfl
  | cons field fields ih =>
    obtain ⟨name, value⟩ := field
    rw [fieldsOfStored?, ih, List.mapM_cons]
    cases ofStored? value <;> rfl

/-- A literal is read back. -/
theorem ofStored?_stored {literal : Literal} (h : literal.isStorable = true) :
    ofStored? (.ofJson literal.stored) = some literal := by
  induction literal with
  | null => rfl
  | var name => rfl
  | plain literal hplain =>
    unfold isStorable at h
    rw [Bool.and_eq_true] at h
    cases literal with
    | int i =>
      show (int? (.ofJson (.ofInt i))).map Literal.int = _
      rw [int?_ofInt h.1]
      rfl
    | float x =>
      obtain ⟨y, rfl⟩ := Double.eq_finite_of_isSome h.1
      rfl
    | string s => rfl
    | boolean b => rfl
    | enum name => rfl
    | _ => cases hplain
  | list items ih =>
    have hitems : ∀ item ∈ items, ofStored? (.ofJson item.stored) = some item :=
      fun item hitem => ih item hitem (isStorable_item h item hitem)
    show (itemsOfStored? (WrittenJson.ofItems (storedItems items))).map _ = _
    rw [itemsOfStored?_eq_mapM, WrittenJson.ofItems_eq_map, storedItems_eq_map, List.map_map, List.mapM_map]
    show (items.mapM fun item => ofStored? (.ofJson item.stored)).map _ = _
    rw [mapM_eq_some_of_forall hitems, List.map_id']
    rfl
  | object fields ih =>
    obtain ⟨hdistinct, hstorable⟩ := isStorable_field h
    have hfields : ∀ field ∈ fields,
        (ofStored? (.ofJson field.2.stored)).map (field.1, ·) = some field := by
      intro field hfield
      rw [ih field hfield (hstorable field hfield)]
      rfl
    show (fieldsOfStored? (WrittenJson.ofFields (storedFields fields))).map _ = _
    rw [fieldsOfStored?_eq_mapM, WrittenJson.ofFields_eq_map, storedFields_eq_map, List.map_map, List.mapM_map]
    show (fields.mapM fun field => (ofStored? (.ofJson field.2.stored)).map (field.1, ·)).map _ = _
    rw [mapM_eq_some_of_forall hfields, List.map_id']
    show some (Literal.object (Entries.ofWritten fields)) = _
    rw [Entries.ofWritten_of_nodup hdistinct]

end Literal

/-! ## §3. Nodes. -/

namespace Node

/-- The literal that a node gives. -/
def literal? : Node → Option Literal
  | .argument a => some a.value
  | .variableDefinition d => d.defaultValue
  | .document _ | .field _ | .fragment _ | .fragmentSpread _ | .inlineFragment _ | .operation _
  | .selectionSet _ => none

/-- Whether the stored form of a node holds all of it but for the nodes beneath. -/
def isStorable (node : Node) : Bool := node.location?.all (·.isStorable) && node.literal?.all (·.isStorable)

/-- Whether the stored form of a node holds all of it. -/
def isWhollyStorable (node : Node) : Bool := node.preorder.all (·.isStorable)

theorem isWhollyStorable_iff {node : Node} :
    node.isWhollyStorable = true ↔
      node.isStorable = true ∧ ∀ child ∈ node.children, child.isWhollyStorable = true := by
  unfold isWhollyStorable
  rw [preorder_eq, List.all_cons, Bool.and_eq_true, List.all_flatMap, List.all_eq_true]

end Node

/-! ## §4. Selections. -/

/-- An argument is read back. -/
theorem Argument.ofStored?_stored {argument : Argument} (h : (Node.argument argument).isStorable = true) :
    ofStored? (.ofJson argument.stored) = some argument := by
  have ⟨hlocation, hvalue⟩ : argument.location.isStorable = true ∧ argument.value.isStorable = true :=
    Bool.and_eq_true_iff.1 h
  have hparts : parts? ["name", "value", "location"] (.ofJson argument.stored) =
      some [some (.ofJson (.string argument.name)), some (.ofJson argument.value.stored),
        some (.ofJson argument.location.stored)] :=
    parts?_ofJson rfl (by decide)
  have hname : text? (.ofJson (.string argument.name)) = some argument.name := rfl
  unfold ofStored?
  rw [hparts]
  simp [required, hname, Literal.ofStored?_stored hvalue, Location.ofStored?_stored hlocation]

/-- A spread is read back. -/
theorem FragmentSpread.ofStored?_stored {spread : FragmentSpread}
    (h : (Node.fragmentSpread spread).isStorable = true) :
    ofStored? (.ofJson spread.stored) = some spread := by
  have hlocation : spread.location.isStorable = true := (Bool.and_eq_true_iff.1 h).1
  have hparts : parts? ["fragment_name", "location"] (.ofJson spread.stored) =
      some [some (.ofJson (.string spread.fragmentName)), some (.ofJson spread.location.stored)] :=
    parts?_ofJson rfl (by decide)
  have hname : text? (.ofJson (.string spread.fragmentName)) = some spread.fragmentName := rfl
  unfold ofStored?
  rw [hparts]
  simp [required, hname, Location.ofStored?_stored hlocation]

theorem SelectionSet.storedOption_eq_elim (set : Option SelectionSet) :
    storedOption set = set.elim .null (·.stored) := by
  cases set <;> rfl

theorem SelectionSet.stored_ne_null (set : SelectionSet) : set.stored ≠ .null := by
  cases set
  exact nofun

theorem Selection.storedList_eq_map (selections : List Selection) :
    storedList selections = selections.map (·.stored) := by
  induction selections with
  | nil => rfl
  | cons selection selections ih => rw [storedList, ih, List.map_cons]

section Selections

variable {read : WrittenJson → Option SelectionSet}

/-- A field is read back if its selection set is. -/
theorem Field.ofStored?_stored {field : Field} (h : (Node.field field).isWhollyStorable = true)
    (hset : ∀ set, field.selectionSet = some set → read (.ofJson set.stored) = some set) :
    ofStored? read (.ofJson field.stored) = some field := by
  obtain ⟨hfield, hchildren⟩ := Node.isWhollyStorable_iff.1 h
  obtain ⟨aliasName, name, arguments, set, location⟩ := field
  have hlocation : location.isStorable = true := (Bool.and_eq_true_iff.1 hfield).1
  have hparts : parts? ["alias", "name", "arguments", "selection_set", "location"]
        (.ofJson (Field.stored ⟨aliasName, name, arguments, set, location⟩)) =
      some [some (.ofJson (text aliasName)), some (.ofJson (.string name)),
        some (.ofJson (.array (arguments.map (·.stored)))), some (.ofJson (SelectionSet.storedOption set)),
        some (.ofJson location.stored)] :=
    parts?_ofJson rfl (by decide)
  have hname : text? (.ofJson (.string name)) = some name := rfl
  have harguments : list? Argument.ofStored? (.ofJson (.array (arguments.map (·.stored)))) = some arguments := by
    apply list?_ofJson
    intro argument hargument
    have hchild : (Node.argument argument).isWhollyStorable = true :=
      hchildren _ (List.mem_append_left _ (List.mem_map_of_mem hargument))
    exact Argument.ofStored?_stored (Node.isWhollyStorable_iff.1 hchild).1
  have hread : nullable read (some (.ofJson (SelectionSet.storedOption set))) = some set := by
    rw [SelectionSet.storedOption_eq_elim]
    exact nullable_ofJson (fun set _ => set.stored_ne_null) hset
  unfold ofStored?
  rw [hparts]
  simp [required, nullable_text, hname, harguments, hread, Location.ofStored?_stored hlocation]

/-- An inline fragment is read back if its selection set is. -/
theorem InlineFragment.ofStored?_stored {part : InlineFragment}
    (h : (Node.inlineFragment part).isStorable = true)
    (hset : read (.ofJson part.selectionSet.stored) = some part.selectionSet) :
    ofStored? read (.ofJson part.stored) = some part := by
  obtain ⟨typeCondition, set, location⟩ := part
  have hlocation : location.isStorable = true := (Bool.and_eq_true_iff.1 h).1
  have hparts : parts? ["type_condition", "selection_set", "location"]
        (.ofJson (InlineFragment.stored ⟨typeCondition, set, location⟩)) =
      some [some (.ofJson (text typeCondition)), some (.ofJson set.stored), some (.ofJson location.stored)] :=
    parts?_ofJson rfl (by decide)
  have hread : read (.ofJson set.stored) = some set := hset
  unfold ofStored?
  rw [hparts]
  simp [required, nullable_text, hread, Location.ofStored?_stored hlocation]

/-- A selection is read back if the selection set in it is. -/
theorem Selection.ofStored?_stored {selection : Selection} (h : selection.node.isWhollyStorable = true)
    (hset : ∀ set, .selectionSet set ∈ selection.node.children → read (.ofJson set.stored) = some set) :
    ofStored? read (.ofJson selection.stored) = some selection := by
  cases selection with
  | field field =>
    show (Field.ofStored? read (.ofJson field.stored)).map _ = _
    rw [Field.ofStored?_stored h fun set hfield => hset set ?_]
    · rfl
    · refine List.mem_append_right _ ?_
      rw [hfield]
      exact List.mem_singleton.2 rfl
  | fragmentSpread spread =>
    show (FragmentSpread.ofStored? (.ofJson spread.stored)).map _ = _
    rw [FragmentSpread.ofStored?_stored (Node.isWhollyStorable_iff.1 h).1]
    rfl
  | inlineFragment part =>
    show (InlineFragment.ofStored? read (.ofJson part.stored)).map _ = _
    rw [InlineFragment.ofStored?_stored (Node.isWhollyStorable_iff.1 h).1
      (hset part.selectionSet (List.mem_singleton.2 rfl))]
    rfl

end Selections

/-- The stored form of a selection set in a selection is nested less deeply than that of the selection. -/
theorem Selection.nesting_set_lt {selection : Selection} {set : SelectionSet}
    (h : .selectionSet set ∈ selection.node.children) : set.stored.nesting < selection.stored.nesting := by
  cases selection with
  | field field =>
    obtain ⟨aliasName, name, arguments, inner, location⟩ := field
    have hinner : inner = some set := by
      rcases List.mem_append.1 h with h | h
      · obtain ⟨_, _, heq⟩ := List.mem_map.1 h
        cases heq
      · cases inner with
        | none => cases h
        | some inner =>
          cases List.mem_singleton.1 h
          rfl
    subst hinner
    simp only [stored, Field.stored, SelectionSet.storedOption, variant, Json.nesting, Json.entriesNesting]
    omega
  | fragmentSpread spread => cases h
  | inlineFragment part =>
    obtain ⟨typeCondition, inner, location⟩ := part
    cases List.mem_singleton.1 h
    simp only [stored, InlineFragment.stored, variant, Json.nesting, Json.entriesNesting]
    omega

/-- The stored form of a selection is nested less deeply than that of its selection set. -/
theorem SelectionSet.nesting_selection_lt {set : SelectionSet} {selection : Selection}
    (h : selection ∈ set.selections) : selection.stored.nesting < set.stored.nesting := by
  obtain ⟨selections, location⟩ := set
  have hitem : selection.stored.nesting < (Json.array (Selection.storedList selections)).nesting := by
    rw [Selection.storedList_eq_map]
    exact Json.nesting_item_lt (List.mem_map_of_mem h)
  have harray : (Json.array (Selection.storedList selections)).nesting <
      (SelectionSet.stored ⟨selections, location⟩).nesting :=
    Json.nesting_entry_lt (List.mem_cons_self ..)
  omega

/-- **A selection set is read back**, with as many levels as its stored form is nested. -/
theorem SelectionSet.ofStored?_stored {levels : Nat} {set : SelectionSet}
    (hnesting : set.stored.nesting ≤ levels) (h : (Node.selectionSet set).isWhollyStorable = true) :
    ofStored? levels (.ofJson set.stored) = some set := by
  -- the selections of a set are read with one level less for the sets in them
  induction levels generalizing set with
  | zero =>
    cases set
    exact absurd hnesting (Nat.not_succ_le_zero _)
  | succ levels ih =>
    obtain ⟨hset, hchildren⟩ := Node.isWhollyStorable_iff.1 h
    obtain ⟨selections, location⟩ := set
    have hlocation : location.isStorable = true := (Bool.and_eq_true_iff.1 hset).1
    have hparts : parts? ["selections", "location"] (.ofJson (SelectionSet.stored ⟨selections, location⟩)) =
        some [some (.ofJson (.array (Selection.storedList selections))), some (.ofJson location.stored)] :=
      parts?_ofJson rfl (by decide)
    have hselections : list? (Selection.ofStored? (ofStored? levels))
        (.ofJson (.array (Selection.storedList selections))) = some selections := by
      rw [Selection.storedList_eq_map]
      apply list?_ofJson
      intro selection hselection
      have hchild := hchildren _ (List.mem_map_of_mem hselection)
      refine Selection.ofStored?_stored hchild fun inner hinner => ih ?_ ?_
      · have hselection : selection.stored.nesting < (SelectionSet.stored ⟨selections, location⟩).nesting :=
          nesting_selection_lt hselection
        have hinner := Selection.nesting_set_lt hinner
        omega
      · exact (Node.isWhollyStorable_iff.1 hchild).2 _ hinner
    unfold ofStored?
    rw [hparts]
    simp [required, hselections, Location.ofStored?_stored hlocation]

/-! ## §5. Definitions. -/

/-- The name of an operation kind is read back. -/
theorem OperationKind.ofStored?_stored (kind : OperationKind) : ofStored? (.ofJson kind.stored) = some kind := by
  cases kind <;> rfl

/-- A variable definition is read back. -/
theorem VariableDefinition.ofStored?_stored {definition : VariableDefinition}
    (h : (Node.variableDefinition definition).isStorable = true) :
    ofStored? (.ofJson definition.stored) = some definition := by
  have ⟨hlocation, hliteral⟩ : definition.location.isStorable = true ∧
      definition.defaultValue.all (·.isStorable) = true :=
    Bool.and_eq_true_iff.1 h
  have hparts : parts? ["name", "var_type", "default_value", "location"] (.ofJson definition.stored) =
      some [some (.ofJson (.string definition.name)), some (.ofJson definition.type.stored),
        some (.ofJson (definition.defaultValue.elim .null (·.stored))),
        some (.ofJson definition.location.stored)] :=
    parts?_ofJson rfl (by decide)
  have hname : text? (.ofJson (.string definition.name)) = some definition.name := rfl
  have hdefault : nullable Literal.ofStored? (some (.ofJson (definition.defaultValue.elim .null (·.stored)))) =
      some definition.defaultValue := by
    apply nullable_ofJson
    · intro literal _
      cases literal <;> exact nofun
    · intro literal hsome
      rw [hsome] at hliteral
      exact Literal.ofStored?_stored hliteral
  unfold ofStored?
  rw [hparts]
  simp [required, hname, TypeExpr.ofStored?_stored, hdefault, Location.ofStored?_stored hlocation]

/-- An operation is read back if it is nested within the limit of JSON text. -/
theorem Operation.ofStored?_stored {operation : Operation}
    (hnesting : operation.stored.nesting ≤ Json.nestingLimit)
    (h : (Node.operation operation).isWhollyStorable = true) :
    ofStored? (.ofJson operation.stored) = some operation := by
  obtain ⟨hoperation, hchildren⟩ := Node.isWhollyStorable_iff.1 h
  have hlocation : operation.location.isStorable = true := (Bool.and_eq_true_iff.1 hoperation).1
  have hparts : parts? ["kind", "name", "variable_definitions", "selection_set", "location"]
        (.ofJson operation.stored) =
      some [some (.ofJson operation.kind.stored), some (.ofJson (text operation.name)),
        some (.ofJson (.array (operation.variableDefinitions.map (·.stored)))),
        some (.ofJson operation.selectionSet.stored), some (.ofJson operation.location.stored)] :=
    parts?_ofJson rfl (by decide)
  have hvariables : list? VariableDefinition.ofStored?
      (.ofJson (.array (operation.variableDefinitions.map (·.stored)))) = some operation.variableDefinitions := by
    apply list?_ofJson
    intro definition hdefinition
    have hchild : (Node.variableDefinition definition).isWhollyStorable = true :=
      hchildren _ (List.mem_append_left _ (List.mem_map_of_mem hdefinition))
    exact VariableDefinition.ofStored?_stored (Node.isWhollyStorable_iff.1 hchild).1
  have hset : selectionSet? (.ofJson operation.selectionSet.stored) = some operation.selectionSet := by
    apply SelectionSet.ofStored?_stored
    · simp only [stored, Json.nesting, Json.entriesNesting] at hnesting
      omega
    · exact hchildren _ (List.mem_append_right _ (List.mem_singleton.2 rfl))
  unfold ofStored?
  rw [hparts]
  simp [required, OperationKind.ofStored?_stored, nullable_text, hvariables, hset,
    Location.ofStored?_stored hlocation]

/-- A fragment is read back if it is nested within the limit of JSON text. -/
theorem Fragment.ofStored?_stored {fragment : Fragment} (hnesting : fragment.stored.nesting ≤ Json.nestingLimit)
    (h : (Node.fragment fragment).isWhollyStorable = true) :
    ofStored? (.ofJson fragment.stored) = some fragment := by
  obtain ⟨hfragment, hchildren⟩ := Node.isWhollyStorable_iff.1 h
  have hlocation : fragment.location.isStorable = true := (Bool.and_eq_true_iff.1 hfragment).1
  have hparts : parts? ["name", "type_condition", "selection_set", "location"] (.ofJson fragment.stored) =
      some [some (.ofJson (.string fragment.name)), some (.ofJson (.string fragment.typeCondition)),
        some (.ofJson fragment.selectionSet.stored), some (.ofJson fragment.location.stored)] :=
    parts?_ofJson rfl (by decide)
  have htext : ∀ s, text? (.ofJson (.string s)) = some s := fun _ => rfl
  have hset : selectionSet? (.ofJson fragment.selectionSet.stored) = some fragment.selectionSet := by
    apply SelectionSet.ofStored?_stored
    · simp only [stored, Json.nesting, Json.entriesNesting] at hnesting
      omega
    · exact hchildren _ (List.mem_singleton.2 rfl)
  unfold ofStored?
  rw [hparts]
  simp [required, htext, hset, Location.ofStored?_stored hlocation]

/-- A definition is read back if it is nested within the limit of JSON text. -/
theorem Definition.ofStored?_stored {definition : Definition}
    (hnesting : definition.stored.nesting ≤ Json.nestingLimit)
    (h : definition.node.isWhollyStorable = true) : ofStored? (.ofJson definition.stored) = some definition := by
  cases definition with
  | operation operation =>
    have hlt : operation.stored.nesting < (Definition.operation operation).stored.nesting :=
      Json.nesting_entry_lt (List.mem_singleton.2 rfl)
    show (Operation.ofStored? (.ofJson operation.stored)).map _ = _
    rw [Operation.ofStored?_stored (by omega) h]
    rfl
  | fragment fragment =>
    have hlt : fragment.stored.nesting < (Definition.fragment fragment).stored.nesting :=
      Json.nesting_entry_lt (List.mem_singleton.2 rfl)
    show (Fragment.ofStored? (.ofJson fragment.stored)).map _ = _
    rw [Fragment.ofStored?_stored (by omega) h]
    rfl

/-- **A document is read back** if it is nested within the limit of JSON text. -/
theorem Document.ofStored?_stored {document : Document} (hnesting : document.stored.nesting ≤ Json.nestingLimit)
    (h : (Node.document document).isWhollyStorable = true) :
    ofStored? (.ofJson document.stored) = some document := by
  have hparts : parts? ["definitions"] (.ofJson document.stored) =
      some [some (.ofJson (.array (document.definitions.map (·.stored))))] :=
    parts?_ofJson rfl (by decide)
  have hdefinitions : list? Definition.ofStored? (.ofJson (.array (document.definitions.map (·.stored)))) =
      some document.definitions := by
    apply list?_ofJson
    intro definition hdefinition
    have hitem : definition.stored.nesting < (Json.array (document.definitions.map (·.stored))).nesting :=
      Json.nesting_item_lt (List.mem_map_of_mem hdefinition)
    have harray : (Json.array (document.definitions.map (·.stored))).nesting < document.stored.nesting :=
      Json.nesting_entry_lt (List.mem_singleton.2 rfl)
    apply Definition.ofStored?_stored
    · omega
    · exact (Node.isWhollyStorable_iff.1 h).2 _ (List.mem_map_of_mem hdefinition)
  unfold ofStored?
  rw [hparts]
  simp [required, hdefinitions]

end GraphQLCheck
