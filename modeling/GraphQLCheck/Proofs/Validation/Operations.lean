/-
  GraphQLCheck.Proofs.Validation.Operations
  ─────────────────────────────────────────
  What the rules about operations report, read off the operations of a document.

  A rule about operations waits for the steps that enter one.  The walk enters the operations of a
  document in order, and nothing inside of a definition is an operation or a document.  So such a rule
  goes through the operations one by one, whatever stands in and between them.

  Main results:
    * `Document.filterMap_operation?_events`    — the operations that the walk enters are those of the document
    * `Document.validate_uniqueOperationNames`  — names are noted from one operation to the next
    * `Document.validate_loneAnonymousOperation` — every operation is looked at, given how many there are
    * `Rule.length_sharedNames`                 — a name is reported as often as it is one too many
    * `Document.operation?_name_of_mem`         — where nothing is reported, names stand for operations
-/
import Mathlib.Data.Finset.Card
import Mathlib.Data.Finset.Dedup
import Mathlib.Data.Finset.SDiff
import GraphQLCheck.Proofs.Validation.Independence
import GraphQLCheck.Proofs.Value.Entries
import GraphQLCheck.Validation.OperationRules

namespace GraphQLCheck

/-! ## §1. The operations along the walk. -/

/-- The document that a step enters, if it does. -/
def Event.document? : Event → Option Document
  | .enter (.document d) => some d
  | _ => none

namespace Node

/-- Whether a node is a part of a definition. -/
def isInner : Node → Bool
  | .document _ | .operation _ | .fragment _ => false
  | .argument _ | .field _ | .fragmentSpread _ | .inlineFragment _ | .selectionSet _
  | .variableDefinition _ => true

/-- What stands beneath a definition or a part of one is a part of it. -/
theorem isInner_of_mem_children {node child : Node} (hnode : ∀ document, node ≠ .document document)
    (h : child ∈ node.children) : child.isInner = true := by
  cases node with
  | document d => exact absurd rfl (hnode d)
  | argument a => cases h
  | fragmentSpread spread => cases h
  | variableDefinition definition => cases h
  | fragment part =>
    rw [List.mem_singleton.1 h]
    rfl
  | inlineFragment part =>
    rw [List.mem_singleton.1 h]
    rfl
  | field f =>
    rcases List.mem_append.1 h with h | h
    · obtain ⟨a, _, rfl⟩ := List.mem_map.1 h
      rfl
    · obtain ⟨set, _, rfl⟩ := Option.map_eq_some_iff.1 (Option.mem_toList.1 h)
      rfl
  | operation op =>
    rcases List.mem_append.1 h with h | h
    · obtain ⟨v, _, rfl⟩ := List.mem_map.1 h
      rfl
    · rw [List.mem_singleton.1 h]
      rfl
  | selectionSet set =>
    obtain ⟨selection, _, rfl⟩ := List.mem_map.1 h
    cases selection <;> rfl

theorem ne_document_of_isInner {node : Node} (h : node.isInner = true) (document : Document) :
    node ≠ .document document := by
  rintro rfl
  cases h

section Walk

variable {f : Event → Option α}

/-- What is not looked for at the parts of definitions is not met in the walk over one. -/
theorem filterMap_events_of_isInner
    (hinner : ∀ node : Node, node.isInner = true → f (.enter node) = none ∧ f (.leave node) = none)
    {node : Node} (h : node.isInner = true) : node.events.filterMap f = [] := by
  induction node using childInduction with
  | step node ih =>
    have hchildren : (node.children.flatMap (·.events)).filterMap f = [] := by
      rw [List.filterMap_flatMap, List.flatMap_eq_nil_iff]
      intro child hchild
      exact ih child hchild (isInner_of_mem_children (ne_document_of_isInner h) hchild)
    obtain ⟨henter, hleave⟩ := hinner node h
    rw [events_eq, around, List.filterMap_append, List.filterMap_cons_none henter, hchildren,
      List.filterMap_cons_none hleave]
    rfl

end Walk

end Node

/-- In the walk over a definition, it is met at the definition alone, on entering and on leaving it. -/
theorem Definition.filterMap_events {f : Event → Option α}
    (hinner : ∀ node : Node, node.isInner = true → f (.enter node) = none ∧ f (.leave node) = none)
    (definition : Definition) : definition.events.filterMap f =
      (f (.enter definition.node)).toList ++ (f (.leave definition.node)).toList := by
  have hnode : ∀ document, definition.node ≠ .document document := by
    intro document
    cases definition <;> exact nofun
  have hchildren : (definition.node.children.flatMap (·.events)).filterMap f = [] := by
    rw [List.filterMap_flatMap, List.flatMap_eq_nil_iff]
    intro child hchild
    exact Node.filterMap_events_of_isInner hinner (Node.isInner_of_mem_children hnode hchild)
  rw [← Node.events_definitionNode, Node.events_eq, Node.around, List.filterMap_append,
    List.filterMap_cons, hchildren]
  cases f (.enter definition.node) <;> cases hleave : f (.leave definition.node) <;> simp [hleave]

namespace Document

/-- The operations that the walk enters are those of the document, in order. -/
theorem filterMap_operation?_events (document : Document) :
    document.events.filterMap Event.operation? = document.operations := by
  have hdefinition : ∀ definition : Definition,
      definition.events.filterMap Event.operation? = definition.operation?.toList := by
    intro definition
    rw [definition.filterMap_events]
    · cases definition <;> rfl
    · intro node h
      cases node <;> first | exact ⟨rfl, rfl⟩ | cases h
  unfold events Node.around
  rw [List.filterMap_append, List.filterMap_cons_none rfl, List.filterMap_flatMap]
  simp only [hdefinition]
  rw [← List.filterMap_eq_flatMap_toList]
  exact List.append_nil _

/-- No definition contains a document. -/
theorem document?_of_mem_events (document : Document) {event : Event}
    (h : event ∈ document.definitions.flatMap (·.events)) : event.document? = none := by
  obtain ⟨definition, _, h⟩ := List.mem_flatMap.1 h
  have hnone : definition.events.filterMap Event.document? = [] := by
    rw [definition.filterMap_events]
    · cases definition <;> rfl
    · intro node h
      cases node <;> first | exact ⟨rfl, rfl⟩ | cases h
  exact List.filterMap_eq_nil_iff.1 hnone event h

end Document

/-! ## §2. No two operations share a name. -/

namespace Rule

/-- The errors of operations whose names have a first place already, or come to have one on the way. -/
def sharedNames (places : List (String × Location)) : List Operation → List ValidationError
  | [] => []
  | op :: operations => sharedName places op ++ sharedNames (noteName places op) operations

theorem flatten_reports_uniqueOperationNames (places : List (String × Location)) (steps : List WalkStep) :
    (reports [⟨uniqueOperationNames, places⟩] steps).flatten =
      sharedNames places (steps.filterMap (·.event.operation?)) := by
  induction steps generalizing places with
  | nil => rfl
  | cons step steps ih =>
    rw [reports_singleton_cons, List.flatten_cons, List.filterMap_cons]
    show ((step.event.operation?.map (sharedName places)).getD [] : List ValidationError) ++
      (reports [⟨uniqueOperationNames, (step.event.operation?.map (noteName places)).getD places⟩]
        steps).flatten = _
    rw [ih]
    cases step.event.operation? <;> rfl

/-- A name that has a first place is reported, and no other one is noted. -/
theorem noteName_of_known {places : List (String × Location)} {operation : Operation} {name : String}
    (hname : operation.name = some name) (h : name ∈ places.map Prod.fst) :
    (sharedName places operation).length = 1 ∧ noteName places operation = places := by
  have hknown : (places.lookup name).isSome = true := by
    rw [Option.isSome_iff_ne_none, ne_eq, lookup_eq_none_iff_not_mem, not_not]
    exact h
  obtain ⟨first, hfirst⟩ := Option.isSome_iff_exists.1 hknown
  unfold sharedName noteName
  simp [hname, hfirst]

/-- A name without a first place is not reported, and noted. -/
theorem noteName_of_new {places : List (String × Location)} {operation : Operation} {name : String}
    (hname : operation.name = some name) (h : name ∉ places.map Prod.fst) :
    sharedName places operation = [] ∧
      noteName places operation = (name, operation.location) :: places := by
  have hnew : places.lookup name = none := lookup_eq_none_iff_not_mem.2 h
  unfold sharedName noteName
  simp [hname, hnew]

/-- **A name is reported as often as it is one too many**: the errors make up for the difference between
all names and the new ones among them. -/
theorem length_sharedNames (places : List (String × Location)) (operations : List Operation) :
    (sharedNames places operations).length +
        ((operations.filterMap Operation.name).toFinset \ (places.map Prod.fst).toFinset).card =
      (operations.filterMap Operation.name).length := by
  induction operations generalizing places with
  | nil => simp [sharedNames]
  | cons op operations ih =>
    have hrest := ih (noteName places op)
    rw [sharedNames, List.length_append]
    cases hname : op.name with
    | none =>
      have hsilent : sharedName places op = [] ∧ noteName places op = places := by
        simp [sharedName, noteName, hname]
      rw [hsilent.2] at hrest
      rw [List.filterMap_cons_none hname, hsilent.1, hsilent.2, List.length_nil, Nat.zero_add]
      exact hrest
    | some name =>
      rw [List.filterMap_cons_some hname, List.toFinset_cons, List.length_cons]
      by_cases hknown : name ∈ places.map Prod.fst
      · obtain ⟨herror, hsame⟩ := noteName_of_known hname hknown
        rw [hsame] at hrest
        rw [herror, hsame, Finset.insert_sdiff_of_mem _ (List.mem_toFinset.2 hknown)]
        omega
      · obtain ⟨hsilent, hnoted⟩ := noteName_of_new hname hknown
        rw [hnoted] at hrest
        simp only [List.map_cons, List.toFinset_cons] at hrest
        -- the name is one of the new ones, and no longer new for the operations that follow
        have hcard : (insert name (operations.filterMap Operation.name).toFinset \
              (places.map Prod.fst).toFinset).card =
            ((operations.filterMap Operation.name).toFinset \
              insert name (places.map Prod.fst).toFinset).card + 1 := by
          rw [Finset.insert_sdiff_of_notMem _ (by rwa [List.mem_toFinset]),
            ← Finset.card_insert_of_notMem (a := name) (by simp)]
          congr 1
          ext other
          simp only [Finset.mem_insert, Finset.mem_sdiff]
          tauto
        rw [hsilent, hnoted, hcard, List.length_nil]
        omega

end Rule

/-! ## §3. An operation without a name is the only one. -/

theorem Rule.flatten_reports_loneAnonymousOperation (count : Nat) (steps : List WalkStep)
    (h : ∀ step ∈ steps, step.event.document? = none) :
    (reports [⟨loneAnonymousOperation, count⟩] steps).flatten =
      (steps.filterMap (·.event.operation?)).flatMap (namelessAmong count) := by
  induction steps with
  | nil => rfl
  | cons step steps ih =>
    -- the count changes on entering a document only
    have hcount : loneAnonymousOperation.next step count = count := by
      have hstep := h step (List.mem_cons_self ..)
      show (match step.event with
        | .enter (.document d) => d.operations.length
        | _ => count) = count
      split
      next d hevent =>
        rw [hevent] at hstep
        cases hstep
      next => rfl
    rw [reports_singleton_cons, List.flatten_cons, List.filterMap_cons]
    show ((step.event.operation?.map (namelessAmong count)).getD [] : List ValidationError) ++
      (reports [⟨loneAnonymousOperation, loneAnonymousOperation.next step count⟩] steps).flatten = _
    rw [hcount, ih fun other hother => h other (List.mem_cons_of_mem _ hother)]
    cases step.event.operation? <;> rfl

/-! ## §4. Documents. -/

namespace Document

variable (schema : Schema) (document : Document)

theorem filterMap_operation?_walkSteps (tracker : Tracker) (events : List Event) :
    (walkSteps schema document tracker events).filterMap (·.event.operation?) =
      events.filterMap Event.operation? := by
  conv => rhs; rw [← map_event_walkSteps schema document tracker events, List.filterMap_map]
  rfl

/-- Names are noted from one operation to the next. -/
theorem validate_uniqueOperationNames :
    document.validate schema [.uniqueOperationNames] = Rule.sharedNames [] document.operations := by
  show (reports [⟨.uniqueOperationNames, []⟩] _).flatten = _
  rw [Rule.flatten_reports_uniqueOperationNames, filterMap_operation?_walkSteps,
    filterMap_operation?_events]

/-- Every operation is looked at, given how many there are. -/
theorem validate_loneAnonymousOperation :
    document.validate schema [.loneAnonymousOperation] =
      document.operations.flatMap (Rule.namelessAmong document.operations.length) := by
  let later : List Event :=
    document.definitions.flatMap (fun definition => definition.events) ++ [.leave (.document document)]
  have hoperations : later.filterMap Event.operation? = document.operations :=
    document.filterMap_operation?_events
  -- on entering the document the operations are counted, and nothing is reported
  show (reports [⟨.loneAnonymousOperation, document.operations.length⟩]
    (walkSteps schema document {} later)).flatten = _
  rw [Rule.flatten_reports_loneAnonymousOperation, filterMap_operation?_walkSteps, hoperations]
  intro step hstep
  have hevent := List.mem_map_of_mem (f := WalkStep.event) hstep
  rw [map_event_walkSteps] at hevent
  rcases List.mem_append.1 hevent with hevent | hevent
  · exact document.document?_of_mem_events hevent
  · rw [List.mem_singleton.1 hevent]
    rfl

/-- Of operations whose names are distinct, one with a name is found under it. -/
theorem find?_name_of_nodup {operations : List Operation} (hdistinct : (operations.filterMap Operation.name).Nodup)
    {operation : Operation} {name : String} (hmem : operation ∈ operations)
    (hname : operation.name = some name) : operations.find? (·.name == some name) = some operation := by
  induction operations with
  | nil => cases hmem
  | cons first rest ih =>
    by_cases hfirst : first.name = some name
    · rw [List.filterMap_cons_some hfirst, List.nodup_cons] at hdistinct
      rcases List.mem_cons.1 hmem with rfl | hmem
      · rw [List.find?_cons_of_pos (by rw [hname]; exact beq_self_eq_true _)]
      · exact absurd (List.mem_filterMap.2 ⟨operation, hmem, hname⟩) hdistinct.1
    · have hrest : (rest.filterMap Operation.name).Nodup :=
        hdistinct.sublist ((List.sublist_cons_self first rest).filterMap _)
      rcases List.mem_cons.1 hmem with rfl | hmem
      · exact absurd hname hfirst
      · rw [List.find?_cons_of_neg (by simpa using hfirst)]
        exact ih hrest hmem

variable {schema document}

/-- Where no name is reported, names are distinct. -/
theorem nodup_names_of_uniqueOperationNames
    (h : isValid (document.validate schema [.uniqueOperationNames]) = true) :
    (document.operations.filterMap Operation.name).Nodup := by
  have hcount := Rule.length_sharedNames [] document.operations
  rw [← document.validate_uniqueOperationNames schema, List.isEmpty_iff.1 h] at hcount
  have hall : (document.operations.filterMap Operation.name).dedup.length =
      (document.operations.filterMap Operation.name).length := by
    simpa [List.card_toFinset] using hcount
  exact List.dedup_eq_self.1 ((List.dedup_sublist _).eq_of_length hall)

/-- Where no operation without a name is reported, such an operation is the only one. -/
theorem operations_eq_singleton_of_loneAnonymousOperation
    (h : isValid (document.validate schema [.loneAnonymousOperation]) = true) {operation : Operation}
    (hmem : operation ∈ document.operations) (hname : operation.name = none) :
    document.operations = [operation] := by
  unfold isValid at h
  rw [validate_loneAnonymousOperation, List.isEmpty_iff, List.flatMap_eq_nil_iff] at h
  have hsilent := h operation hmem
  unfold Rule.namelessAmong at hsilent
  have hfew : document.operations.length ≤ 1 := by
    by_contra hmany
    rw [hname, if_pos (by simpa using hmany)] at hsilent
    cases hsilent
  obtain ⟨only, honly⟩ : ∃ only, document.operations = [only] := by
    rw [← List.length_eq_one_iff]
    have hpos := List.length_pos_of_mem hmem
    omega
  rw [honly] at hmem ⊢
  rw [List.mem_singleton.1 hmem]

/-- **Where both rules report nothing, the name of an operation, or none, stands for that operation.** -/
theorem operation?_name_of_mem (hunique : isValid (document.validate schema [.uniqueOperationNames]) = true)
    (hlone : isValid (document.validate schema [.loneAnonymousOperation]) = true) {operation : Operation}
    (hmem : operation ∈ document.operations) : document.operation? operation.name = some operation := by
  cases hname : operation.name with
  | some name => exact find?_name_of_nodup (nodup_names_of_uniqueOperationNames hunique) hmem hname
  | none =>
    unfold operation?
    simp only [operations_eq_singleton_of_loneAnonymousOperation hlone hmem hname]

end Document

end GraphQLCheck
