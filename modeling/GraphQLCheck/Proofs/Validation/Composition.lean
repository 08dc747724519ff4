/-
  GraphQLCheck.Proofs.Validation.Composition
  ──────────────────────────────────────────
  The errors of a document, definition by definition.

  A rule that looks at one node at a time sees the types at the place and the step, and nothing of the
  document around it.  The walk over a definition leaves the types as it found them, so the next
  definition is walked as if it stood alone.  The rules about operations do look across definitions, at
  the names of the operations and at how many there are, and there the order does not count.

  Main results:
    * `Rule.IsLocal`                — a rule that looks at one node at a time
    * `Document.validate_eq_flatMap` — what such rules report of a document, they report of its definitions
    * `Document.length_validate_eq`  — the number of errors does not depend on the order of definitions
    * `validation_is_compositional`  — both, for the rules that documents are checked against
-/
import GraphQLCheck.Proofs.Validation.Arguments
import GraphQLCheck.Proofs.Validation.Operations

namespace GraphQLCheck

/-! ## §1. Rules that look at one node at a time. -/

/-- A step of the walk, with nothing known of the document around it. -/
def WalkStep.alone (step : WalkStep) : WalkStep := { step with document := ⟨[]⟩ }

namespace Rule

/-- A rule looks at one node at a time if it reports the same wherever a node stands and whatever was met
before, and nothing of a document. -/
structure IsLocal (rule : Rule) : Prop where
  report_eq : ∀ (step : WalkStep) (state : rule.State),
    rule.report step state = rule.report step.alone rule.start
  silent : ∀ (schema : Schema) (outer document : Document) (tracker : Tracker),
    rule.report ⟨schema, outer, tracker, .enter (.document document)⟩ rule.start = [] ∧
      rule.report ⟨schema, outer, tracker, .leave (.document document)⟩ rule.start = []

/-- A rule that remembers nothing looks at one node at a time, if it looks at no document. -/
theorem isLocal_stateless {name : String} {report : WalkStep → List ValidationError}
    (halone : ∀ step, report step = report step.alone)
    (hsilent : ∀ schema outer document tracker,
      report ⟨schema, outer, tracker, .enter (.document document)⟩ = [] ∧
        report ⟨schema, outer, tracker, .leave (.document document)⟩ = []) :
    (stateless name report).IsLocal :=
  ⟨fun step _ => halone step, hsilent⟩

theorem isLocal_scalarLeafs : scalarLeafs.IsLocal :=
  isLocal_stateless (fun _ => rfl) fun _ _ _ _ => ⟨rfl, rfl⟩

theorem isLocal_argumentsOfCorrectType : argumentsOfCorrectType.IsLocal :=
  isLocal_stateless (fun _ => rfl) fun _ _ _ _ => ⟨rfl, rfl⟩

theorem isLocal_defaultValuesOfCorrectType : defaultValuesOfCorrectType.IsLocal :=
  isLocal_stateless (fun _ => rfl) fun _ _ _ _ => ⟨rfl, rfl⟩

/-- The rules about types look at one node at a time. -/
theorem isLocal_of_mem {rule : Rule}
    (h : rule ∈ [scalarLeafs, argumentsOfCorrectType, defaultValuesOfCorrectType]) : rule.IsLocal := by
  simp only [List.mem_cons, List.not_mem_nil, or_false] at h
  rcases h with rfl | rfl | rfl
  · exact isLocal_scalarLeafs
  · exact isLocal_argumentsOfCorrectType
  · exact isLocal_defaultValuesOfCorrectType

end Rule

/-- What rules report at one step, before they have met anything. -/
def WalkStep.report (rules : List Rule) (step : WalkStep) : List ValidationError :=
  rules.flatMap fun rule => rule.report step rule.start

/-- Rules that look at one node at a time report at each step what they report there alone. -/
theorem flatten_reports_of_isLocal {visitors : List Visitor}
    (h : ∀ visitor ∈ visitors, visitor.rule.IsLocal) (steps : List WalkStep) :
    (reports visitors steps).flatten = (steps.map (·.alone)).flatMap (·.report (visitors.map (·.rule))) := by
  induction steps generalizing visitors with
  | nil => rfl
  | cons step steps ih =>
    have hstep : (visitors.flatMap fun visitor => visitor.report step) =
        step.alone.report (visitors.map (·.rule)) := by
      unfold WalkStep.report
      rw [List.flatMap_map, List.flatMap_def, List.flatMap_def]
      congr 1
      exact List.map_congr_left fun visitor hvisitor => (h visitor hvisitor).report_eq step visitor.state
    have hrules : (visitors.map (·.next step)).map (·.rule) = visitors.map (·.rule) := by
      rw [List.map_map]
      rfl
    have hnext : ∀ visitor ∈ visitors.map (·.next step), visitor.rule.IsLocal := by
      intro visitor hvisitor
      obtain ⟨before, hbefore, rfl⟩ := List.mem_map.1 hvisitor
      exact h before hbefore
    rw [reports, List.flatten_cons, List.map_cons, List.flatMap_cons, hstep, ih hnext, hrules]

/-! ## §2. The walk, definition by definition. -/

section Walk

variable {schema : Schema}

/-- The steps of a walk do not depend on the document, but for the document itself. -/
theorem map_alone_walkSteps (document : Document) (tracker : Tracker) (events : List Event) :
    (walkSteps schema document tracker events).map (·.alone) =
      walkSteps schema ⟨[]⟩ tracker events := by
  induction events generalizing tracker with
  | nil => rfl
  | cons event events ih =>
    rw [walkSteps, List.map_cons, ih]
    rfl

/-- Every definition is walked as if it stood alone. -/
theorem walkSteps_definitions {tracker : Tracker} (h : tracker.IsClosed) (document : Document)
    (definitions : List Definition) :
    walkSteps schema document tracker (definitions.flatMap (·.events)) =
      definitions.flatMap fun definition => walkSteps schema document tracker definition.events := by
  induction definitions with
  | nil => rfl
  | cons definition definitions ih =>
    have hafter : tracker.afterAll schema definition.events = tracker := by
      rw [← Node.events_definitionNode]
      exact Tracker.afterAll_events h definition.node
    rw [List.flatMap_cons, List.flatMap_cons, walkSteps_append, hafter, ih]

end Walk

namespace Document

variable {schema : Schema} {rules : List Rule}

/-- What rules that look at one node at a time report of a document, they report along the walk over it. -/
theorem validate_eq_flatMap_report (h : ∀ rule ∈ rules, rule.IsLocal) (document : Document) :
    document.validate schema rules =
      (walkSteps schema ⟨[]⟩ {} document.events).flatMap (·.report rules) := by
  have hvisitors : ∀ visitor ∈ rules.map Visitor.ofRule, visitor.rule.IsLocal := by
    intro visitor hvisitor
    obtain ⟨rule, hrule, rfl⟩ := List.mem_map.1 hvisitor
    exact h rule hrule
  have hrules : (rules.map Visitor.ofRule).map (·.rule) = rules := by
    rw [List.map_map]
    exact List.map_id rules
  unfold validate
  rw [flatten_reports_of_isLocal hvisitors, hrules, map_alone_walkSteps]

/-- What rules that look at one node at a time report of a document, they report along its
definitions. -/
theorem validate_of_isLocal (h : ∀ rule ∈ rules, rule.IsLocal) (document : Document) :
    document.validate schema rules = document.definitions.flatMap fun definition =>
      (walkSteps schema ⟨[]⟩ {} definition.events).flatMap (·.report rules) := by
  have hsilent : ∀ tracker : Tracker,
      (⟨schema, ⟨[]⟩, tracker, .enter (.document document)⟩ : WalkStep).report rules = [] ∧
        (⟨schema, ⟨[]⟩, tracker, .leave (.document document)⟩ : WalkStep).report rules = [] := by
    intro tracker
    constructor <;> refine List.flatMap_eq_nil_iff.2 fun rule hrule => ?_
    · exact ((h rule hrule).silent schema ⟨[]⟩ document tracker).1
    · exact ((h rule hrule).silent schema ⟨[]⟩ document tracker).2
  rw [validate_eq_flatMap_report h]
  show (⟨schema, ⟨[]⟩, {}, .enter (.document document)⟩ :: walkSteps schema ⟨[]⟩ {}
    (document.definitions.flatMap (·.events) ++ [.leave (.document document)])).flatMap
      (·.report rules) = _
  rw [List.flatMap_cons, (hsilent {}).1, List.nil_append, walkSteps_append,
    walkSteps_definitions ⟨rfl, rfl⟩, List.flatMap_append, List.flatMap_assoc]
  simp only [walkSteps, List.flatMap_singleton]
  rw [(hsilent _).2, List.append_nil]

/-- **What rules that look at one node at a time report of a document is what they report of each of its
definitions alone**, one after the other. -/
theorem validate_eq_flatMap (h : ∀ rule ∈ rules, rule.IsLocal) (definitions : List Definition) :
    (Document.mk definitions).validate schema rules =
      definitions.flatMap fun definition => (Document.mk [definition]).validate schema rules := by
  simp only [validate_of_isLocal h, List.flatMap_singleton]

/-! ## §3. Definitions in another order. -/

section Order

variable (schema) {document document' : Document}

theorem operations_perm (h : document.definitions.Perm document'.definitions) :
    document.operations.Perm document'.operations :=
  h.filterMap _

/-- A rule that looks at one node at a time reports the same errors, in another order. -/
theorem validate_perm_of_isLocal (hrules : ∀ rule ∈ rules, rule.IsLocal)
    (h : document.definitions.Perm document'.definitions) :
    (document.validate schema rules).Perm (document'.validate schema rules) := by
  rw [validate_of_isLocal hrules, validate_of_isLocal hrules]
  exact h.flatMap_right _

/-- A name is one too many as often in one order as in another. -/
theorem length_validate_uniqueOperationNames
    (h : document.definitions.Perm document'.definitions) :
    (document.validate schema [.uniqueOperationNames]).length =
      (document'.validate schema [.uniqueOperationNames]).length := by
  have hnames := (operations_perm h).filterMap Operation.name
  have hcount := Rule.length_sharedNames [] document.operations
  have hcount' := Rule.length_sharedNames [] document'.operations
  rw [List.toFinset_eq_of_perm _ _ hnames, hnames.length_eq] at hcount
  rw [validate_uniqueOperationNames, validate_uniqueOperationNames]
  omega

/-- The operations without a name are counted among the same number of operations. -/
theorem validate_loneAnonymousOperation_perm
    (h : document.definitions.Perm document'.definitions) :
    (document.validate schema [.loneAnonymousOperation]).Perm
      (document'.validate schema [.loneAnonymousOperation]) := by
  have hoperations := operations_perm h
  rw [validate_loneAnonymousOperation, validate_loneAnonymousOperation, hoperations.length_eq]
  exact hoperations.flatMap_right _

/-- **The number of errors does not depend on the order of definitions**, for any of the rules that
documents are checked against. -/
theorem length_validate_eq (hrules : ∀ rule ∈ rules, rule ∈ Rule.defaults)
    (h : document.definitions.Perm document'.definitions) :
    (document.validate schema rules).length = (document'.validate schema rules).length := by
  have hrule : ∀ rule ∈ rules, (document.validate schema [rule]).length =
      (document'.validate schema [rule]).length := by
    intro rule hmem
    rcases List.mem_cons.1 (hrules rule hmem) with rfl | hmem
    · exact length_validate_uniqueOperationNames schema h
    rcases List.mem_cons.1 hmem with rfl | hmem
    · exact (validate_loneAnonymousOperation_perm schema h).length_eq
    · have hlocal : ∀ other ∈ [rule], other.IsLocal := by
        intro other hother
        rw [List.mem_singleton.1 hother]
        exact Rule.isLocal_of_mem hmem
      exact (validate_perm_of_isLocal schema hlocal h).length_eq
  rw [(document.validate_perm schema rules).length_eq, (document'.validate_perm schema rules).length_eq,
    List.length_flatMap, List.length_flatMap, List.map_congr_left hrule]

end Order

end Document

/-! ## §4. Validation is compositional. -/

/-- **Validation is compositional in definitions.**  With rules about types, the errors of a document are
the errors of its definitions, each taken for a document of its own, one after the other.  With all rules
that documents are checked against, to put the definitions in another order changes neither whether the
document is valid nor how many errors it has. -/
theorem validation_is_compositional (schema : Schema) (definitions : List Definition) :
    (∀ rules : List Rule, (∀ rule ∈ rules, rule ∈ [Rule.scalarLeafs, Rule.argumentsOfCorrectType,
        Rule.defaultValuesOfCorrectType]) →
      (Document.mk definitions).validate schema rules =
        definitions.flatMap fun definition => (Document.mk [definition]).validate schema rules) ∧
    ∀ definitions' : List Definition, definitions.Perm definitions' →
      isValid ((Document.mk definitions).validate schema Rule.defaults) =
          isValid ((Document.mk definitions').validate schema Rule.defaults) ∧
        ((Document.mk definitions).validate schema Rule.defaults).length =
          ((Document.mk definitions').validate schema Rule.defaults).length := by
  refine ⟨fun rules hrules => ?_, fun definitions' hperm => ?_⟩
  · exact Document.validate_eq_flatMap (fun rule hmem => Rule.isLocal_of_mem (hrules rule hmem)) definitions
  · have hlength : ((Document.mk definitions).validate schema Rule.defaults).length =
        ((Document.mk definitions').validate schema Rule.defaults).length :=
      Document.length_validate_eq schema (fun _ hmem => hmem) hperm
    refine ⟨?_, hlength⟩
    unfold isValid
    rw [Bool.eq_iff_iff, List.isEmpty_iff_length_eq_zero, List.isEmpty_iff_length_eq_zero, hlength]

namespace Search

/-- A search that is not given a filter, but a number. -/
def misused : Field := ⟨none, "search", [⟨"filter", .int 1, ⟨3, 30⟩⟩], none, ⟨3, 23⟩⟩

/-- The operation without a name, two of one name, and a fragment with a search that is misused. -/
def unruly : List Definition :=
  document.definitions ++
    [.operation ⟨.query, some "Again", [], ⟨[], ⟨2, 13⟩⟩, ⟨2, 1⟩⟩,
      .operation ⟨.query, some "Again", [], ⟨[], ⟨2, 29⟩⟩, ⟨2, 17⟩⟩,
      .fragment ⟨"Numbered", "Query", ⟨[.field misused], ⟨3, 21⟩⟩, ⟨3, 1⟩⟩]

/-- There is an error for the operation without a name, for the name and for the search, also from the
end to the start; and the one of the search is that of the fragment. -/
theorem unruly_is_compositional :
    ((Document.mk unruly).validate schema Rule.defaults).length = 3 ∧
    ((Document.mk unruly).validate schema [.argumentsOfCorrectType, .scalarLeafs]).length = 1 ∧
    (Document.mk unruly).validate schema [.argumentsOfCorrectType, .scalarLeafs] =
      unruly.flatMap (fun definition =>
        (Document.mk [definition]).validate schema [.argumentsOfCorrectType, .scalarLeafs]) ∧
    isValid ((Document.mk unruly).validate schema Rule.defaults) =
      isValid ((Document.mk unruly.reverse).validate schema Rule.defaults) ∧
    ((Document.mk unruly).validate schema Rule.defaults).length =
      ((Document.mk unruly.reverse).validate schema Rule.defaults).length := by
  have hrules : ∀ rule ∈ [Rule.argumentsOfCorrectType, Rule.scalarLeafs],
      rule ∈ [Rule.scalarLeafs, Rule.argumentsOfCorrectType, Rule.defaultValuesOfCorrectType] := by
    simp
  have hcompositional := validation_is_compositional schema unruly
  exact ⟨rfl, rfl, hcompositional.1 _ hrules, hcompositional.2 _ (List.reverse_perm unruly).symm⟩

end Search

end GraphQLCheck
