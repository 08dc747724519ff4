/-
  GraphQLCheck.Proofs.Validation.ByName
  ─────────────────────────────────────
  Documents have the same errors in schemas that are alike.

  The tracker looks types up under their names, and so do the rules that documents are checked against.
  What a rule of another kind sees of the order in which types were registered is up to the rule; it is
  enough that it looks at schemas that are alike in the same way.

  Main results:
    * `reports_eq_of_respects`      — walks whose steps no rule tells apart have the same errors
    * `Rule.ReadsByName`            — a rule that tells no two schemas apart that are alike
    * `Rule.readsByName_of_mem`     — the rules that documents are checked against are such rules
    * `Schema.Alike.validate_eq`    — with such rules, a document has the same errors
-/
import GraphQLCheck.Proofs.Schema.Alike
import GraphQLCheck.Validation.TypeRules

namespace GraphQLCheck

/-! ## §1. Steps that rules do not tell apart. -/

/-- A rule respects a relation of steps if it remembers and reports the same at related ones. -/
structure Rule.Respects (rule : Rule) (related : WalkStep → WalkStep → Prop) : Prop where
  next_eq : ∀ {step step' : WalkStep}, related step step' → ∀ state : rule.State,
    rule.next step state = rule.next step' state
  report_eq : ∀ {step step' : WalkStep}, related step step' → ∀ state : rule.State,
    rule.report step state = rule.report step' state

/-- A rule that remembers nothing respects a relation if it reports the same at related steps. -/
theorem Rule.respects_stateless {name : String} {report : WalkStep → List ValidationError}
    {related : WalkStep → WalkStep → Prop}
    (h : ∀ {step step'}, related step step' → report step = report step') :
    (stateless name report).Respects related :=
  ⟨fun _ _ => rfl, fun hrelated _ => h hrelated⟩

/-- Walks whose steps are related, one by one, have the same errors. -/
theorem reports_eq_of_respects {related : WalkStep → WalkStep → Prop} {steps steps' : List WalkStep}
    (h : List.Forall₂ related steps steps') {visitors : List Visitor}
    (hrules : ∀ visitor ∈ visitors, visitor.rule.Respects related) :
    reports visitors steps = reports visitors steps' := by
  induction h generalizing visitors with
  | nil => rfl
  | @cons step step' steps steps' hstep _ ih =>
    have hreport : visitors.flatMap (·.report step) = visitors.flatMap (·.report step') := by
      rw [List.flatMap_def, List.flatMap_def, List.map_congr_left]
      exact fun visitor hvisitor => (hrules visitor hvisitor).report_eq hstep visitor.state
    have hnext : visitors.map (·.next step) = visitors.map (·.next step') := by
      apply List.map_congr_left
      intro visitor hvisitor
      exact congrArg (Visitor.mk visitor.rule) ((hrules visitor hvisitor).next_eq hstep visitor.state)
    have hlater : ∀ visitor ∈ visitors.map (·.next step'), visitor.rule.Respects related := by
      intro visitor hvisitor
      obtain ⟨before, hbefore, rfl⟩ := List.mem_map.1 hvisitor
      exact hrules before hbefore
    rw [reports, reports, hreport, hnext, ih hlater]

/-- Rules that respect a relation report the same of documents if the steps of their walks are related. -/
theorem Document.validate_eq_of_respects {schema schema' : Schema} {document document' : Document}
    {related : WalkStep → WalkStep → Prop}
    (h : List.Forall₂ related (walkSteps schema document {} document.events)
      (walkSteps schema' document' {} document'.events))
    {rules : List Rule} (hrules : ∀ rule ∈ rules, rule.Respects related) :
    document.validate schema rules = document'.validate schema' rules := by
  have hvisitors : ∀ visitor ∈ rules.map Visitor.ofRule, visitor.rule.Respects related := by
    intro visitor hvisitor
    obtain ⟨rule, hrule, rfl⟩ := List.mem_map.1 hvisitor
    exact hrules rule hrule
  unfold validate
  rw [reports_eq_of_respects h hvisitors]

/-! ## §2. Rules. -/

/-- A rule reads a schema by name if it remembers and reports the same in schemas that are alike. -/
structure Rule.ReadsByName (rule : Rule) : Prop where
  next_eq : ∀ {schema schema' : Schema}, schema.Alike schema' →
    ∀ (document : Document) (tracker : Tracker) (event : Event) (state : rule.State),
      rule.next ⟨schema, document, tracker, event⟩ state = rule.next ⟨schema', document, tracker, event⟩ state
  report_eq : ∀ {schema schema' : Schema}, schema.Alike schema' →
    ∀ (document : Document) (tracker : Tracker) (event : Event) (state : rule.State),
      rule.report ⟨schema, document, tracker, event⟩ state =
        rule.report ⟨schema', document, tracker, event⟩ state

namespace Rule

theorem readsByName_stateless {name : String} {report : WalkStep → List ValidationError}
    (h : ∀ {schema schema' : Schema}, schema.Alike schema' → ∀ document tracker event,
      report ⟨schema, document, tracker, event⟩ = report ⟨schema', document, tracker, event⟩) :
    (stateless name report).ReadsByName where
  next_eq _ _ _ _ _ := rfl
  report_eq halike document tracker event _ := h halike document tracker event

theorem readsByName_scalarLeafs : scalarLeafs.ReadsByName := by
  apply readsByName_stateless
  intro schema schema' h document tracker event
  unfold fieldLeafError?
  simp only [h.namedType?_eq]

theorem readsByName_argumentsOfCorrectType : argumentsOfCorrectType.ReadsByName := by
  apply readsByName_stateless
  intro schema schema' h document tracker event
  simp only [h.interchangeable.literal_problems_eq]

theorem readsByName_defaultValuesOfCorrectType : defaultValuesOfCorrectType.ReadsByName := by
  apply readsByName_stateless
  intro schema schema' h document tracker event
  have herrors : defaultErrors schema = defaultErrors schema' := by
    funext definition default
    unfold defaultErrors
    simp only [h.interchangeable.literal_problems_eq]
  simp only [herrors]

/-- The rules that documents are checked against read schemas by name. -/
theorem readsByName_of_mem {rule : Rule} (h : rule ∈ defaults) : rule.ReadsByName := by
  simp only [defaults, List.mem_cons, List.not_mem_nil, or_false] at h
  rcases h with rfl | rfl | rfl | rfl | rfl
  -- what there is to know of operations stands in the document
  · exact ⟨fun _ _ _ _ _ => rfl, fun _ _ _ _ _ => rfl⟩
  · exact ⟨fun _ _ _ _ _ => rfl, fun _ _ _ _ _ => rfl⟩
  · exact readsByName_scalarLeafs
  · exact readsByName_argumentsOfCorrectType
  · exact readsByName_defaultValuesOfCorrectType

end Rule

/-! ## §3. Documents. -/

/-- Steps of the walk over one document in schemas that are alike. -/
structure WalkStep.Alike (step step' : WalkStep) : Prop where
  schema : step.schema.Alike step'.schema
  document_eq : step.document = step'.document
  tracker_eq : step.tracker = step'.tracker
  event_eq : step.event = step'.event

theorem Rule.ReadsByName.respects {rule : Rule} (h : rule.ReadsByName) : rule.Respects WalkStep.Alike where
  next_eq := by
    rintro ⟨schema, document, tracker, event⟩ ⟨_, _, _, _⟩ ⟨halike, rfl, rfl, rfl⟩ state
    exact h.next_eq halike document tracker event state
  report_eq := by
    rintro ⟨schema, document, tracker, event⟩ ⟨_, _, _, _⟩ ⟨halike, rfl, rfl, rfl⟩ state
    exact h.report_eq halike document tracker event state

namespace Schema.Alike

variable {schema schema' : Schema} (h : schema.Alike schema')
include h

theorem enter_eq (tracker : Tracker) (node : Node) :
    tracker.enter schema node = tracker.enter schema' node := by
  have hdefined : Tracker.definedType schema = Tracker.definedType schema' := by
    funext name
    unfold Tracker.definedType
    rw [h.find?_eq]
  have hnamed : schema.namedType? = schema'.namedType? := funext h.namedType?_eq
  unfold Tracker.enter
  simp only [hdefined, h.rootType?_eq, hnamed]

theorem after_eq (tracker : Tracker) (event : Event) :
    tracker.after schema event = tracker.after schema' event := by
  cases event with
  | enter node => exact h.enter_eq tracker node
  | leave node => rfl

theorem seen_eq (tracker : Tracker) (event : Event) :
    tracker.seen schema event = tracker.seen schema' event := by
  cases event with
  | enter node => exact h.enter_eq tracker node
  | leave node => rfl

theorem forall₂_walkSteps (document : Document) (events : List Event) (tracker : Tracker) :
    List.Forall₂ WalkStep.Alike (walkSteps schema document tracker events)
      (walkSteps schema' document tracker events) := by
  induction events generalizing tracker with
  | nil => exact .nil
  | cons event events ih =>
    rw [walkSteps, walkSteps, h.seen_eq, h.after_eq]
    exact .cons ⟨h, rfl, rfl, rfl⟩ (ih _)

/-- **A document has the same errors in schemas that are alike**, with rules that read schemas by name. -/
theorem validate_eq (document : Document) {rules : List Rule} (hrules : ∀ rule ∈ rules, rule.ReadsByName) :
    document.validate schema rules = document.validate schema' rules :=
  Document.validate_eq_of_respects (h.forall₂_walkSteps document document.events {})
    fun rule hrule => (hrules rule hrule).respects

end Schema.Alike

end GraphQLCheck
