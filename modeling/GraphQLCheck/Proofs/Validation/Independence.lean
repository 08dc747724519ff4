/-
  GraphQLCheck.Proofs.Validation.Independence
  ───────────────────────────────────────────
  Rules that run over one walk do not see each other.

  A run of several rules goes from step to step, and at each step from rule to rule, while every rule goes
  on with a state of its own.  So what a rule reports at a step is what it reports there alone, and the
  errors of a list of rules are the errors of each of them, merged step by step.

  Main results:
    * `Rule.getElem?_reportsAlone`   — a rule alone reads each step once, after all steps before
    * `reports_eq_merge`             — a run of several rules is, at each step, all solo runs in turn
    * `flatten_reports_perm`         — so together they report what they report one after the other
    * `Document.attributedErrors`    — the errors, each with the place in the list of the rule that reports it
    * `rules_do_not_interfere`       — all of this, for the walk over a document
-/
import GraphQLCheck.Proofs.Validation.Walk
import Mathlib.Data.List.Perm.Basic

namespace GraphQLCheck

/-! ## §1. A rule alone. -/

namespace Rule

/-- What a rule remembers after some steps. -/
def stateAfter (rule : Rule) (steps : List WalkStep) : rule.State :=
  steps.foldl (fun state step => rule.next step state) rule.start

/-- What a rule reports at each step of the walk over a document if there is no other rule. -/
def reportsAlone (rule : Rule) (schema : Schema) (document : Document) : List (List ValidationError) :=
  reports [.ofRule rule] (walkSteps schema document {} document.events)

/-- What a rule reports at one step of the walk over a document if there is no other rule. -/
def reportedAlone (rule : Rule) (schema : Schema) (document : Document) (index : Nat) :
    List ValidationError :=
  ((rule.reportsAlone schema document)[index]?).getD []

end Rule

theorem reports_singleton_cons (visitor : Visitor) (step : WalkStep) (steps : List WalkStep) :
    reports [visitor] (step :: steps) = visitor.report step :: reports [visitor.next step] steps := by
  rw [reports, List.flatMap_singleton]
  rfl

/-- In the middle of a walk, a rule alone reads each step that is left once, after all steps before. -/
theorem getElem?_reports (visitor : Visitor) (steps : List WalkStep) (index : Nat) :
    (reports [visitor] steps)[index]? =
      (steps[index]?).map (((steps.take index).foldl Visitor.next visitor).report ·) := by
  induction steps generalizing visitor index with
  | nil => rfl
  | cons step steps ih =>
    rw [reports_singleton_cons]
    cases index with
    | zero => rfl
    | succ index => exact ih (visitor.next step) index

/-- A rule stays the same rule along a walk, and only what it remembers changes. -/
theorem foldl_next (rule : Rule) (state : rule.State) (steps : List WalkStep) :
    steps.foldl Visitor.next ⟨rule, state⟩ =
      ⟨rule, steps.foldl (fun state step => rule.next step state) state⟩ := by
  induction steps generalizing state with
  | nil => rfl
  | cons step steps ih => exact ih (rule.next step state)

/-- A rule alone reads each step of a walk once, after all steps before. -/
theorem Rule.getElem?_reportsAlone (rule : Rule) (schema : Schema) (document : Document) (index : Nat) :
    (rule.reportsAlone schema document)[index]? =
      ((walkSteps schema document {} document.events)[index]?).map fun step =>
        rule.report step
          (rule.stateAfter ((walkSteps schema document {} document.events).take index)) := by
  unfold reportsAlone
  rw [getElem?_reports]
  unfold Visitor.ofRule
  rw [foldl_next]
  rfl

theorem map_event_walkSteps (schema : Schema) (document : Document) (tracker : Tracker)
    (events : List Event) : (walkSteps schema document tracker events).map (·.event) = events := by
  induction events generalizing tracker with
  | nil => rfl
  | cons event events ih => rw [walkSteps, List.map_cons, ih]

/-! ## §2. Several rules. -/

/-- **A run of several rules is, at each step, the solo runs in turn.** -/
theorem reports_eq_merge (visitors : List Visitor) (steps : List WalkStep) :
    reports visitors steps = (List.range steps.length).map fun index =>
      visitors.flatMap fun visitor => ((reports [visitor] steps)[index]?).getD [] := by
  induction steps generalizing visitors with
  | nil => rfl
  | cons step steps ih =>
    rw [reports, ih, List.length_cons, List.range_succ_eq_map, List.map_cons, List.map_map]
    congr 1
    · simp only [reports_singleton_cons]
      rfl
    · apply List.map_congr_left
      intro index _
      rw [List.flatMap_map]
      simp only [Function.comp_apply, reports_singleton_cons, List.getElem?_cons_succ]

/-- Together, rules report what they report one after the other, in some order. -/
theorem flatten_reports_perm (visitors : List Visitor) (steps : List WalkStep) :
    (reports visitors steps).flatten.Perm
      (visitors.flatMap fun visitor => (reports [visitor] steps).flatten) := by
  induction steps generalizing visitors with
  | nil =>
    have hnil : (visitors.flatMap fun visitor => (reports [visitor] []).flatten) = [] :=
      List.flatMap_eq_nil_iff.2 fun _ _ => rfl
    rw [hnil]
    exact .refl _
  | cons step steps ih =>
    have hmerge := (List.flatMap_append_perm visitors (·.report step) fun visitor =>
      (reports [visitor.next step] steps).flatten)
    rw [reports, List.flatten_cons]
    refine (List.Perm.append_left _ (ih (visitors.map (·.next step)))).trans ?_
    rw [List.flatMap_map]
    simp only [reports_singleton_cons, List.flatten_cons]
    exact hmerge

/-! ## §3. The errors of a document. -/

namespace Document

variable (schema : Schema) (document : Document) (rules : List Rule)

/-- The errors of a document are, step by step and at each step rule by rule, what each rule reports there
alone. -/
theorem validate_eq_merge :
    document.validate schema rules = (List.range document.events.length).flatMap fun index =>
      rules.flatMap (·.reportedAlone schema document index) := by
  have hlength : (walkSteps schema document {} document.events).length = document.events.length := by
    conv => rhs; rw [← map_event_walkSteps schema document {} document.events]
    rw [List.length_map]
  unfold validate
  rw [reports_eq_merge, hlength, List.flatMap_def]
  simp only [List.flatMap_map]
  rfl

/-- The errors of a document, each with the place in the list of the rule that reports it. -/
def attributedErrors : List (Nat × ValidationError) :=
  (List.range document.events.length).flatMap fun index =>
    rules.zipIdx.flatMap fun numbered =>
      (numbered.1.reportedAlone schema document index).map fun error => (numbered.2, error)

theorem map_attributedErrors :
    (document.attributedErrors schema rules).map (·.2) = document.validate schema rules := by
  have hstep : ∀ index : Nat, (rules.zipIdx.flatMap fun numbered =>
        (numbered.1.reportedAlone schema document index).map fun error => (numbered.2, error)).map (·.2) =
      rules.flatMap (·.reportedAlone schema document index) := by
    intro index
    conv => rhs; rw [← List.zipIdx_map_fst 0 rules, List.flatMap_map]
    rw [List.map_flatMap]
    simp only [List.map_map, Function.comp_def, List.map_id']
  unfold attributedErrors
  rw [validate_eq_merge, List.map_flatMap]
  simp only [hstep]

/-- The errors that are attributed to one rule are those that it reports alone, in the same order. -/
theorem filter_attributedErrors {rules : List Rule} {place : Nat} {rule : Rule}
    (h : rules[place]? = some rule) :
    ((document.attributedErrors schema rules).filter fun attributed => attributed.1 = place) =
      (document.validate schema [rule]).map fun error => (place, error) := by
  have hstep : ∀ index : Nat, (rules.zipIdx.flatMap fun numbered =>
        ((numbered.1.reportedAlone schema document index).map fun error => (numbered.2, error)).filter
          fun attributed => attributed.1 = place) =
      (rule.reportedAlone schema document index).map fun error => (place, error) := by
    intro index
    rw [flatMap_zipIdx_of_ne 0 place, h, Nat.zero_add]
    · show ((rule.reportedAlone schema document index).map fun error => (place, error)).filter _ = _
      rw [List.filter_eq_self]
      intro attributed hmem
      obtain ⟨error, _, rfl⟩ := List.mem_map.1 hmem
      simp
    · intro other number hne
      rw [List.filter_eq_nil_iff]
      intro attributed hmem
      obtain ⟨error, _, rfl⟩ := List.mem_map.1 hmem
      simpa using hne
  unfold attributedErrors
  rw [List.filter_flatMap]
  simp only [List.filter_flatMap, hstep]
  rw [validate_eq_merge, List.map_flatMap]
  simp only [List.flatMap_singleton]

/-- Together, rules report the errors that they report one after the other, in some order. -/
theorem validate_perm :
    (document.validate schema rules).Perm (rules.flatMap fun rule => document.validate schema [rule]) := by
  have hperm := flatten_reports_perm (rules.map .ofRule) (walkSteps schema document {} document.events)
  rw [List.flatMap_map] at hperm
  exact hperm

/-- A document is valid for a list of rules exactly if it is valid for each of them. -/
theorem isValid_validate_iff :
    isValid (document.validate schema rules) = true ↔
      ∀ rule ∈ rules, isValid (document.validate schema [rule]) = true := by
  unfold isValid
  simp only [List.isEmpty_iff]
  rw [← List.flatMap_eq_nil_iff]
  exact ⟨fun h => (h ▸ document.validate_perm schema rules).nil_eq.symm,
    fun h => (h ▸ document.validate_perm schema rules).eq_nil⟩

end Document

/-- **Rules do not interfere.**  There is one walk over a document, which enters a node, walks its children
in order and leaves it, and so comes twice to what stands at each place: to enter it and to leave it.  Every
rule reads each step of the walk once, in order.  The errors for a list of rules are, step by step and at
each step rule by rule, what each rule reports there alone.  So each rule's errors are those that it reports
alone, in the same order; all errors are those of the rules one after the other, in some order; and a
document is valid for the list exactly if it is for each rule of it. -/
theorem rules_do_not_interfere (schema : Schema) (document : Document) (rules : List Rule) :
    ((∀ node : Node, node.events = node.around (node.children.flatMap (·.events))) ∧
      (Node.document document).placedWalk.map (·.2) = document.events ∧
      (∀ (place : List Nat) (node : Node), (Node.document document).At place node →
        ((Node.document document).placedWalk.filter fun step => step.1 = place) =
          [(place, .enter node), (place, .leave node)]) ∧
      ∀ step ∈ (Node.document document).placedWalk, ∃ node, (Node.document document).At step.1 node) ∧
    ((walkSteps schema document {} document.events).map (·.event) = document.events ∧
      ∀ (rule : Rule) (index : Nat), (rule.reportsAlone schema document)[index]? =
        ((walkSteps schema document {} document.events)[index]?).map fun step =>
          rule.report step
            (rule.stateAfter ((walkSteps schema document {} document.events).take index))) ∧
    (∀ rule : Rule, (rule.reportsAlone schema document).flatten = document.validate schema [rule]) ∧
    document.validate schema rules = ((List.range document.events.length).flatMap fun index =>
      rules.flatMap (·.reportedAlone schema document index)) ∧
    ((document.attributedErrors schema rules).map (·.2) = document.validate schema rules ∧
      ∀ (place : Nat) (rule : Rule), rules[place]? = some rule →
        ((document.attributedErrors schema rules).filter fun attributed => attributed.1 = place) =
          (document.validate schema [rule]).map fun error => (place, error)) ∧
    (document.validate schema rules).Perm (rules.flatMap fun rule => document.validate schema [rule]) ∧
    (isValid (document.validate schema rules) = true ↔
      ∀ rule ∈ rules, isValid (document.validate schema [rule]) = true) := by
  refine ⟨⟨Node.events_eq, Node.map_placedWalk _, fun _ _ => Node.filter_placedWalk, ?_⟩,
    ⟨map_event_walkSteps schema document {} document.events,
      fun rule index => rule.getElem?_reportsAlone schema document index⟩,
    fun _ => rfl, document.validate_eq_merge schema rules,
    ⟨document.map_attributedErrors schema rules, fun _ _ h => document.filter_attributedErrors schema h⟩,
    document.validate_perm schema rules, document.isValid_validate_iff schema rules⟩
  intro step hstep
  obtain ⟨node, hat, _⟩ := Node.at_of_mem_placedWalk hstep
  exact ⟨node, hat⟩

end GraphQLCheck
