/-
  GraphQLCheck.Proofs.Validation.Arguments
  ────────────────────────────────────────
  The arguments of a valid document are what their literals are worth.

  Validation looks at arguments along the walk, with the types that the tracker knows; coercion looks
  at the definition of a field.  They meet at the typing of the walk: beneath a field the walk enters each
  of its arguments, and the parameter that is known there is the one that the definition declares.

  Main facts:
    * `Rule.report_eq_nil_of_validate` — in a valid document no rule reports anything at any step
    * `enter_child_of_enter`           — beneath a node that is entered, every child is
    * `Argument.accepted_of_valid`     — in a valid document the type of a parameter accepts its argument
-/
import GraphQLCheck.Proofs.Coercion.Arguments
import GraphQLCheck.Proofs.Validation.Typing
import GraphQLCheck.Validation.TypeRules

namespace GraphQLCheck

/-! ## §1. Rules that report nothing. -/

namespace Rule

theorem report_eq_nil_of_reports {name : String} {report : WalkStep → List ValidationError}
    {visitors : List Visitor} {steps : List WalkStep}
    (hvisitor : Visitor.ofRule (.stateless name report) ∈ visitors)
    (h : (reports visitors steps).flatten = []) : ∀ step ∈ steps, report step = [] := by
  induction steps generalizing visitors with
  | nil =>
    intro step hstep
    cases hstep
  | cons first steps ih =>
    unfold reports at h
    rw [List.flatten_cons, List.append_eq_nil_iff, List.flatMap_eq_nil_iff] at h
    intro step hstep
    rcases List.mem_cons.1 hstep with rfl | hstep
    · exact h.1 _ hvisitor
    · -- a rule without a state is the same rule at the next step
      have hnext : Visitor.ofRule (.stateless name report) ∈ visitors.map (·.next first) :=
        List.mem_map.2 ⟨_, hvisitor, rfl⟩
      exact ih hnext h.2 step hstep

/-- In a valid document a rule that remembers nothing reports nothing at any step. -/
theorem report_eq_nil_of_validate {schema : Schema} {document : Document} {rules : List Rule}
    {name : String} {report : WalkStep → List ValidationError}
    (hrule : .stateless name report ∈ rules) (h : document.validate schema rules = []) :
    ∀ step ∈ walkSteps schema document {} document.events, report step = [] :=
  report_eq_nil_of_reports (List.mem_map_of_mem hrule) h

theorem problemsError_eq_nil_iff {message : String} {location : Location}
    {problems : List (Problem Literal)} :
    problemsError message location problems = [] ↔ problems = [] := by
  cases problems <;> simp [problemsError]

end Rule

/-! ## §2. Beneath a step of the walk. -/

section Walk

variable {schema : Schema} {document : Document}

theorem schema_of_mem_walkSteps {tracker : Tracker} {events : List Event} {step : WalkStep}
    (h : step ∈ walkSteps schema document tracker events) : step.schema = schema := by
  induction events generalizing tracker with
  | nil => cases h
  | cons event events ih =>
    rcases List.mem_cons.1 h with rfl | h
    · rfl
    · exact ih h

/-- In the walk from the top down, each child of a node that is entered is entered one step further
down. -/
theorem Node.mem_typedWalk_child {node inner child : Node} {outer typing : Typing}
    (h : (.enter inner, typing) ∈ node.typedWalk schema outer) (hchild : child ∈ inner.children) :
    (.enter child, typing.descend schema child) ∈ node.typedWalk schema outer := by
  induction node using Node.childInduction generalizing outer with
  | step node ih =>
    rw [typedWalk_eq] at h ⊢
    rcases List.mem_append.1 h with h | h
    · rcases List.mem_cons.1 h with heq | h
      · cases heq
        apply List.mem_append_left
        apply List.mem_cons_of_mem
        refine List.mem_flatMap.2 ⟨child, hchild, ?_⟩
        rw [typedWalk_eq]
        exact List.mem_cons_self ..
      · obtain ⟨other, hother, h⟩ := List.mem_flatMap.1 h
        apply List.mem_append_left
        apply List.mem_cons_of_mem
        exact List.mem_flatMap.2 ⟨other, hother, ih other hother h⟩
    · cases List.mem_singleton.1 h

/-- Each child of a node that is entered is entered in its turn, and its typing is one step further
down. -/
theorem enter_child_of_enter {step : WalkStep}
    (hstep : step ∈ walkSteps schema document {} document.events) {node child : Node}
    (hevent : step.event = .enter node) (hchild : child ∈ node.children) :
    ∃ next ∈ walkSteps schema document {} document.events, next.event = .enter child ∧
      next.tracker.typing = step.tracker.typing.descend schema child := by
  have hwalk : (walkSteps schema document {} document.events).map (·.typed) =
      (Node.document document).typedWalk schema {} :=
    typed_events ⟨rfl, rfl⟩ (.document document)
  have hmem : (.enter node, step.tracker.typing) ∈
      (walkSteps schema document {} document.events).map (·.typed) :=
    List.mem_map.2 ⟨step, hstep, by rw [WalkStep.typed, hevent]⟩
  have hnext := Node.mem_typedWalk_child (by rw [← hwalk]; exact hmem) hchild
  rw [← hwalk] at hnext
  obtain ⟨next, hnext, htyped⟩ := List.mem_map.1 hnext
  exact ⟨next, hnext, congrArg Prod.fst htyped, congrArg Prod.snd htyped⟩

end Walk

/-! ## §3. Arguments. -/

/-- The arguments of a valid document have no problems at the types of their parameters. -/
theorem Argument.accepted_of_valid {schema : Schema} {document : Document}
    (hvalid : document.validate schema Rule.defaults = []) {step : WalkStep}
    (hstep : step ∈ walkSteps schema document {} document.events) {field : Field}
    (hevent : step.event = .enter (.field field)) {definition : FieldDef}
    (hdefinition : step.tracker.fieldDef = some definition) {argument : Argument}
    (hargument : argument ∈ field.arguments) {parameter : InputDef}
    (hparameter : definition.parameter? argument.name = some parameter) :
    argument.value.problems schema parameter.type = [] := by
  have hchild : Node.argument argument ∈ (Node.field field).children :=
    List.mem_append_left _ (List.mem_map_of_mem hargument)
  obtain ⟨next, hnext, hentered, htyping⟩ := enter_child_of_enter hstep hevent hchild
  have hknown : next.tracker.argument = some parameter := by
    have hsame : next.tracker.argument =
        step.tracker.fieldDef.bind (·.parameter? argument.name) :=
      congrArg Typing.parameter htyping
    rw [hsame, hdefinition]
    exact hparameter
  have hrule : Rule.argumentsOfCorrectType ∈ Rule.defaults := by simp [Rule.defaults]
  have hreport := Rule.report_eq_nil_of_validate hrule hvalid next hnext
  rw [hentered, hknown, schema_of_mem_walkSteps hnext] at hreport
  exact Rule.problemsError_eq_nil_iff.1 hreport

/-- **An argument of a valid document is worth what its literal is.**  A finite literal without variables
has a value at the type of its parameter.  The parameter takes that value, never its default or null in
place of it; and if a field has no values for its arguments, then because of another parameter. -/
theorem argument_of_valid_document {schema : Schema} (hbuilt : schema.Built)
    (hcustom : schema.CustomScalars ScalarType.LiteralNullFree) (hdefaults : schema.DefaultsCoerce)
    {document : Document} (hvalid : document.validate schema Rule.defaults = [])
    {step : WalkStep} (hstep : step ∈ walkSteps schema document {} document.events)
    {field : Field} (hevent : step.event = .enter (.field field))
    {definition : FieldDef} (hdefinition : step.tracker.fieldDef = some definition)
    {argument : Argument} (hfirst : field.argument? argument.name = some argument)
    {parameter : InputDef} (hparameter : definition.parameter? argument.name = some parameter)
    (hclosed : argument.value.variables = []) (hfinite : argument.value.isFinite = true)
    (env : Variables) :
    ∃ value, schema.literalValue env parameter.type argument.value = .value value ∧
      parameter.resolveArgument schema env field = .value (some value) ∧
      ((∃ values, schema.coerceArguments definition field env = .value values ∧
          values.lookup parameter.name = some value) ∨
        ∃ other ∈ definition.parameters.toList, other.name ≠ parameter.name ∧
          schema.coerceArguments definition field env =
            .failure (.invalidArgument other.name definition.name other.type)) := by
  have haccepted := Argument.accepted_of_valid hvalid hstep hevent hdefinition
    (List.mem_of_find?_eq_some hfirst) hparameter
  have hbound : argument.value.BoundBy env := .of_closed hclosed
  obtain ⟨hmem, hname⟩ := Declarations.mem_of_find? hparameter
  obtain ⟨value, hvalue⟩ := Literal.exists_value_of_accepted hdefaults.exists_defaultValue hbound
    haccepted
  have hresolve : parameter.resolveArgument schema env field = .value (some value) := by
    apply InputDef.resolveArgument_of_literalValue (by rw [← hfirst, ← hname]; rfl) _ hvalue
    intro name hvariable
    rw [hvariable] at hclosed
    cases hclosed
  have hscalars := hbuilt.forall_scalar (fun _ => ScalarType.literalNullFree_of_builtin) hcustom
  have hadmits := InputDef.admits_of_accepted hscalars hbound hfinite haccepted hvalue
  exact ⟨value, hvalue, hresolve,
    Schema.coerceArguments_of_admitted hdefaults hmem ⟨hresolve, hadmits⟩⟩

namespace Search

def filterArgument : Argument := ⟨"filter", filterLiteral, ⟨1, 35⟩⟩

/-- A search with the filter, for as many results as a variable says. -/
def call : Field :=
  ⟨none, "search", [filterArgument, ⟨"first", .variable "n", ⟨1, 35⟩⟩], none, ⟨1, 35⟩⟩

/-- `query ($n: Int) { ... on Query { search(filter: ..., first: $n) } }` -/
def document : Document :=
  ⟨[.operation ⟨.query, none, [⟨"n", .named "Int", none, ⟨1, 8⟩⟩],
    ⟨[.inlineFragment ⟨some "Query", ⟨[.field call], ⟨1, 33⟩⟩, ⟨1, 19⟩⟩], ⟨1, 17⟩⟩, ⟨1, 1⟩⟩]⟩

/-- The search is valid, and its filter is worth what it is worth at the type of the parameter. -/
theorem filter_of_valid_document :
    schema.literalValue [] (.nonNull (.named "Filter")) filterLiteral =
      .value (.object [("tags", .array [.string "lean"]), ("order", .string "ASC"),
        ("range", .object [("from", .ofInt 2)])]) ∧
    ∃ value, schema.literalValue [] (.nonNull (.named "Filter")) filterLiteral = .value value ∧
      InputDef.resolveArgument schema [] call { name := "filter", type := .nonNull (.named "Filter") } =
        .value (some value) ∧
      ((∃ values, schema.coerceArguments search call [] = .value values ∧
          values.lookup "filter" = some value) ∨
        ∃ other ∈ search.parameters.toList, other.name ≠ "filter" ∧
          schema.coerceArguments search call [] =
            .failure (.invalidArgument other.name "search" other.type)) := by
  have hcustom := customScalars (ScalarType.nullFree_of_anyScalar rfl).1
  have hvalid : document.validate schema Rule.defaults = [] := rfl
  have hstep := List.get_mem (walkSteps schema document {} document.events) ⟨7, by decide⟩
  have hfirst : call.argument? filterArgument.name = some filterArgument := rfl
  have hparameter : search.parameter? filterArgument.name =
    some { name := "filter", type := .nonNull (.named "Filter") } := rfl
  exact ⟨rfl, argument_of_valid_document built hcustom defaultsCoerce hvalid hstep rfl rfl hfirst
    hparameter rfl rfl []⟩

end Search

end GraphQLCheck
