/-
  GraphQLCheck.Validation.Rule
  ────────────────────────────
  Rules, and running them over a document.

  A rule is a machine that reads the steps of the walk over a document.  At each step it reports
  errors, and goes on with a state of its own.  All rules of a list run over one walk: the errors come
  step by step, and at each step rule by rule.
-/
import GraphQLCheck.Validation.Tracker

namespace GraphQLCheck

/-! ## §1. Errors. -/

/-- What is wrong with a document, and where. -/
structure ValidationError where
  message : String
  locations : List Location
  /-- What led to the error.  It does not count when errors are compared. -/
  cause : Option String := none
  deriving Repr

/-- Errors are the same if they say the same of the same places. -/
instance : BEq ValidationError where
  beq a b := a.message == b.message && a.locations == b.locations

/-- Whether a document with these errors is valid. -/
def isValid (errors : List ValidationError) : Bool := errors.isEmpty

/-! ## §2. Rules. -/

/-- What a rule sees at a step of the walk. -/
structure WalkStep where
  schema : Schema
  document : Document
  /-- The types at the place. -/
  tracker : Tracker
  event : Event

/-- A rule. -/
structure Rule where
  name : String
  /-- What the rule remembers of the steps so far. -/
  State : Type
  start : State
  /-- What it remembers after a step. -/
  next : WalkStep → State → State
  /-- The errors that it reports at a step. -/
  report : WalkStep → State → List ValidationError

/-- A rule that remembers nothing. -/
def Rule.stateless (name : String) (report : WalkStep → List ValidationError) : Rule where
  name
  State := Unit
  start := ()
  next _ _ := ()
  report step _ := report step

/-- A rule in the middle of a walk. -/
structure Visitor where
  rule : Rule
  state : rule.State

namespace Visitor

/-- A rule before the walk. -/
def ofRule (rule : Rule) : Visitor := ⟨rule, rule.start⟩

/-- The rule after a step. -/
def next (visitor : Visitor) (step : WalkStep) : Visitor :=
  ⟨visitor.rule, visitor.rule.next step visitor.state⟩

/-- The errors of the rule at a step. -/
def report (visitor : Visitor) (step : WalkStep) : List ValidationError :=
  visitor.rule.report step visitor.state

end Visitor

/-! ## §3. Running rules. -/

/-- The steps of a walk, with the types at each place. -/
def walkSteps (schema : Schema) (document : Document) (tracker : Tracker) :
    List Event → List WalkStep
  | [] => []
  | event :: events =>
    ⟨schema, document, tracker.seen schema event, event⟩ ::
      walkSteps schema document (tracker.after schema event) events

/-- The errors of rules in the middle of a walk at each of the steps that are left. -/
def reports : List Visitor → List WalkStep → List (List ValidationError)
  | _, [] => []
  | visitors, step :: steps =>
    visitors.flatMap (·.report step) :: reports (visitors.map (·.next step)) steps

/-- The errors of a document, in the order in which rules report them. -/
def Document.validate (schema : Schema) (document : Document) (rules : List Rule) :
    List ValidationError :=
  (reports (rules.map .ofRule) (walkSteps schema document {} document.events)).flatten

end GraphQLCheck
