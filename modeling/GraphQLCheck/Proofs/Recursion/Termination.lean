/-
  GraphQLCheck.Proofs.Recursion.Termination
  ─────────────────────────────────────────
  What ends, and under which condition.

  Evaluations, the coercions of variables and of arguments, the shapes of a schema and conversions to shapes
  go on for ever only where a default leads back to itself.  Checks go on for ever nowhere.  That an input
  object has fields of its own type is no circle: what counts are the defaults of these fields.

  Main results:
    * `Schema.shapeCalls`                     — the evaluations that the shapes of a schema take
    * `evaluation_ends_without_circular_defaults` — evaluations, coercions, conversions and checks come to
                                                an end
-/
import GraphQLCheck.Proofs.Coercion.Arguments
import GraphQLCheck.Proofs.Coercion.Variables
import GraphQLCheck.Proofs.Recursion.Checks
import GraphQLCheck.Proofs.Recursion.Conversion
import GraphQLCheck.Proofs.Recursion.Defaults
import GraphQLCheck.Proofs.Schema.Built

namespace GraphQLCheck

/-! ## §1. All that ends. -/

/-- The calls for the shapes of a schema: one for each default of an input field. -/
def Schema.shapeCalls (schema : Schema) : List EvaluationCall :=
  schema.types.toList.flatMap fun
    | .inputObject type =>
      type.fields.toList.filterMap fun field => field.defaultValue.map (.literal [] field.type ·)
    | _ => []

/-- **Evaluations end unless defaults are circular, and checks end always.**  In a schema in which no default
depends on itself, what literals and runtime values are worth follows a recursion in which every call takes
finitely many calls.  So the recursion alone determines it, and there is an outcome; hence variables and
arguments are coerced to an outcome, and the shapes of the schema take finitely many calls.  The same holds of
the conversion of every value to every shape of a registry in which no default depends on itself.  The checks
of literals and of runtime values are determined by recursions in which every call takes finitely many calls,
in any schema. -/
theorem evaluation_ends_without_circular_defaults :
    (∀ schema : Schema, schema.DefaultsAcyclic →
      (schema.evaluation.Follows schema.evaluate ∧ (∀ call, schema.evaluation.Ends call) ∧
        ∀ other, schema.evaluation.Follows other → other = schema.evaluate) ∧
      (∀ env type literal, schema.literalValue env type literal ≠ .endless) ∧
      (∀ type value, schema.coerceValue type value ≠ .endless) ∧
      (∀ operation inputs, schema.coerceVariables operation inputs ≠ .endless) ∧
      (∀ definition field env, schema.coerceArguments definition field env ≠ .endless) ∧
      ∃ count, schema.evaluation.TakesAll schema.shapeCalls count) ∧
    (∀ registry : ShapeRegistry, registry.DefaultsAcyclic →
      (registry.conversion.Follows registry.convert ∧ (∀ call, registry.conversion.Ends call) ∧
        ∀ other, registry.conversion.Follows other → other = registry.convert) ∧
      ∀ shape value, registry.materialize shape value ≠ .endless) ∧
    ∀ schema : Schema,
      ((schema.literalCheck.Follows fun call => schema.literalProblems call.type call.value) ∧
        (∀ call, schema.literalCheck.Ends call) ∧
        ∀ other, schema.literalCheck.Follows other →
          other = fun call => schema.literalProblems call.type call.value) ∧
      (schema.valueCheck.Follows fun call => call.value.problems schema call.type) ∧
        (∀ call, schema.valueCheck.Ends call) ∧
        ∀ other, schema.valueCheck.Follows other → other = fun call => call.value.problems schema call.type := by
  refine ⟨fun schema hacyclic => ?_, fun registry hacyclic => ?_, fun schema => ?_⟩
  · have hfollows := schema.follows_evaluate
    have hdefaults := hacyclic.defaultsEnd
    exact ⟨⟨hfollows, hacyclic.ends, fun _ => hfollows.unique hacyclic.ends⟩,
      hdefaults.literalValue_ne_endless, hdefaults.coerceValue_ne_endless,
      hdefaults.coerceVariables_ne_endless, hdefaults.coerceArguments_ne_endless,
      Recursion.exists_takesAll fun call _ => hacyclic.ends call⟩
  · have hfollows := registry.follows_materialize
    exact ⟨⟨hfollows, hacyclic.ends, fun _ => hfollows.unique hacyclic.ends⟩,
      hacyclic.materialize_ne_endless⟩
  · have hliterals := schema.follows_literalProblems
    have hvalues := schema.follows_valueProblems
    exact ⟨⟨hliterals, schema.ends_literalCheck, fun _ => hliterals.unique schema.ends_literalCheck⟩,
      hvalues, schema.ends_valueCheck, fun _ => hvalues.unique schema.ends_valueCheck⟩

/-! ## §2. An input object with a field of its own type.

The schema is

    input Node { depth: Int = 1, next: Node = default }
    type Query { depth(of: Node!): Int }

with the default of `next` left open.  With `{next: null}` it leaves out only `depth`, whose default leaves
nothing out.  With `{}` it leaves itself out.
-/

namespace Chain

def node (default : Literal) : InputObjectType where
  name := "Node"
  fields := ⟨[{ name := "depth", type := .named "Int", defaultValue := some (.int 1) },
    { name := "next", type := .named "Node", defaultValue := some default }], by
      show ["depth", "next"].Nodup
      decide⟩

def depthOf : FieldDef where
  name := "depth"
  type := .named "Int"
  parameters := ⟨[{ name := "of", type := .nonNull (.named "Node") }], by decide⟩

def query : FieldedType where
  name := "Query"
  fields := ⟨[depthOf], by decide⟩

def types (default : Literal) : List TypeDef := [.inputObject (node default), .object query]

def schema (default : Literal) : Schema where
  types := ⟨SchemaBuilder.builtinTypes.toList ++ types default, by
    show (SchemaBuilder.builtinTypes.names ++ ["Node", "Query"]).Nodup
    decide⟩
  queryType := "Query"
  mutationType := none
  subscriptionType := none

theorem built (default : Literal) : (schema default).Built :=
  ⟨{ types := (schema default).types, roots := {}, coercions := [] },
    SchemaBuilder.Reachable.addTypes (types default) .empty rfl, rfl⟩

/-- The node after which no other one comes. -/
def lastNode : Literal := .object [("next", .null)]

theorem eq_node {type : InputObjectType} {default : Literal} {name : String}
    (h : (schema default).find? name = some (.inputObject type)) : type = node default := by
  have hmem := (Declarations.mem_of_find? h).1
  simpa [schema, types, SchemaBuilder.builtinTypes, ScalarType.builtins] using hmem

/-- The default of `next` depends on that of `depth`, which depends on none. -/
theorem defaultsAcyclic : (schema lastNode).DefaultsAcyclic := by
  refine not_transGen_self_of_lt
    (fun field : (schema lastNode).DefaultedField => if field.field.name = "next" then 1 else 0) ?_
  rintro ⟨owner, field, default, hdeclared, hfield, hdefault⟩
    ⟨owner', field', default', hdeclared', hfield', hdefault'⟩ (homits : default.Omits _ owner' field' _)
  have howner' := eq_node hdeclared'
  subst howner'
  rw [eq_node hdeclared] at hfield
  simp only [node, List.mem_cons, List.not_mem_nil, or_false] at hfield hfield'
  rcases hfield with rfl | rfl
  · cases hdefault
    cases homits
  · cases hdefault
    cases homits with
    | here _ _ homitted =>
      rcases hfield' with rfl | rfl
      · show (if "depth" = "next" then 1 else 0) < if "next" = "next" then 1 else 0
        decide
      · -- `next` itself is given
        obtain ⟨_, hvariable⟩ := homitted _ (List.mem_singleton.2 rfl) rfl
        cases hvariable
    | @member _ _ _ _ literal _ _ hgiven homits =>
      have hnull : literal = .null := congrArg Prod.snd (List.mem_singleton.1 hgiven)
      subst hnull
      cases homits

/-- The shapes of the schema. -/
def shapes : ShapeRegistry where
  objects := [("Node", { name := "Node", members :=
    [{ name := "depth", shape := .nullable (.primitive .int), defaultValue := some (.ofInt 1) },
      { name := "next", shape := .nullable (.object "Node"),
        defaultValue := some (.object [("depth", .ofInt 1), ("next", .null)]) }] })]

theorem inputShapes_eq : (schema lastNode).inputShapes = shapes := rfl

/-- As a value, the default of `next` has both members. -/
theorem shapes_defaultsAcyclic : shapes.DefaultsAcyclic := by
  refine not_transGen_self_of_lt (fun _ => 0) ?_
  rintro ⟨name, owner, member, default, hfind, hmember, hdefault⟩
    ⟨name', owner', member', default', hfind', hmember', hdefault'⟩
    (hlacks : default.Lacks _ owner' member' _)
  cases List.mem_singleton.1 (ShapeRegistry.mem_of_object? hfind)
  cases List.mem_singleton.1 (ShapeRegistry.mem_of_object? hfind')
  simp only [List.mem_cons, List.not_mem_nil, or_false] at hmember hmember'
  rcases hmember with rfl | rfl
  · cases hdefault
    cases hlacks
  · cases hdefault
    cases hlacks with
    | here _ _ _ hentry =>
      rcases hmember' with rfl | rfl
      all_goals cases hentry
    | member hshape hfind hinner hentry hlacks =>
      cases hshape
      cases List.mem_singleton.1 (ShapeRegistry.mem_of_object? hfind)
      simp only [List.mem_cons, List.not_mem_nil, or_false] at hinner
      rcases hinner with rfl | rfl
      all_goals
        cases hentry
        cases hlacks

/-- A node of which nothing is given takes its depth and the node after it from the defaults, and the node
after it takes its depth from the default again. -/
theorem nodes_end :
    (schema lastNode).Built ∧ (schema lastNode).DefaultsAcyclic ∧ shapes.DefaultsAcyclic ∧
    ((∀ call, (schema lastNode).evaluation.Ends call) ∧
      (schema lastNode).literalValue [] (.named "Node") (.object []) =
        .value (.object [("depth", .ofInt 1), ("next", .object [("depth", .ofInt 1), ("next", .null)])])) ∧
    ((schema lastNode).inputShapes = shapes ∧ (∀ call, shapes.conversion.Ends call) ∧
      shapes.materialize (.object "Node") (.object []) =
        .value (.object [("depth", .int 1), ("next", .object [("depth", .int 1), ("next", .null)])])) ∧
    ∀ call, (schema (.object [])).literalCheck.Ends call := by
  have ⟨hevaluation, hconversion, hcheck⟩ := evaluation_ends_without_circular_defaults
  exact ⟨built lastNode, defaultsAcyclic, shapes_defaultsAcyclic,
    ⟨(hevaluation _ defaultsAcyclic).1.2.1, rfl⟩,
    ⟨inputShapes_eq, (hconversion _ shapes_defaultsAcyclic).1.2.1, rfl⟩, (hcheck _).1.2.1⟩

/-- The default `{}` of `next` leads back to itself. -/
example : (schema (.object [])).literalValue [] (.named "Node") (.object []) = .endless := rfl

end Chain

end GraphQLCheck
