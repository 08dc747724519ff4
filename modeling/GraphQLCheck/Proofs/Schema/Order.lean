/-
  GraphQLCheck.Proofs.Schema.Order
  ────────────────────────────────
  The order of building does not matter.

  Registrations are refused for two reasons: a type of the name is there, or the operation kind has a root.
  So what is refused in a list of registrations depends on pairs of them, and whether all are taken in does
  not depend on their order.  In another order a builder holds the same types in another order, the same
  roots, and the same coercions as long as no scalar is given two.  To build a schema is to look types up
  under their names, and so is all that is done with a schema.

  Main results:
    * `SchemaBuilder.exists_registerAll_iff` — registrations are taken in if no two of them conflict
    * `SchemaBuilder.alike_of_runAll`        — what builders hold after the same steps in another order
    * `SchemaBuilder.Alike.schema`           — their schemas are alike
    * `Schema.SameAnswers`                   — what there is no difference in between schemas that are alike
    * `build_order_does_not_matter`          — steps in another order lead to a schema with the same answers
-/
import GraphQLCheck.Proofs.Schema.Closed
import GraphQLCheck.Proofs.Validation.ByName

namespace GraphQLCheck

/-! ## §1. Registrations that do not conflict. -/

namespace Registration

/-- Two registrations conflict if they are types of one name or roots of one operation kind. -/
def Compatible : Registration → Registration → Prop
  | .type added, .type added' => added.name ≠ added'.name
  | .root operation _, .root operation' _ => operation ≠ operation'
  | _, _ => True

theorem Compatible.symm {registration registration' : Registration}
    (h : registration.Compatible registration') : registration'.Compatible registration := by
  cases registration <;> cases registration' <;> first | exact Ne.symm h | exact trivial

end Registration

namespace SchemaBuilder

variable {builder builder' : SchemaBuilder}

/-- What a builder can register. -/
def Accepts (builder : SchemaBuilder) (registration : Registration) : Prop :=
  ∃ builder', builder.register registration = .ok builder'

theorem accepts_type_iff {type : TypeDef} :
    builder.Accepts (.type type) ↔ type.name ∉ builder.types.toList.map TypeDef.name := by
  unfold Accepts register addType
  simp only []
  split
  next types hadd =>
    refine iff_of_true ⟨_, rfl⟩ fun hmem => ?_
    rw [Declarations.add?_eq_none_iff.2 hmem] at hadd
    cases hadd
  next hadd =>
    refine iff_of_false ?_ (not_not_intro (Declarations.add?_eq_none_iff.1 hadd))
    rintro ⟨_, h⟩
    cases h

theorem accepts_root_iff {operation : OperationKind} {typeName : String} :
    builder.Accepts (.root operation typeName) ↔ builder.roots.named operation = none := by
  constructor
  · rintro ⟨_, h⟩
    exact (eq_of_setRoot h).1
  · intro hnone
    obtain ⟨types, ⟨query, mutation, subscription⟩, coercions⟩ := builder
    unfold Accepts register
    cases operation <;> cases hnone <;> exact ⟨_, rfl⟩

theorem accepts_coercion (builder : SchemaBuilder) (scalarName : String) (coercion : ScalarCoercion) :
    builder.Accepts (.coercion scalarName coercion) :=
  ⟨_, rfl⟩

/-- **After a registration, what conflicts with it is refused, and nothing else that was accepted.** -/
theorem accepts_of_register {registration : Registration}
    (h : builder.register registration = .ok builder') (other : Registration) :
    builder'.Accepts other ↔ builder.Accepts other ∧ registration.Compatible other := by
  -- types conflict by their names and roots by their operations; nothing else does
  cases registration with
  | type type =>
    have htypes : builder'.types.toList = builder.types.toList ++ [type] := types_of_addType h
    have hroots : builder'.roots = builder.roots := by
      unfold register addType at h
      simp only [] at h
      split at h
      next =>
        cases h
        rfl
      next => cases h
    cases other with
    | type other =>
      rw [accepts_type_iff, accepts_type_iff, htypes, List.map_append, List.mem_append, not_or]
      simp only [List.map_cons, List.map_nil, List.mem_singleton, Registration.Compatible, ne_comm, ne_eq]
    | root operation typeName =>
      rw [accepts_root_iff, accepts_root_iff, hroots]
      exact (and_iff_left trivial).symm
    | coercion scalarName coercion =>
      exact iff_of_true (accepts_coercion ..) ⟨accepts_coercion .., trivial⟩
  | root operation typeName =>
    obtain ⟨hnone, hsome, hothers, htypes, _⟩ := eq_of_setRoot h
    cases other with
    | type other =>
      rw [accepts_type_iff, accepts_type_iff, htypes]
      exact (and_iff_left trivial).symm
    | root operation' typeName' =>
      rw [accepts_root_iff, accepts_root_iff]
      by_cases hsame : operation' = operation
      · subst hsame
        rw [hsome]
        simp [Registration.Compatible]
      · rw [hothers operation' hsame]
        exact (and_iff_left (Ne.symm hsame)).symm
    | coercion scalarName coercion =>
      exact iff_of_true (accepts_coercion ..) ⟨accepts_coercion .., trivial⟩
  | coercion scalarName coercion =>
    cases h
    have hcompatible : (Registration.coercion scalarName coercion).Compatible other := by
      cases other <;> exact trivial
    rw [and_iff_left hcompatible]
    cases other with
    | type other => rw [accepts_type_iff, accepts_type_iff]; rfl
    | root operation typeName => rw [accepts_root_iff, accepts_root_iff]; rfl
    | coercion scalarName' coercion' => exact iff_of_true (accepts_coercion ..) (accepts_coercion ..)

/-- **Registrations are taken in if the builder accepts each of them and no two conflict.** -/
theorem exists_registerAll_iff {registrations : List Registration} :
    (∃ builder', builder.registerAll registrations = .ok builder') ↔
      (∀ registration ∈ registrations, builder.Accepts registration) ∧
        registrations.Pairwise Registration.Compatible := by
  induction registrations generalizing builder with
  | nil => exact iff_of_true ⟨builder, rfl⟩ ⟨fun _ h => (nomatch h), .nil⟩
  | cons registration registrations ih =>
    have hcons : (∃ builder', builder.registerAll (registration :: registrations) = .ok builder') ↔
        ∃ middle, builder.register registration = .ok middle ∧
          ∃ builder', middle.registerAll registrations = .ok builder' := by
      unfold registerAll
      simp only [List.foldlM_cons, bind_eq_ok_iff]
      rw [exists_comm]
      simp only [exists_and_left]
    rw [hcons, List.forall_mem_cons, List.pairwise_cons]
    constructor
    · rintro ⟨middle, hmiddle, hrest⟩
      obtain ⟨haccepts, hpairwise⟩ := ih.1 hrest
      have heach := fun other hother => (accepts_of_register hmiddle other).1 (haccepts other hother)
      exact ⟨⟨⟨middle, hmiddle⟩, fun other hother => (heach other hother).1⟩,
        fun other hother => (heach other hother).2, hpairwise⟩
    · rintro ⟨⟨⟨middle, hmiddle⟩, haccepts⟩, hcompatible, hpairwise⟩
      refine ⟨middle, hmiddle, ih.2 ⟨fun other hother => ?_, hpairwise⟩⟩
      exact (accepts_of_register hmiddle other).2 ⟨haccepts other hother, hcompatible other hother⟩

/-- Registrations are taken in in any order or in none. -/
theorem exists_registerAll_of_perm {registrations registrations' : List Registration}
    (hperm : registrations.Perm registrations')
    (h : ∃ builder', builder.registerAll registrations = .ok builder') :
    ∃ builder', builder.registerAll registrations' = .ok builder' := by
  obtain ⟨haccepts, hpairwise⟩ := exists_registerAll_iff.1 h
  exact exists_registerAll_iff.2 ⟨fun registration hmem => haccepts registration (hperm.mem_iff.2 hmem),
    (hperm.pairwise_iff Registration.Compatible.symm).1 hpairwise⟩

end SchemaBuilder

/-! ## §2. Steps in another order. -/

/-- What is computed item by item is computed for another order of the items, in that order. -/
theorem mapM_perm {f : α → Except ε β} {items items' : List α} (h : items.Perm items') :
    ∀ {results : List β}, items.mapM f = .ok results →
      ∃ results', items'.mapM f = .ok results' ∧ results.Perm results' := by
  induction h with
  | nil => exact fun hall => ⟨_, hall, .refl _⟩
  | cons item _ ih =>
    intro results hall
    obtain ⟨first, rest, hfirst, hrest, rfl⟩ := mapM_cons_eq_ok_iff.1 hall
    obtain ⟨rest', hrest', hperm⟩ := ih hrest
    exact ⟨first :: rest', mapM_cons_eq_ok_iff.2 ⟨first, rest', hfirst, hrest', rfl⟩, hperm.cons first⟩
  | swap item item' items =>
    intro results hall
    obtain ⟨first, others, hfirst, hothers, rfl⟩ := mapM_cons_eq_ok_iff.1 hall
    obtain ⟨second, rest, hsecond, hrest, rfl⟩ := mapM_cons_eq_ok_iff.1 hothers
    have hothers' := mapM_cons_eq_ok_iff.2 ⟨first, rest, hfirst, hrest, rfl⟩
    exact ⟨second :: first :: rest, mapM_cons_eq_ok_iff.2 ⟨second, _, hsecond, hothers', rfl⟩, .swap ..⟩
  | trans _ _ ih ih' =>
    intro results hall
    obtain ⟨middle, hmiddle, hperm⟩ := ih hall
    obtain ⟨results', hresults', hperm'⟩ := ih' hmiddle
    exact ⟨results', hresults', hperm.trans hperm'⟩

namespace BuildStep

/-- Steps in another order register the same, in another order. -/
theorem registrationsOf_perm {steps steps' : List BuildStep} (h : steps.Perm steps')
    {registrations : List Registration} (hall : registrationsOf steps = .ok registrations) :
    ∃ registrations', registrationsOf steps' = .ok registrations' ∧ registrations.Perm registrations' := by
  obtain ⟨parts, hparts, rfl⟩ := map_eq_ok_iff.1 hall
  obtain ⟨parts', hparts', hperm⟩ := mapM_perm h hparts
  exact ⟨parts'.flatten, map_eq_ok_iff.2 ⟨parts', hparts', rfl⟩, hperm.flatten⟩

/-- The scalar that a step gives a coercion, if it does. -/
def scalarName? : BuildStep → Option String
  | .register (.coercion scalarName _) => some scalarName
  | _ => none

end BuildStep

namespace Sdl.Definition

/-- No definition gives a scalar a coercion. -/
theorem coercions_of_registrations {definition : Sdl.Definition}
    {registrations : List Registration} (h : definition.registrations = .ok registrations) :
    registrations.filterMap (·.coercion?) = [] := by
  cases definition with
  | schema roots =>
    cases h
    unfold Sdl.RootNames.registrations
    simp only [List.filterMap_append, List.filterMap_map, List.append_eq_nil_iff,
      List.filterMap_eq_nil_iff]
    exact ⟨⟨fun _ _ => rfl, fun _ _ => rfl⟩, fun _ _ => rfl⟩
  | type definition =>
    obtain ⟨type, _, rfl⟩ := map_eq_ok_iff.1 h
    rfl
  | extension typeName => cases h
  | directive name =>
    cases h
    rfl

theorem coercions_of_mapM {definitions : List Sdl.Definition} {parts : List (List Registration)}
    (h : definitions.mapM (·.registrations) = .ok parts) :
    parts.flatten.filterMap (·.coercion?) = [] := by
  induction definitions generalizing parts with
  | nil =>
    cases h
    rfl
  | cons definition definitions ih =>
    obtain ⟨own, rest, hown, hrest, rfl⟩ := mapM_cons_eq_ok_iff.1 h
    rw [List.flatten_cons, List.filterMap_append, coercions_of_registrations hown, ih hrest]
    rfl

end Sdl.Definition

namespace BuildStep

/-- A step gives a coercion to the scalar that it says, and to no other one. -/
theorem coercions_of_registrations {step : BuildStep} {registrations : List Registration}
    (h : step.registrations = .ok registrations) :
    (registrations.filterMap (·.coercion?)).map Prod.fst = step.scalarName?.toList := by
  cases step with
  | register registration =>
    cases h
    cases registration <;> rfl
  | load text =>
    obtain ⟨definitions, _, h⟩ := bind_eq_ok_iff.1 h
    obtain ⟨parts, hparts, rfl⟩ := map_eq_ok_iff.1 h
    rw [Sdl.Definition.coercions_of_mapM hparts]
    rfl

/-- The scalars that steps give coercions. -/
theorem coercions_of_registrationsOf {steps : List BuildStep} {registrations : List Registration}
    (h : registrationsOf steps = .ok registrations) :
    (registrations.filterMap (·.coercion?)).map Prod.fst = steps.filterMap scalarName? := by
  obtain ⟨parts, hparts, rfl⟩ := map_eq_ok_iff.1 h
  clear h
  induction steps generalizing parts with
  | nil =>
    cases hparts
    rfl
  | cons step steps ih =>
    obtain ⟨own, rest, hown, hrest, rfl⟩ := mapM_cons_eq_ok_iff.1 hparts
    rw [List.flatten_cons, List.filterMap_append, List.map_append, ih rest hrest,
      step.coercions_of_registrations hown, List.filterMap_cons]
    cases step.scalarName? <;> rfl

end BuildStep

/-! ## §3. Builders that hold the same. -/

namespace SchemaBuilder

/-- Two builders hold the same, in some order. -/
structure Alike (builder builder' : SchemaBuilder) : Prop where
  types : builder.types.toList.Perm builder'.types.toList
  roots : builder.roots = builder'.roots
  coercions : builder.coercions.Perm builder'.coercions

theorem roots_eq_of_named {roots roots' : Sdl.RootNames}
    (h : ∀ operation, roots.named operation = roots'.named operation) : roots = roots' := by
  obtain ⟨query, mutation, subscription⟩ := roots
  obtain ⟨query', mutation', subscription'⟩ := roots'
  have hquery : query = query' := h .query
  have hmutation : mutation = mutation' := h .mutation
  have hsubscription : subscription = subscription' := h .subscription
  rw [hquery, hmutation, hsubscription]

/-- **After the same steps in another order, builders hold the same**, if no scalar is given two
coercions. -/
theorem alike_of_runAll {steps steps' : List BuildStep} (hperm : steps.Perm steps')
    (hdistinct : (steps.filterMap BuildStep.scalarName?).Nodup) {builder builder' : SchemaBuilder}
    (h : empty.runAll steps = .ok builder) (h' : empty.runAll steps' = .ok builder') :
    builder.Alike builder' := by
  obtain ⟨registrations, hregistrations, hholds⟩ := holds_of_runAll h
  obtain ⟨registrations', hregistrations', hholds'⟩ := holds_of_runAll h'
  have hsame : registrations.Perm registrations' := by
    obtain ⟨other, hother, hsame⟩ := BuildStep.registrationsOf_perm hperm hregistrations
    rw [hregistrations'] at hother
    cases hother
    exact hsame
  have hcoercions := hsame.filterMap (·.coercion?)
  have hdistinct := (BuildStep.coercions_of_registrationsOf hregistrations).symm ▸ hdistinct
  refine ⟨?_, ?_, ?_⟩
  · rw [hholds.types, hholds'.types]
    exact (hsame.filterMap _).append_left _
  · apply roots_eq_of_named
    intro operation
    ext typeName
    rw [hholds.roots, hholds'.roots, hsame.mem_iff]
  · rw [hholds.coercions, hholds'.coercions, Entries.ofWritten_of_nodup hdistinct,
      Entries.ofWritten_of_nodup ((hcoercions.map Prod.fst).nodup_iff.1 hdistinct)]
    exact hcoercions

namespace Alike

variable {builder builder' : SchemaBuilder}

theorem symm (h : builder.Alike builder') : builder'.Alike builder :=
  ⟨h.types.symm, h.roots.symm, h.coercions.symm⟩

/-- In whatever order coercions are walked, it is the same builder but for that. -/
theorem walk (h : builder.Alike builder') {walked walked' : List (String × ScalarCoercion)}
    (hwalked : walked.Perm builder.coercions) (hwalked' : walked'.Perm builder'.coercions) :
    { builder with coercions := walked }.Alike { builder' with coercions := walked' } :=
  ⟨h.types, h.roots, (hwalked.trans h.coercions).trans hwalked'.symm⟩

theorem find?_eq (h : builder.Alike builder') : builder.types.find? = builder'.types.find? := by
  funext name
  ext type
  rw [Declarations.find?_eq_some_iff, Declarations.find?_eq_some_iff, h.types.mem_iff]

theorem contains_eq (h : builder.Alike builder') : builder.types.contains = builder'.types.contains := by
  funext name
  rw [Bool.eq_iff_iff, Declarations.contains_iff_find?, Declarations.contains_iff_find?, h.find?_eq]

/-- Builders that hold the same fit together or do not. -/
theorem isClosed (h : builder.Alike builder') (hclosed : builder.IsClosed) : builder'.IsClosed := by
  have hobject : IsObject builder.types = IsObject builder'.types := by
    unfold IsObject
    rw [h.find?_eq]
  have hfits : RootFits builder.types = RootFits builder'.types := by
    funext operation given
    unfold RootFits
    rw [hobject, h.contains_eq]
  refine ⟨⟨?_, ?_, ?_, ?_⟩, ?_⟩
  · intro entry hentry
    have hcustom := hclosed.coercions entry (h.coercions.mem_iff.2 hentry)
    unfold IsCustomScalar at hcustom ⊢
    rwa [h.find?_eq] at hcustom
  · rw [← hobject, ← h.roots]
    exact hclosed.query
  · rw [← hfits, ← h.roots]
    exact hclosed.mutation
  · rw [← hfits, ← h.roots]
    exact hclosed.subscription
  · intro type htype referrer name hmentions
    rw [← h.contains_eq]
    exact hclosed.references type (h.types.mem_iff.2 htype) referrer name hmentions

/-- **The schemas of builders that hold the same are alike.** -/
theorem schema (h : builder.Alike builder') (hdistinct : (builder.coercions.map Prod.fst).Nodup) :
    builder.schema.Alike builder'.schema where
  find?_eq name := by
    have hcoerced : TypeDef.withCoercionOf builder.coercions =
        TypeDef.withCoercionOf builder'.coercions := by
      funext type
      unfold TypeDef.withCoercionOf
      rw [lookup_of_perm hdistinct h.coercions]
    rw [find?_schema, find?_schema, h.find?_eq, hcoerced]
  rootName?_eq operation := by
    have hname : rootName? builder.types = rootName? builder'.types := by
      funext operation given
      unfold rootName?
      rw [h.contains_eq]
    cases operation with
    | query =>
      show some (builder.roots.query.getD _) = some (builder'.roots.query.getD _)
      rw [h.roots]
    | mutation =>
      show rootName? builder.types .mutation builder.roots.mutation = _
      rw [hname, h.roots]
      rfl
    | subscription =>
      show rootName? builder.types .subscription builder.roots.subscription = _
      rw [hname, h.roots]
      rfl

end Alike

end SchemaBuilder

/-! ## §4. The order of building. -/

/-- Two schemas answer alike: what stands under a name, the root types, the shapes under each name, what
is accepted, what it is worth, and the errors of documents under rules that read schemas by name. -/
structure Schema.SameAnswers (schema schema' : Schema) : Prop where
  find? : ∀ name, schema.find? name = schema'.find? name
  rootName? : ∀ operation, schema.rootName? operation = schema'.rootName? operation
  rootType? : ∀ operation, schema.rootType? operation = schema'.rootType? operation
  rootObject? : ∀ operation, schema.rootObject? operation = schema'.rootObject? operation
  enum? : ∀ name, schema.inputShapes.enum? name = schema'.inputShapes.enum? name
  object? : ∀ name, schema.inputShapes.object? name = schema'.inputShapes.object? name
  literalProblems : ∀ type literal, schema.literalProblems type literal = schema'.literalProblems type literal
  literalValue : ∀ env type literal,
    schema.literalValue env type literal = schema'.literalValue env type literal
  problems : ∀ (value : Json) type, value.problems schema type = value.problems schema' type
  coerceValue : ∀ type value, schema.coerceValue type value = schema'.coerceValue type value
  coerceVariables : ∀ operation inputs,
    schema.coerceVariables operation inputs = schema'.coerceVariables operation inputs
  coerceArguments : ∀ definition field env,
    schema.coerceArguments definition field env = schema'.coerceArguments definition field env
  validate : ∀ (document : Document) (rules : List Rule), (∀ rule ∈ rules, rule.ReadsByName) →
    document.validate schema rules = document.validate schema' rules

/-- Schemas that are alike answer alike. -/
theorem Schema.Alike.sameAnswers {schema schema' : Schema} (h : schema.Alike schema') :
    schema.SameAnswers schema' where
  find? := h.find?_eq
  rootName? := h.rootName?_eq
  rootType? := h.rootType?_eq
  rootObject? := h.rootObject?_eq
  enum? := h.enum?_inputShapes_eq
  object? := h.object?_inputShapes_eq
  literalProblems := h.interchangeable.literalProblems_eq
  literalValue := h.interchangeable.literalValue_eq
  problems := h.interchangeable.problems_eq
  coerceValue := h.interchangeable.coerceValue_eq
  coerceVariables := h.interchangeable.coerceVariables_eq
  coerceArguments := h.interchangeable.coerceArguments_eq
  validate document _ hrules := h.validate_eq document hrules

/-- Steps in another order are all taken if they are all taken in the one order. -/
theorem SchemaBuilder.exists_runAll_of_perm {steps steps' : List BuildStep} (hperm : steps.Perm steps')
    (h : ∃ builder, SchemaBuilder.empty.runAll steps = .ok builder) :
    ∃ builder, SchemaBuilder.empty.runAll steps' = .ok builder := by
  obtain ⟨builder, h⟩ := h
  obtain ⟨registrations, hregistrations, hrun⟩ := runAll_eq_ok_iff.1 h
  obtain ⟨registrations', hregistrations', hsame⟩ := BuildStep.registrationsOf_perm hperm hregistrations
  obtain ⟨builder', hrun'⟩ := exists_registerAll_of_perm hsame ⟨builder, hrun⟩
  exact ⟨builder', runAll_eq_ok_iff.2 ⟨registrations', hregistrations', hrun'⟩⟩

/-- **The order of building does not matter.**  Let steps give no scalar two coercions.  In another order
they are all taken if they are all taken in the one order; then there is a schema after the one exactly if
there is one after the other, in whatever orders the coercions are walked; and the two schemas answer alike.
The rules that documents are checked against read schemas by name. -/
theorem build_order_does_not_matter {steps steps' : List BuildStep} (hperm : steps.Perm steps')
    (hdistinct : (steps.filterMap BuildStep.scalarName?).Nodup) :
    ((∃ builder, SchemaBuilder.empty.runAll steps = .ok builder) ↔
      ∃ builder', SchemaBuilder.empty.runAll steps' = .ok builder') ∧
    (∀ builder builder', SchemaBuilder.empty.runAll steps = .ok builder →
      SchemaBuilder.empty.runAll steps' = .ok builder' →
      ∀ walked walked', walked.Perm builder.coercions → walked'.Perm builder'.coercions →
        ((∃ schema, { builder with coercions := walked }.build = .ok schema) ↔
          ∃ schema', { builder' with coercions := walked' }.build = .ok schema') ∧
        ∀ schema schema', { builder with coercions := walked }.build = .ok schema →
          { builder' with coercions := walked' }.build = .ok schema' → schema.SameAnswers schema') ∧
    ∀ rule ∈ Rule.defaults, rule.ReadsByName := by
  refine ⟨⟨SchemaBuilder.exists_runAll_of_perm hperm, SchemaBuilder.exists_runAll_of_perm hperm.symm⟩,
    ?_, fun _ => Rule.readsByName_of_mem⟩
  intro builder builder' h h' walked walked' hwalked hwalked'
  obtain ⟨_, _, hholds⟩ := SchemaBuilder.holds_of_runAll h
  have halike := (SchemaBuilder.alike_of_runAll hperm hdistinct h h').walk hwalked hwalked'
  have hkeys : (walked.map Prod.fst).Nodup := (hwalked.map Prod.fst).nodup_iff.2 hholds.distinct
  have hkeys' : (walked'.map Prod.fst).Nodup := (halike.coercions.map Prod.fst).nodup_iff.1 hkeys
  constructor
  · constructor
    · rintro ⟨schema, hbuild⟩
      have hclosed := ((SchemaBuilder.build_eq_ok_iff hkeys).1 hbuild).1
      exact ⟨_, (SchemaBuilder.build_eq_ok_iff hkeys').2 ⟨halike.isClosed hclosed, rfl⟩⟩
    · rintro ⟨schema', hbuild⟩
      have hclosed := ((SchemaBuilder.build_eq_ok_iff hkeys').1 hbuild).1
      exact ⟨_, (SchemaBuilder.build_eq_ok_iff hkeys).2 ⟨halike.symm.isClosed hclosed, rfl⟩⟩
  · intro schema schema' hbuild hbuild'
    rw [((SchemaBuilder.build_eq_ok_iff hkeys).1 hbuild).2,
      ((SchemaBuilder.build_eq_ok_iff hkeys').1 hbuild').2]
    exact (halike.schema hkeys).sameAnswers

namespace Search

/-- From the last step to the first, the steps lead to a schema that answers as the search's does. -/
theorem steps_reversed :
    SchemaBuilder.empty.runAll steps = .ok builder ∧ builder.build = .ok schema ∧
    ∃ reversed schema', SchemaBuilder.empty.runAll steps.reverse = .ok reversed ∧
      reversed.build = .ok schema' ∧ schema.SameAnswers schema' := by
  have hsteps : SchemaBuilder.empty.runAll steps = .ok builder := rfl
  have hbuild : builder.build = .ok schema := rfl
  obtain ⟨hruns, hbuilds, _⟩ := build_order_does_not_matter (List.reverse_perm steps).symm (by decide)
  obtain ⟨reversed, hreversed⟩ := hruns.1 ⟨builder, hsteps⟩
  obtain ⟨hschema, hanswers⟩ := hbuilds builder reversed hsteps hreversed _ _ (.refl _) (.refl _)
  obtain ⟨schema', hbuild'⟩ := hschema.1 ⟨schema, hbuild⟩
  exact ⟨hsteps, hbuild, reversed, schema', hreversed, hbuild', hanswers schema schema' hbuild hbuild'⟩

end Search

end GraphQLCheck
