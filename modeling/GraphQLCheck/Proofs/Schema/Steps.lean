/-
  GraphQLCheck.Proofs.Schema.Steps
  ────────────────────────────────
  What a builder holds after some steps.

  A step by hand registers one thing: a type, the name of a root type, or a coercion.  A text registers
  one thing after the other, and so do steps in a row.  So what a builder holds is read off the list of
  all that was registered, and it does not matter by which steps.

  Main results:
    * `define_eq_registerAll`  — a definition registers what it stands for
    * `runAll_eq_ok_iff`       — steps in a row register one thing after the other
    * `reachable_iff_runAll`   — the builders that can be reached are those that steps lead to
    * `SchemaBuilder.Holds`, `holds_of_runAll` — what a builder holds is what was registered
-/
import GraphQLCheck.Proofs.Value.Entries
import GraphQLCheck.Schema.Builder

namespace GraphQLCheck

/-! ## §1. Computations that succeed. -/

/-- A computation that goes on after another one succeeds exactly if both do. -/
theorem bind_eq_ok_iff {x : Except ε α} {next : α → Except ε β} {b : β} :
    (x >>= next) = .ok b ↔ ∃ a, x = .ok a ∧ next a = .ok b := by
  cases x <;> simp [bind, Except.bind]

theorem map_eq_ok_iff {f : α → β} {x : Except ε α} {b : β} :
    f <$> x = .ok b ↔ ∃ a, x = .ok a ∧ f a = b := by
  cases x <;> simp [Functor.map, Except.map]

theorem mapM_cons_eq_ok_iff {f : α → Except ε β} {a : α} {l : List α} {bs : List β} :
    (a :: l).mapM f = .ok bs ↔ ∃ b rest, f a = .ok b ∧ l.mapM f = .ok rest ∧ bs = b :: rest := by
  rw [List.mapM_cons, bind_eq_ok_iff]
  constructor
  · rintro ⟨b, hb, h⟩
    obtain ⟨rest, hrest, h⟩ := bind_eq_ok_iff.1 h
    cases h
    exact ⟨b, rest, hb, hrest, rfl⟩
  · rintro ⟨b, rest, hb, hrest, rfl⟩
    exact ⟨b, hb, bind_eq_ok_iff.2 ⟨rest, hrest, rfl⟩⟩

/-- Items that are taken in part by part are taken in exactly if all have their parts, and all parts of
all items are taken in. -/
theorem foldlM_eq_ok_iff_parts {run : β → γ → Except ε β} {apply : β → α → Except ε β}
    {parts : γ → Except ε (List α)}
    (hrun : ∀ (state : β) (item : γ) (state' : β), run state item = .ok state' ↔
      ∃ own, parts item = .ok own ∧ own.foldlM apply state = .ok state') (items : List γ) :
    ∀ state state' : β, items.foldlM run state = .ok state' ↔
      ∃ all, items.mapM parts = .ok all ∧ all.flatten.foldlM apply state = .ok state' := by
  induction items with
  | nil =>
    intro state state'
    constructor
    · intro h
      exact ⟨[], rfl, h⟩
    · rintro ⟨all, hall, h⟩
      cases hall
      exact h
  | cons item items ih =>
    intro state state'
    rw [List.foldlM_cons]
    constructor
    · intro h
      obtain ⟨middle, hitem, h⟩ := bind_eq_ok_iff.1 h
      obtain ⟨own, hown, hitem⟩ := (hrun _ _ _).1 hitem
      obtain ⟨all, hall, h⟩ := (ih _ _).1 h
      refine ⟨own :: all, mapM_cons_eq_ok_iff.2 ⟨own, all, hown, hall, rfl⟩, ?_⟩
      rw [List.flatten_cons, List.foldlM_append]
      exact bind_eq_ok_iff.2 ⟨middle, hitem, h⟩
    · rintro ⟨all, hall, h⟩
      obtain ⟨own, rest, hown, hrest, rfl⟩ := mapM_cons_eq_ok_iff.1 hall
      rw [List.flatten_cons, List.foldlM_append] at h
      obtain ⟨middle, hitem, h⟩ := bind_eq_ok_iff.1 h
      exact bind_eq_ok_iff.2 ⟨middle, (hrun _ _ _).2 ⟨own, hown, hitem⟩, (ih _ _).2 ⟨rest, hrest, h⟩⟩

/-! ## §2. Registering one thing. -/

/-- What a step can register. -/
inductive Registration where
  | type (type : TypeDef)
  /-- The name of the root type of an operation kind. -/
  | root (operation : OperationKind) (typeName : String)
  | coercion (scalarName : String) (coercion : ScalarCoercion)

namespace Registration

def type? : Registration → Option TypeDef
  | .type added => some added
  | _ => none

def coercion? : Registration → Option (String × ScalarCoercion)
  | .coercion scalarName given => some (scalarName, given)
  | _ => none

theorem type?_eq_some_iff {registration : Registration} {added : TypeDef} :
    registration.type? = some added ↔ registration = .type added := by
  cases registration <;> simp [type?]

end Registration

/-- The name that is given for the root type of an operation kind. -/
def Sdl.RootNames.named (roots : Sdl.RootNames) : OperationKind → Option String
  | .mutation => roots.mutation
  | .query => roots.query
  | .subscription => roots.subscription

namespace SchemaBuilder

def register (builder : SchemaBuilder) : Registration → Except BuildError SchemaBuilder
  | .type type => builder.addType type
  | .root operation typeName => builder.setRoot operation typeName
  | .coercion scalarName coercion => .ok (builder.addCoercion scalarName coercion)

def registerAll (builder : SchemaBuilder) (registrations : List Registration) :
    Except BuildError SchemaBuilder :=
  registrations.foldlM register builder

theorem registerAll_singleton (builder : SchemaBuilder) (registration : Registration) :
    builder.registerAll [registration] = builder.register registration := by
  unfold registerAll
  rw [List.foldlM_cons]
  exact bind_pure _

/-- A type is registered after all others. -/
theorem types_of_addType {builder builder' : SchemaBuilder} {type : TypeDef}
    (h : builder.addType type = .ok builder') :
    builder'.types.toList = builder.types.toList ++ [type] := by
  unfold addType at h
  split at h
  next types hadd =>
    cases h
    exact Declarations.toList_add? hadd
  next => cases h

/-- Naming a root type changes the name for its operation kind, which had none, and nothing else. -/
theorem eq_of_setRoot {builder builder' : SchemaBuilder} {operation : OperationKind} {typeName : String}
    (h : builder.setRoot operation typeName = .ok builder') :
    builder.roots.named operation = none ∧ builder'.roots.named operation = some typeName ∧
      (∀ other ≠ operation, builder'.roots.named other = builder.roots.named other) ∧
      builder'.types = builder.types ∧ builder'.coercions = builder.coercions := by
  obtain ⟨types, ⟨query, mutation, subscription⟩, coercions⟩ := builder
  unfold setRoot at h
  simp only [] at h
  -- a kind that has a name already is refused; else only the slot of the kind is written
  split at h
  case h_4 => cases h
  all_goals
    next heq =>
      cases heq
      cases h
      refine ⟨rfl, rfl, ?_, rfl, rfl⟩
      intro other hother
      cases other <;> first | rfl | exact absurd rfl hother

end SchemaBuilder

/-! ## §3. What definitions and texts register. -/

/-- What a schema definition registers: the names of root types. -/
def Sdl.RootNames.registrations (roots : Sdl.RootNames) : List Registration :=
  roots.query.toList.map (.root .query) ++ roots.mutation.toList.map (.root .mutation) ++
    roots.subscription.toList.map (.root .subscription)

/-- What a definition registers. -/
def Sdl.Definition.registrations : Sdl.Definition → Except BuildError (List Registration)
  | .schema roots => .ok roots.registrations
  | .type definition => (fun type => [.type type]) <$> definition.declare
  | .extension typeName => .error (.unsupportedExtension typeName)
  | .directive _ => .ok []

namespace SchemaBuilder

/-- **A definition registers what it stands for.** -/
theorem define_eq_registerAll (builder : SchemaBuilder) (definition : Sdl.Definition) :
    builder.define definition = definition.registrations >>= builder.registerAll := by
  cases definition with
  | schema roots =>
    obtain ⟨query, mutation, subscription⟩ := roots
    show _ = builder.registerAll (Sdl.RootNames.registrations _)
    unfold registerAll Sdl.RootNames.registrations
    rw [List.foldlM_append, List.foldlM_append, bind_assoc]
    have hslot : ∀ (builder : SchemaBuilder) (operation : OperationKind) (typeName : Option String),
        (typeName.toList.map (Registration.root operation)).foldlM register builder =
          builder.setRoot? operation typeName := by
      intro builder operation typeName
      cases typeName with
      | none => rfl
      | some typeName => exact registerAll_singleton builder (.root operation typeName)
    simp only [hslot]
    rfl
  | type definition =>
    show (definition.declare >>= builder.addType) = _
    show _ = ((fun type => [Registration.type type]) <$> definition.declare) >>= builder.registerAll
    rw [bind_map_left]
    simp only [registerAll_singleton]
    rfl
  | extension typeName => rfl
  | directive name => rfl

theorem define_eq_ok_iff (builder : SchemaBuilder) (definition : Sdl.Definition)
    (builder' : SchemaBuilder) : builder.define definition = .ok builder' ↔
      ∃ own, definition.registrations = .ok own ∧ builder.registerAll own = .ok builder' := by
  rw [define_eq_registerAll]
  exact bind_eq_ok_iff

end SchemaBuilder

/-! ## §4. Steps. -/

/-- A step that a schema is built by. -/
inductive BuildStep where
  /-- Register one thing by hand. -/
  | register (registration : Registration)
  /-- Take in the definitions that a text holds. -/
  | load (text : String)

namespace BuildStep

def run (builder : SchemaBuilder) : BuildStep → Except BuildError SchemaBuilder
  | .register registration => builder.register registration
  | .load text => builder.load text

/-- What a step registers. -/
def registrations : BuildStep → Except BuildError (List Registration)
  | .register registration => .ok [registration]
  | .load text => do
    let definitions ← SchemaBuilder.definitionsOf text
    List.flatten <$> definitions.mapM (·.registrations)

/-- What steps in a row register. -/
def registrationsOf (steps : List BuildStep) : Except BuildError (List Registration) :=
  List.flatten <$> steps.mapM registrations

/-- A step registers one thing after the other. -/
theorem run_eq_ok_iff (builder : SchemaBuilder) (step : BuildStep) (builder' : SchemaBuilder) :
    step.run builder = .ok builder' ↔
      ∃ own, step.registrations = .ok own ∧ builder.registerAll own = .ok builder' := by
  cases step with
  | register registration =>
    show builder.register registration = .ok builder' ↔ _
    rw [← builder.registerAll_singleton]
    constructor
    · intro h
      exact ⟨_, rfl, h⟩
    · rintro ⟨own, hown, h⟩
      cases hown
      exact h
  | load text =>
    show (SchemaBuilder.definitionsOf text >>= builder.defineAll) = .ok builder' ↔ _
    show _ ↔ ∃ own, (SchemaBuilder.definitionsOf text >>= fun definitions =>
      List.flatten <$> definitions.mapM (·.registrations)) = .ok own ∧ _
    have hparts := fun definitions =>
      foldlM_eq_ok_iff_parts SchemaBuilder.define_eq_ok_iff definitions builder builder'
    constructor
    · intro h
      obtain ⟨definitions, hread, h⟩ := bind_eq_ok_iff.1 h
      obtain ⟨all, hall, h⟩ := (hparts definitions).1 h
      exact ⟨_, bind_eq_ok_iff.2 ⟨_, hread, map_eq_ok_iff.2 ⟨_, hall, rfl⟩⟩, h⟩
    · rintro ⟨own, hown, h⟩
      obtain ⟨definitions, hread, hown⟩ := bind_eq_ok_iff.1 hown
      obtain ⟨all, hall, rfl⟩ := map_eq_ok_iff.1 hown
      exact bind_eq_ok_iff.2 ⟨_, hread, (hparts definitions).2 ⟨all, hall, h⟩⟩

end BuildStep

namespace SchemaBuilder

/-- Take steps, in order. -/
def runAll (builder : SchemaBuilder) (steps : List BuildStep) : Except BuildError SchemaBuilder :=
  steps.foldlM BuildStep.run builder

/-- **Steps in a row register one thing after the other.** -/
theorem runAll_eq_ok_iff {builder builder' : SchemaBuilder} {steps : List BuildStep} :
    builder.runAll steps = .ok builder' ↔
      ∃ registrations, BuildStep.registrationsOf steps = .ok registrations ∧
        builder.registerAll registrations = .ok builder' := by
  unfold runAll
  rw [foldlM_eq_ok_iff_parts BuildStep.run_eq_ok_iff]
  constructor
  · rintro ⟨all, hall, h⟩
    exact ⟨_, map_eq_ok_iff.2 ⟨all, hall, rfl⟩, h⟩
  · rintro ⟨_, hall, h⟩
    obtain ⟨all, hparts, rfl⟩ := map_eq_ok_iff.1 hall
    exact ⟨all, hparts, h⟩

theorem runAll_concat {builder middle builder' : SchemaBuilder} {steps : List BuildStep}
    (step : BuildStep) (hsteps : builder.runAll steps = .ok middle) (hstep : step.run middle = .ok builder') :
    builder.runAll (steps ++ [step]) = .ok builder' := by
  unfold runAll
  rw [List.foldlM_append]
  refine bind_eq_ok_iff.2 ⟨middle, hsteps, ?_⟩
  rw [List.foldlM_cons]
  exact bind_eq_ok_iff.2 ⟨builder', hstep, rfl⟩

/-- The builders that steps can lead to. -/
inductive Reachable : SchemaBuilder → Prop where
  | empty : Reachable .empty
  | addType {builder builder' : SchemaBuilder} {type : TypeDef} :
      Reachable builder → builder.addType type = .ok builder' → Reachable builder'
  | setRoot {builder builder' : SchemaBuilder} {kind : OperationKind} {typeName : String} :
      Reachable builder → builder.setRoot kind typeName = .ok builder' → Reachable builder'
  | addCoercion {builder : SchemaBuilder} (typeName : String) (coercion : ScalarCoercion) :
      Reachable builder → Reachable (builder.addCoercion typeName coercion)
  | load {builder builder' : SchemaBuilder} {text : String} :
      Reachable builder → builder.load text = .ok builder' → Reachable builder'
  | loadFile {files : FileLookup} {builder builder' : SchemaBuilder} {path : String} :
      Reachable builder → loadFile files builder path = .ok builder' → Reachable builder'

theorem Reachable.of_run {builder builder' : SchemaBuilder} {step : BuildStep}
    (hreach : builder.Reachable) (h : step.run builder = .ok builder') : builder'.Reachable := by
  cases step with
  | register registration =>
    cases registration with
    | type type => exact hreach.addType h
    | root operation typeName => exact hreach.setRoot h
    | coercion scalarName coercion =>
      cases h
      exact hreach.addCoercion scalarName coercion
  | load text => exact hreach.load h

theorem Reachable.of_runAll {steps : List BuildStep} :
    ∀ {builder builder' : SchemaBuilder}, builder.Reachable → builder.runAll steps = .ok builder' →
      builder'.Reachable := by
  induction steps with
  | nil =>
    intro builder builder' hreach h
    cases h
    exact hreach
  | cons step steps ih =>
    intro builder builder' hreach h
    unfold runAll at h
    rw [List.foldlM_cons] at h
    obtain ⟨middle, hstep, h⟩ := bind_eq_ok_iff.1 h
    exact ih (hreach.of_run hstep) h

/-- **The builders that can be reached are those that steps lead to.**  A file counts as the text that it
holds. -/
theorem reachable_iff_runAll {builder : SchemaBuilder} :
    builder.Reachable ↔ ∃ steps, SchemaBuilder.empty.runAll steps = .ok builder := by
  constructor
  · intro h
    induction h with
    | empty => exact ⟨[], rfl⟩
    | addType _ hstep ih =>
      obtain ⟨steps, hsteps⟩ := ih
      exact ⟨_, runAll_concat (.register (.type _)) hsteps hstep⟩
    | setRoot _ hstep ih =>
      obtain ⟨steps, hsteps⟩ := ih
      exact ⟨_, runAll_concat (.register (.root _ _)) hsteps hstep⟩
    | addCoercion scalarName coercion _ ih =>
      obtain ⟨steps, hsteps⟩ := ih
      exact ⟨_, runAll_concat (.register (.coercion scalarName coercion)) hsteps rfl⟩
    | load _ hstep ih =>
      obtain ⟨steps, hsteps⟩ := ih
      exact ⟨_, runAll_concat (.load _) hsteps hstep⟩
    | loadFile _ hstep ih =>
      obtain ⟨steps, hsteps⟩ := ih
      obtain ⟨text, _, hstep⟩ := bind_eq_ok_iff.1 hstep
      exact ⟨_, runAll_concat (.load text) hsteps hstep⟩
  · rintro ⟨steps, hsteps⟩
    exact Reachable.empty.of_runAll hsteps

end SchemaBuilder

/-! ## §5. What a builder holds. -/

namespace SchemaBuilder

/-- What a builder holds is what was registered: the types in order, after the built-in ones; the name of
each root type; and the coercions, each scalar with the one that it was given last. -/
structure Holds (builder : SchemaBuilder) (registrations : List Registration) : Prop where
  types : builder.types.toList = builtinTypes.toList ++ registrations.filterMap (·.type?)
  roots : ∀ (operation : OperationKind) (typeName : String),
    builder.roots.named operation = some typeName ↔ .root operation typeName ∈ registrations
  coercions : builder.coercions = Entries.ofWritten (registrations.filterMap (·.coercion?))

theorem holds_empty : empty.Holds [] where
  types := rfl
  roots operation typeName := by
    constructor
    · intro h
      cases operation <;> cases h
    · intro h
      cases h
  coercions := rfl

/-- One more registration: all but what it is about stays. -/
theorem Holds.register {builder builder' : SchemaBuilder} {registrations : List Registration}
    {registration : Registration} (hholds : builder.Holds registrations)
    (h : builder.register registration = .ok builder') :
    builder'.Holds (registrations ++ [registration]) := by
  cases registration with
  | type type =>
    have htypes := types_of_addType h
    obtain ⟨types, _, rfl⟩ : ∃ types, builder.types.add? type = some types ∧
        builder' = { builder with types } := by
      unfold SchemaBuilder.register addType at h
      simp only [] at h
      split at h
      next types hadd =>
        cases h
        exact ⟨types, hadd, rfl⟩
      next => cases h
    refine ⟨?_, ?_, ?_⟩
    · rw [htypes, hholds.types, List.filterMap_append, List.append_assoc]
      rfl
    · intro operation typeName
      rw [List.mem_append, List.mem_singleton, ← hholds.roots]
      simp
    · rw [List.filterMap_append, show [Registration.type type].filterMap (·.coercion?) = [] from rfl,
        List.append_nil]
      exact hholds.coercions
  | root operation typeName =>
    obtain ⟨hnone, hsome, hother, htypes, hcoercions⟩ := eq_of_setRoot h
    refine ⟨?_, ?_, ?_⟩
    · rw [htypes, hholds.types, List.filterMap_append]
      simp [Registration.type?]
    · intro kind name
      rw [List.mem_append, List.mem_singleton, ← hholds.roots]
      by_cases hkind : kind = operation
      · -- the kind had no name before, and now it has the given one
        subst hkind
        rw [hsome, hnone]
        simp [eq_comm]
      · rw [hother kind hkind]
        simp [hkind]
    · rw [hcoercions, hholds.coercions, List.filterMap_append]
      simp [Registration.coercion?]
  | coercion scalarName coercion =>
    cases h
    refine ⟨?_, ?_, ?_⟩
    · rw [List.filterMap_append, show [Registration.coercion scalarName coercion].filterMap (·.type?) = []
        from rfl, List.append_nil]
      exact hholds.types
    · intro operation typeName
      rw [List.mem_append, List.mem_singleton, ← hholds.roots]
      simp [addCoercion]
    · show Entries.put builder.coercions scalarName coercion = _
      rw [hholds.coercions, List.filterMap_append]
      unfold Entries.ofWritten
      rw [List.foldl_append]
      rfl

theorem Holds.registerAll {later : List Registration} :
    ∀ {builder builder' : SchemaBuilder} {earlier : List Registration}, builder.Holds earlier →
      builder.registerAll later = .ok builder' → builder'.Holds (earlier ++ later) := by
  induction later with
  | nil =>
    intro builder builder' earlier hholds h
    cases h
    rw [List.append_nil]
    exact hholds
  | cons registration later ih =>
    intro builder builder' earlier hholds h
    unfold SchemaBuilder.registerAll at h
    rw [List.foldlM_cons] at h
    obtain ⟨middle, hfirst, h⟩ := bind_eq_ok_iff.1 h
    have hrest := ih (hholds.register hfirst) h
    rw [List.append_assoc] at hrest
    exact hrest

/-- **What a builder holds is what the steps that lead to it registered.** -/
theorem holds_of_runAll {steps : List BuildStep} {builder : SchemaBuilder}
    (h : empty.runAll steps = .ok builder) :
    ∃ registrations, BuildStep.registrationsOf steps = .ok registrations ∧
      builder.Holds registrations := by
  obtain ⟨registrations, hall, h⟩ := runAll_eq_ok_iff.1 h
  exact ⟨registrations, hall, holds_empty.registerAll h⟩

theorem Reachable.holds {builder : SchemaBuilder} (h : builder.Reachable) :
    ∃ registrations, builder.Holds registrations := by
  obtain ⟨steps, hsteps⟩ := reachable_iff_runAll.1 h
  obtain ⟨registrations, _, hholds⟩ := holds_of_runAll hsteps
  exact ⟨registrations, hholds⟩

/-- What was registered is there. -/
theorem Holds.mem_types {builder : SchemaBuilder} {registrations : List Registration}
    (h : builder.Holds registrations) {type : TypeDef} (hregistered : .type type ∈ registrations) :
    type ∈ builder.types.toList := by
  rw [h.types]
  exact List.mem_append_right _
    (List.mem_filterMap.2 ⟨_, hregistered, Registration.type?_eq_some_iff.2 rfl⟩)

/-- No scalar has two coercions. -/
theorem Holds.distinct {builder : SchemaBuilder} {registrations : List Registration}
    (h : builder.Holds registrations) : (builder.coercions.map Prod.fst).Nodup := by
  rw [h.coercions]
  exact Entries.nodup_ofWritten _

end SchemaBuilder

end GraphQLCheck
