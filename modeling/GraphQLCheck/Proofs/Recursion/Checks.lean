/-
  GraphQLCheck.Proofs.Recursion.Checks
  ────────────────────────────────────
  The checks of literals and of runtime values as recursions that always end.

  A check goes down a value layer by layer of its type, item by item and field by field, as an evaluation
  does.  But it reads no default: a field that is not given is checked as null, and null has no parts.  So
  each call is for a part of the value, or for the same value at a part of the type, or for null, and the
  calls come to a number in every schema, whatever its input objects contain and whatever their defaults are.

  Literals and runtime values are checked alike.  They differ in what is null, in what is accepted without
  a look, and in what is made of a value without parts.

  Main results:
    * `Checked.Reading.check`                 — the recursion
    * `Schema.follows_literalProblems`, `Schema.follows_valueProblems` — the problems that are found follow
                                                it
    * `Schema.ends_literalCheck`, `Schema.ends_valueCheck` — every check ends
-/
import GraphQLCheck.Proofs.Coercion.Acceptance
import GraphQLCheck.Proofs.Recursion.Calls

namespace GraphQLCheck

variable {α β : Type}

/-! ## §1. Objects. -/

/-- A call of a check: of a value at a type. -/
structure CheckCall (α : Type) where
  type : TypeRef
  value : α

namespace InputObjectType

/-- The calls for an object: each declared field is checked as what is given for it, or else as what is
left out. -/
def checkCalls (type : InputObjectType) (omitted : α) (given : List (String × α)) : List (CheckCall α) :=
  type.fields.toList.map fun field => ⟨field.type, (given.lookup field.name).getD omitted⟩

/-- The problems of an object, given those that calls find. -/
def checkBody (type : InputObjectType) (again : CheckCall α → List (Problem β)) (omitted : α)
    (given : List (String × α)) : List (Problem β) :=
  type.memberProblems (fun type => again ⟨type, omitted⟩)
    (given.map fun entry => (entry.1, fun type => again ⟨type, entry.2⟩))

/-- Each declared field has the problems that its call finds. -/
theorem checkBody_eq (type : InputObjectType) (again : CheckCall α → List (Problem β)) (omitted : α)
    (given : List (String × α)) :
    type.checkBody again omitted given =
      ((given.map Prod.fst).filter fun name => !type.fields.contains name).map
          (fun name => (Problem.here .unknownField).within (.field name)) ++
        type.fields.toList.flatMap fun field =>
          (again ⟨field.type, (given.lookup field.name).getD omitted⟩).map (·.within (.field field.name)) := by
  have hnames : (given.map fun entry => (entry.1, fun type => again ⟨type, entry.2⟩)).map Prod.fst =
      given.map Prod.fst := by
    rw [List.map_map]
    rfl
  unfold checkBody memberProblems
  rw [hnames]
  show _ ++ _ = _ ++ _
  congr 2
  funext field
  rw [lookup_map_entries given fun (value : α) type => again ⟨type, value⟩]
  cases given.lookup field.name <;> rfl

theorem checkBody_congr {type : InputObjectType} {again again' : CheckCall α → List (Problem β)} {omitted : α}
    {given : List (String × α)} (h : ∀ call ∈ type.checkCalls omitted given, again call = again' call) :
    type.checkBody again omitted given = type.checkBody again' omitted given := by
  rw [checkBody_eq, checkBody_eq]
  congr 1
  apply List.flatMap_congr
  intro field hfield
  rw [h _ (List.mem_map_of_mem hfield)]

end InputObjectType

/-! ## §2. The recursion. -/

/-- What a check sees of a value. -/
inductive Checked (α : Type) where
  | null
  /-- Accepted whatever it is. -/
  | accepted
  | plain
  | list (items : List α)
  | object (fields : List (String × α))

namespace Checked

/-- The values inside of a value. -/
def parts : Checked α → List α
  | .list items => items
  | .object fields => fields.map Prod.snd
  | .null | .accepted | .plain => []

/-- How values of a kind are read. -/
structure Reading (α β : Type) where
  view : α → Checked α
  /-- What stands for a field that is not given. -/
  omitted : α
  /-- The problems of null. -/
  nullProblems : TypeRef → List (Problem β)
  /-- The problems of a value that is read as a whole at a named type. -/
  leafProblems : α → String → List (Problem β)

namespace Reading

variable (reading : Reading α β) (schema : Schema)

/-- The problems of a value, given those that calls find. -/
def body (again : CheckCall α → List (Problem β)) (value : α) : Checked α → TypeRef → List (Problem β)
  | .null, type => reading.nullProblems type
  | _, .nonNull inner => again ⟨inner, value⟩
  | .accepted, _ => []
  | .list items, .list element => Problem.inElements (items.map fun item => again ⟨element, item⟩)
  | _, .list element => again ⟨element, value⟩
  | .object fields, .named name =>
    match schema.find? name with
    | some (.inputObject type) => type.checkBody again reading.omitted fields
    | _ => reading.leafProblems value name
  | _, .named name => reading.leafProblems value name

/-- The calls that the check of a value makes. -/
def calls (value : α) : Checked α → TypeRef → List (CheckCall α)
  | .null, _ => []
  | _, .nonNull inner => [⟨inner, value⟩]
  | .accepted, _ => []
  | .list items, .list element => items.map (⟨element, ·⟩)
  | _, .list element => [⟨element, value⟩]
  | .object fields, .named name =>
    match schema.find? name with
    | some (.inputObject type) => type.checkCalls reading.omitted fields
    | _ => []
  | _, .named _ => []

section Equations

variable {reading : Reading α β} {schema : Schema} {again : CheckCall α → List (Problem β)} {value : α}
  {fields : List (String × α)} {name : String}

theorem body_object {type : InputObjectType} (h : schema.find? name = some (.inputObject type)) :
    reading.body schema again value (.object fields) (.named name) =
      type.checkBody again reading.omitted fields := by
  show (match schema.find? name with
    | some (.inputObject type) => type.checkBody again reading.omitted fields
    | _ => reading.leafProblems value name) = _
  rw [h]

theorem body_object_leaf (h : ¬ ∃ type, schema.find? name = some (.inputObject type)) :
    reading.body schema again value (.object fields) (.named name) = reading.leafProblems value name := by
  show (match schema.find? name with
    | some (.inputObject type) => type.checkBody again reading.omitted fields
    | _ => reading.leafProblems value name) = _
  split
  next type hfind => exact absurd ⟨type, hfind⟩ h
  next => rfl

theorem calls_object {type : InputObjectType} (h : schema.find? name = some (.inputObject type)) :
    reading.calls schema value (.object fields) (.named name) = type.checkCalls reading.omitted fields := by
  show (match schema.find? name with
    | some (.inputObject type) => type.checkCalls reading.omitted fields
    | _ => []) = _
  rw [h]

theorem calls_object_leaf (h : ¬ ∃ type, schema.find? name = some (.inputObject type)) :
    reading.calls schema value (.object fields) (.named name) = [] := by
  show (match schema.find? name with
    | some (.inputObject type) => type.checkCalls reading.omitted fields
    | _ => []) = _
  split
  next type hfind => exact absurd ⟨type, hfind⟩ h
  next => rfl

/-- The problems of a value depend on no other calls. -/
theorem body_congr {again' : CheckCall α → List (Problem β)} {view : Checked α} {type : TypeRef}
    (h : ∀ call ∈ reading.calls schema value view type, again call = again' call) :
    reading.body schema again value view type = reading.body schema again' value view type := by
  cases view with
  | null => rfl
  | accepted =>
    cases type with
    | nonNull inner => exact h _ (List.mem_singleton.2 rfl)
    | _ => rfl
  | plain =>
    cases type with
    | named name => rfl
    | _ => exact h _ (List.mem_singleton.2 rfl)
  | list items =>
    cases type with
    | nonNull inner => exact h _ (List.mem_singleton.2 rfl)
    | list element =>
      have hitems : (items.map fun item => again ⟨element, item⟩) =
          items.map fun item => again' ⟨element, item⟩ :=
        List.map_congr_left fun item hitem => h _ (List.mem_map_of_mem hitem)
      exact congrArg Problem.inElements hitems
    | named name => rfl
  | object fields =>
    cases type with
    | named name =>
      by_cases hinput : ∃ type, schema.find? name = some (.inputObject type)
      · obtain ⟨type, hfind⟩ := hinput
        rw [calls_object hfind] at h
        rw [body_object hfind, body_object hfind]
        exact type.checkBody_congr h
      · rw [body_object_leaf hinput, body_object_leaf hinput]
    | _ => exact h _ (List.mem_singleton.2 rfl)

end Equations

/-- The check of values. -/
def check : Recursion (CheckCall α) (List (Problem β)) where
  body again call := reading.body schema again call.value (reading.view call.value) call.type
  calls call := reading.calls schema call.value (reading.view call.value) call.type
  body_congr := body_congr

/-- **A check ends**, if a value is no part of itself and what is left out is null. -/
theorem ends_check {reading : Reading α β}
    (hparts : WellFounded fun part whole => part ∈ (reading.view whole).parts)
    (homitted : reading.view reading.omitted = .null) (schema : Schema) (call : CheckCall α) :
    (reading.check schema).Ends call := by
  obtain ⟨type, value⟩ := call
  induction value using hparts.induction generalizing type with
  | _ value ih =>
    have hcalls : ∀ type, (reading.check schema).calls ⟨type, value⟩ =
        reading.calls schema value (reading.view value) type := fun _ => rfl
    -- only the layers of the type count where a value is handed on as it is
    cases hview : reading.view value with
    | null => exact .of_nil (by rw [hcalls, hview]; rfl)
    | accepted =>
      induction type with
      | nonNull inner ihType => exact .of_singleton (by rw [hcalls, hview]; rfl) ihType
      | _ => exact .of_nil (by rw [hcalls, hview]; rfl)
    | plain =>
      induction type with
      | named name => exact .of_nil (by rw [hcalls, hview]; rfl)
      | _ _ ihType => exact .of_singleton (by rw [hcalls, hview]; rfl) ihType
    | list items =>
      induction type with
      | nonNull inner ihType => exact .of_singleton (by rw [hcalls, hview]; rfl) ihType
      | list element _ =>
        apply Recursion.Ends.of_calls
        rw [hcalls, hview]
        intro call hcall
        obtain ⟨item, hitem, rfl⟩ := List.mem_map.1 hcall
        exact ih item (by rw [hview]; exact hitem) element
      | named name => exact .of_nil (by rw [hcalls, hview]; rfl)
    | object fields =>
      induction type with
      | named name =>
        by_cases hinput : ∃ inputType, schema.find? name = some (.inputObject inputType)
        · obtain ⟨inputType, hfind⟩ := hinput
          apply Recursion.Ends.of_calls
          rw [hcalls, hview, calls_object hfind]
          intro call hcall
          obtain ⟨field, _, rfl⟩ := List.mem_map.1 hcall
          -- what is given for the field is a part of the object, and what is left out has no parts
          cases hlookup : fields.lookup field.name with
          | some part =>
            exact ih part (by rw [hview]; exact List.mem_map_of_mem (mem_of_lookup hlookup)) field.type
          | none =>
            refine .of_nil ?_
            show reading.calls schema reading.omitted (reading.view reading.omitted) field.type = []
            rw [homitted]
            rfl
        · exact .of_nil (by rw [hcalls, hview, calls_object_leaf hinput])
      | _ _ ihType => exact .of_singleton (by rw [hcalls, hview]; rfl) ihType

end Reading

end Checked

/-! ## §3. Literals. -/

namespace Schema

variable {schema : Schema}

/-- How literals are read, which may be missing: a missing one is as good as null, and variables are
accepted. -/
def literalReading (schema : Schema) : Checked.Reading (Option Literal) Literal where
  view
    | none | some .null => .null
    | some (.variable _) => .accepted
    | some (.list items) => .list (items.map some)
    | some (.object fields) => .object (fields.map fun field => (field.1, some field.2))
    | some (.int _) | some (.float _) | some (.string _) | some (.boolean _) | some (.enum _) => .plain
  omitted := none
  nullProblems := schema.nullLiteralProblems
  leafProblems literal? name :=
    let literal := literal?.getD .null
    schema.leafProblems (·.parseLiteral literal) literal name

/-- The check of literals. -/
def literalCheck (schema : Schema) : Recursion (CheckCall (Option Literal)) (List (Problem Literal)) :=
  schema.literalReading.check schema

theorem literalReading_view_plain {literal : Literal} (h : literal.isPlain = true) :
    schema.literalReading.view (some literal) = .plain := by
  cases literal <;> first | rfl | cases h

/-- **The problems that are found in literals follow the check.** -/
theorem follows_literalProblems (schema : Schema) :
    schema.literalCheck.Follows fun call => schema.literalProblems call.type call.value := by
  rintro ⟨type, _ | literal⟩
  · rfl
  show literal.problems schema type = schema.literalReading.body schema
    (fun call => schema.literalProblems call.type call.value) (some literal)
    (schema.literalReading.view (some literal)) type
  induction literal with
  | null => rfl
  | var name => cases type <;> rfl
  | plain literal hplain =>
    rw [literalReading_view_plain hplain, Literal.problems_plain hplain]
    cases type with
    | named name => rfl
    | list element => exact (Literal.problems_plain hplain element).symm
    | nonNull inner => exact (Literal.problems_plain hplain inner).symm
  | list items _ =>
    cases type with
    | nonNull inner =>
      show _ = (Literal.list items).problems schema inner
      unfold Literal.problems
      rfl
    | list element =>
      rw [Literal.problems_list rfl]
      show _ = Problem.inElements ((items.map some).map fun item => schema.literalProblems element item)
      rw [List.map_map]
      rfl
    | named name => rfl
  | object fields _ =>
    by_cases hinput : ∃ inputType, schema.namedType? type = some (.inputObject inputType)
    · obtain ⟨inputType, hfind⟩ := hinput
      rw [Literal.problems_object hfind]
      cases type with
      | named name =>
        have hnamed : schema.find? name = some (.inputObject inputType) := hfind
        show _ = schema.literalReading.body schema _ _ (.object _) (.named name)
        rw [Checked.Reading.body_object hnamed, InputObjectType.checkBody, Literal.fieldProblems_eq_map,
          List.map_map]
        rfl
      | _ => exact (Literal.problems_object hfind).symm
    · rw [Literal.problems_object_leaf hinput]
      cases type with
      | named name =>
        have hnamed : ¬ ∃ inputType, schema.find? name = some (.inputObject inputType) := hinput
        show _ = schema.literalReading.body schema _ _ (.object _) (.named name)
        rw [Checked.Reading.body_object_leaf hnamed]
        rfl
      | _ => exact (Literal.problems_object_leaf hinput).symm

/-- A literal is no part of itself. -/
theorem wellFounded_literalParts (schema : Schema) :
    WellFounded fun part whole => part ∈ (schema.literalReading.view whole).parts := by
  have hsome : ∀ literal : Literal,
      Acc (fun part whole => part ∈ (schema.literalReading.view whole).parts) (some literal) := by
    intro literal
    induction literal with
    | null => exact ⟨_, fun _ hpart => nomatch hpart⟩
    | var name => exact ⟨_, fun _ hpart => nomatch hpart⟩
    | plain literal hplain =>
      refine ⟨_, fun _ hpart => ?_⟩
      rw [literalReading_view_plain hplain] at hpart
      cases hpart
    | list items ih =>
      refine ⟨_, fun part hpart => ?_⟩
      obtain ⟨item, hitem, rfl⟩ := List.mem_map.1 hpart
      exact ih item hitem
    | object fields ih =>
      refine ⟨_, fun part hpart => ?_⟩
      obtain ⟨_, hentry, rfl⟩ := List.mem_map.1 hpart
      obtain ⟨field, hfield, rfl⟩ := List.mem_map.1 hentry
      exact ih field hfield
  refine ⟨fun literal => ?_⟩
  cases literal with
  | none => exact ⟨_, fun _ hpart => nomatch hpart⟩
  | some literal => exact hsome literal

/-- **The check of a literal ends.** -/
theorem ends_literalCheck (schema : Schema) (call : CheckCall (Option Literal)) :
    schema.literalCheck.Ends call :=
  Checked.Reading.ends_check schema.wellFounded_literalParts rfl schema call

/-! ## §4. Runtime values. -/

/-- How runtime values are read: a field that is missing is as good as null. -/
def valueReading (schema : Schema) : Checked.Reading Json Json where
  view
    | .null => .null
    | .array items => .list items
    | .object entries => .object entries
    | .bool _ | .number _ | .string _ => .plain
  omitted := .null
  nullProblems := nullValueProblems
  leafProblems value name := schema.leafProblems (·.parseValue value) value name

/-- The check of runtime values. -/
def valueCheck (schema : Schema) : Recursion (CheckCall Json) (List (Problem Json)) :=
  schema.valueReading.check schema

theorem valueReading_view_plain {value : Json} (h : value.isPlain = true) :
    schema.valueReading.view value = .plain := by
  cases value <;> first | rfl | cases h

/-- **The problems that are found in runtime values follow the check.** -/
theorem follows_valueProblems (schema : Schema) :
    schema.valueCheck.Follows fun call => call.value.problems schema call.type := by
  rintro ⟨type, value⟩
  show value.problems schema type = schema.valueReading.body schema
    (fun call => call.value.problems schema call.type) value (schema.valueReading.view value) type
  induction value with
  | null => rfl
  | plain value hplain =>
    rw [valueReading_view_plain hplain, Json.problems_plain hplain]
    cases type with
    | named name => rfl
    | list element => exact (Json.problems_plain hplain element).symm
    | nonNull inner => exact (Json.problems_plain hplain inner).symm
  | array items _ =>
    cases type with
    | nonNull inner =>
      show _ = (Json.array items).problems schema inner
      unfold Json.problems
      rfl
    | list element =>
      rw [Json.problems_array rfl]
      rfl
    | named name => rfl
  | object entries _ =>
    by_cases hinput : ∃ inputType, schema.namedType? type = some (.inputObject inputType)
    · obtain ⟨inputType, hfind⟩ := hinput
      rw [Json.problems_object hfind]
      cases type with
      | named name =>
        have hnamed : schema.find? name = some (.inputObject inputType) := hfind
        show _ = schema.valueReading.body schema _ _ (.object _) (.named name)
        rw [Checked.Reading.body_object hnamed, InputObjectType.checkBody, Json.entryProblems_eq_map]
        rfl
      | _ => exact (Json.problems_object hfind).symm
    · rw [Json.problems_object_leaf hinput]
      cases type with
      | named name =>
        have hnamed : ¬ ∃ inputType, schema.find? name = some (.inputObject inputType) := hinput
        show _ = schema.valueReading.body schema _ _ (.object _) (.named name)
        rw [Checked.Reading.body_object_leaf hnamed]
        rfl
      | _ => exact (Json.problems_object_leaf hinput).symm

/-- A runtime value is no part of itself. -/
theorem wellFounded_valueParts (schema : Schema) :
    WellFounded fun part whole => part ∈ (schema.valueReading.view whole).parts := by
  refine ⟨fun value => ?_⟩
  induction value with
  | null => exact ⟨_, fun _ hpart => nomatch hpart⟩
  | plain value hplain =>
    refine ⟨_, fun _ hpart => ?_⟩
    rw [valueReading_view_plain hplain] at hpart
    cases hpart
  | array items ih => exact ⟨_, fun item hitem => ih item hitem⟩
  | object entries ih =>
    refine ⟨_, fun part hpart => ?_⟩
    obtain ⟨entry, hentry, rfl⟩ := List.mem_map.1 hpart
    exact ih entry hentry

/-- **The check of a runtime value ends.** -/
theorem ends_valueCheck (schema : Schema) (call : CheckCall Json) : schema.valueCheck.Ends call :=
  Checked.Reading.ends_check schema.wellFounded_valueParts rfl schema call

end Schema

end GraphQLCheck
