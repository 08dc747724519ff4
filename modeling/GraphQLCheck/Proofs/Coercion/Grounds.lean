/-
  GraphQLCheck.Proofs.Coercion.Grounds
  ────────────────────────────────────
  What a check finds: every violation, nothing else, and in which order.

  A violation is a fault of one value at one type.  It is said here which values within a value are looked
  at, at which types, and on which way; what is wrong with a value that is looked at; and which of two ways
  comes first.  None of this says how the faults are collected.  That the check collects them all, each with
  the steps that lead to it and in the order of these, is then shown along the calls of the check.

  Literals and runtime values are checked alike, so all of this is said of both at once: `Checked.Grounds`
  holds what they differ in.

      Grounds.Descends, Grounds.Examines — the values that are looked at, and the steps that lead there
      Grounds.Violates                   — what is wrong with one of them
      Grounds.Before                     — depth first, elements by index, what is not declared first
      Grounds.Finds                      — problems that are the violations, in order

  Main facts:
    * `Grounds.finds_body`       — what a check makes of what its calls find
    * `Grounds.finds_of_follows` — so what follows a check finds the violations
-/
import GraphQLCheck.Proofs.Recursion.Checks

namespace GraphQLCheck

variable {α β : Type}

/-- A problem of a list is a problem of one of its elements. -/
theorem Problem.mem_inElements_iff {elements : List (List (Problem α))} {problem : Problem α} :
    problem ∈ Problem.inElements elements ↔ ∃ (index : Nat) (problems : List (Problem α)),
      elements[index]? = some problems ∧ ∃ inner ∈ problems, problem = inner.within (.element index) := by
  unfold inElements
  simp only [List.mem_flatMap, List.mem_map, Prod.exists, List.mem_zipIdx_iff_getElem?]
  constructor
  · rintro ⟨problems, index, hindex, inner, hinner, rfl⟩
    exact ⟨index, problems, hindex, inner, hinner, rfl⟩
  · rintro ⟨index, problems, hindex, inner, hinner, rfl⟩
    exact ⟨problems, index, hindex, inner, hinner, rfl⟩

namespace InputObjectType

/-- The order in which the fields of an object are looked at: those that are not declared come first, as they
are given, and then those that are declared, as they are declared. -/
def fieldOrder (type : InputObjectType) (given : List String) : List String :=
  (given.filter fun name => !type.fields.contains name) ++ type.fields.names

end InputObjectType

/-! ## §1. Violations. -/

namespace Checked

/-- What may be wrong with values of a kind, and how it is said. -/
structure Grounds (α β : Type) where
  view : α → Checked α
  /-- What stands for a field that is not given. -/
  omitted : α
  /-- The violation of null at a type that excludes it, given the type inside. -/
  excluded : TypeRef → Violation β
  /-- What an enum or a scalar makes of a value; an output type makes nothing of it. -/
  read : α → TypeDef → Option Json
  /-- The value that a message quotes. -/
  quoted : α → β

namespace Grounds

variable (grounds : Grounds α β) (schema : Schema)

/-- The value is looked at: it is not null, and not accepted as it is. -/
def IsRead (value : α) : Prop := grounds.view value ≠ .null ∧ grounds.view value ≠ .accepted

/-- To look at a value at a type is to look at a value of its own, or one within it, at a part of the type;
the steps are those that are said on the way. -/
inductive Descends : α → TypeRef → List PathStep → α → TypeRef → Prop where
  | nonNull {value : α} {inner : TypeRef} : grounds.view value ≠ .null →
      Descends value (.nonNull inner) [] value inner
  | element {value item : α} {items : List α} {index : Nat} {element : TypeRef} :
      grounds.view value = .list items → items[index]? = some item →
      Descends value (.list element) [.element index] item element
  /-- What is no list is looked at as its only element. -/
  | single {value : α} {element : TypeRef} : grounds.IsRead value →
      (∀ items, grounds.view value ≠ .list items) → Descends value (.list element) [] value element
  | field {value : α} {fields : List (String × α)} {name : String} {type : InputObjectType}
      {field : InputDef} : grounds.view value = .object fields →
      schema.find? name = some (.inputObject type) → field ∈ type.fields.toList →
      Descends value (.named name) [.field field.name] ((fields.lookup field.name).getD grounds.omitted)
        field.type

/-- To look at a value at a type is, some steps further down, to look at a part of it. -/
inductive Examines : α → TypeRef → List PathStep → α → TypeRef → Prop where
  | here {value : α} {type : TypeRef} : Examines value type [] value type
  | further {value middle part : α} {type middleType partType : TypeRef} {steps path : List PathStep} :
      grounds.Descends schema value type steps middle middleType →
      Examines middle middleType path part partType → Examines value type (steps ++ path) part partType

/-- What is wrong with a value at a type, apart from its elements and its declared fields. -/
inductive Violates : α → TypeRef → List PathStep → Violation β → Prop where
  | null {value : α} {inner : TypeRef} : grounds.view value = .null →
      Violates value (.nonNull inner) [] (grounds.excluded inner)
  | unknownType {value : α} {name : String} : grounds.IsRead value → schema.find? name = none →
      Violates value (.named name) [] (.unknownType name)
  | notAnObject {value : α} {name : String} {type : InputObjectType} : grounds.IsRead value →
      schema.find? name = some (.inputObject type) → (∀ fields, grounds.view value ≠ .object fields) →
      Violates value (.named name) [] (.notAnObject type.name)
  /-- The value of the field is not looked at. -/
  | unknownField {value : α} {fields : List (String × α)} {name key : String} {type : InputObjectType} :
      grounds.view value = .object fields → schema.find? name = some (.inputObject type) →
      key ∈ fields.map Prod.fst → type.fields.contains key = false →
      Violates value (.named name) [.field key] .unknownField
  | refused {value : α} {name : String} {definition : TypeDef} : grounds.IsRead value →
      schema.find? name = some definition → (∀ type, definition ≠ .inputObject type) →
      grounds.read value definition = none →
      Violates value (.named name) [] (.refused definition.name (grounds.quoted value))

/-- A violation of a value or of a part of it that is looked at, with the steps that lead to it. -/
def ViolatedAt (value : α) (type : TypeRef) (path : List PathStep) (violation : Violation β) : Prop :=
  ∃ before rest part partType, grounds.Examines schema value type before part partType ∧
    grounds.Violates schema part partType rest violation ∧ path = before ++ rest

/-- One way into a value comes before another one: elements by index, and fields in their order. -/
inductive Before : α → TypeRef → List PathStep → List PathStep → Prop where
  | elements {value : α} {items : List α} {element : TypeRef} {index later : Nat}
      {path path' : List PathStep} : grounds.view value = .list items → index < later →
      Before value (.list element) (.element index :: path) (.element later :: path')
  | fields {value : α} {fields : List (String × α)} {name key later : String} {type : InputObjectType}
      {path path' : List PathStep} : grounds.view value = .object fields →
      schema.find? name = some (.inputObject type) →
      [key, later].Sublist (type.fieldOrder (fields.map Prod.fst)) →
      Before value (.named name) (.field key :: path) (.field later :: path')
  | within {value part : α} {type partType : TypeRef} {steps path path' : List PathStep} :
      grounds.Descends schema value type steps part partType → Before part partType path path' →
      Before value type (steps ++ path) (steps ++ path')

/-- No object that is looked at gives a field twice. -/
def KeysDistinct (value : α) (type : TypeRef) : Prop :=
  ∀ path part partType fields, grounds.Examines schema value type path part partType →
    grounds.view part = .object fields → (fields.map Prod.fst).Nodup

/-- The problems are the violations, in their order. -/
structure Finds (value : α) (type : TypeRef) (problems : List (Problem β)) : Prop where
  mem_iff : ∀ problem, problem ∈ problems ↔
    grounds.ViolatedAt schema value type problem.path problem.violation
  ordered : (problems.map Problem.path).Pairwise (grounds.Before schema value type)

variable {grounds : Grounds α β} {schema : Schema} {value : α} {type inner : TypeRef}
  {problems : List (Problem β)}

/-- A violation is one of the value itself, or of what is looked at next. -/
theorem violatedAt_iff {path : List PathStep} {violation : Violation β} :
    grounds.ViolatedAt schema value type path violation ↔
      grounds.Violates schema value type path violation ∨
      ∃ steps part partType rest, grounds.Descends schema value type steps part partType ∧
        grounds.ViolatedAt schema part partType rest violation ∧ path = steps ++ rest := by
  constructor
  · rintro ⟨before, rest, part, partType, hexamines, hviolates, rfl⟩
    cases hexamines with
    | here => exact .inl hviolates
    | @further _ middle _ _ middleType _ steps path hdescends hexamines =>
      exact .inr ⟨steps, middle, middleType, path ++ rest, hdescends,
        ⟨path, rest, part, partType, hexamines, hviolates, rfl⟩, List.append_assoc ..⟩
  · rintro (hviolates | ⟨steps, middle, middleType, _, hdescends,
      ⟨before, rest, part, partType, hexamines, hviolates, rfl⟩, rfl⟩)
    · exact ⟨[], path, value, type, .here, hviolates, rfl⟩
    · exact ⟨steps ++ before, rest, part, partType, .further hdescends hexamines, hviolates,
        (List.append_assoc ..).symm⟩

section Leaves

variable {name : String}

/-- A value that is looked at violates a type that is not defined. -/
theorem violates_unknown_iff (hread : grounds.IsRead value) (hnone : schema.find? name = none)
    (path : List PathStep) (violation : Violation β) :
    grounds.Violates schema value (.named name) path violation ↔
      path = [] ∧ violation = .unknownType name := by
  constructor
  · intro h
    cases h with
    | unknownType => exact ⟨rfl, rfl⟩
    | notAnObject _ hfind _ | unknownField _ hfind _ _ | refused _ hfind _ _ =>
      rw [hnone] at hfind
      cases hfind
  · rintro ⟨rfl, rfl⟩
    exact .unknownType hread hnone

/-- What is no object violates an input object. -/
theorem violates_input_iff {type : InputObjectType} (hread : grounds.IsRead value)
    (hinput : schema.find? name = some (.inputObject type))
    (hnoObject : ∀ fields, grounds.view value ≠ .object fields) (path : List PathStep)
    (violation : Violation β) :
    grounds.Violates schema value (.named name) path violation ↔
      path = [] ∧ violation = .notAnObject type.name := by
  constructor
  · intro h
    cases h with
    | unknownType _ hfind =>
      rw [hinput] at hfind
      cases hfind
    | notAnObject _ hfind _ =>
      rw [hinput] at hfind
      cases hfind
      exact ⟨rfl, rfl⟩
    | unknownField hview _ _ _ => exact absurd hview (hnoObject _)
    | refused _ hfind hnoInput _ =>
      rw [hinput] at hfind
      cases hfind
      exact absurd rfl (hnoInput type)
  · rintro ⟨rfl, rfl⟩
    exact .notAnObject hread hinput hnoObject

/-- A value violates any other type exactly if the type makes nothing of it. -/
theorem violates_definition_iff {definition : TypeDef} (hread : grounds.IsRead value)
    (hfind : schema.find? name = some definition) (hnoInput : ∀ type, definition ≠ .inputObject type)
    (path : List PathStep) (violation : Violation β) :
    grounds.Violates schema value (.named name) path violation ↔
      grounds.read value definition = none ∧ path = [] ∧
        violation = .refused definition.name (grounds.quoted value) := by
  constructor
  · intro h
    cases h with
    | unknownType _ hfind' =>
      rw [hfind] at hfind'
      cases hfind'
    | notAnObject _ hfind' _ | unknownField _ hfind' _ _ =>
      rw [hfind] at hfind'
      exact absurd (Option.some.inj hfind') (hnoInput _)
    | refused _ hfind' _ hnone =>
      rw [hfind] at hfind'
      cases hfind'
      exact ⟨hnone, rfl, rfl⟩
  · rintro ⟨hnone, rfl, rfl⟩
    exact .refused hread hfind hnoInput hnone

end Leaves

section Parts

variable {steps : List PathStep} {part : α} {partType : TypeRef}

/-- In a list its elements are looked at, and nothing else. -/
theorem descends_list_iff {items : List α} {element : TypeRef} (hview : grounds.view value = .list items) :
    grounds.Descends schema value (.list element) steps part partType ↔
      ∃ index, items[index]? = some part ∧ partType = element ∧ steps = [.element index] := by
  constructor
  · intro h
    cases h with
    | element hview' hitem =>
      rw [hview] at hview'
      cases hview'
      exact ⟨_, hitem, rfl, rfl⟩
    | single _ hnoList => exact absurd hview (hnoList items)
  · rintro ⟨index, hitem, rfl, rfl⟩
    exact .element hview hitem

variable {fields : List (String × α)} {name : String} {type : InputObjectType}

/-- In an object the declared fields are looked at, and nothing else. -/
theorem descends_object_iff (hview : grounds.view value = .object fields)
    (hfind : schema.find? name = some (.inputObject type)) :
    grounds.Descends schema value (.named name) steps part partType ↔
      ∃ field ∈ type.fields.toList, part = (fields.lookup field.name).getD grounds.omitted ∧
        partType = field.type ∧ steps = [.field field.name] := by
  constructor
  · intro h
    cases h with
    | field hview' hfind' hfield =>
      rw [hview] at hview'
      cases hview'
      rw [hfind] at hfind'
      cases hfind'
      exact ⟨_, hfield, rfl, rfl, rfl⟩
  · rintro ⟨field, hfield, rfl, rfl, rfl⟩
    exact .field hview hfind hfield

/-- An object itself is wrong in the fields that are not declared, and in nothing else. -/
theorem violates_object_iff (hview : grounds.view value = .object fields)
    (hfind : schema.find? name = some (.inputObject type)) {path : List PathStep} {violation : Violation β} :
    grounds.Violates schema value (.named name) path violation ↔
      ∃ key ∈ fields.map Prod.fst, type.fields.contains key = false ∧ path = [.field key] ∧
        violation = .unknownField := by
  constructor
  · intro h
    cases h with
    | unknownType _ hnone =>
      rw [hfind] at hnone
      cases hnone
    | notAnObject _ _ hnoObject => exact absurd hview (hnoObject fields)
    | unknownField hview' hfind' hgiven hunknown =>
      rw [hview] at hview'
      cases hview'
      rw [hfind] at hfind'
      cases hfind'
      exact ⟨_, hgiven, hunknown, rfl, rfl⟩
    | refused _ hfind' hnoInput _ =>
      rw [hfind] at hfind'
      exact absurd (Option.some.inj hfind').symm (hnoInput type)
  · rintro ⟨key, hgiven, hunknown, rfl, rfl⟩
    exact .unknownField hview hfind hgiven hunknown

end Parts

/-! ## §2. What is found. -/

/-- How values are read by a check, given what may be wrong with them. -/
def reading (grounds : Grounds α β) (schema : Schema) : Reading α β where
  view := grounds.view
  omitted := grounds.omitted
  nullProblems
    | .nonNull inner => [.here (grounds.excluded inner)]
    | _ => []
  leafProblems value name := schema.leafProblems (grounds.read value) (grounds.quoted value) name

namespace Finds

/-- Nothing is found where nothing is wrong and nothing is looked at any further. -/
theorem nothing (hfine : ∀ path violation, ¬ grounds.Violates schema value type path violation)
    (hstops : ∀ steps part partType, ¬ grounds.Descends schema value type steps part partType) :
    grounds.Finds schema value type [] where
  mem_iff problem := by
    constructor
    · intro hmem
      cases hmem
    · intro hat
      rcases violatedAt_iff.1 hat with hviolates | ⟨_, _, _, _, hdescends, _⟩
      · exact absurd hviolates (hfine _ _)
      · exact absurd hdescends (hstops _ _ _)
  ordered := .nil

/-- The one violation is found where nothing is looked at any further. -/
theorem single {violation : Violation β}
    (honly : ∀ path other, grounds.Violates schema value type path other ↔ path = [] ∧ other = violation)
    (hstops : ∀ steps part partType, ¬ grounds.Descends schema value type steps part partType) :
    grounds.Finds schema value type [.here violation] where
  mem_iff problem := by
    obtain ⟨path, other⟩ := problem
    rw [List.mem_singleton, violatedAt_iff]
    constructor
    · rintro ⟨⟩
      exact .inl ((honly _ _).2 ⟨rfl, rfl⟩)
    · rintro (hviolates | ⟨_, _, _, _, hdescends, _⟩)
      · obtain ⟨rfl, rfl⟩ := (honly _ _).1 hviolates
        rfl
      · exact absurd hdescends (hstops _ _ _)
  ordered := List.pairwise_singleton ..

/-- What is found in a value that is looked at by way of another type is what is found there. -/
theorem handedOn (hfine : ∀ path violation, ¬ grounds.Violates schema value type path violation)
    (honly : ∀ steps part partType, grounds.Descends schema value type steps part partType ↔
      steps = [] ∧ part = value ∧ partType = inner)
    (h : grounds.Finds schema value inner problems) : grounds.Finds schema value type problems where
  mem_iff problem := by
    rw [h.mem_iff, @violatedAt_iff _ _ grounds schema value type]
    constructor
    · intro hat
      exact .inr ⟨[], value, inner, _, (honly _ _ _).2 ⟨rfl, rfl, rfl⟩, hat, rfl⟩
    · rintro (hviolates | ⟨steps, part, partType, rest, hdescends, hat, hpath⟩)
      · exact absurd hviolates (hfine _ _)
      · obtain ⟨rfl, rfl, rfl⟩ := (honly _ _ _).1 hdescends
        rw [hpath]
        exact hat
  ordered := h.ordered.imp fun hbefore => .within ((honly _ _ _).2 ⟨rfl, rfl, rfl⟩) hbefore

/-- Null is wrong exactly where it is excluded. -/
theorem null (hview : grounds.view value = .null) :
    grounds.Finds schema value type ((grounds.reading schema).nullProblems type) := by
  -- null has no parts at any type
  have hstops : ∀ steps part partType, ¬ grounds.Descends schema value type steps part partType := by
    intro steps part partType hdescends
    cases hdescends with
    | nonNull hread => exact hread hview
    | single hread _ => exact hread.1 hview
    | element hother _ | field hother _ _ =>
      rw [hview] at hother
      cases hother
  cases type with
  | nonNull inner =>
    refine .single (fun path other => ⟨fun hviolates => ?_, ?_⟩) hstops
    · cases hviolates
      exact ⟨rfl, rfl⟩
    · rintro ⟨rfl, rfl⟩
      exact .null hview
  | list element => exact .nothing (fun path violation hviolates => nomatch hviolates) hstops
  | named name =>
    refine .nothing (fun path violation hviolates => ?_) hstops
    cases hviolates with
    | unknownType hread _ | notAnObject hread _ _ | refused hread _ _ _ => exact hread.1 hview
    | unknownField hother _ _ _ =>
      rw [hview] at hother
      cases hother

/-- Nothing is wrong with a value that is accepted as it is, beneath the exclusion of null. -/
theorem accepted (hview : grounds.view value = .accepted) (htype : type.isNonNull = false) :
    grounds.Finds schema value type [] := by
  refine nothing (fun path violation hviolates => ?_) fun steps part partType hdescends => ?_
  · cases hviolates with
    | null => cases htype
    | unknownType hread _ | notAnObject hread _ _ | refused hread _ _ _ => exact hread.2 hview
    | unknownField hother _ _ _ =>
      rw [hview] at hother
      cases hother
  · cases hdescends with
    | nonNull _ => cases htype
    | single hread _ => exact hread.2 hview
    | element hother _ | field hother _ _ =>
      rw [hview] at hother
      cases hother

/-- What is found in a value that is not null is found in it where null is excluded. -/
theorem nonNull (hview : grounds.view value ≠ .null) (h : grounds.Finds schema value inner problems) :
    grounds.Finds schema value (.nonNull inner) problems := by
  refine h.handedOn ?_ fun steps part partType => ⟨?_, ?_⟩
  · intro path violation hviolates
    cases hviolates with
    | null hnull => exact hview hnull
  · intro hdescends
    cases hdescends with
    | nonNull _ => exact ⟨rfl, rfl, rfl⟩
  · rintro ⟨rfl, rfl, rfl⟩
    exact .nonNull hview

/-- What is found in a value that is no list is found in it where a list is expected. -/
theorem singleElement (hread : grounds.IsRead value) (hnoList : ∀ items, grounds.view value ≠ .list items)
    (h : grounds.Finds schema value inner problems) :
    grounds.Finds schema value (.list inner) problems := by
  refine h.handedOn ?_ fun steps part partType => ⟨?_, ?_⟩
  · intro path violation hviolates
    cases hviolates
  · intro hdescends
    cases hdescends with
    | element hview _ => exact absurd hview (hnoList _)
    | single _ _ => exact ⟨rfl, rfl, rfl⟩
  · rintro ⟨rfl, rfl, rfl⟩
    exact .single hread hnoList

/-- What is found in the elements of a list is found in the list. -/
theorem elements {items : List α} {element : TypeRef} (hview : grounds.view value = .list items)
    {found : α → List (Problem β)}
    (h : ∀ item ∈ items, grounds.Finds schema item element (found item)) :
    grounds.Finds schema value (.list element) (Problem.inElements (items.map found)) where
  mem_iff problem := by
    rw [Problem.mem_inElements_iff, violatedAt_iff]
    constructor
    · rintro ⟨index, problems, hindex, inner, hinner, rfl⟩
      rw [List.getElem?_map] at hindex
      obtain ⟨item, hitem, rfl⟩ := Option.map_eq_some_iff.1 hindex
      have hat := ((h item (List.mem_of_getElem? hitem)).mem_iff inner).1 hinner
      exact .inr ⟨[.element index], item, element, inner.path, .element hview hitem, hat, rfl⟩
    · rintro (hviolates | ⟨steps, part, partType, rest, hdescends, hat, hpath⟩)
      · cases hviolates
      · obtain ⟨index, hitem, rfl, rfl⟩ := (descends_list_iff hview).1 hdescends
        have hinner := ((h part (List.mem_of_getElem? hitem)).mem_iff ⟨rest, problem.violation⟩).2 hat
        refine ⟨index, found part, ?_, _, hinner, ?_⟩
        · rw [List.getElem?_map, hitem]
          rfl
        · obtain ⟨path, violation⟩ := problem
          cases hpath
          rfl
  ordered := by
    rw [List.pairwise_map]
    unfold Problem.inElements
    rw [List.pairwise_flatMap]
    constructor
    · -- within one element
      rintro ⟨problems, index⟩ hmem
      have hindex := List.mem_zipIdx_iff_getElem?.1 hmem
      rw [List.getElem?_map] at hindex
      obtain ⟨item, hitem, rfl⟩ := Option.map_eq_some_iff.1 hindex
      rw [List.pairwise_map]
      have hordered := List.pairwise_map.1 (h item (List.mem_of_getElem? hitem)).ordered
      exact hordered.imp fun hbefore => .within (.element hview hitem) hbefore
    · -- of one element and of a later one
      have hindices : (items.map found).zipIdx.Pairwise fun first later => first.2 < later.2 := by
        rw [← List.pairwise_map, List.zipIdx_map_snd]
        exact List.pairwise_lt_range' 1
      refine hindices.imp fun {first later} hlt problem hproblem other hother => ?_
      obtain ⟨inner, _, rfl⟩ := List.mem_map.1 hproblem
      obtain ⟨innerOther, _, rfl⟩ := List.mem_map.1 hother
      exact .elements hview hlt

/-- What is found in the declared fields of an object is found in it, and so are the fields that are not
declared. -/
theorem fields {fields : List (String × α)} {name : String} {type : InputObjectType}
    (hview : grounds.view value = .object fields) (hfind : schema.find? name = some (.inputObject type))
    {again : CheckCall α → List (Problem β)}
    (h : ∀ call ∈ type.checkCalls grounds.omitted fields,
      grounds.Finds schema call.value call.type (again call)) :
    grounds.Finds schema value (.named name) (type.checkBody again grounds.omitted fields) where
  mem_iff problem := by
    rw [InputObjectType.checkBody_eq, List.mem_append, List.mem_map, List.mem_flatMap, violatedAt_iff]
    constructor
    · rintro (⟨key, hkey, rfl⟩ | ⟨field, hfield, hmem⟩)
      · obtain ⟨hgiven, hunknown⟩ := List.mem_filter.1 hkey
        exact .inl (.unknownField hview hfind hgiven (by simpa using hunknown))
      · obtain ⟨inner, hinner, rfl⟩ := List.mem_map.1 hmem
        have hat := ((h _ (List.mem_map_of_mem hfield)).mem_iff inner).1 hinner
        exact .inr ⟨[.field field.name], _, _, inner.path, .field hview hfind hfield, hat, rfl⟩
    · obtain ⟨path, violation⟩ := problem
      rintro (hviolates | ⟨steps, part, partType, rest, hdescends, hat, hpath⟩)
      · obtain ⟨key, hgiven, hunknown, rfl, rfl⟩ := (violates_object_iff hview hfind).1 hviolates
        exact .inl ⟨key, List.mem_filter.2 ⟨hgiven, by rw [hunknown]; rfl⟩, rfl⟩
      · obtain ⟨field, hfield, rfl, rfl, rfl⟩ := (descends_object_iff hview hfind).1 hdescends
        have hinner := ((h _ (List.mem_map_of_mem hfield)).mem_iff ⟨rest, violation⟩).2 hat
        refine .inr ⟨field, hfield, List.mem_map.2 ⟨_, hinner, ?_⟩⟩
        cases hpath
        rfl
  ordered := by
    rw [InputObjectType.checkBody_eq, List.map_append, List.pairwise_append]
    have hnames : type.fields.toList.map InputDef.name = type.fields.names := rfl
    refine ⟨?_, ?_, ?_⟩
    · -- fields that are not declared
      rw [List.map_map, List.pairwise_map, List.pairwise_iff_forall_sublist]
      intro key later hsublist
      exact .fields hview hfind (hsublist.trans (List.sublist_append_left ..))
    · rw [List.pairwise_map, List.pairwise_flatMap]
      constructor
      · -- within one declared field
        intro field hfield
        rw [List.pairwise_map]
        have hordered := List.pairwise_map.1 (h _ (List.mem_map_of_mem hfield)).ordered
        exact hordered.imp fun hbefore => .within (.field hview hfind hfield) hbefore
      · -- of one declared field and of a later one
        rw [List.pairwise_iff_forall_sublist]
        intro field later hsublist problem hproblem other hother
        obtain ⟨inner, _, rfl⟩ := List.mem_map.1 hproblem
        obtain ⟨innerOther, _, rfl⟩ := List.mem_map.1 hother
        have hdeclared := hsublist.map InputDef.name
        rw [hnames] at hdeclared
        exact .fields hview hfind (hdeclared.trans (List.sublist_append_right ..))
    · intro path hpath other hother
      obtain ⟨_, hproblem, rfl⟩ := List.mem_map.1 hpath
      obtain ⟨key, hkey, rfl⟩ := List.mem_map.1 hproblem
      obtain ⟨_, hproblem, rfl⟩ := List.mem_map.1 hother
      obtain ⟨field, hfield, hproblem⟩ := List.mem_flatMap.1 hproblem
      obtain ⟨inner, _, rfl⟩ := List.mem_map.1 hproblem
      have hname := List.mem_map_of_mem (f := InputDef.name) hfield
      rw [hnames] at hname
      exact .fields hview hfind
        ((List.singleton_sublist.2 hkey).append (List.singleton_sublist.2 hname))

/-- What is found in a value that is read as a whole is what its type makes of it. -/
theorem leaf {name : String} (hread : grounds.IsRead value)
    (hleaf : ∀ fields type, grounds.view value = .object fields →
      schema.find? name ≠ some (.inputObject type)) :
    grounds.Finds schema value (.named name)
      (schema.leafProblems (grounds.read value) (grounds.quoted value) name) := by
  have hstops : ∀ steps part partType,
      ¬ grounds.Descends schema value (.named name) steps part partType := by
    intro steps part partType hdescends
    cases hdescends with
    | field hview hfind _ => exact hleaf _ _ hview hfind
  unfold Schema.leafProblems
  split
  next hnone => exact single (violates_unknown_iff hread hnone) hstops
  next type hinput =>
    have hnoObject : ∀ fields, grounds.view value ≠ .object fields :=
      fun fields hview => hleaf fields type hview hinput
    exact single (violates_input_iff hread hinput hnoObject) hstops
  next definition hnoInput hfind =>
    have hviolates := violates_definition_iff hread hfind fun type heq => hnoInput type heq
    cases hvalue : grounds.read value definition with
    | some found => exact nothing (fun path other h => by simp [hviolates, hvalue] at h) hstops
    | none => exact single (fun path other => by simp [hviolates, hvalue]) hstops

end Finds

/-- **A check finds the violations, in order**, if its calls do. -/
theorem finds_body {again : CheckCall α → List (Problem β)}
    (h : ∀ call ∈ (grounds.reading schema).calls schema value (grounds.view value) type,
      grounds.Finds schema call.value call.type (again call)) :
    grounds.Finds schema value type
      ((grounds.reading schema).body schema again value (grounds.view value) type) := by
  have hread : ∀ view, grounds.view value = view → view ≠ .null → view ≠ .accepted →
      grounds.IsRead value := by
    rintro view rfl hnull haccepted
    exact ⟨hnull, haccepted⟩
  cases hview : grounds.view value with
  | null => exact .null hview
  | accepted =>
    rw [hview] at h
    cases type with
    | nonNull inner => exact .nonNull (by simp [hview]) (h _ (List.mem_singleton.2 rfl))
    | list element => exact .accepted hview rfl
    | named name => exact .accepted hview rfl
  | plain =>
    rw [hview] at h
    have hlooked := hread _ hview nofun nofun
    cases type with
    | nonNull inner => exact .nonNull hlooked.1 (h _ (List.mem_singleton.2 rfl))
    | list element =>
      exact .singleElement hlooked (by simp [hview]) (h _ (List.mem_singleton.2 rfl))
    | named name => exact .leaf hlooked (by simp [hview])
  | list items =>
    rw [hview] at h
    have hlooked := hread _ hview nofun nofun
    cases type with
    | nonNull inner => exact .nonNull hlooked.1 (h _ (List.mem_singleton.2 rfl))
    | list element =>
      have hitems : ∀ item ∈ items, grounds.Finds schema item element (again ⟨element, item⟩) :=
        fun item hitem => h ⟨element, item⟩ (List.mem_map_of_mem hitem)
      exact .elements hview hitems
    | named name => exact .leaf hlooked (by simp [hview])
  | object fields =>
    rw [hview] at h
    have hlooked := hread _ hview nofun nofun
    cases type with
    | nonNull inner => exact .nonNull hlooked.1 (h _ (List.mem_singleton.2 rfl))
    | list element =>
      exact .singleElement hlooked (by simp [hview]) (h _ (List.mem_singleton.2 rfl))
    | named name =>
      by_cases hinput : ∃ inputType, schema.find? name = some (.inputObject inputType)
      · obtain ⟨inputType, hfind⟩ := hinput
        rw [Reading.calls_object hfind] at h
        rw [Reading.body_object hfind]
        exact .fields hview hfind h
      · rw [Reading.body_object_leaf hinput]
        exact .leaf hlooked fun _ inputType _ hfind => hinput ⟨inputType, hfind⟩

/-- What follows a check finds the violations, in order, where the check ends. -/
theorem finds_of_follows {problemsOf : CheckCall α → List (Problem β)}
    (hfollows : ((grounds.reading schema).check schema).Follows problemsOf) {call : CheckCall α}
    (hends : ((grounds.reading schema).check schema).Ends call) :
    grounds.Finds schema call.value call.type (problemsOf call) := by
  refine Recursion.Ends.induction
    (P := fun call => grounds.Finds schema call.value call.type (problemsOf call)) (fun call hcalls => ?_) hends
  show grounds.Finds schema call.value call.type (problemsOf call)
  rw [hfollows call]
  exact finds_body hcalls

end Grounds

end Checked

end GraphQLCheck
