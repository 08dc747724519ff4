/-
  GraphQLCheck.Proofs.Validation.Namesakes
  ────────────────────────────────────────
  Which errors the rules about operations report, told without the walk and without what the rules
  remember on it.

  The rule about names remembers one place for each name that it has met.  A place is noted with the first
  operation of a name and never changed, so after any number of operations the names lead to the first ones
  among these.  What the rule reports of an operation is then read off the operations before it.

  Main results:
    * `Rule.NotesFirst.noteName`       — one more operation: names lead to the first operations still
    * `Rule.sharedNames_eq_filterMap`  — so an error leads to the first operation with the name
    * `Document.eq_of_name_eq`         — where nothing is reported, an operation is the only one with its name
    * `operation_rules_report_exactly` — all errors of both rules, their number, and what it means that
                                         there are none
-/
import GraphQLCheck.Proofs.Validation.Arguments
import GraphQLCheck.Proofs.Validation.Operations

namespace GraphQLCheck

/-! ## §1. Errors of operations. -/

namespace Operation

/-- The error of an operation whose name an earlier one has: at the first of the earlier operations with the
name, and at the operation. -/
def nameClash? (operation : Operation) (earlier : List Operation) : Option ValidationError :=
  operation.name.bind fun name => (earlier.find? (·.name == some name)).map fun first =>
    { message := "There can only be one operation named \"" ++ name ++ "\"."
      locations := [first.location, operation.location] }

/-- The error of an operation without a name that is not the only one. -/
def notAlone (operation : Operation) : ValidationError where
  message := "This anonymous operation must be the only defined operation."
  locations := [operation.location]

/-- There is no error exactly if no earlier operation has the name. -/
theorem nameClash?_eq_none_iff {operation : Operation} {earlier : List Operation} :
    operation.nameClash? earlier = none ↔
      ∀ name, operation.name = some name → ∀ other ∈ earlier, other.name ≠ some name := by
  unfold nameClash?
  cases operation.name with
  | none => simp
  | some name =>
    rw [Option.bind_some, Option.map_eq_none_iff, List.find?_eq_none]
    simp

end Operation

/-! ## §2. What is remembered of names. -/

namespace Rule

/-- The place that is remembered for a name is that of the first operation with the name so far. -/
def NotesFirst (earlier : List Operation) (places : List (String × Location)) : Prop :=
  ∀ name, places.lookup name = (earlier.find? (·.name == some name)).map (·.location)

namespace NotesFirst

variable {earlier : List Operation} {places : List (String × Location)}

theorem nil : NotesFirst [] [] := fun _ => rfl

/-- **A place that is remembered stays**, and a new name gets the place of its operation. -/
theorem noteName (h : NotesFirst earlier places) (operation : Operation) :
    NotesFirst (earlier ++ [operation]) (noteName places operation) := by
  intro name
  rw [List.find?_append, List.find?_singleton]
  unfold Rule.noteName
  cases hname : operation.name with
  | none => simpa using h name
  | some own =>
    by_cases hother : own = name
    · -- the name of the operation: what was found before is found still, or else the operation is
      subst hother
      rw [beq_self_eq_true, if_pos rfl]
      cases hfind : earlier.find? (·.name == some own) with
      | some first => simp [h own, hfind]
      | none => simp [h own, hfind]
    · -- no other name gets a place
      have hne : (some own == some name) = false := by simpa using hother
      have hkey : (name == own) = false := beq_eq_false_iff_ne.2 (Ne.symm hother)
      rw [hne, if_neg Bool.false_ne_true, Option.or_none, ← h name]
      show (if (places.lookup own).isSome then places else (own, operation.location) :: places).lookup name = _
      split
      next => rfl
      next => rw [List.lookup_cons, hkey]

/-- What is reported of an operation is read off the operations before it. -/
theorem sharedName_eq (h : NotesFirst earlier places) (operation : Operation) :
    sharedName places operation = (operation.nameClash? earlier).toList := by
  unfold sharedName Operation.nameClash?
  cases operation.name with
  | none => rfl
  | some name =>
    rw [Option.bind_some, Option.bind_some, h name]
    cases earlier.find? (·.name == some name) <;> rfl

end NotesFirst

/-- **The errors of operations, each read off the operations before it**, if what is remembered leads to the
first ones. -/
theorem sharedNames_eq_filterMap {earlier : List Operation} {places : List (String × Location)}
    (h : NotesFirst earlier places) (operations : List Operation) :
    sharedNames places operations = (operations.zipIdx earlier.length).filterMap fun (operation, place) =>
      operation.nameClash? ((earlier ++ operations).take place) := by
  induction operations generalizing earlier places with
  | nil => rfl
  | cons operation operations ih =>
    have hrest := ih (h.noteName operation)
    rw [List.length_append, List.length_singleton, List.append_assoc, List.singleton_append] at hrest
    rw [sharedNames, hrest, h.sharedName_eq, List.zipIdx_cons, List.filterMap_eq_flatMap_toList,
      List.filterMap_eq_flatMap_toList, List.flatMap_cons]
    show _ = (operation.nameClash? ((earlier ++ operation :: operations).take earlier.length)).toList ++ _
    rw [List.take_left]

end Rule

/-! ## §3. Documents. -/

namespace Document

variable (schema : Schema) (document : Document)

/-- The errors about names, each read off the operations before the one that has the name again. -/
theorem validate_uniqueOperationNames_eq_filterMap :
    document.validate schema [.uniqueOperationNames] =
      document.operations.zipIdx.filterMap fun (operation, place) =>
        operation.nameClash? (document.operations.take place) := by
  rw [validate_uniqueOperationNames, Rule.sharedNames_eq_filterMap .nil]
  rfl

/-- There is an error about a name for every named operation but one of each name. -/
theorem length_validate_uniqueOperationNames_add_card :
    (document.validate schema [.uniqueOperationNames]).length +
        (document.operations.filterMap Operation.name).toFinset.card =
      (document.operations.filterMap Operation.name).length := by
  have hcount := Rule.length_sharedNames [] document.operations
  rw [← document.validate_uniqueOperationNames schema, List.map_nil, List.toFinset_nil,
    Finset.sdiff_empty] at hcount
  exact hcount

/-- Of two or more operations, those without a name are errors. -/
theorem validate_loneAnonymousOperation_eq_map :
    document.validate schema [.loneAnonymousOperation] =
      if 2 ≤ document.operations.length then
        (document.operations.filter (·.name.isNone)).map Operation.notAlone
      else [] := by
  rw [validate_loneAnonymousOperation]
  by_cases hmany : 2 ≤ document.operations.length
  · have hnameless : ∀ operation : Operation, Rule.namelessAmong document.operations.length operation =
        if operation.name.isNone then [operation.notAlone] else [] := by
      intro operation
      unfold Rule.namelessAmong Operation.notAlone
      simp only [decide_eq_true (show 1 < document.operations.length from hmany), Bool.and_true]
    rw [funext hnameless, if_pos hmany, ← List.filterMap_eq_map, List.filterMap_filter,
      List.filterMap_eq_flatMap_toList]
    apply List.flatMap_congr
    intro operation _
    cases operation.name <;> rfl
  · rw [if_neg hmany, List.flatMap_eq_nil_iff]
    intro operation _
    have hfew : decide (1 < document.operations.length) = false := decide_eq_false hmany
    unfold Rule.namelessAmong
    rw [hfew, Bool.and_false, if_neg Bool.false_ne_true]

variable {schema document}

/-- An operation that nothing is reported of is the first one with its name. -/
theorem name_ne_of_lt (h : isValid (document.validate schema [.uniqueOperationNames]) = true)
    {earlier place : Nat} (hlt : earlier < place) {other operation : Operation}
    (hother : document.operations[earlier]? = some other)
    (hplace : document.operations[place]? = some operation) {name : String}
    (hname : operation.name = some name) : other.name ≠ some name := by
  unfold isValid at h
  rw [validate_uniqueOperationNames_eq_filterMap, List.isEmpty_iff, List.filterMap_eq_nil_iff] at h
  have hsilent := h (operation, place) (List.mk_mem_zipIdx_iff_getElem?.2 hplace)
  refine Operation.nameClash?_eq_none_iff.1 hsilent name hname other ?_
  exact List.mem_of_getElem? (by rw [List.getElem?_take_of_lt hlt]; exact hother)

/-- **Where nothing is reported, an operation is the only one with its name**, or without one. -/
theorem eq_of_name_eq (hunique : isValid (document.validate schema [.uniqueOperationNames]) = true)
    (hlone : isValid (document.validate schema [.loneAnonymousOperation]) = true) {place other : Nat}
    {operation operation' : Operation} (hplace : document.operations[place]? = some operation)
    (hother : document.operations[other]? = some operation') (hname : operation'.name = operation.name) :
    other = place := by
  cases hown : operation.name with
  | some name =>
    rcases Nat.lt_trichotomy other place with hlt | heq | hlt
    · exact absurd (hname.trans hown) (name_ne_of_lt hunique hlt hother hplace hown)
    · exact heq
    · exact absurd hown (name_ne_of_lt hunique hlt hplace hother (hname.trans hown))
  | none =>
    have honly := operations_eq_singleton_of_loneAnonymousOperation hlone (List.mem_of_getElem? hplace) hown
    have hlength : document.operations.length = 1 := by rw [honly, List.length_singleton]
    have hplace := (List.getElem?_eq_some_iff.1 hplace).1
    have hother := (List.getElem?_eq_some_iff.1 hother).1
    omega

end Document

/-- **The rules about operations report exactly what is wrong with their names.**  There is one error for
each named operation whose name an earlier one has, in the order of these operations, at the first operation
with the name and then at the one that has it again; so there are as many as there are named operations more
than names.  There is one error for each operation without a name if there are two operations or more.  If
nothing is reported, then what the name of an operation, or none, stands for is that operation and no other
one. -/
theorem operation_rules_report_exactly (schema : Schema) (document : Document) :
    (document.validate schema [.uniqueOperationNames] =
        document.operations.zipIdx.filterMap fun (operation, place) =>
          operation.nameClash? (document.operations.take place)) ∧
    ((document.validate schema [.uniqueOperationNames]).length +
        (document.operations.filterMap Operation.name).toFinset.card =
      (document.operations.filterMap Operation.name).length) ∧
    (document.validate schema [.loneAnonymousOperation] =
      if 2 ≤ document.operations.length then
        (document.operations.filter (·.name.isNone)).map Operation.notAlone
      else []) ∧
    (isValid (document.validate schema [.uniqueOperationNames]) = true →
      isValid (document.validate schema [.loneAnonymousOperation]) = true →
      ∀ (place : Nat) (operation : Operation), document.operations[place]? = some operation →
        document.operation? operation.name = some operation ∧
        ∀ (other : Nat) (operation' : Operation), document.operations[other]? = some operation' →
          operation'.name = operation.name → other = place) := by
  refine ⟨document.validate_uniqueOperationNames_eq_filterMap schema,
    document.length_validate_uniqueOperationNames_add_card schema,
    document.validate_loneAnonymousOperation_eq_map schema, ?_⟩
  intro hunique hlone place operation hplace
  refine ⟨Document.operation?_name_of_mem hunique hlone (List.mem_of_getElem? hplace), ?_⟩
  exact fun other operation' hother hname => Document.eq_of_name_eq hunique hlone hplace hother hname

namespace Search

/-- `query Narrow { ... }`, a fragment, and `query Wide { ... }`. -/
def narrowAndWide : Document :=
  ⟨[.operation ⟨.query, some "Narrow", [], ⟨[.field call], ⟨1, 14⟩⟩, ⟨1, 1⟩⟩,
    .fragment ⟨"Part", "Query", ⟨[.field call], ⟨2, 24⟩⟩, ⟨2, 1⟩⟩,
    .operation ⟨.query, some "Wide", [], ⟨[], ⟨3, 12⟩⟩, ⟨3, 1⟩⟩]⟩

/-- The second operation has a name of its own, and that name stands for it. -/
theorem wide_stands_for_itself :
    isValid (narrowAndWide.validate schema [.uniqueOperationNames]) = true ∧
    isValid (narrowAndWide.validate schema [.loneAnonymousOperation]) = true ∧
    ∃ wide, narrowAndWide.operations[1]? = some wide ∧ wide.name = some "Wide" ∧
      narrowAndWide.operation? (some "Wide") = some wide := by
  refine ⟨rfl, rfl, _, rfl, rfl, ?_⟩
  exact ((operation_rules_report_exactly schema narrowAndWide).2.2.2 rfl rfl 1 _ rfl).1

end Search

end GraphQLCheck
