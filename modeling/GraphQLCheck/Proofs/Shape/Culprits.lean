/-
  GraphQLCheck.Proofs.Shape.Culprits
  ──────────────────────────────────
  What the error of a conversion tells of the value.

  An error wraps what went wrong with a part in the place of the part: the index of an element, or the name of
  a member.  So it can be read as directions, from the whole value to the part that is at fault.  At that part
  the conversion fails on its own, with the error that is inside of all wrappers.  Elements and members are
  converted in order and the first failure ends it all, so whatever comes before the part on the way to it
  does convert.

      MaterializeError.Leads — following the directions of an error

  Main results:
    * `materialize_array_eq_failure_iff`, `materialize_object_eq_failure_iff` — one step: a list or an object
                                       fails by the first of its parts that does
    * `isLeaf_or_hasParts`           — all other errors are about the value itself, and quote it
    * `errors_lead_to_first_culprit` — the errors of a conversion are those that lead to a first culprit
    * `Schema.membersDistinct_inputShapes` — this holds of the shapes of every schema
-/
import GraphQLCheck.Proofs.Recursion.Conversion
import GraphQLCheck.Proofs.Shape.Names

namespace GraphQLCheck

/-! ## §1. The first failure. -/

/-- A list of computations fails by the first one that does. -/
theorem Outcome.mapM_eq_failure_iff {ε α β : Type} {f : α → Outcome ε β} {l : List α} {e : ε} :
    l.mapM f = .failure e ↔ ∃ before a after, l = before ++ a :: after ∧ f a = .failure e ∧
      ∀ earlier ∈ before, ∃ b, f earlier = .value b := by
  induction l with
  | nil =>
    rw [List.mapM_nil]
    constructor
    · exact nofun
    · rintro ⟨before, a, after, heq, _⟩
      cases before <;> cases heq
  | cons head l ih =>
    rw [List.mapM_cons, bind_eq_failure_iff]
    constructor
    · rintro (hhead | ⟨b, hhead, h⟩)
      · exact ⟨[], head, l, rfl, hhead, nofun⟩
      · obtain h | ⟨_, _, h⟩ := bind_eq_failure_iff.1 h
        · obtain ⟨before, a, after, rfl, ha, hbefore⟩ := ih.1 h
          exact ⟨head :: before, a, after, rfl, ha, List.forall_mem_cons.2 ⟨⟨b, hhead⟩, hbefore⟩⟩
        · cases h
    · rintro ⟨before, a, after, heq, ha, hbefore⟩
      cases before with
      | nil =>
        cases heq
        exact .inl ha
      | cons first before =>
        cases heq
        obtain ⟨⟨b, hhead⟩, hbefore⟩ := List.forall_mem_cons.1 hbefore
        refine .inr ⟨b, hhead, bind_eq_failure_iff.2 (.inl (ih.2 ⟨before, a, after, rfl, ha, hbefore⟩))⟩

/-! ## §2. Errors as directions. -/

namespace MaterializeError

/-- Whether an error is of a value itself, and not of a part of it. -/
def isLeaf : MaterializeError → Bool
  | .expectedList _ | .expectedObject _ _ | .unconvertible _ _ | .unknownEnumValue _ _ | .unknownShape _ => true
  | .inElement _ _ | .inMember _ _ => false

/-- An error of a value itself quotes the value, unless it is that a shape is missing. -/
def Quotes : MaterializeError → Json → Prop
  | .expectedList found, value => found = value
  | .expectedObject _ found, value => found = value
  | .unconvertible found _, value => found = value
  | .unknownEnumValue found _, value => found = EnumShape.foundText value
  | .unknownShape _, _ => True
  | .inElement _ _, _ => False
  | .inMember _ _, _ => False

/-- An error leads from a value and its shape to a part and the shape of the part, and is the error `leaf`
there.  A place in a list leads to the element and the shape of the items; the name of a member leads to the
first member with the name and to what the member takes from the object.  Whether null is taken does not
matter.  All elements and all members that are passed by on the way convert. -/
inductive Leads (registry : ShapeRegistry) :
    MaterializeError → Shape → Json → MaterializeError → Shape → Json → Prop where
  | here {leaf : MaterializeError} {shape : Shape} {value : Json} : leaf.isLeaf = true →
      Leads registry leaf shape value leaf shape value
  | element {cause leaf : MaterializeError} {shape item partShape : Shape} {before after : List Json}
      {value part : Json} : shape.inner = .list item →
      (∀ earlier ∈ before, ∃ result, registry.materialize item earlier = .value result) →
      Leads registry cause item value leaf partShape part →
      Leads registry (.inElement before.length cause) shape (.array (before ++ value :: after)) leaf partShape part
  | member {cause leaf : MaterializeError} {shape partShape : Shape} {name : String} {object : ObjectShape}
      {before after : List MemberShape} {member : MemberShape} {entries : List (String × Json)}
      {value part : Json} : shape.inner = .object name → registry.object? name = some object →
      object.members = before ++ member :: after → (∀ earlier ∈ before, earlier.name ≠ member.name) →
      (∀ earlier ∈ before, ∃ worth, registry.IsWorth earlier.shape (earlier.source? entries) worth) →
      member.source? entries = some value →
      Leads registry cause member.shape value leaf partShape part →
      Leads registry (.inMember member.name cause) shape (.object entries) leaf partShape part

end MaterializeError

namespace ShapeRegistry

variable {registry : ShapeRegistry}

/-! ## §3. Errors of values themselves. -/

theorem isLeaf_of_materializeEnum {name : String} {value : Json} {error : MaterializeError}
    (h : registry.materializeEnum name value = .failure error) :
    error.isLeaf = true ∧ error.Quotes value := by
  unfold materializeEnum at h
  split at h
  next shape _ =>
    unfold EnumShape.materialize at h
    split at h
    · cases h
    · cases h
      exact ⟨rfl, rfl⟩
  next =>
    cases h
    exact ⟨rfl, trivial⟩

theorem isLeaf_of_materializeNull {shape : Shape} {error : MaterializeError}
    (h : registry.materializeNull shape = .failure error) : error.isLeaf = true ∧ error.Quotes .null := by
  unfold materializeNull at h
  split at h
  next => exact isLeaf_of_materializeEnum h
  next => exact isLeaf_of_materializeEnum h
  next => cases h
  next => cases h
  next =>
    split at h
    · cases h
    · cases h
      exact ⟨rfl, trivial⟩
  all_goals cases h

theorem isLeaf_of_materializeLeaf {value : Json} {shape : Shape} {error : MaterializeError}
    (h : registry.materializeLeaf value shape = .failure error) :
    error.isLeaf = true ∧ error.Quotes value := by
  induction shape with
  | any => cases h
  | enum name => exact isLeaf_of_materializeEnum h
  | list item =>
    cases h
    exact ⟨rfl, rfl⟩
  | nullable inner ih => exact ih h
  | object name =>
    unfold materializeLeaf at h
    split at h
    · cases h
      exact ⟨rfl, rfl⟩
    · cases h
      exact ⟨rfl, trivial⟩
  | primitive kind =>
    have h : Outcome.ofOption (.unconvertible value kind) (kind.convert? value) = .failure error := h
    cases hconvert : kind.convert? value with
    | some result =>
      rw [hconvert] at h
      cases h
    | none =>
      rw [hconvert] at h
      cases h
      exact ⟨rfl, rfl⟩

/-- **An error is of the value itself and quotes it**, unless the value is a list or an object that is
converted part by part. -/
theorem isLeaf_or_hasParts {shape : Shape} {value : Json} {error : MaterializeError}
    (h : registry.materialize shape value = .failure error) :
    (error.isLeaf = true ∧ error.Quotes value) ∨
    (∃ item items, shape.inner = .list item ∧ value = .array items) ∨
    ∃ name object entries, shape.inner = .object name ∧ registry.object? name = some object ∧
      value = .object entries := by
  unfold materialize at h
  cases value with
  | null => exact .inl (isLeaf_of_materializeNull h)
  | array items =>
    by_cases hlist : ∃ item, shape.inner = .list item
    · obtain ⟨item, hinner⟩ := hlist
      exact .inr (.inl ⟨item, items, hinner, rfl⟩)
    · rw [Json.materializeWith_array_leaf fun item hinner => hlist ⟨item, hinner⟩] at h
      exact .inl (isLeaf_of_materializeLeaf h)
  | object entries =>
    by_cases hobject : ∃ name, shape.inner = .object name
    · obtain ⟨name, hinner⟩ := hobject
      cases hfind : registry.object? name with
      | some object => exact .inr (.inr ⟨name, object, entries, hinner, hfind, rfl⟩)
      | none =>
        rw [Json.materializeWith_object_unknown hinner hfind] at h
        cases h
        exact .inl ⟨rfl, trivial⟩
    · rw [Json.materializeWith_object_leaf fun name hinner => hobject ⟨name, hinner⟩] at h
      exact .inl (isLeaf_of_materializeLeaf h)
  | bool b => exact .inl (isLeaf_of_materializeLeaf h)
  | number n => exact .inl (isLeaf_of_materializeLeaf h)
  | string s => exact .inl (isLeaf_of_materializeLeaf h)

/-! ## §4. Errors of parts. -/

/-- **A list fails by the first of its elements that does.** -/
theorem materialize_array_eq_failure_iff {shape item : Shape} {items : List Json} {error : MaterializeError}
    (hinner : shape.inner = .list item) :
    registry.materialize shape (.array items) = .failure error ↔
      ∃ before value after cause, items = before ++ value :: after ∧
        error = .inElement before.length cause ∧ registry.materialize item value = .failure cause ∧
        ∀ earlier ∈ before, ∃ result, registry.materialize item earlier = .value result := by
  rw [materialize_array hinner, Outcome.map_eq_failure_iff, Outcome.mapM_eq_failure_iff]
  constructor
  · rintro ⟨_, _, _, hsplit, hfailure, hbefore⟩
    obtain ⟨cause, hvalue, rfl⟩ := Outcome.mapFailure_eq_failure_iff.1 hfailure
    -- the places tell the split of the items
    obtain ⟨before, rest, rfl, rfl, hrest⟩ := List.zipIdx_eq_append_iff.1 hsplit
    obtain ⟨value, after, rfl, rfl, _⟩ := List.zipIdx_eq_cons_iff.1 hrest.symm
    refine ⟨before, value, after, cause, rfl, by rw [Nat.zero_add], hvalue, ?_⟩
    intro earlier hearlier
    obtain ⟨place, hplace, rfl⟩ : ∃ place ∈ before.zipIdx, place.1 = earlier := by
      rw [← List.zipIdx_map_fst 0 before, List.mem_map] at hearlier
      exact hearlier
    obtain ⟨result, hresult⟩ := hbefore place hplace
    exact ⟨result, Outcome.mapFailure_eq_value_iff.1 hresult⟩
  · rintro ⟨before, value, after, cause, rfl, rfl, hvalue, hbefore⟩
    refine ⟨before.zipIdx, (value, before.length), after.zipIdx (before.length + 1), ?_,
      Outcome.mapFailure_eq_failure_iff.2 ⟨cause, hvalue, rfl⟩, ?_⟩
    · rw [List.zipIdx_append, List.zipIdx_cons, Nat.zero_add]
    · intro place hplace
      obtain ⟨result, hresult⟩ := hbefore place.1 (List.fst_mem_of_mem_zipIdx hplace)
      exact ⟨result, Outcome.mapFailure_eq_value_iff.2 hresult⟩

/-- A member of an object fails exactly if what it takes does. -/
theorem conversionBody_eq_failure_iff {member : MemberShape} {entries : List (String × Json)}
    {error : MaterializeError} :
    member.conversionBody registry.convert entries = .failure error ↔
      ∃ value cause, member.source? entries = some value ∧ error = .inMember member.name cause ∧
        registry.materialize member.shape value = .failure cause := by
  unfold MemberShape.conversionBody
  cases member.source? entries with
  | none => simp
  | some value =>
    show (registry.materialize member.shape value).mapFailure _ = _ ↔ _
    rw [Outcome.mapFailure_eq_failure_iff]
    constructor
    · rintro ⟨cause, hcause, rfl⟩
      exact ⟨value, cause, rfl, rfl, hcause⟩
    · rintro ⟨_, cause, hsource, rfl, hcause⟩
      cases hsource
      exact ⟨cause, hcause, rfl⟩

/-- A member of an object is worth what it takes is worth. -/
theorem conversionBody_eq_value_iff {member : MemberShape} {entries : List (String × Json)}
    {worth : Materialized} :
    member.conversionBody registry.convert entries = .value worth ↔
      registry.IsWorth member.shape (member.source? entries) worth := by
  unfold MemberShape.conversionBody IsWorth
  cases member.source? entries with
  | none => simp [eq_comm]
  | some value => exact Outcome.mapFailure_eq_value_iff

/-- **An object fails by the first of its members that does.** -/
theorem materialize_object_eq_failure_iff {shape : Shape} {name : String} {object : ObjectShape}
    {entries : List (String × Json)} {error : MaterializeError} (hinner : shape.inner = .object name)
    (hobject : registry.object? name = some object) (hdistinct : (object.members.map MemberShape.name).Nodup) :
    registry.materialize shape (.object entries) = .failure error ↔
      ∃ before member after value cause, object.members = before ++ member :: after ∧
        member.source? entries = some value ∧ error = .inMember member.name cause ∧
        registry.materialize member.shape value = .failure cause ∧
        ∀ earlier ∈ before, ∃ worth, registry.IsWorth earlier.shape (earlier.source? entries) worth := by
  rw [materialize_object hinner hobject hdistinct, Outcome.map_eq_failure_iff, Outcome.mapM_eq_failure_iff]
  constructor
  · rintro ⟨before, member, after, hsplit, hfailure, hbefore⟩
    rw [Outcome.map_eq_failure_iff, conversionBody_eq_failure_iff] at hfailure
    obtain ⟨value, cause, hsource, rfl, hcause⟩ := hfailure
    refine ⟨before, member, after, value, cause, hsplit, hsource, rfl, hcause, fun earlier hearlier => ?_⟩
    obtain ⟨_, hresult⟩ := hbefore earlier hearlier
    obtain ⟨worth, hworth, _⟩ := Outcome.map_eq_value_iff.1 hresult
    exact ⟨worth, conversionBody_eq_value_iff.1 hworth⟩
  · rintro ⟨before, member, after, value, cause, hsplit, hsource, rfl, hcause, hbefore⟩
    refine ⟨before, member, after, hsplit, ?_, fun earlier hearlier => ?_⟩
    · rw [Outcome.map_eq_failure_iff]
      exact conversionBody_eq_failure_iff.2 ⟨value, cause, hsource, rfl, hcause⟩
    · obtain ⟨worth, hworth⟩ := hbefore earlier hearlier
      exact ⟨_, Outcome.map_eq_value_iff.2 ⟨worth, conversionBody_eq_value_iff.2 hworth, rfl⟩⟩

/-- No object has two members of one name. -/
def MembersDistinct (registry : ShapeRegistry) : Prop :=
  ∀ name object, registry.object? name = some object → (object.members.map MemberShape.name).Nodup

end ShapeRegistry

/-- The shapes of a schema are such a registry. -/
theorem Schema.membersDistinct_inputShapes (schema : Schema) : schema.inputShapes.MembersDistinct := by
  intro name object hobject
  obtain ⟨type, _, rfl⟩ := exists_of_object?_inputShapes hobject
  exact schema.nodup_memberShapes type

/-! ## §5. The way to the culprit. -/

namespace ShapeRegistry

variable {registry : ShapeRegistry}

/-- What leads from a value to a part that fails makes the value fail. -/
theorem materialize_of_leads (hdistinct : registry.MembersDistinct) {error leaf : MaterializeError}
    {shape partShape : Shape} {value part : Json} (h : error.Leads registry shape value leaf partShape part)
    (hleaf : registry.materialize partShape part = .failure leaf) :
    registry.materialize shape value = .failure error := by
  induction h with
  | here => exact hleaf
  | element hinner hbefore _ ih =>
    exact (materialize_array_eq_failure_iff hinner).2 ⟨_, _, _, _, rfl, rfl, ih hleaf, hbefore⟩
  | member hinner hobject hsplit _ hbefore hsource _ ih =>
    exact (materialize_object_eq_failure_iff hinner hobject (hdistinct _ _ hobject)).2
      ⟨_, _, _, _, _, hsplit, hsource, rfl, ih hleaf, hbefore⟩

/-- An error of a conversion leads to a part that fails on its own. -/
theorem exists_leads (hdistinct : registry.MembersDistinct) {error : MaterializeError} {shape : Shape}
    {value : Json} (h : registry.materialize shape value = .failure error) :
    ∃ leaf partShape part, error.Leads registry shape value leaf partShape part ∧ leaf.isLeaf = true ∧
      registry.materialize partShape part = .failure leaf ∧ leaf.Quotes part := by
  -- on the wrappers of the error: what a default of a member is made of is no part of the value
  induction error generalizing shape value with
  | inElement index cause ih =>
    rcases isLeaf_or_hasParts h with
      ⟨hleaf, _⟩ | ⟨item, items, hinner, rfl⟩ | ⟨name, object, entries, hinner, hobject, rfl⟩
    · cases hleaf
    · obtain ⟨before, value, after, _, rfl, heq, hcause, hbefore⟩ :=
        (materialize_array_eq_failure_iff hinner).1 h
      cases heq
      obtain ⟨leaf, partShape, part, hleads, hpart⟩ := ih hcause
      exact ⟨leaf, partShape, part, .element hinner hbefore hleads, hpart⟩
    · obtain ⟨_, _, _, _, _, _, _, heq, _⟩ :=
        (materialize_object_eq_failure_iff hinner hobject (hdistinct _ _ hobject)).1 h
      cases heq
  | inMember memberName cause ih =>
    rcases isLeaf_or_hasParts h with
      ⟨hleaf, _⟩ | ⟨item, items, hinner, rfl⟩ | ⟨name, object, entries, hinner, hobject, rfl⟩
    · cases hleaf
    · obtain ⟨_, _, _, _, _, heq, _⟩ := (materialize_array_eq_failure_iff hinner).1 h
      cases heq
    · have hnames := hdistinct _ _ hobject
      obtain ⟨before, member, after, value, _, hsplit, hsource, heq, hcause, hbefore⟩ :=
        (materialize_object_eq_failure_iff hinner hobject hnames).1 h
      cases heq
      obtain ⟨leaf, partShape, part, hleads, hpart⟩ := ih hcause
      refine ⟨leaf, partShape, part, .member hinner hobject hsplit ?_ hbefore hsource hleads, hpart⟩
      intro earlier hearlier hname
      rw [hsplit, List.map_append, List.map_cons, List.nodup_append] at hnames
      exact hnames.2.2 _ (List.mem_map_of_mem hearlier) _ (List.mem_cons_self ..) hname
  | _ =>
    rcases isLeaf_or_hasParts h with
      ⟨hleaf, hquotes⟩ | ⟨item, items, hinner, rfl⟩ | ⟨name, object, entries, hinner, hobject, rfl⟩
    · exact ⟨_, shape, value, .here hleaf, hleaf, h, hquotes⟩
    · obtain ⟨_, _, _, _, _, heq, _⟩ := (materialize_array_eq_failure_iff hinner).1 h
      cases heq
    · obtain ⟨_, _, _, _, _, _, _, heq, _⟩ :=
        (materialize_object_eq_failure_iff hinner hobject (hdistinct _ _ hobject)).1 h
      cases heq

end ShapeRegistry

/-- **The errors of a conversion are those that lead to a first culprit.**  In a registry of objects whose
members have distinct names, a value fails to convert to a shape with an error exactly if the error, followed
from the value and the shape, leads by converting elements and members to a part that fails on its own, with
what the error is inside of all wrappers; and that quotes the part, unless a shape is missing. -/
theorem errors_lead_to_first_culprit {registry : ShapeRegistry} (hdistinct : registry.MembersDistinct)
    (shape : Shape) (value : Json) (error : MaterializeError) :
    registry.materialize shape value = .failure error ↔
      ∃ leaf partShape part, error.Leads registry shape value leaf partShape part ∧ leaf.isLeaf = true ∧
        registry.materialize partShape part = .failure leaf ∧ leaf.Quotes part := by
  constructor
  · exact ShapeRegistry.exists_leads hdistinct
  · rintro ⟨leaf, partShape, part, hleads, _, hpart, _⟩
    exact ShapeRegistry.materialize_of_leads hdistinct hleads hpart

namespace Search

/-- A filter whose second tag is no text, under a key in capital letters: the error leads to that tag. -/
theorem filter_leads_to_second_tag :
    schema.inputShapes.materialize (.object "Filter")
        (.object [("range", .bool true), ("TAGS", .array [.string "lean", .object []])]) =
      .failure (.inMember "tags" (.inElement 1 (.unconvertible (.object []) .string))) ∧
    ∃ leaf partShape part,
      (MaterializeError.inMember "tags" (.inElement 1 (.unconvertible (.object []) .string))).Leads
        schema.inputShapes (.object "Filter")
        (.object [("range", .bool true), ("TAGS", .array [.string "lean", .object []])]) leaf partShape part ∧
      leaf.isLeaf = true ∧ schema.inputShapes.materialize partShape part = .failure leaf ∧
      leaf.Quotes part :=
  ⟨rfl, (errors_lead_to_first_culprit schema.membersDistinct_inputShapes _ _ _).1 rfl⟩

end Search

end GraphQLCheck
