/-
  GraphQLCheck.Proofs.Recursion.Conversion
  ────────────────────────────────────────
  The conversion of runtime values to shapes as a recursion, and when it ends.

  A value is converted layer by layer of its shape, item by item and member by member.  A member that the
  source has no value for takes its default, which is a value of the registry and no part of the source.  As
  for literals and their types, a conversion goes on for ever only from one default to another one, of a
  member for which the first has no value.

  Main results:
    * `ShapeRegistry.conversion`               — the recursion
    * `ShapeRegistry.follows_materialize`      — what a value converts to follows it
    * `Json.Lacks`                             — a value has none for a member where it is read as an object
    * `ShapeRegistry.DefaultsAcyclic.ends`     — without a circle of defaults, every conversion ends
    * `ShapeRegistry.DefaultsAcyclic.materialize_ne_endless` — so it has an outcome
-/
import GraphQLCheck.Proofs.Recursion.Calls
import GraphQLCheck.Proofs.Shape.Conversion
import Mathlib.Data.Set.Finite.Basic

namespace GraphQLCheck

/-! ## §1. The recursion. -/

/-- A call of the conversion of a value to a shape. -/
structure ConversionCall where
  shape : Shape
  value : Json

/-- Whether a shape has a meaning of its own for null. -/
def Shape.readsNull : Shape → Bool
  | .enum _ | .list _ => true
  | .any | .nullable _ | .object _ | .primitive _ => false

section Body

variable (registry : ShapeRegistry) (again : ConversionCall → Outcome MaterializeError Materialized)

/-- What a member takes from a source converts to, given the outcomes of calls. -/
def MemberShape.conversionBody (entries : List (String × Json)) (member : MemberShape) :
    Outcome MaterializeError Materialized :=
  match member.source? entries with
  | some value => (again ⟨member.shape, value⟩).mapFailure (.inMember member.name)
  | none => .value .null

/-- The members of an object, after those that are there already, given the outcomes of calls. -/
def conversionMembers (entries : List (String × Json)) (values : List (String × Materialized)) :
    List MemberShape → Outcome MaterializeError (List (String × Materialized))
  | [] => .value values
  | member :: members => do
    let value ← member.conversionBody again entries
    conversionMembers entries (Entries.put values member.name value) members

/-- What a value converts to, given the outcomes of calls. -/
def ShapeRegistry.conversionBody : Shape → Json → Outcome MaterializeError Materialized
  | .nullable inner, value =>
    if inner.readsNull || !value.isNull then again ⟨inner, value⟩ else .value .null
  | .list item, .array items =>
    Outcome.map .list (items.zipIdx.mapM fun place =>
      (again ⟨item, place.1⟩).mapFailure (.inElement place.2))
  | .object name, .object entries =>
    match registry.object? name with
    | some object => (conversionMembers again entries [] object.members).map .object
    | none => .failure (.unknownShape name)
  | shape, .null => registry.materializeNull shape
  | shape, value => registry.materializeLeaf value shape

end Body

/-- The calls for the members of an object: for what each one takes. -/
def ObjectShape.memberCalls (object : ObjectShape) (entries : List (String × Json)) :
    List ConversionCall :=
  object.members.filterMap fun member => (member.source? entries).map (⟨member.shape, ·⟩)

/-- The calls that the conversion of a value makes. -/
def ShapeRegistry.conversionCalls (registry : ShapeRegistry) : Shape → Json → List ConversionCall
  | .nullable inner, value => if inner.readsNull || !value.isNull then [⟨inner, value⟩] else []
  | .list item, .array items => items.map (⟨item, ·⟩)
  | .object name, .object entries =>
    match registry.object? name with
    | some object => object.memberCalls entries
    | none => []
  | _, _ => []

namespace ShapeRegistry

section Equations

variable {registry : ShapeRegistry} {again : ConversionCall → Outcome MaterializeError Materialized}

theorem conversionBody_nullable (inner : Shape) (value : Json) :
    registry.conversionBody again (.nullable inner) value =
      if inner.readsNull || !value.isNull then again ⟨inner, value⟩ else .value .null := by
  unfold conversionBody
  rfl

theorem conversionCalls_nullable (inner : Shape) (value : Json) :
    registry.conversionCalls (.nullable inner) value =
      if inner.readsNull || !value.isNull then [⟨inner, value⟩] else [] := by
  unfold conversionCalls
  rfl

theorem conversionBody_object {name : String} {object : ObjectShape} (h : registry.object? name = some object)
    (entries : List (String × Json)) :
    registry.conversionBody again (.object name) (.object entries) =
      (conversionMembers again entries [] object.members).map Materialized.object := by
  show (match registry.object? name with
    | some object => (conversionMembers again entries [] object.members).map Materialized.object
    | none => .failure (.unknownShape name)) = _
  rw [h]

theorem conversionBody_object_unknown {name : String} (h : registry.object? name = none)
    (entries : List (String × Json)) :
    registry.conversionBody again (.object name) (.object entries) = .failure (.unknownShape name) := by
  show (match registry.object? name with
    | some object => (conversionMembers again entries [] object.members).map Materialized.object
    | none => .failure (.unknownShape name)) = _
  rw [h]

theorem conversionCalls_object (name : String) (entries : List (String × Json)) :
    registry.conversionCalls (.object name) (.object entries) =
      ((registry.object? name).map (·.memberCalls entries)).getD [] := by
  show (match registry.object? name with
    | some object => object.memberCalls entries
    | none => []) = _
  cases registry.object? name <;> rfl

end Equations

section Related

variable {R : (α : Type) → Outcome MaterializeError α → Outcome MaterializeError α → Prop}
  {registry : ShapeRegistry} {again again' : ConversionCall → Outcome MaterializeError Materialized}

theorem conversionMembers_related (kept : Outcome.Kept R) {entries : List (String × Json)}
    {members : List MemberShape}
    (h : ∀ member ∈ members, ∀ value, member.source? entries = some value →
      R Materialized (again ⟨member.shape, value⟩) (again' ⟨member.shape, value⟩))
    (values : List (String × Materialized)) :
    R _ (conversionMembers again entries values members) (conversionMembers again' entries values members) := by
  induction members generalizing values with
  | nil => exact kept.pure _
  | cons member members ih =>
    unfold conversionMembers
    have hmember := h member (List.mem_cons_self ..)
    apply kept.bind
    · unfold MemberShape.conversionBody
      cases hsource : member.source? entries with
      | some value => exact kept.mapFailure _ (hmember value hsource)
      | none => exact kept.pure _
    · intro value
      exact ih (fun other hother => h other (List.mem_cons_of_mem _ hother)) _

/-- What relates the outcomes of the calls for a value relates what it converts to. -/
theorem conversionBody_related (kept : Outcome.Kept R) {shape : Shape} {value : Json}
    (h : ∀ call ∈ registry.conversionCalls shape value, R Materialized (again call) (again' call)) :
    R Materialized (registry.conversionBody again shape value) (registry.conversionBody again' shape value) := by
  have hnull : R Materialized (registry.materializeNull shape) (registry.materializeNull shape) :=
    kept.refl _ (registry.materializeNull_ne_endless shape)
  have hleaf : R Materialized (registry.materializeLeaf value shape) (registry.materializeLeaf value shape) :=
    kept.refl _ (registry.materializeLeaf_ne_endless value shape)
  cases shape with
  | nullable inner =>
    rw [conversionCalls_nullable] at h
    rw [conversionBody_nullable, conversionBody_nullable]
    split
    next hread =>
      rw [if_pos hread] at h
      exact h _ (List.mem_singleton.2 rfl)
    next => exact kept.pure _
  | list item =>
    cases value with
    | null => exact hnull
    | array items =>
      apply kept.map
      apply kept.mapM
      intro place hplace
      apply kept.mapFailure
      exact h _ (List.mem_map_of_mem (List.fst_mem_of_mem_zipIdx hplace))
    | _ => exact hleaf
  | object name =>
    cases value with
    | null => exact hnull
    | object entries =>
      rw [conversionCalls_object] at h
      cases hfind : registry.object? name with
      | none =>
        rw [conversionBody_object_unknown hfind, conversionBody_object_unknown hfind]
        exact kept.refl _ nofun
      | some object =>
        rw [conversionBody_object hfind, conversionBody_object hfind]
        rw [hfind] at h
        apply kept.map
        refine conversionMembers_related kept (fun member hmember value hsource => ?_) []
        exact h _ (List.mem_filterMap.2 ⟨member, hmember, by rw [hsource]; rfl⟩)
    | _ => exact hleaf
  | _ =>
    cases value with
    | null => exact hnull
    | _ => exact hleaf

end Related

/-- The conversion of values. -/
def conversion (registry : ShapeRegistry) :
    Recursion ConversionCall (Outcome MaterializeError Materialized) where
  body again call := registry.conversionBody again call.shape call.value
  calls call := registry.conversionCalls call.shape call.value
  body_congr := conversionBody_related Outcome.kept_eq

/-- What a call of the conversion comes to. -/
def convert (registry : ShapeRegistry) (call : ConversionCall) : Outcome MaterializeError Materialized :=
  registry.materialize call.shape call.value

/-! ## §2. What values convert to. -/

section Follows

variable {registry : ShapeRegistry}

/-- A member of an object converts to what the value does that it takes. -/
theorem materialize_eq_conversionBody {name : String} {object : ObjectShape}
    (hobject : registry.object? name = some object) {member : MemberShape} (hmember : member ∈ object.members)
    (entries : List (String × Json)) :
    member.materialize (registry.materializeWithin registry.defaultCount)
        (Json.materializeEntries registry (registry.materializeWithin registry.defaultCount) entries) =
      member.conversionBody registry.convert entries := by
  rw [MemberShape.materialize_eq, MemberShape.conversionBody, MemberShape.source?]
  cases Json.entryIgnoringCase? entries member.name with
  | some value => rfl
  | none =>
    cases hdefault : member.defaultValue with
    | none => rfl
    | some value =>
      have hvalue : registry.materializeWithin registry.defaultCount member.shape value =
          registry.materialize member.shape value :=
        materializeWithin_eq_materialize (mem_defaults hobject hmember hdefault)
      show (registry.materializeWithin registry.defaultCount member.shape value).mapFailure _ =
        (registry.materialize member.shape value).mapFailure _
      rw [hvalue]

theorem materializeMembers_eq_conversionMembers {name : String} {object : ObjectShape}
    (hobject : registry.object? name = some object) {entries : List (String × Json)}
    {members : List MemberShape} (h : ∀ member ∈ members, member ∈ object.members)
    (values : List (String × Materialized)) :
    materializeMembers (registry.materializeWithin registry.defaultCount)
        (Json.materializeEntries registry (registry.materializeWithin registry.defaultCount) entries)
        values members =
      conversionMembers registry.convert entries values members := by
  induction members generalizing values with
  | nil => rfl
  | cons member members ih =>
    unfold materializeMembers conversionMembers
    rw [materialize_eq_conversionBody hobject (h member (List.mem_cons_self ..))]
    exact congrArg _ (funext fun value =>
      ih (fun other hother => h other (List.mem_cons_of_mem _ hother)) _)

/-- The elements of a list are converted one by one, in order; a failure tells its place. -/
theorem materialize_array {shape item : Shape} (hinner : shape.inner = .list item) (items : List Json) :
    registry.materialize shape (.array items) =
      (items.zipIdx.mapM fun place =>
        (registry.materialize item place.1).mapFailure (.inElement place.2)).map .list := by
  unfold materialize
  rw [Json.materializeWith_array hinner, Json.materializeItems_eq_mapM]

/-- The members of an object with distinct names are converted one by one, in order. -/
theorem materialize_object {shape : Shape} {name : String} {object : ObjectShape}
    (hinner : shape.inner = .object name) (hobject : registry.object? name = some object)
    (hdistinct : (object.members.map MemberShape.name).Nodup) (entries : List (String × Json)) :
    registry.materialize shape (.object entries) =
      (object.members.mapM fun member : MemberShape =>
        (member.conversionBody registry.convert entries).map (member.name, ·)).map .object := by
  have hnames : (([] : List (String × Materialized)).map Prod.fst ++
      object.members.map MemberShape.name).Nodup := hdistinct
  have hentry : ∀ member ∈ object.members,
      member.materializeEntry (registry.materializeWithin registry.defaultCount)
          (Json.materializeEntries registry (registry.materializeWithin registry.defaultCount) entries) =
        (member.conversionBody registry.convert entries).map (member.name, ·) := by
    intro member hmember
    unfold MemberShape.materializeEntry
    rw [materialize_eq_conversionBody hobject hmember]
  have hentries := Outcome.kept_eq.mapM hentry
  unfold materialize
  rw [Json.materializeWith_object hinner hobject, materializeMembers_eq_mapM hnames, hentries]
  exact congrArg _ (Outcome.map_id _)

/-- A value that is not null converts to a nullable shape as it does to the shape inside. -/
theorem materialize_nullable {inner : Shape} {value : Json} (h : value.isNull = false) :
    registry.materialize (.nullable inner) value = registry.materialize inner value := by
  cases value with
  | null => cases h
  | array items =>
    unfold materialize Json.materializeWith
    rfl
  | object entries =>
    unfold materialize Json.materializeWith
    rfl
  | _ => rfl

/-- **What a value converts to follows the recursion.** -/
theorem follows_materialize (registry : ShapeRegistry) : registry.conversion.Follows registry.convert := by
  rintro ⟨shape, value⟩
  show registry.materialize shape value = registry.conversionBody registry.convert shape value
  cases shape with
  | nullable inner =>
    rw [conversionBody_nullable]
    cases hnull : value.isNull with
    | false =>
      rw [materialize_nullable hnull, Bool.not_false, Bool.or_true, if_pos rfl]
      rfl
    | true =>
      rw [Json.isNull_iff.1 hnull]
      cases inner <;> rfl
  | list item =>
    cases value with
    | array items =>
      have hinner : (Shape.list item).inner = .list item := rfl
      show Json.materializeWith registry _ (.array items) (.list item) = _
      rw [Json.materializeWith_array hinner, Json.materializeItems_eq_mapM]
      rfl
    | _ => rfl
  | object name =>
    cases value with
    | object entries =>
      have hinner : (Shape.object name).inner = .object name := rfl
      show Json.materializeWith registry _ (.object entries) (.object name) = _
      cases hfind : registry.object? name with
      | none => rw [Json.materializeWith_object_unknown hinner hfind, conversionBody_object_unknown hfind]
      | some object =>
        rw [Json.materializeWith_object hinner hfind, conversionBody_object hfind,
          materializeMembers_eq_conversionMembers hfind fun _ hmember => hmember]
    | _ => rfl
  | _ => cases value <;> rfl

/-- What a call comes to has an end if the calls that it takes come to a number. -/
theorem convert_ne_endless {call : ConversionCall} (h : registry.conversion.Ends call) :
    registry.convert call ≠ .endless := by
  refine h.induction (P := fun call => registry.convert call ≠ .endless) fun call hcalls => ?_
  rw [registry.follows_materialize call]
  have hended : Outcome.Ended Materialized (registry.conversionBody registry.convert call.shape call.value)
      (registry.conversionBody registry.convert call.shape call.value) :=
    conversionBody_related Outcome.kept_ended hcalls
  exact hended

end Follows

end ShapeRegistry

/-! ## §3. Defaults that depend on each other. -/

/-- A value, read as a shape, has none for a member of an object: going down to items and to members, one
comes to an object that is read as the object and has no key with the name of the member in any letter
case. -/
inductive Json.Lacks (registry : ShapeRegistry) (owner : ObjectShape) (member : MemberShape) :
    Json → Shape → Prop where
  | here {entries : List (String × Json)} {shape : Shape} {name : String} : shape.inner = .object name →
      registry.object? name = some owner → member ∈ owner.members →
      Json.entryIgnoringCase? entries member.name = none → Lacks registry owner member (.object entries) shape
  | item {items : List Json} {value : Json} {shape element : Shape} : shape.inner = .list element →
      value ∈ items → Lacks registry owner member value element → Lacks registry owner member (.array items) shape
  | member {entries : List (String × Json)} {shape : Shape} {name : String} {outer : ObjectShape}
      {inner : MemberShape} {value : Json} : shape.inner = .object name →
      registry.object? name = some outer → inner ∈ outer.members →
      Json.entryIgnoringCase? entries inner.name = some value → Lacks registry owner member value inner.shape →
      Lacks registry owner member (.object entries) shape

/-- Whether null is taken does not matter. -/
theorem Json.Lacks.nullable {registry : ShapeRegistry} {owner : ObjectShape} {member : MemberShape}
    {value : Json} {inner : Shape} (h : value.Lacks registry owner member inner) :
    value.Lacks registry owner member (.nullable inner) := by
  cases h with
  | here hshape hfind hmember hmissing => exact .here hshape hfind hmember hmissing
  | item hshape hitem hrest => exact .item hshape hitem hrest
  | member hshape hfind hinner hentry hrest => exact .member hshape hfind hinner hentry hrest

namespace ShapeRegistry

/-- A member of an object with a default. -/
structure DefaultedMember (registry : ShapeRegistry) where
  name : String
  owner : ObjectShape
  member : MemberShape
  default : Json
  registered : registry.object? name = some owner
  mem : member ∈ owner.members
  defaulted : member.defaultValue = some default

namespace DefaultedMember

variable {registry : ShapeRegistry}

/-- The call that converts the default. -/
def call (member : registry.DefaultedMember) : ConversionCall := ⟨member.member.shape, member.default⟩

/-- A default depends on that of a member that it has no value for. -/
def DependsOn (member other : registry.DefaultedMember) : Prop :=
  member.default.Lacks registry other.owner other.member member.member.shape

/-- There are finitely many members with a default. -/
instance : Finite registry.DefaultedMember := by
  let declared : List (String × ObjectShape × MemberShape) := registry.objects.flatMap fun entry =>
    entry.2.members.map fun member => (entry.1, entry.2, member)
  have hmem : ∀ member : registry.DefaultedMember, (member.name, member.owner, member.member) ∈ declared :=
    fun member => List.mem_flatMap.2
      ⟨_, mem_of_object? member.registered, List.mem_map_of_mem member.mem⟩
  have hfinite : Finite {place // place ∈ declared} := declared.finite_toSet.to_subtype
  refine Finite.of_injective (fun member =>
    (⟨(member.name, member.owner, member.member), hmem member⟩ : {place // place ∈ declared})) ?_
  intro member other hsame
  obtain ⟨name, owner, member, default, _, _, hdefault⟩ := member
  obtain ⟨name', owner', member', default', _, _, hdefault'⟩ := other
  cases hsame
  rw [hdefault] at hdefault'
  cases hdefault'
  rfl

end DefaultedMember

/-- No default of a member depends on itself by way of others. -/
def DefaultsAcyclic (registry : ShapeRegistry) : Prop :=
  ∀ member : registry.DefaultedMember, ¬Relation.TransGen DefaultedMember.DependsOn member member

end ShapeRegistry

/-! ## §4. Conversions that end. -/

section Ends

variable {registry : ShapeRegistry}

theorem ShapeRegistry.ends_nullable {inner : Shape} {value : Json}
    (h : registry.conversion.Ends ⟨inner, value⟩) : registry.conversion.Ends ⟨.nullable inner, value⟩ := by
  apply Recursion.Ends.of_calls
  show ∀ call ∈ registry.conversionCalls (.nullable inner) value, _
  rw [conversionCalls_nullable]
  split
  next => exact List.forall_mem_singleton.2 h
  next => exact nofun

/-- The conversion of a value ends if those of the defaults do of the members that it has none for. -/
theorem Json.ends_conversion (value : Json) (shape : Shape)
    (h : ∀ member : registry.DefaultedMember, value.Lacks registry member.owner member.member shape →
      registry.conversion.Ends member.call) :
    registry.conversion.Ends ⟨shape, value⟩ := by
  -- on the value, and within that on the layers of the shape, through which the value is handed on
  induction value using Json.induction generalizing shape with
  | null =>
    clear h
    induction shape with
    | nullable inner ih => exact registry.ends_nullable ih
    | _ => exact .of_nil rfl
  | plain value hplain =>
    clear h
    induction shape with
    | nullable inner ih => exact registry.ends_nullable ih
    | _ => cases value <;> first | exact .of_nil rfl | cases hplain
  | array items ih =>
    induction shape with
    | nullable inner ihShape =>
      exact registry.ends_nullable (ihShape fun member hlacks => h member hlacks.nullable)
    | list element _ =>
      apply Recursion.Ends.of_calls
      intro call hcall
      obtain ⟨item, hitem, rfl⟩ := List.mem_map.1 hcall
      exact ih item hitem element fun member hlacks => h member (.item rfl hitem hlacks)
    | _ => exact .of_nil rfl
  | object entries ih =>
    induction shape with
    | nullable inner ihShape =>
      exact registry.ends_nullable (ihShape fun member hlacks => h member hlacks.nullable)
    | object name =>
      apply Recursion.Ends.of_calls
      show ∀ call ∈ registry.conversionCalls (.object name) (.object entries), _
      rw [ShapeRegistry.conversionCalls_object]
      cases hfind : registry.object? name with
      | none => exact nofun
      | some object =>
        intro call hcall
        obtain ⟨member, hmember, hcall⟩ := List.mem_filterMap.1 hcall
        obtain ⟨part, hsource, rfl⟩ := Option.map_eq_some_iff.1 hcall
        unfold MemberShape.source? at hsource
        cases hentry : entryIgnoringCase? entries member.name with
        | some own =>
          rw [hentry] at hsource
          cases hsource
          obtain ⟨entry, hfound, rfl⟩ := Option.map_eq_some_iff.1 hentry
          exact ih entry (List.mem_of_find?_eq_some hfound) member.shape fun other hlacks =>
            h other (.member rfl hfind hmember hentry hlacks)
        | none =>
          -- what the object does not give is the default, which the object depends on
          rw [hentry] at hsource
          exact h ⟨name, object, member, part, hfind, hmember, hsource⟩ (.here rfl hfind hmember hentry)
    | _ => exact .of_nil rfl

end Ends

namespace ShapeRegistry.DefaultsAcyclic

variable {registry : ShapeRegistry} (h : registry.DefaultsAcyclic)
include h

theorem ends_default (member : registry.DefaultedMember) : registry.conversion.Ends member.call :=
  (wellFounded_of_acyclic h).induction member fun member ih =>
    member.default.ends_conversion member.member.shape ih

/-- **Without a circle of defaults, the conversion ends from every call.** -/
theorem ends (call : ConversionCall) : registry.conversion.Ends call :=
  call.value.ends_conversion call.shape fun member _ => h.ends_default member

theorem materialize_ne_endless (shape : Shape) (value : Json) :
    registry.materialize shape value ≠ .endless :=
  convert_ne_endless (h.ends ⟨shape, value⟩)

end ShapeRegistry.DefaultsAcyclic

end GraphQLCheck
