/-
  GraphQLCheck.Proofs.Shape.Closed
  ────────────────────────────────
  The shapes of a schema are closed: every name in one of them is registered.

  Shapes refer to enums and objects by name, and the members of an object have shapes again.  If the names in
  a shape and in all members of a registry are registered, a conversion to the shape only ever comes to shapes
  of which this holds, however deep it goes, and so it cannot miss one.

      Shape.OccursIn         — a shape is another one or is inside of it
      ShapeRegistry.Covers   — the names in a shape are registered
      Schema.HasShape        — the shapes of input types, and of the members of input objects
      Schema.Describes       — the names in a shape are registered with what the types of the schema have

  Main results:
    * `ShapeRegistry.Covers.of_leads`   — a conversion stays within the shapes that are covered
    * `schema_shapes_are_closed`        — which types have shapes, and what is registered for these
-/
import GraphQLCheck.Proofs.Shape.Culprits
import GraphQLCheck.Proofs.Shape.Redundant

namespace GraphQLCheck

/-! ## §1. Names in shapes. -/

namespace Shape

/-- A shape occurs in another: it is that one, or occurs in that of its items or in what it adds null to. -/
inductive OccursIn (part : Shape) : Shape → Prop where
  | here : OccursIn part part
  | list {item : Shape} : OccursIn part item → OccursIn part (.list item)
  | nullable {inner : Shape} : OccursIn part inner → OccursIn part (.nullable inner)

/-- What occurs in what is not null occurs in the shape. -/
theorem OccursIn.of_inner {part shape : Shape} (h : OccursIn part shape.inner) : OccursIn part shape := by
  induction shape with
  | nullable inner ih => exact .nullable (ih h)
  | _ => exact h

theorem occursIn_inner (shape : Shape) : OccursIn shape.inner shape := OccursIn.here.of_inner

/-- In the shape of a type, the names are those in the shape of what the type's own name stands for. -/
theorem OccursIn.of_ofLayers {part named : Shape} (hlist : ∀ item, part ≠ .list item)
    (hnullable : ∀ inner, part ≠ .nullable inner) {type : TypeRef} {required : Bool}
    (h : OccursIn part (ofLayers named required type)) : OccursIn part named := by
  have hlayer : ∀ {required shape}, OccursIn part (ofLayers.layer required shape) → OccursIn part shape := by
    intro required shape h
    cases required with
    | true => exact h
    | false =>
      cases h with
      | here => exact absurd rfl (hnullable _)
      | nullable h => exact h
  induction type generalizing required with
  | list element ih =>
    cases hlayer h with
    | here => exact absurd rfl (hlist _)
    | list h => exact ih h
  | named name => exact hlayer h
  | nonNull inner ih => exact ih h

end Shape

/-! ## §2. Registries that cover shapes. -/

namespace ShapeRegistry

/-- A registry covers a shape if it has all enums and objects that the shape names. -/
structure Covers (registry : ShapeRegistry) (shape : Shape) : Prop where
  enum : ∀ name, Shape.OccursIn (.enum name) shape → ∃ found, registry.enum? name = some found
  object : ∀ name, Shape.OccursIn (.object name) shape → ∃ found, registry.object? name = some found

/-- A registry is closed if it covers the shapes of all members of its objects. -/
def IsClosed (registry : ShapeRegistry) : Prop :=
  ∀ name object, registry.object? name = some object → ∀ member ∈ object.members, registry.Covers member.shape

variable {registry : ShapeRegistry} {shape : Shape}

namespace Covers

theorem mono {part : Shape} (h : registry.Covers shape)
    (hpart : ∀ name, Shape.OccursIn name part → Shape.OccursIn name shape) : registry.Covers part :=
  ⟨fun name hname => h.enum name (hpart _ hname), fun name hname => h.object name (hpart _ hname)⟩

theorem inner (h : registry.Covers shape) : registry.Covers shape.inner := h.mono fun _ => .of_inner

theorem item {item : Shape} (h : registry.Covers (.list item)) : registry.Covers item := h.mono fun _ => .list

/-- **A conversion stays within what is covered**: from a shape that is covered, an error leads to one that is. -/
theorem of_leads (hclosed : registry.IsClosed) {error leaf : MaterializeError} {partShape : Shape}
    {value part : Json} (hleads : error.Leads registry shape value leaf partShape part)
    (h : registry.Covers shape) : registry.Covers partShape := by
  induction hleads with
  | here => exact h
  | element hinner _ _ ih =>
    have hlist := h.inner
    rw [hinner] at hlist
    exact ih hlist.item
  | member _ hobject hsplit _ _ _ _ ih =>
    -- the shape of a member is covered because the registry is closed, not because the object is
    refine ih (hclosed _ _ hobject _ ?_)
    rw [hsplit]
    exact List.mem_append_right _ (List.mem_cons_self ..)

end Covers

/-! ## §3. Errors of missing shapes. -/

/-- A name in a shape has no enum or no object in the registry, whichever it should be. -/
def Misses (registry : ShapeRegistry) (shape : Shape) (name : String) : Prop :=
  (Shape.OccursIn (.enum name) shape ∧ registry.enum? name = none) ∨
  (Shape.OccursIn (.object name) shape ∧ registry.object? name = none)

theorem Misses.mono {part : Shape} {name : String}
    (hpart : ∀ other, Shape.OccursIn other part → Shape.OccursIn other shape) (h : registry.Misses part name) :
    registry.Misses shape name :=
  h.imp (And.imp_left (hpart _)) (And.imp_left (hpart _))

theorem Covers.not_misses (h : registry.Covers shape) (name : String) : ¬registry.Misses shape name := by
  rintro (⟨hoccurs, hnone⟩ | ⟨hoccurs, hnone⟩)
  · obtain ⟨found, hfound⟩ := h.enum name hoccurs
    rw [hnone] at hfound
    cases hfound
  · obtain ⟨found, hfound⟩ := h.object name hoccurs
    rw [hnone] at hfound
    cases hfound

theorem misses_of_materializeEnum {name missing : String} {value : Json}
    (h : registry.materializeEnum name value = .failure (.unknownShape missing)) :
    registry.Misses (.enum name) missing := by
  unfold materializeEnum at h
  split at h
  next shape _ =>
    unfold EnumShape.materialize at h
    split at h <;> cases h
  next hnone =>
    cases h
    exact .inl ⟨.here, hnone⟩

theorem misses_of_materializeNull {missing : String}
    (h : registry.materializeNull shape = .failure (.unknownShape missing)) : registry.Misses shape missing := by
  unfold materializeNull at h
  split at h
  next => exact misses_of_materializeEnum h
  next => exact (misses_of_materializeEnum h).mono fun _ => .nullable
  next => cases h
  next => cases h
  next =>
    split at h
    next => cases h
    next hnone =>
      cases h
      exact .inr ⟨.here, Option.not_isSome_iff_eq_none.1 hnone⟩
  all_goals cases h

theorem misses_of_materializeLeaf {missing : String} {value : Json}
    (h : registry.materializeLeaf value shape = .failure (.unknownShape missing)) :
    registry.Misses shape missing := by
  induction shape with
  | any => cases h
  | enum name => exact misses_of_materializeEnum h
  | list item => cases h
  | nullable inner ih => exact (ih h).mono fun _ => .nullable
  | object name =>
    unfold materializeLeaf at h
    split at h
    next => cases h
    next hnone =>
      cases h
      exact .inr ⟨.here, hnone⟩
  | primitive kind =>
    have h : Outcome.ofOption (MaterializeError.unconvertible value kind) (kind.convert? value) =
      .failure (.unknownShape missing) := h
    cases hconvert : kind.convert? value with
    | some result =>
      rw [hconvert] at h
      cases h
    | none =>
      rw [hconvert] at h
      cases h

/-- A conversion that misses a shape for the value itself misses one that the value's shape names. -/
theorem misses_of_materialize (hdistinct : registry.MembersDistinct) {missing : String} {value : Json}
    (h : registry.materialize shape value = .failure (.unknownShape missing)) : registry.Misses shape missing := by
  cases value with
  | null => exact misses_of_materializeNull h
  | array items =>
    by_cases hlist : ∃ item, shape.inner = .list item
    · -- an element that fails is told by its place
      obtain ⟨item, hinner⟩ := hlist
      obtain ⟨_, _, _, _, _, heq, _⟩ := (materialize_array_eq_failure_iff hinner).1 h
      cases heq
    · unfold materialize at h
      rw [Json.materializeWith_array_leaf fun item hinner => hlist ⟨item, hinner⟩] at h
      exact misses_of_materializeLeaf h
  | object entries =>
    by_cases hobject : ∃ name, shape.inner = .object name
    · obtain ⟨name, hinner⟩ := hobject
      cases hfind : registry.object? name with
      | some object =>
        obtain ⟨_, _, _, _, _, _, _, heq, _⟩ :=
          (materialize_object_eq_failure_iff hinner hfind (hdistinct _ _ hfind)).1 h
        cases heq
      | none =>
        unfold materialize at h
        rw [Json.materializeWith_object_unknown hinner hfind] at h
        cases h
        exact .inr ⟨hinner ▸ shape.occursIn_inner, hfind⟩
    · unfold materialize at h
      rw [Json.materializeWith_object_leaf fun name hinner => hobject ⟨name, hinner⟩] at h
      exact misses_of_materializeLeaf h
  | bool b => exact misses_of_materializeLeaf h
  | number n => exact misses_of_materializeLeaf h
  | string s => exact misses_of_materializeLeaf h

end ShapeRegistry

/-- Of an error and what led to it, the last is the error of the part that it leads to, and the others only
tell the way. -/
theorem MaterializeError.eq_of_mem_causes {registry : ShapeRegistry} {error leaf other : MaterializeError}
    {shape partShape : Shape} {value part : Json} (h : error.Leads registry shape value leaf partShape part)
    (hmem : other ∈ error :: error.causes) (hother : other.isLeaf = true) : other = leaf := by
  induction h with
  | @here leaf _ _ hleaf =>
    have hcauses : leaf.causes = [] := by
      cases leaf with
      | inElement index cause => cases hleaf
      | inMember name cause => cases hleaf
      | _ => rfl
    rw [hcauses, List.mem_singleton] at hmem
    exact hmem
  | element _ _ _ ih =>
    rcases List.mem_cons.1 hmem with rfl | hmem
    · cases hother
    · exact ih hmem
  | member _ _ _ _ _ _ _ ih =>
    rcases List.mem_cons.1 hmem with rfl | hmem
    · cases hother
    · exact ih hmem

namespace ShapeRegistry

variable {registry : ShapeRegistry} {shape : Shape}

/-- **Where all names are registered, no shape is missing**, for the value itself or for any part of it. -/
theorem unknownShape_not_mem (hdistinct : registry.MembersDistinct) (hclosed : registry.IsClosed)
    (hcovers : registry.Covers shape) {value : Json} {error : MaterializeError}
    (h : registry.materialize shape value = .failure error) (name : String) :
    .unknownShape name ∉ error :: error.causes := by
  intro hmem
  obtain ⟨leaf, partShape, part, hleads, _, hpart, _⟩ := exists_leads hdistinct h
  obtain rfl := MaterializeError.eq_of_mem_causes hleads hmem rfl
  exact (hcovers.of_leads hclosed hleads).not_misses name (misses_of_materialize hdistinct hpart)

end ShapeRegistry

/-! ## §4. The shapes of a schema. -/

/-- The members of an enum are numbered in order, from zero. -/
theorem EnumShape.map_snd_ofNames (name : String) (names : List String) :
    (EnumShape.ofNames name names).members.map Prod.snd = (List.range names.length).map Int.ofNat := by
  unfold EnumShape.ofNames
  rw [List.map_map, List.range_eq_range', ← List.zipIdx_map_snd 0 names, List.map_map]
  rfl

namespace Schema

variable {schema : Schema} {shape : Shape}

/-- The shapes of a schema: those of types, and those of the members of its objects. -/
inductive HasShape (schema : Schema) : Shape → Prop where
  | type {type : TypeRef} {shape : Shape} : Shape.ofType? schema type = some shape → HasShape schema shape
  | member {name : String} {object : ObjectShape} {member : MemberShape} :
      schema.inputShapes.object? name = some object → member ∈ object.members → HasShape schema member.shape

/-- What a schema registers for the names in a shape: for an enum the values of the type with the name, in
order and numbered from zero; for an object the fields of the type with the name, in order. -/
structure Describes (schema : Schema) (shape : Shape) : Prop where
  enum : ∀ name, Shape.OccursIn (.enum name) shape → ∃ type found,
    schema.find? name = some (.enum type) ∧ schema.inputShapes.enum? name = some found ∧ found.name = name ∧
      found.members.map Prod.fst = type.values.names ∧
      found.members.map Prod.snd = (List.range type.values.names.length).map Int.ofNat
  object : ∀ name, Shape.OccursIn (.object name) shape → ∃ type found,
    schema.find? name = some (.inputObject type) ∧ schema.inputShapes.object? name = some found ∧
      found.name = name ∧ found.members = type.fields.toList.map fun field => field.memberShape schema

theorem Describes.covers (h : schema.Describes shape) : schema.inputShapes.Covers shape where
  enum name hname := by
    obtain ⟨_, found, _, hfound, _⟩ := h.enum name hname
    exact ⟨found, hfound⟩
  object name hname := by
    obtain ⟨_, found, _, hfound, _⟩ := h.object name hname
    exact ⟨found, hfound⟩

/-- What a definition of the schema stands for is registered as the definition has it. -/
theorem describes_ofDefinition? {name : String} {definition : TypeDef} {named : Shape}
    (hfind : schema.find? name = some definition) (hnamed : Shape.ofDefinition? definition = some named) :
    schema.Describes named := by
  have hname : definition.name = name := (Declarations.mem_of_find? hfind).2
  cases definition with
  | enum type =>
    cases hnamed
    refine ⟨?_, nofun⟩
    intro other hother
    cases hother
    have hname : type.name = name := hname
    rw [← hname] at hfind
    exact ⟨type, _, hfind, enum?_inputShapes hfind, rfl, EnumShape.map_fst_ofNames _ _,
      EnumShape.map_snd_ofNames _ _⟩
  | inputObject type =>
    cases hnamed
    refine ⟨nofun, ?_⟩
    intro other hother
    cases hother
    have hname : type.name = name := hname
    rw [← hname] at hfind
    exact ⟨type, _, hfind, object?_inputShapes hfind, rfl, rfl⟩
  | scalar type =>
    cases hnamed
    obtain hshape | ⟨kind, hshape⟩ := Shape.ofScalar_cases type.name
    all_goals
      rw [hshape]
      exact ⟨nofun, nofun⟩
  | interface type => cases hnamed
  | object type => cases hnamed
  | union type => cases hnamed

/-- The names in the shape of a type are registered. -/
theorem describes_ofType? {type : TypeRef} (h : Shape.ofType? schema type = some shape) :
    schema.Describes shape := by
  obtain ⟨definition, named, hfind, hnamed, rfl⟩ := Shape.ofType?_eq_some_iff.1 h
  have hdescribes := describes_ofDefinition? hfind hnamed
  exact ⟨fun name hname => hdescribes.enum name (hname.of_ofLayers nofun nofun),
    fun name hname => hdescribes.object name (hname.of_ofLayers nofun nofun)⟩

/-- **The names in all shapes of a schema are registered**, for the types of the schema. -/
theorem HasShape.describes (h : schema.HasShape shape) : schema.Describes shape := by
  cases h with
  | type htype => exact describes_ofType? htype
  | @member name object member hobject hmember =>
    obtain ⟨type, _, rfl⟩ := exists_of_object?_inputShapes hobject
    obtain ⟨field, _, rfl⟩ := List.mem_map.1 hmember
    show schema.Describes ((Shape.ofType? schema field.type).getD .any)
    cases hshape : Shape.ofType? schema field.type with
    | some shape => exact describes_ofType? hshape
    | none => exact ⟨nofun, nofun⟩

theorem isClosed_inputShapes (schema : Schema) : schema.inputShapes.IsClosed :=
  fun _ _ hobject _ hmember => (HasShape.member hobject hmember).describes.covers

end Schema

/-- **The shapes of a schema are closed.**  Exactly the types whose name is that of an input type have a shape.
For every name in the shape of a type or of a member of a registered object, the type with that name is
registered, with all its values or fields in order.  So no value whatever meets a shape that is missing, whether
the value itself needs it or a part. -/
theorem schema_shapes_are_closed (schema : Schema) :
    (∀ type : TypeRef, (Shape.ofType? schema type).isSome = true ↔
      ∃ definition, schema.find? type.typeName = some definition ∧ definition.isInput = true) ∧
    ∀ shape, schema.HasShape shape →
      schema.Describes shape ∧
      ∀ value error name, schema.inputShapes.materialize shape value = .failure error →
        .unknownShape name ∉ error :: error.causes := by
  constructor
  · intro type
    constructor
    · intro hsome
      obtain ⟨shape, hshape⟩ := Option.isSome_iff_exists.1 hsome
      obtain ⟨definition, named, hfind, hnamed, _⟩ := Shape.ofType?_eq_some_iff.1 hshape
      refine ⟨definition, hfind, ?_⟩
      cases definition with
      | enum _ => rfl
      | inputObject _ => rfl
      | scalar _ => rfl
      | interface _ => cases hnamed
      | object _ => cases hnamed
      | union _ => cases hnamed
    · intro hinput
      obtain ⟨_, _, _, _, hshape⟩ := Schema.IsInputType.exists_shape hinput
      exact Option.isSome_iff_exists.2 ⟨_, hshape⟩
  · intro shape hshape
    refine ⟨hshape.describes, fun value error name hfailure => ?_⟩
    exact ShapeRegistry.unknownShape_not_mem schema.membersDistinct_inputShapes schema.isClosed_inputShapes
      hshape.describes.covers hfailure name

namespace Search

/-- The shape of filters has filters inside again, and their order is an enum.  A filter in a filter with an
order that is no value fails for the order, and on the way there no shape is missing. -/
theorem filter_shape_is_closed :
    schema.HasShape (.nullable (.object "Filter")) ∧ schema.Describes (.nullable (.object "Filter")) ∧
    ∃ error, schema.inputShapes.materialize (.nullable (.object "Filter"))
        (.object [("or", .object [("order", .string "UP")])]) = .failure error ∧
      ∀ name, .unknownShape name ∉ error :: error.causes := by
  have hshape : schema.HasShape (.nullable (.object "Filter")) :=
    @Schema.HasShape.type schema (.named "Filter") _ rfl
  have hfailure : schema.inputShapes.materialize (.nullable (.object "Filter"))
      (.object [("or", .object [("order", .string "UP")])]) =
    .failure (.inMember "or" (.inMember "order" (.unknownEnumValue "UP" "Order"))) := rfl
  obtain ⟨hdescribes, hmisses⟩ := (schema_shapes_are_closed schema).2 _ hshape
  exact ⟨hshape, hdescribes, _, hfailure, fun name => hmisses _ _ name hfailure⟩

end Search

end GraphQLCheck
