/-
  GraphQLCheck.Proofs.Shape.Redundant
  ───────────────────────────────────
  The defaults that coercion fills in are those that a conversion fills in.

  Coercion gives an omitted field of an input object its default, and so does a conversion.  The one evaluates
  the default as a literal each time, the other has its value in the shape.  So a field of a coerced value that
  is worth what its default is might as well not be there.

  A conversion looks for names in any letter case and takes the first that it finds.  Coerced objects have
  declared fields only, each once, so where fields differ by more than case a name finds nothing but its own
  field.  That is kept when fields are dropped.

      Schema.DropsDefault   — a field is dropped that is worth its default
      Schema.FieldsDistinct — fields differ by more than case

  Main results:
    * `Schema.DropsDefault.materialize_eq` — one field that is dropped does not change the conversion
    * `redundant_defaults_are_filled_in`   — so any number of fields do not
-/
import GraphQLCheck.Proofs.Coercion.Filled
import GraphQLCheck.Proofs.Recursion.Conversion
import GraphQLCheck.Proofs.Shape.Completion
import GraphQLCheck.Proofs.Shape.Names

namespace GraphQLCheck

/-! ## §1. The shape of a type. -/

namespace Shape

variable {schema : Schema} {type : TypeRef} {shape : Shape}

/-- What the name inside a type stands for is no list, and an object exactly if it is an input object. -/
theorem inner_of_ofDefinition? {definition : TypeDef} {named : Shape}
    (h : ofDefinition? definition = some named) :
    (∀ item, named.inner ≠ .list item) ∧
      ∀ name, named.inner = .object name ↔ ∃ inputType, definition = .inputObject inputType ∧
        inputType.name = name := by
  cases definition with
  | enum type =>
    cases h
    simp [inner]
  | inputObject type =>
    cases h
    simp [inner]
  | scalar type =>
    cases h
    rcases ofScalar_cases type.name with hshape | ⟨kind, hshape⟩
    all_goals
      rw [hshape]
      simp [inner]
  | interface type => cases h
  | object type => cases h
  | union type => cases h

theorem inner_layer (required : Bool) (shape : Shape) : (ofLayers.layer required shape).inner = shape.inner := by
  cases required <;> rfl

theorem inner_ofLayers_list {element : TypeRef} (hview : type.view = .list element) (named : Shape)
    (required : Bool) : (ofLayers named required type).inner = .list (ofLayers named false element) := by
  induction type generalizing required with
  | list inner ih =>
    cases hview
    exact inner_layer required _
  | named name => cases hview
  | nonNull inner ih => exact ih hview true

theorem inner_ofLayers_named {name : String} (hview : type.view = .named name) (named : Shape)
    (required : Bool) : (ofLayers named required type).inner = named.inner := by
  induction type generalizing required with
  | list inner ih => cases hview
  | named other => exact inner_layer required named
  | nonNull inner ih => exact ih hview true

theorem ofType?_eq_some_iff : ofType? schema type = some shape ↔
    ∃ definition named, schema.namedType? type = some definition ∧ ofDefinition? definition = some named ∧
      shape = ofLayers named false type := by
  simp only [ofType?, Option.bind_eq_bind, Option.bind_eq_some_iff, Option.some.injEq, exists_and_left,
    eq_comm (a := shape)]

/-- The shape of a list has the shape of the elements. -/
theorem exists_of_view_list (h : ofType? schema type = some shape) {element : TypeRef}
    (hview : type.view = .list element) :
    ∃ item, ofType? schema element = some item ∧ shape.inner = .list item := by
  obtain ⟨definition, named, hfind, hnamed, rfl⟩ := ofType?_eq_some_iff.1 h
  rw [schema.namedType?_of_view_list hview] at hfind
  exact ⟨_, ofType?_eq_some_iff.2 ⟨definition, named, hfind, hnamed, rfl⟩,
    inner_ofLayers_list hview named false⟩

/-- The shape of a name is what the name stands for. -/
theorem exists_of_view_named (h : ofType? schema type = some shape) {name : String}
    (hview : type.view = .named name) :
    ∃ definition named, schema.find? name = some definition ∧ ofDefinition? definition = some named ∧
      shape.inner = named.inner := by
  obtain ⟨definition, named, hfind, hnamed, rfl⟩ := ofType?_eq_some_iff.1 h
  rw [schema.namedType?_of_view_named hview] at hfind
  exact ⟨definition, named, hfind, hnamed, inner_ofLayers_named hview named false⟩

/-- A shape that is a list is that of a type that is one. -/
theorem exists_of_inner_list (h : ofType? schema type = some shape) {item : Shape}
    (hinner : shape.inner = .list item) :
    ∃ element, type.view = .list element ∧ ofType? schema element = some item := by
  cases hview : type.view with
  | list element =>
    obtain ⟨item', hitem, hinner'⟩ := exists_of_view_list h hview
    rw [hinner] at hinner'
    cases hinner'
    exact ⟨element, rfl, hitem⟩
  | named name =>
    obtain ⟨definition, named, _, hnamed, hinner'⟩ := exists_of_view_named h hview
    exact absurd (hinner'.symm.trans hinner) ((inner_of_ofDefinition? hnamed).1 item)

/-- A shape that is an object is that of an input object with its name. -/
theorem inner_eq_object_iff (h : ofType? schema type = some shape) {name : String} :
    shape.inner = .object name ↔
      ∃ inputType, type.view = .named name ∧ schema.find? name = some (.inputObject inputType) := by
  cases hview : type.view with
  | list element =>
    obtain ⟨item, _, hinner⟩ := exists_of_view_list h hview
    simp [hinner]
  | named other =>
    obtain ⟨definition, named, hfind, hnamed, hinner⟩ := exists_of_view_named h hview
    rw [hinner, (inner_of_ofDefinition? hnamed).2]
    constructor
    · rintro ⟨inputType, rfl, rfl⟩
      have hname : inputType.name = other := (Declarations.mem_of_find? hfind).2
      rw [hname]
      exact ⟨inputType, rfl, hfind⟩
    · rintro ⟨inputType, hother, hinput⟩
      cases hother
      rw [hfind] at hinput
      cases hinput
      exact ⟨inputType, rfl, (Declarations.mem_of_find? hfind).2⟩

end Shape

/-! ## §2. Fields that are dropped. -/

/-- One field is dropped from an input object within a value, and the value of the field was that of its
default.  To drop several fields is to drop one after the other, an object before what is within it. -/
inductive Schema.DropsDefault (schema : Schema) : TypeRef → Json → Json → Prop where
  | here {type : TypeRef} {name : String} {inputType : InputObjectType} {field : InputDef}
      {literal : Literal} {value : Json} {before after : List (String × Json)} :
      type.view = .named name → schema.find? name = some (.inputObject inputType) →
      field ∈ inputType.fields.toList → field.defaultValue = some literal →
      schema.literalValue [] field.type literal = .value value →
      DropsDefault schema type (.object (before ++ (field.name, value) :: after)) (.object (before ++ after))
  | element {type element : TypeRef} {value value' : Json} {before after : List Json} :
      type.view = .list element → DropsDefault schema element value value' →
      DropsDefault schema type (.array (before ++ value :: after)) (.array (before ++ value' :: after))
  | member {type : TypeRef} {name : String} {inputType : InputObjectType} {field : InputDef}
      {value value' : Json} {before after : List (String × Json)} :
      type.view = .named name → schema.find? name = some (.inputObject inputType) →
      field ∈ inputType.fields.toList → DropsDefault schema field.type value value' →
      DropsDefault schema type (.object (before ++ (field.name, value) :: after))
        (.object (before ++ (field.name, value') :: after))

namespace ShapeRegistry

variable {registry : ShapeRegistry} {shape : Shape}

/-- A list converts to the same if one of its elements does. -/
theorem materialize_array_congr {item : Shape} (hinner : shape.inner = .list item) {value value' : Json}
    (h : registry.materialize item value' = registry.materialize item value) (before after : List Json) :
    registry.materialize shape (.array (before ++ value' :: after)) =
      registry.materialize shape (.array (before ++ value :: after)) := by
  rw [materialize_array hinner, materialize_array hinner]
  simp only [List.zipIdx_append, List.zipIdx_cons, List.mapM_append, List.mapM_cons, h]

/-- An object converts to the same if each of its members does. -/
theorem materialize_object_congr {name : String} {object : ObjectShape} (hinner : shape.inner = .object name)
    (hobject : registry.object? name = some object) (hdistinct : (object.members.map MemberShape.name).Nodup)
    {entries entries' : List (String × Json)}
    (h : ∀ member ∈ object.members,
      member.conversionBody registry.convert entries' = member.conversionBody registry.convert entries) :
    registry.materialize shape (.object entries') = registry.materialize shape (.object entries) := by
  rw [materialize_object hinner hobject hdistinct, materialize_object hinner hobject hdistinct]
  have hmembers := Outcome.kept_eq.mapM fun member hmember =>
    congrArg (Outcome.map (Prod.mk (MemberShape.name member))) (h member hmember)
  exact congrArg _ hmembers

end ShapeRegistry

/-! ### Entries with one among them. -/

section Among

variable {α : Type} {before after : List (String × α)} {name other : String} {value : α}

theorem lookup_among_of_ne (h : other ≠ name) :
    (before ++ (name, value) :: after).lookup other = (before ++ after).lookup other := by
  rw [List.lookup_append, List.lookup_append, List.lookup_cons, beq_eq_false_iff_ne.2 h]

theorem lookup_among_self (hdistinct : ((before ++ (name, value) :: after).map Prod.fst).Nodup) :
    (before ++ (name, value) :: after).lookup name = some value ∧ (before ++ after).lookup name = none := by
  refine ⟨lookup_of_mem hdistinct (by simp), lookup_eq_none_iff_not_mem.2 ?_⟩
  rw [List.map_append, List.map_cons, List.nodup_middle, List.nodup_cons, ← List.map_append] at hdistinct
  exact hdistinct.1

end Among

/-- The fields of each input object differ by more than the case of their letters. -/
def Schema.FieldsDistinct (schema : Schema) : Prop :=
  ∀ inputType, .inputObject inputType ∈ schema.types.toList → Text.DistinctIgnoringCase inputType.fields.names

namespace InputDef

variable {schema : Schema} {inputType : InputObjectType} {field : InputDef} {entries : List (String × Json)}

/-- Where fields differ by more than case, a field finds in an object what is there under its name. -/
theorem entryIgnoringCase?_eq_lookup (hnames : Text.DistinctIgnoringCase inputType.fields.names)
    (hfield : field ∈ inputType.fields.toList) (horder : inputType.InOrder entries) :
    Json.entryIgnoringCase? entries field.name = entries.lookup field.name := by
  apply Json.entryIgnoringCase?_eq_lookup
  exact fun key hkey hsame =>
    hnames key (horder.mem_names hkey) field.name (List.mem_map_of_mem hfield) hsame

/-- Where fields differ by more than case, a field takes its own value in an object, or else its default. -/
theorem source?_memberShape (hnames : Text.DistinctIgnoringCase inputType.fields.names)
    (hfield : field ∈ inputType.fields.toList) (horder : inputType.InOrder entries) :
    (field.memberShape schema).source? entries =
      (entries.lookup field.name).or (field.memberShape schema).defaultValue := by
  rw [← entryIgnoringCase?_eq_lookup hnames hfield horder]
  rfl

theorem shape_memberShape {shape : Shape} (h : Shape.ofType? schema field.type = some shape) :
    (field.memberShape schema).shape = shape := by
  unfold memberShape
  rw [h]
  rfl

theorem defaultValue_memberShape {literal : Literal} {value : Json} (hdefault : field.defaultValue = some literal)
    (hvalue : schema.literalValue [] field.type literal = .value value) :
    (field.memberShape schema).defaultValue = some value := by
  unfold memberShape
  rw [hdefault, Option.bind_some, hvalue]
  rfl

variable {other : InputDef} {before after : List (String × Json)} {value value' : Json}

/-- Without the value of a field that is that of its default, each field takes what it takes with it. -/
theorem source?_drop (hnames : Text.DistinctIgnoringCase inputType.fields.names)
    (hfield : field ∈ inputType.fields.toList) (hother : other ∈ inputType.fields.toList)
    (horder : inputType.InOrder (before ++ (field.name, value) :: after)) {literal : Literal}
    (hdefault : field.defaultValue = some literal)
    (hvalue : schema.literalValue [] field.type literal = .value value) :
    (other.memberShape schema).source? (before ++ after) =
      (other.memberShape schema).source? (before ++ (field.name, value) :: after) := by
  rw [source?_memberShape hnames hother horder.drop, source?_memberShape hnames hother horder]
  by_cases hname : other.name = field.name
  · -- the field itself takes its default instead
    obtain rfl : other = field := Declarations.eq_of_name_eq hother hfield hname
    obtain ⟨hwhole, hrest⟩ := lookup_among_self horder.nodup
    rw [hwhole, hrest, defaultValue_memberShape hdefault hvalue]
    rfl
  · rw [lookup_among_of_ne hname]

/-- With another value of a field that converts to the same, each field converts to the same. -/
theorem conversionBody_replace (hnames : Text.DistinctIgnoringCase inputType.fields.names)
    (hfield : field ∈ inputType.fields.toList) (hother : other ∈ inputType.fields.toList)
    (horder : inputType.InOrder (before ++ (field.name, value) :: after)) {shape : Shape}
    (hshape : Shape.ofType? schema field.type = some shape)
    (hvalue : schema.inputShapes.materialize shape value' = schema.inputShapes.materialize shape value) :
    (other.memberShape schema).conversionBody schema.inputShapes.convert
        (before ++ (field.name, value') :: after) =
      (other.memberShape schema).conversionBody schema.inputShapes.convert
        (before ++ (field.name, value) :: after) := by
  have horder' : inputType.InOrder (before ++ (field.name, value') :: after) := horder.replace
  unfold MemberShape.conversionBody
  rw [source?_memberShape hnames hother horder, source?_memberShape hnames hother horder']
  by_cases hname : other.name = field.name
  · obtain rfl : other = field := Declarations.eq_of_name_eq hother hfield hname
    rw [(lookup_among_self horder.nodup).1, (lookup_among_self horder'.nodup).1]
    show (schema.inputShapes.materialize (other.memberShape schema).shape value').mapFailure _ =
      (schema.inputShapes.materialize (other.memberShape schema).shape value).mapFailure _
    rw [shape_memberShape hshape, hvalue]
  · rw [lookup_among_of_ne hname, lookup_among_of_ne hname]

end InputDef

namespace Schema.DropsDefault

variable {schema : Schema} {type : TypeRef} {value value' : Json}

/-- Fields are dropped within values of input types only. -/
theorem isInputType (h : schema.DropsDefault type value value') : schema.IsInputType type := by
  unfold IsInputType
  induction h with
  | here hview hfind =>
    rw [schema.namedType?_of_view_named hview]
    exact ⟨_, hfind, rfl⟩
  | element hview _ ih =>
    rw [schema.namedType?_of_view_list hview]
    exact ih
  | member hview hfind =>
    rw [schema.namedType?_of_view_named hview]
    exact ⟨_, hfind, rfl⟩

/-- What is left of the objects is in order. -/
theorem everyObject (h : schema.DropsDefault type value value')
    (horder : value.EveryObject schema InputObjectType.InOrder type) :
    value'.EveryObject schema InputObjectType.InOrder type := by
  induction h with
  | @here type name inputType field literal value before after hview hfind hfield hdefault hvalue =>
    have hnamed := (schema.namedType?_of_view_named hview).trans hfind
    have hentries := horder _ _ (.here hnamed)
    refine .of_members hnamed hentries.drop fun other hother part hlookup => ?_
    -- what is found in what is left, is found in the whole
    apply horder.member hnamed hother (lookup_of_mem hentries.nodup _)
    have hmem := mem_of_lookup hlookup
    rw [List.mem_append] at hmem ⊢
    exact hmem.imp_right (List.mem_cons_of_mem _)
  | @element type element value value' before after hview _ ih =>
    have hitems : ∀ item ∈ before ++ value :: after,
        item.EveryObject schema InputObjectType.InOrder element :=
      fun item hitem => horder.item hview hitem
    rw [List.forall_mem_append, List.forall_mem_cons] at hitems
    refine .of_items hview ?_
    rw [List.forall_mem_append, List.forall_mem_cons]
    exact ⟨hitems.1, ih hitems.2.1, hitems.2.2⟩
  | @member type name inputType field value value' before after hview hfind hfield _ ih =>
    have hnamed := (schema.namedType?_of_view_named hview).trans hfind
    have hentries := horder _ _ (.here hnamed)
    have hentries' : inputType.InOrder (before ++ (field.name, value') :: after) := hentries.replace
    refine .of_members hnamed hentries' fun other hother part hlookup => ?_
    by_cases hname : other.name = field.name
    · obtain rfl : other = field := Declarations.eq_of_name_eq hother hfield hname
      rw [(lookup_among_self hentries'.nodup).1] at hlookup
      cases hlookup
      exact ih (horder.member hnamed hfield (lookup_among_self hentries.nodup).1)
    · rw [lookup_among_of_ne hname, ← lookup_among_of_ne hname] at hlookup
      exact horder.member hnamed hother hlookup

variable (hnames : schema.FieldsDistinct)

include hnames

/-- **A field that is dropped is filled in again**: what is left converts to what the whole does. -/
theorem materialize_eq (h : schema.DropsDefault type value value')
    (horder : value.EveryObject schema InputObjectType.InOrder type) {shape : Shape}
    (hshape : Shape.ofType? schema type = some shape) :
    schema.inputShapes.materialize shape value' = schema.inputShapes.materialize shape value := by
  induction h generalizing shape with
  | @here type name inputType field literal value before after hview hfind hfield hdefault hvalue =>
    have hinner := (Shape.inner_eq_object_iff hshape).2 ⟨inputType, hview, hfind⟩
    have hentries := horder _ _ (.here ((schema.namedType?_of_view_named hview).trans hfind))
    have hdistinct := hnames inputType (mem_of_find? hfind)
    apply ShapeRegistry.materialize_object_congr hinner (object?_inputShapes hfind)
      (schema.nodup_memberShapes inputType)
    intro member hmember
    obtain ⟨other, hother, rfl⟩ := List.mem_map.1 hmember
    unfold MemberShape.conversionBody
    rw [InputDef.source?_drop hdistinct hfield hother hentries hdefault hvalue]
  | element hview _ ih =>
    obtain ⟨item, hitem, hinner⟩ := Shape.exists_of_view_list hshape hview
    exact ShapeRegistry.materialize_array_congr hinner (ih (horder.item hview (by simp)) hitem) _ _
  | @member type name inputType field value value' before after hview hfind hfield hdrops ih =>
    have hinner := (Shape.inner_eq_object_iff hshape).2 ⟨inputType, hview, hfind⟩
    have hnamed := (schema.namedType?_of_view_named hview).trans hfind
    have hentries := horder _ _ (.here hnamed)
    have hdistinct := hnames inputType (mem_of_find? hfind)
    -- something is dropped within the value of the field, so the field is of an input type
    obtain ⟨_, _, _, _, hfieldShape⟩ := hdrops.isInputType.exists_shape
    have hpart := ih (horder.member hnamed hfield (lookup_among_self hentries.nodup).1) hfieldShape
    apply ShapeRegistry.materialize_object_congr hinner (object?_inputShapes hfind)
      (schema.nodup_memberShapes inputType)
    intro member hmember
    obtain ⟨other, hother, rfl⟩ := List.mem_map.1 hmember
    exact InputDef.conversionBody_replace hdistinct hfield hother hentries hfieldShape hpart

/-- However many fields are dropped, what is left is in order and converts to what the whole does.  It is the
order that carries the induction. -/
theorem materialize_eq_of_reflTransGen (h : Relation.ReflTransGen (schema.DropsDefault type) value value')
    (horder : value.EveryObject schema InputObjectType.InOrder type) {shape : Shape}
    (hshape : Shape.ofType? schema type = some shape) :
    value'.EveryObject schema InputObjectType.InOrder type ∧
      schema.inputShapes.materialize shape value' = schema.inputShapes.materialize shape value := by
  induction h with
  | refl => exact ⟨horder, rfl⟩
  | tail _ hdrops ih =>
    exact ⟨hdrops.everyObject ih.1, (hdrops.materialize_eq hnames ih.1 hshape).trans ih.2⟩

end Schema.DropsDefault

/-! ## §3. Coerced values. -/

/-- A value whose objects are filled has a value of its own for each member that has a default. -/
theorem Json.EveryObject.not_lacks {schema : Schema} (hnames : schema.FieldsDistinct) {type : TypeRef}
    {value : Json} (hfilled : value.EveryObject schema InputObjectType.IsFilled type) {shape : Shape}
    (hshape : Shape.ofType? schema type = some shape) (member : schema.inputShapes.DefaultedMember) :
    ¬ value.Lacks schema.inputShapes member.owner member.member shape := by
  intro hlacks
  induction hlacks generalizing type with
  | here hinner hobject hmember hmissing =>
    obtain ⟨inputType, hview, hfind⟩ := (Shape.inner_eq_object_iff hshape).1 hinner
    have hentries := hfilled _ _ (.here ((schema.namedType?_of_view_named hview).trans hfind))
    rw [Schema.object?_inputShapes hfind] at hobject
    rw [← Option.some.inj hobject] at hmember
    obtain ⟨field, hfield, heq⟩ := List.mem_map.1 hmember
    have hdefault := member.defaulted
    rw [← heq] at hmissing hdefault
    -- the field has a default too, so the object has a value for it
    obtain ⟨literal, hliteral, _⟩ := Option.bind_eq_some_iff.1 hdefault
    have hkey := hentries.hasDefaulted field hfield (by rw [hliteral]; rfl)
    have hlookup := (InputDef.entryIgnoringCase?_eq_lookup (hnames inputType (Schema.mem_of_find? hfind)) hfield
      hentries.inOrder).symm.trans hmissing
    exact lookup_eq_none_iff_not_mem.1 hlookup hkey
  | item hinner hitem _ ih =>
    obtain ⟨element, hview, helement⟩ := Shape.exists_of_inner_list hshape hinner
    exact ih (hfilled.item hview hitem) helement
  | member hinner hobject hmember hentry hrest ih =>
    obtain ⟨inputType, hview, hfind⟩ := (Shape.inner_eq_object_iff hshape).1 hinner
    have hnamed := (schema.namedType?_of_view_named hview).trans hfind
    have hentries := hfilled _ _ (.here hnamed)
    rw [Schema.object?_inputShapes hfind] at hobject
    rw [← Option.some.inj hobject] at hmember
    obtain ⟨field, hfield, rfl⟩ := List.mem_map.1 hmember
    have hlookup := (InputDef.entryIgnoringCase?_eq_lookup (hnames inputType (Schema.mem_of_find? hfind)) hfield
      hentries.inOrder).symm.trans hentry
    cases hfieldShape : Shape.ofType? schema field.type with
    | some fieldShape =>
      rw [InputDef.shape_memberShape hfieldShape] at ih
      exact ih (hfilled.member hnamed hfield hlookup) hfieldShape
    | none =>
      -- a field of no input type takes any value as it is
      have hany : (field.memberShape schema).shape = .any := by
        unfold InputDef.memberShape
        rw [hfieldShape]
        rfl
      rw [hany] at hrest
      cases hrest with
      | here hinner => cases hinner
      | item hinner => cases hinner
      | member hinner => cases hinner

/-- **The defaults that coercion fills in are those that a conversion fills in.**  Where fields of input
objects differ by more than case, what a runtime value is coerced to at an input type converts to the shape
of the type or fails to, and it does not change the outcome to drop any number of fields, at any depth, that
have the very values of their defaults. -/
theorem redundant_defaults_are_filled_in {schema : Schema} (hnames : schema.FieldsDistinct) {type : TypeRef}
    (hinput : schema.IsInputType type) {sent value : Json} (h : schema.coerceValue type sent = .value value) :
    ∃ shape, Shape.ofType? schema type = some shape ∧
      schema.inputShapes.materialize shape value ≠ .endless ∧
      ∀ value', Relation.ReflTransGen (schema.DropsDefault type) value value' →
        schema.inputShapes.materialize shape value' = schema.inputShapes.materialize shape value := by
  obtain ⟨_, _, _, _, hshape⟩ := hinput.exists_shape
  have hfilled : value.EveryObject schema InputObjectType.IsFilled type :=
    Json.everyObject_of_coerceWith (Schema.everyObject_of_evaluateWithin schema.defaultCount) h
  refine ⟨_, hshape, ?_, fun value' hdrops => ?_⟩
  · have hends := value.ends_conversion _ fun member hlacks =>
      absurd hlacks (hfilled.not_lacks hnames hshape member)
    exact ShapeRegistry.convert_ne_endless hends
  · have horder := hfilled.mono fun _ _ hentries => InputObjectType.IsFilled.inOrder hentries
    exact (Schema.DropsDefault.materialize_eq_of_reflTransGen hnames hdrops horder hshape).2

namespace Search

/-- A filter is sent without an order, and with a range that has no start.  Coercion fills in both, and
without them the filter converts to the same. -/
theorem filter_without_defaults_converts :
    schema.coerceValue (.named "Filter") (.object [("range", .object [("to", .ofInt 7)])]) =
      .value (.object [("order", .string "ASC"), ("range", .object [("from", .ofInt 1), ("to", .ofInt 7)])]) ∧
    ∃ shape, Shape.ofType? schema (.named "Filter") = some shape ∧
      schema.inputShapes.materialize shape (.object [("range", .object [("to", .ofInt 7)])]) =
        schema.inputShapes.materialize shape
          (.object [("order", .string "ASC"), ("range", .object [("from", .ofInt 1), ("to", .ofInt 7)])]) := by
  have hinput : schema.IsInputType (.named "Filter") := ⟨_, rfl, rfl⟩
  have hvalue : schema.coerceValue (.named "Filter") (.object [("range", .object [("to", .ofInt 7)])]) =
      .value (.object [("order", .string "ASC"),
        ("range", .object [("from", .ofInt 1), ("to", .ofInt 7)])]) := rfl
  refine ⟨hvalue, ?_⟩
  obtain ⟨shape, hshape, _, hdropped⟩ :=
    redundant_defaults_are_filled_in completable.fieldNames hinput hvalue
  have horder := @Schema.DropsDefault.here schema (.named "Filter") "Filter" filter _ (.enum "ASC")
    (.string "ASC") [] [("range", .object [("from", .ofInt 1), ("to", .ofInt 7)])] rfl rfl
    (.tail _ (.head _)) rfl rfl
  have hfrom := @Schema.DropsDefault.here schema (.nonNull (.named "Range")) "Range" range _ (.int 1)
    (.ofInt 1) [] [("to", .ofInt 7)] rfl rfl (.head _) rfl rfl
  have hrange := @Schema.DropsDefault.member schema (.named "Filter") "Filter" filter _ _ _ [] [] rfl rfl
    (.tail _ (.tail _ (.head _))) hfrom
  exact ⟨shape, hshape, hdropped _ (.tail (.tail .refl horder) hrange)⟩

end Search

end GraphQLCheck
