/-
  GraphQLCheck.Proofs.Shape.Conversion
  ────────────────────────────────────
  The conversion of runtime values, part by part.

  The items of an array are converted one by one, and so are the members of an object: with distinct names
  nothing that a member is worth is replaced by another member.  What a member is worth comes from the
  first key of the source with its name in any letter case, or else from its default.

  Main facts:
    * `materializeMembers_eq_mapM`             — members are converted one by one
    * `MemberShape.materialize_eq_value_iff`   — what a member is worth
    * `Json.materializeWith_related`           — a value depends on defaults only through what those of
                                                 members convert to
    * `ShapeRegistry.materializeWithin_eq_materialize` — a default converts to what its value does
-/
import GraphQLCheck.Proofs.Coercion.Parts
import GraphQLCheck.Proofs.Value.Depth
import GraphQLCheck.Proofs.Value.Entries
import GraphQLCheck.Proofs.Value.Induction
import GraphQLCheck.Shape.Conversion

namespace GraphQLCheck

section Parts

variable {registry : ShapeRegistry} {default : MaterializeDefault}

/-! ## §1. Items. -/

/-- An array converts if its items do, whatever place the first of them has. -/
theorem Json.exists_materializeItems {shape : Shape} {completed : Json → Json} {items : List Json}
    (h : ∀ item ∈ items, ∃ result, item.materializeWith registry default shape = .value result ∧
      result.toJson = completed item) (index : Nat) :
    ∃ results, materializeItems registry default items index shape = .value results ∧
      Materialized.itemsToJson results = items.map completed := by
  induction items generalizing index with
  | nil => exact ⟨[], rfl, rfl⟩
  | cons item items ih =>
    obtain ⟨first, hfirst, hitem⟩ := h item (List.mem_cons_self ..)
    obtain ⟨rest, hrest, hitems⟩ := ih (fun other hother => h other (List.mem_cons_of_mem _ hother)) (index + 1)
    refine ⟨first :: rest, ?_, ?_⟩
    · rw [materializeItems, hfirst, hrest]
      rfl
    · rw [Materialized.itemsToJson, hitem, hitems, List.map_cons]

/-- Items are converted one by one, in order; a failure tells its place. -/
theorem Json.materializeItems_eq_mapM (items : List Json) (index : Nat) (shape : Shape) :
    materializeItems registry default items index shape =
      (items.zipIdx index).mapM fun place =>
        (place.1.materializeWith registry default shape).mapFailure (.inElement place.2) := by
  induction items generalizing index with
  | nil => rfl
  | cons item items ih => rw [materializeItems, List.zipIdx_cons, List.mapM_cons, ih]

/-! ## §2. Entries. -/

theorem Json.materializeEntries_eq_map (entries : List (String × Json)) :
    materializeEntries registry default entries =
      entries.map fun entry => (entry.1, fun shape => entry.2.materializeWith registry default shape) := by
  induction entries with
  | nil => rfl
  | cons entry entries ih =>
    obtain ⟨key, value⟩ := entry
    rw [materializeEntries, ih, List.map_cons]

theorem Json.keys_materializeEntries (entries : List (String × Json)) :
    (materializeEntries registry default entries).map Prod.fst = entries.map Prod.fst := by
  rw [materializeEntries_eq_map, List.map_map]
  rfl

theorem Json.lookup_materializeEntries (entries : List (String × Json)) (name : String) :
    (materializeEntries registry default entries).lookup name =
      (entries.lookup name).map fun value shape => value.materializeWith registry default shape := by
  rw [materializeEntries_eq_map]
  exact lookup_map_entries entries (fun value shape => value.materializeWith registry default shape) name

/-- The value that a source has for a name: that of its first key with the name in any letter case. -/
def Json.entryIgnoringCase? (entries : List (String × Json)) (name : String) : Option Json :=
  (entries.find? fun entry => Text.sameIgnoringCase entry.1 name).map Prod.snd

theorem Json.find?_materializeEntries (entries : List (String × Json)) (name : String) :
    ((materializeEntries registry default entries).find? fun entry =>
        Text.sameIgnoringCase entry.1 name).map Prod.snd =
      (entryIgnoringCase? entries name).map fun value shape =>
        value.materializeWith registry default shape := by
  rw [materializeEntries_eq_map, List.find?_map, Option.map_map]
  unfold entryIgnoringCase?
  rw [Option.map_map]
  rfl

/-! ## §3. Members. -/

/-- A member with its name. -/
def MemberShape.materializeEntry (default : MaterializeDefault)
    (entries : List (String × (Shape → Outcome MaterializeError Materialized))) (member : MemberShape) :
    Outcome MaterializeError (String × Materialized) :=
  (member.materialize default entries).map fun value => (member.name, value)

/-- Members with distinct names are converted one by one, in order. -/
theorem materializeMembers_eq_mapM
    {entries : List (String × (Shape → Outcome MaterializeError Materialized))}
    {members : List MemberShape} {values : List (String × Materialized)}
    (hdistinct : (values.map Prod.fst ++ members.map MemberShape.name).Nodup) :
    materializeMembers default entries values members =
      (members.mapM (MemberShape.materializeEntry default entries)).map (values ++ ·) := by
  induction members generalizing values with
  | nil =>
    rw [List.mapM_nil]
    show Outcome.value values = .value (values ++ [])
    rw [List.append_nil]
  | cons member members ih =>
    have hentry : member.materializeEntry default entries =
        (member.materialize default entries).map fun value => (member.name, value) := rfl
    rw [materializeMembers, List.mapM_cons, hentry]
    cases hmember : member.materialize default entries with
    | failure e => rfl
    | endless => rfl
    | value first =>
      have hnew : member.name ∉ values.map Prod.fst := by
        intro hmem
        rw [List.map_cons, List.nodup_append] at hdistinct
        exact hdistinct.2.2 _ hmem _ (List.mem_cons_self ..) rfl
      have hnext : ((values ++ [(member.name, first)]).map Prod.fst ++
          members.map MemberShape.name).Nodup := by
        rw [List.map_append, List.append_assoc]
        exact hdistinct
      rw [Outcome.bind_value, Entries.put_of_not_mem hnew, ih hnext]
      cases members.mapM (MemberShape.materializeEntry default entries) with
      | failure e => rfl
      | endless => rfl
      | value rest =>
        show Outcome.value (values ++ [(member.name, first)] ++ rest) =
          .value (values ++ (member.name, first) :: rest)
        rw [List.append_assoc]
        rfl

/-- Members convert if each of them does; with distinct names they end up in the order of the members. -/
theorem exists_materializeMembers {α : Type} {member : α → MemberShape} {completed : α → Json}
    {entries : List (String × (Shape → Outcome MaterializeError Materialized))} {fields : List α}
    (h : ∀ field ∈ fields, ∃ result, (member field).materialize default entries = .value result ∧
      result.toJson = completed field)
    (hdistinct : (fields.map fun field => (member field).name).Nodup) :
    ∃ results, materializeMembers default entries [] (fields.map member) = .value results ∧
      Materialized.membersToJson results =
        fields.map fun field => ((member field).name, completed field) := by
  have hentries : ∃ results,
      (fields.map member).mapM (MemberShape.materializeEntry default entries) = .value results ∧
      Materialized.membersToJson results =
        fields.map fun field => ((member field).name, completed field) := by
    clear hdistinct
    induction fields with
    | nil => exact ⟨[], rfl, rfl⟩
    | cons field fields ih =>
      obtain ⟨first, hfirst, hfield⟩ := h field (List.mem_cons_self ..)
      obtain ⟨rest, hrest, hfields⟩ := ih fun other hother => h other (List.mem_cons_of_mem _ hother)
      refine ⟨((member field).name, first) :: rest, ?_, ?_⟩
      · rw [List.map_cons, List.mapM_cons, MemberShape.materializeEntry, hfirst, hrest]
        rfl
      · rw [Materialized.membersToJson, hfield, hfields, List.map_cons]
  obtain ⟨results, hresults, hcompleted⟩ := hentries
  have hnames : (([] : List (String × Materialized)).map Prod.fst ++
      (fields.map member).map MemberShape.name).Nodup := by
    rw [List.map_map]
    exact hdistinct
  refine ⟨results, ?_, hcompleted⟩
  rw [materializeMembers_eq_mapM hnames, hresults]
  rfl

/-- The value that a member takes from a source, if any: the source's own, or else the default. -/
def MemberShape.source? (member : MemberShape) (entries : List (String × Json)) : Option Json :=
  (Json.entryIgnoringCase? entries member.name).or member.defaultValue

/-- A member takes its value in the source, or else its default, or else null. -/
theorem MemberShape.materialize_eq (member : MemberShape) (entries : List (String × Json)) :
    member.materialize default (Json.materializeEntries registry default entries) =
      match Json.entryIgnoringCase? entries member.name, member.defaultValue with
      | some value, _ =>
        (value.materializeWith registry default member.shape).mapFailure (.inMember member.name)
      | none, some value => (default member.shape value).mapFailure (.inMember member.name)
      | none, none => .value .null := by
  have hfind : ((Json.materializeEntries registry default entries).find? fun entry =>
        Text.sameIgnoringCase entry.1 member.name).map Prod.snd = _ :=
    Json.find?_materializeEntries entries member.name
  unfold MemberShape.materialize
  cases hentry : Json.entryIgnoringCase? entries member.name with
  | some value =>
    rw [hentry] at hfind
    obtain ⟨⟨key, convert⟩, hentry, heq⟩ := Option.map_eq_some_iff.1 hfind
    cases heq
    rw [hentry]
  | none =>
    rw [hentry] at hfind
    rw [Option.map_eq_none_iff.1 hfind]
    cases member.defaultValue <;> rfl

/-- What a member is worth: what its value in the source converts to, or else what its default does, or
else null. -/
theorem MemberShape.materialize_eq_value_iff {member : MemberShape} {entries : List (String × Json)}
    {result : Materialized} :
    member.materialize default (Json.materializeEntries registry default entries) = .value result ↔
      match Json.entryIgnoringCase? entries member.name with
      | some value => value.materializeWith registry default member.shape = .value result
      | none =>
        match member.defaultValue with
        | some value => default member.shape value = .value result
        | none => result = .null := by
  rw [materialize_eq]
  cases Json.entryIgnoringCase? entries member.name with
  | some value => exact Outcome.mapFailure_eq_value_iff
  | none =>
    cases member.defaultValue with
    | some value => exact Outcome.mapFailure_eq_value_iff
    | none =>
      show Outcome.value Materialized.null = .value result ↔ _
      rw [Outcome.value.injEq, eq_comm]

/-! ## §4. Arrays, objects and enums. -/

namespace Json

variable {shape : Shape}

theorem materializeWith_array {items : List Json} {item : Shape} (h : shape.inner = .list item) :
    (Json.array items).materializeWith registry default shape =
      (materializeItems registry default items 0 item).map .list := by
  conv => lhs; unfold materializeWith
  simp only [h]

theorem materializeWith_array_leaf {items : List Json} (h : ∀ item, shape.inner ≠ .list item) :
    (Json.array items).materializeWith registry default shape =
      registry.materializeLeaf (.array items) shape := by
  unfold materializeWith
  split
  next item hitem => exact absurd hitem (h item)
  next => rfl

theorem materializeWith_object {entries : List (String × Json)} {name : String}
    {object : ObjectShape} (h : shape.inner = .object name) (hobject : registry.object? name = some object) :
    (Json.object entries).materializeWith registry default shape =
      (materializeMembers default (materializeEntries registry default entries) []
        object.members).map .object := by
  conv => lhs; unfold materializeWith
  simp only [h, hobject]

theorem materializeWith_object_unknown {entries : List (String × Json)} {name : String}
    (h : shape.inner = .object name) (hobject : registry.object? name = none) :
    (Json.object entries).materializeWith registry default shape = .failure (.unknownShape name) := by
  unfold materializeWith
  simp only [h, hobject]

theorem materializeWith_object_leaf {entries : List (String × Json)}
    (h : ∀ name, shape.inner ≠ .object name) :
    (Json.object entries).materializeWith registry default shape =
      registry.materializeLeaf (.object entries) shape := by
  unfold materializeWith
  split
  next name hname => exact absurd hname (h name)
  next => rfl

/-- A value that is not null is converted as a whole, unless its shape is a list or an object. -/
theorem materializeWith_eq_leaf {value : Json} (hnull : value ≠ .null)
    (hlist : ∀ item, shape.inner ≠ .list item) (hobject : ∀ name, shape.inner ≠ .object name) :
    value.materializeWith registry default shape = registry.materializeLeaf value shape := by
  cases value with
  | null => exact absurd rfl hnull
  | array items => exact materializeWith_array_leaf hlist
  | object entries => exact materializeWith_object_leaf hobject
  | _ => rfl

end Json

/-- A value that is not null converts to a nullable shape as it does to the shape itself. -/
theorem ShapeRegistry.materializeLeaf_layer (value : Json) (required : Bool) (shape : Shape) :
    registry.materializeLeaf value (Shape.ofLayers.layer required shape) =
      registry.materializeLeaf value shape := by
  cases required <;> rfl

/-- A text converts to the value of an enum that it finds. -/
theorem ShapeRegistry.materializeEnum_text {name text found : String} {shape : EnumShape} {number : Int}
    (hshape : registry.enum? name = some shape) (hfind : shape.findName? text = some (found, number)) :
    registry.materializeEnum name (.string text) = .value (.enum found number) := by
  have hmember : shape.member? (.string text) = some (found, number) := by
    show (shape.findName? text).or _ = _
    rw [hfind]
    rfl
  unfold materializeEnum
  rw [hshape]
  show shape.materialize (.string text) = _
  unfold EnumShape.materialize
  rw [hmember]

/-! ## §5. Values without parts. -/

namespace ShapeRegistry

theorem materializeEnum_ne_endless (name : String) (value : Json) :
    registry.materializeEnum name value ≠ .endless := by
  unfold materializeEnum
  split
  next shape _ =>
    unfold EnumShape.materialize
    split <;> exact nofun
  next => exact nofun

theorem materializeNull_ne_endless (shape : Shape) : registry.materializeNull shape ≠ .endless := by
  unfold materializeNull
  split
  next name => exact materializeEnum_ne_endless name .null
  next name => exact materializeEnum_ne_endless name .null
  next => exact nofun
  next => exact nofun
  next => split <;> exact nofun
  all_goals exact nofun

theorem materializeLeaf_ne_endless (value : Json) (shape : Shape) :
    registry.materializeLeaf value shape ≠ .endless := by
  induction shape with
  | any => exact nofun
  | enum name => exact materializeEnum_ne_endless name value
  | list item => exact nofun
  | nullable inner ih => exact ih
  | object name =>
    unfold materializeLeaf
    split <;> exact nofun
  | primitive kind =>
    show Outcome.ofOption (MaterializeError.unconvertible value kind) (kind.convert? value) ≠ .endless
    cases kind.convert? value <;> exact nofun

/-! ## §6. Defaults inside of other values. -/

/-- The defaults of members, each with the shape of its member. -/
def defaults (registry : ShapeRegistry) : List (Shape × Json) :=
  (registry.objects.flatMap (·.2.members)).filterMap fun member =>
    member.defaultValue.map (member.shape, ·)

theorem length_defaults (registry : ShapeRegistry) : registry.defaults.length = registry.defaultCount := by
  unfold defaults defaultCount
  rw [List.length_filterMap_eq_countP]
  congr 1
  funext member
  cases member.defaultValue <;> rfl

theorem mem_of_object? {name : String} {object : ObjectShape} (h : registry.object? name = some object) :
    (name, object) ∈ registry.objects :=
  mem_of_lookup h

theorem mem_defaults {name : String} {object : ObjectShape} (hobject : registry.object? name = some object)
    {member : MemberShape} (hmember : member ∈ object.members) {value : Json}
    (hdefault : member.defaultValue = some value) : (member.shape, value) ∈ registry.defaults :=
  List.mem_filterMap.2
    ⟨member, List.mem_flatMap.2 ⟨_, mem_of_object? hobject, hmember⟩, by rw [hdefault]; rfl⟩

end ShapeRegistry

section Related

variable {R : (α : Type) → Outcome MaterializeError α → Outcome MaterializeError α → Prop}
  {default' : MaterializeDefault}

theorem materializeMembers_related (kept : Outcome.Kept R)
    {entries entries' : List (String × (Shape → Outcome MaterializeError Materialized))}
    {members : List MemberShape}
    (h : ∀ member ∈ members,
      R Materialized (member.materialize default entries) (member.materialize default' entries'))
    (values : List (String × Materialized)) :
    R _ (materializeMembers default entries values members)
      (materializeMembers default' entries' values members) := by
  induction members generalizing values with
  | nil => exact kept.pure _
  | cons member members ih =>
    unfold materializeMembers
    apply kept.bind (h member (List.mem_cons_self ..))
    intro value
    exact ih (fun other hother => h other (List.mem_cons_of_mem _ hother)) _

/-- What a value converts to depends on the defaults only through what those of members convert to. -/
theorem Json.materializeWith_related (kept : Outcome.Kept R)
    (h : ∀ declared ∈ registry.defaults,
      R Materialized (default declared.1 declared.2) (default' declared.1 declared.2))
    (value : Json) (shape : Shape) :
    R Materialized (value.materializeWith registry default shape)
      (value.materializeWith registry default' shape) := by
  have hleaf : ∀ (value : Json) (shape : Shape), R Materialized (registry.materializeLeaf value shape)
      (registry.materializeLeaf value shape) :=
    fun value shape => kept.refl _ (registry.materializeLeaf_ne_endless value shape)
  induction value using Json.induction generalizing shape with
  | null => exact kept.refl _ (registry.materializeNull_ne_endless shape)
  | plain value hplain => cases value <;> first | exact hleaf _ shape | cases hplain
  | array items ih =>
    by_cases hlist : ∃ item, shape.inner = .list item
    · obtain ⟨item, hinner⟩ := hlist
      rw [materializeWith_array hinner, materializeWith_array hinner, materializeItems_eq_mapM,
        materializeItems_eq_mapM]
      apply kept.map
      apply kept.mapM
      intro place hplace
      apply kept.mapFailure
      exact ih place.1 (List.fst_mem_of_mem_zipIdx hplace) item
    · have hno : ∀ item, shape.inner ≠ .list item := fun item hinner => hlist ⟨item, hinner⟩
      rw [materializeWith_array_leaf hno, materializeWith_array_leaf hno]
      exact hleaf _ shape
  | object entries ih =>
    by_cases hobject : ∃ name, shape.inner = .object name
    · obtain ⟨name, hinner⟩ := hobject
      cases hfind : registry.object? name with
      | none =>
        rw [materializeWith_object_unknown hinner hfind, materializeWith_object_unknown hinner hfind]
        exact kept.refl _ nofun
      | some object =>
        rw [materializeWith_object hinner hfind, materializeWith_object hinner hfind]
        apply kept.map
        refine materializeMembers_related kept (fun member hmember => ?_) []
        rw [MemberShape.materialize_eq, MemberShape.materialize_eq]
        -- a member's value is a part of the source, or else a default
        cases hentry : entryIgnoringCase? entries member.name with
        | some part =>
          obtain ⟨entry, hfound, rfl⟩ := Option.map_eq_some_iff.1 hentry
          apply kept.mapFailure
          exact ih entry (List.mem_of_find?_eq_some hfound) member.shape
        | none =>
          cases hdefault : member.defaultValue with
          | some part => exact kept.mapFailure _ (h _ (ShapeRegistry.mem_defaults hfind hmember hdefault))
          | none => exact kept.pure _
    · have hno : ∀ name, shape.inner ≠ .object name := fun name hinner => hobject ⟨name, hinner⟩
      rw [materializeWith_object_leaf hno, materializeWith_object_leaf hno]
      exact hleaf _ shape

end Related

namespace ShapeRegistry

/-- What is known of a default at some depth is known of it at the next. -/
theorem materializeWithin_below_succ (depth : Nat) (shape : Shape) (value : Json) :
    Outcome.Below Materialized (registry.materializeWithin depth shape value)
      (registry.materializeWithin (depth + 1) shape value) := by
  induction depth generalizing shape value with
  | zero => exact .inl rfl
  | succ depth ih =>
    exact Json.materializeWith_related Outcome.kept_below (fun declared _ => ih declared.1 declared.2)
      value shape

/-- The outcomes of defaults become more as the depth grows, until a step brings no new one. -/
theorem deepening_defaults (registry : ShapeRegistry) :
    Outcome.Deepening registry.defaults fun depth declared =>
      registry.materializeWithin depth declared.1 declared.2 where
  below_succ depth declared := materializeWithin_below_succ depth declared.1 declared.2
  settled _ hstable declared _ :=
    Json.materializeWith_related Outcome.kept_eq (fun other hother => hstable other hother) declared.2
      declared.1

/-- **A default converts to what its value converts to**, however deep the defaults are nested that it
uses. -/
theorem materializeWithin_eq_materialize {declared : Shape × Json} (h : declared ∈ registry.defaults) :
    registry.materializeWithin registry.defaultCount declared.1 declared.2 =
      registry.materialize declared.1 declared.2 := by
  have hstable := registry.deepening_defaults.stable declared h
  rw [length_defaults] at hstable
  exact hstable.symm

/-- What a default is worth inside of another value, it is worth on its own. -/
theorem materialize_of_within {shape : Shape} {value : Json} {result : Materialized}
    (h : registry.materializeWithin registry.defaultCount shape value = .value result) :
    registry.materialize shape value = .value result := by
  have hbelow : Outcome.Below Materialized (registry.materializeWithin registry.defaultCount shape value)
      (registry.materialize shape value) :=
    materializeWithin_below_succ registry.defaultCount shape value
  rcases hbelow with hend | hequal
  · rw [h] at hend
    cases hend
  · exact hequal.symm.trans h

end ShapeRegistry

end Parts

end GraphQLCheck
