/-
  GraphQLCheck.Proofs.Sdl.Described
  ─────────────────────────────────
  The type that a definition says has every part that is written, and no other.

  Every call that adds a part adds it to a slot, where parts with one name are refused.  So what is added
  one after the other is there in the end, in order, and it can be added exactly if no name comes twice.

  Main results:
    * `Slot.foldlM_eq_ok_iff`                — what a slot holds after parts were added to it
    * `Sdl.TypeDefinition.byHand_eq_ok_iff`  — the calls come to the type that the definition describes
    * `Sdl.TypeDefinition.exists_byHand_iff` — and fail exactly if a name is written twice
-/
import GraphQLCheck.Proofs.Schema.Steps
import GraphQLCheck.Proofs.Sdl.ByHand

namespace GraphQLCheck

/-! ## §1. Slots. -/

/-- A place in something where declarations are kept. -/
structure Slot (T α : Type) [Named α] where
  get : T → Declarations α
  set : T → Declarations α → T
  get_set : ∀ t ds, get (set t ds) = ds
  set_set : ∀ t ds ds', set (set t ds) ds' = set t ds'
  set_get : ∀ t, set t (get t) = t

namespace Slot

variable {T α β ε : Type} [Named α] (slot : Slot T α) {add : T → β → Except ε T}

/-- Declare one more thing in a slot; an error if its name is taken. -/
def addOr (t : T) (a : α) (taken : ε) : Except ε T :=
  match (slot.get t).add? a with
  | some ds => .ok (slot.set t ds)
  | none => .error taken

theorem addOr_eq_ok_iff {t t' : T} {a : α} {taken : ε} : slot.addOr t a taken = .ok t' ↔
    ∃ ds : Declarations α, ds.toList = (slot.get t).toList ++ [a] ∧ t' = slot.set t ds := by
  unfold addOr
  simp only [← Declarations.add?_eq_some_iff]
  cases (slot.get t).add? a <;> simp [eq_comm]

/-- Parts that are added to a slot one after the other are there in the end, in order and after what was
there; and they can be added exactly if that is possible. -/
theorem foldlM_eq_ok_iff (part : β → Except ε α) {taken : T → β → α → ε}
    (hadd : ∀ t b, add t b = part b >>= fun a => slot.addOr t a (taken t b a)) (items : List β) :
    ∀ t t', items.foldlM add t = .ok t' ↔ ∃ parts, items.mapM part = .ok parts ∧
      ∃ ds : Declarations α, ds.toList = (slot.get t).toList ++ parts ∧ t' = slot.set t ds := by
  induction items with
  | nil =>
    intro t t'
    constructor
    · intro h
      cases h
      exact ⟨[], rfl, slot.get t, (List.append_nil _).symm, (slot.set_get t).symm⟩
    · rintro ⟨parts, hparts, ds, hds, rfl⟩
      rw [List.mapM_nil] at hparts
      cases hparts
      rw [List.append_nil] at hds
      rw [Declarations.eq_of_toList_eq hds, slot.set_get]
      rfl
  | cons item items ih =>
    intro t t'
    rw [List.foldlM_cons, hadd]
    constructor
    · intro h
      obtain ⟨middle, hitem, h⟩ := bind_eq_ok_iff.1 h
      obtain ⟨a, ha, hitem⟩ := bind_eq_ok_iff.1 hitem
      obtain ⟨first, hfirst, rfl⟩ := slot.addOr_eq_ok_iff.1 hitem
      obtain ⟨parts, hparts, ds, hds, rfl⟩ := (ih _ _).1 h
      refine ⟨a :: parts, mapM_cons_eq_ok_iff.2 ⟨a, parts, ha, hparts, rfl⟩, ds, ?_, ?_⟩
      · rw [hds, slot.get_set, hfirst, List.append_assoc]
        rfl
      · rw [slot.set_set]
    · rintro ⟨parts, hparts, ds, hds, rfl⟩
      obtain ⟨a, rest, ha, hrest, rfl⟩ := mapM_cons_eq_ok_iff.1 hparts
      -- the declarations as they are after the first part
      have hsplit : ds.toList = ((slot.get t).toList ++ [a]) ++ rest := by
        rw [hds, List.append_assoc]
        rfl
      have hdistinct := ds.distinct
      rw [hsplit, List.map_append, List.nodup_append] at hdistinct
      have hfirst : slot.addOr t a (taken t item a) =
          .ok (slot.set t ⟨(slot.get t).toList ++ [a], hdistinct.1⟩) :=
        slot.addOr_eq_ok_iff.2 ⟨_, rfl, rfl⟩
      refine bind_eq_ok_iff.2 ⟨_, bind_eq_ok_iff.2 ⟨a, ha, hfirst⟩, (ih _ _).2 ⟨rest, hrest, ds, ?_, ?_⟩⟩
      · rw [slot.get_set]
        exact hsplit
      · rw [slot.set_set]

/-- The same for parts that can always be had. -/
theorem foldlM_eq_ok_iff_of_pure (part : β → α) {taken : T → β → ε}
    (hadd : ∀ t b, add t b = slot.addOr t (part b) (taken t b)) (items : List β) (t t' : T) :
    items.foldlM add t = .ok t' ↔ ∃ ds : Declarations α,
      ds.toList = (slot.get t).toList ++ items.map part ∧ t' = slot.set t ds := by
  have hpure : items.mapM (fun item => (pure (part item) : Except ε α)) = .ok (items.map part) :=
    List.mapM_pure
  have hbind : ∀ t item, add t item =
      (pure (part item) : Except ε α) >>= fun a => slot.addOr t a (taken t item) := hadd
  rw [slot.foldlM_eq_ok_iff (fun item => pure (part item)) hbind, hpure]
  simp

end Slot

/-! Each call that adds a part adds it to a slot. -/

def FieldDef.parameterSlot : Slot FieldDef InputDef where
  get := FieldDef.parameters
  set field parameters := { field with parameters }
  get_set _ _ := rfl
  set_set _ _ _ := rfl
  set_get _ := rfl

theorem FieldDef.addParameter_eq (field : FieldDef) (parameter : InputDef) :
    field.addParameter parameter =
      parameterSlot.addOr field parameter (.duplicateParameter field.name parameter.name) := by
  unfold addParameter Slot.addOr parameterSlot
  dsimp only
  cases field.parameters.add? parameter <;> rfl

def EnumType.valueSlot : Slot EnumType (String × EnumValue) where
  get := EnumType.values
  set type values := { type with values }
  get_set _ _ := rfl
  set_set _ _ _ := rfl
  set_get _ := rfl

theorem EnumType.addValue_eq (type : EnumType) (value : EnumValue) : type.addValue value =
    valueSlot.addOr type (value.name, value) (.duplicateEnumValue type.name value.name) := by
  unfold addValue Slot.addOr valueSlot
  dsimp only
  cases type.values.add? (value.name, value) <;> rfl

def InputObjectType.fieldSlot : Slot InputObjectType InputDef where
  get := InputObjectType.fields
  set type fields := { type with fields }
  get_set _ _ := rfl
  set_set _ _ _ := rfl
  set_get _ := rfl

theorem InputObjectType.addField_eq (type : InputObjectType) (field : InputDef) : type.addField field =
    fieldSlot.addOr type field (.duplicateField type.name field.name) := by
  unfold addField Slot.addOr fieldSlot
  dsimp only
  cases type.fields.add? field <;> rfl

def FieldedType.interfaceSlot : Slot FieldedType String where
  get := FieldedType.interfaces
  set type interfaces := { type with interfaces }
  get_set _ _ := rfl
  set_set _ _ _ := rfl
  set_get _ := rfl

theorem FieldedType.implement_eq (type : FieldedType) (interfaceName : String) :
    type.implement interfaceName =
      interfaceSlot.addOr type interfaceName (.duplicateImplements type.name interfaceName) := by
  unfold implement Slot.addOr interfaceSlot
  dsimp only
  cases type.interfaces.add? interfaceName <;> rfl

def FieldedType.fieldSlot : Slot FieldedType FieldDef where
  get := FieldedType.fields
  set type fields := { type with fields }
  get_set _ _ := rfl
  set_set _ _ _ := rfl
  set_get _ := rfl

theorem FieldedType.addField_eq (type : FieldedType) (field : FieldDef) : type.addField field =
    fieldSlot.addOr type field (.duplicateField type.name field.name) := by
  unfold addField Slot.addOr fieldSlot
  dsimp only
  cases type.fields.add? field <;> rfl

def UnionType.memberSlot : Slot UnionType String where
  get := UnionType.members
  set type members := { type with members }
  get_set _ _ := rfl
  set_set _ _ _ := rfl
  set_get _ := rfl

theorem UnionType.addMember_eq (type : UnionType) (memberName : String) : type.addMember memberName =
    memberSlot.addOr type memberName (.duplicateUnionMember type.name memberName) := by
  unfold addMember Slot.addOr memberSlot
  dsimp only
  cases type.members.add? memberName <;> rfl

/-! ## §2. What a definition comes out as. -/

/-- If each result is known by a part of it, so is a list of results. -/
theorem mapM_eq_ok_iff_of_parts {f : α → Except ε β} {own : β → γ} {written : α → γ}
    (h : ∀ a b, f a = .ok b ↔ own b = written a) (items : List α) :
    ∀ results, items.mapM f = .ok results ↔ results.map own = items.map written := by
  induction items with
  | nil =>
    intro results
    rw [List.mapM_nil]
    cases results <;> simp [pure, Except.pure]
  | cons item items ih =>
    intro results
    constructor
    · intro hall
      obtain ⟨first, rest, hfirst, hrest, rfl⟩ := mapM_cons_eq_ok_iff.1 hall
      rw [List.map_cons, List.map_cons, (h _ _).1 hfirst, (ih _).1 hrest]
    · intro hall
      cases results with
      | nil => cases hall
      | cons first rest =>
        obtain ⟨hfirst, hrest⟩ := List.cons.inj hall
        exact mapM_cons_eq_ok_iff.2 ⟨first, rest, (h _ _).2 hfirst, (ih _).2 hrest, rfl⟩

namespace Sdl

/-- A field is loaded exactly if it has the parts that are written. -/
theorem FieldDefinition.declare_eq_ok_iff (definition : FieldDefinition) (field : FieldDef) :
    definition.declare = .ok field ↔ field.parts = definition.parts := by
  unfold declare
  rw [FieldDef.parameterSlot.foldlM_eq_ok_iff_of_pure InputDefinition.written
    fun field parameter => field.addParameter_eq parameter.declare]
  obtain ⟨name, type, description, parameters⟩ := field
  constructor
  · rintro ⟨ds, hds, h⟩
    cases h
    unfold FieldDef.parts parts
    rw [hds]
    rfl
  · intro h
    obtain ⟨rfl, rfl, rfl, hparameters⟩ : name = definition.name ∧ type = .ofExpr definition.type ∧
        description = definition.description ∧
        parameters.toList = definition.parameters.map InputDefinition.written := by
      simpa [FieldDef.parts, parts] using h
    exact ⟨parameters, hparameters, rfl⟩

/-- Fields are added to a type exactly if it has, after its own, those with the parts that are written. -/
theorem addFields_eq_ok_iff {type type' : FieldedType} {fields : List FieldDefinition} :
    addFields type fields = .ok type' ↔ ∃ declared, declared.map FieldDef.parts =
        fields.map FieldDefinition.parts ∧
      ∃ ds : Declarations FieldDef, ds.toList = type.fields.toList ++ declared ∧
        type' = { type with fields := ds } := by
  unfold addFields
  have hadd : ∀ (type : FieldedType) (field : FieldDefinition),
      (do type.addField (← field.declare)) = field.declare >>= fun declared =>
        FieldedType.fieldSlot.addOr type declared (.duplicateField type.name declared.name) := by
    intro type field
    simp only [FieldedType.addField_eq]
  rw [FieldedType.fieldSlot.foldlM_eq_ok_iff FieldDefinition.declare hadd]
  simp only [mapM_eq_ok_iff_of_parts FieldDefinition.declare_eq_ok_iff]
  rfl

/-- An object type or an interface comes out exactly if it has the parts that are written. -/
theorem fielded_eq_ok_iff {name : String} {description : Option String} {interfaces : List String}
    {fields : List FieldDefinition} {type : FieldedType} :
    (interfaces.foldlM (·.implement ·) ({ name, description } : FieldedType) >>= (addFields · fields)) =
        .ok type ↔
      type.name = name ∧ type.description = description ∧ type.interfaces.toList = interfaces ∧
        type.fields.toList.map FieldDef.parts = fields.map FieldDefinition.parts := by
  have hfold := FieldedType.interfaceSlot.foldlM_eq_ok_iff_of_pure (fun name => name)
    FieldedType.implement_eq interfaces { name, description }
  constructor
  · intro h
    obtain ⟨implementing, himplementing, h⟩ := bind_eq_ok_iff.1 h
    obtain ⟨names, hnames, rfl⟩ := (hfold implementing).1 himplementing
    obtain ⟨declared, hdeclared, ds, hds, rfl⟩ := addFields_eq_ok_iff.1 h
    refine ⟨rfl, rfl, hnames.trans (List.map_id _), ?_⟩
    rw [← hdeclared]
    exact congrArg (List.map FieldDef.parts) hds
  · rintro ⟨rfl, rfl, hinterfaces, hfields⟩
    have hnames : type.interfaces.toList = interfaces.map fun name => name :=
      hinterfaces.trans (List.map_id _).symm
    exact bind_eq_ok_iff.2 ⟨_, (hfold _).2 ⟨type.interfaces, hnames, rfl⟩,
      addFields_eq_ok_iff.2 ⟨_, hfields, type.fields, rfl, rfl⟩⟩

namespace TypeDefinition

section Kinds

/-! Each kind of definition. -/

variable {name : String} {description : Option String} {type : TypeDef}

theorem byHand_enum_eq_ok_iff {values : List EnumValueDefinition} :
    byHand ⟨name, description, .enum values⟩ = .ok type ↔
      Describes ⟨name, description, .enum values⟩ type := by
  have hfold := EnumType.valueSlot.foldlM_eq_ok_iff_of_pure (fun value => (value.name, value.written))
    (fun type value => type.addValue_eq value.written) values { name, description }
  rw [byHand_enum, map_eq_ok_iff]
  constructor
  · rintro ⟨enum, henum, rfl⟩
    obtain ⟨ds, hds, rfl⟩ := (hfold enum).1 henum
    exact ⟨rfl, rfl, rfl, rfl, rfl, rfl, hds, rfl, nofun⟩
  · intro h
    cases type with
    | enum type =>
      refine ⟨type, (hfold type).2 ⟨type.values, h.values, ?_⟩, rfl⟩
      obtain ⟨_, rfl, rfl, _⟩ := h
      rfl
    | inputObject | interface | object | scalar | union => cases h.kind

theorem byHand_inputObject_eq_ok_iff {fields : List InputDefinition} :
    byHand ⟨name, description, .inputObject fields⟩ = .ok type ↔
      Describes ⟨name, description, .inputObject fields⟩ type := by
  have hfold := InputObjectType.fieldSlot.foldlM_eq_ok_iff_of_pure InputDefinition.written
    (fun type field => type.addField_eq field.written) fields { name, description }
  rw [byHand_inputObject, map_eq_ok_iff]
  constructor
  · rintro ⟨inputObject, hinputObject, rfl⟩
    obtain ⟨ds, hds, rfl⟩ := (hfold inputObject).1 hinputObject
    exact ⟨rfl, rfl, rfl, rfl, rfl, hds, rfl, rfl, nofun⟩
  · intro h
    cases type with
    | inputObject type =>
      refine ⟨type, (hfold type).2 ⟨type.fields, h.inputFields, ?_⟩, rfl⟩
      obtain ⟨_, rfl, rfl, _⟩ := h
      rfl
    | enum | interface | object | scalar | union => cases h.kind

theorem byHand_interface_eq_ok_iff {interfaces : List String} {fields : List FieldDefinition} :
    byHand ⟨name, description, .interface interfaces fields⟩ = .ok type ↔
      Describes ⟨name, description, .interface interfaces fields⟩ type := by
  rw [byHand_interface, map_eq_ok_iff]
  simp only [fielded_eq_ok_iff]
  constructor
  · rintro ⟨interface, ⟨hname, hdescription, hinterfaces, hfields⟩, rfl⟩
    exact ⟨rfl, hname, hdescription, hinterfaces, hfields, rfl, rfl, rfl, nofun⟩
  · intro h
    cases type with
    | interface type => exact ⟨type, ⟨h.name, h.description, h.interfaces, h.fields⟩, rfl⟩
    | enum | inputObject | object | scalar | union => cases h.kind

theorem byHand_object_eq_ok_iff {interfaces : List String} {fields : List FieldDefinition} :
    byHand ⟨name, description, .object interfaces fields⟩ = .ok type ↔
      Describes ⟨name, description, .object interfaces fields⟩ type := by
  rw [byHand_object, map_eq_ok_iff]
  simp only [fielded_eq_ok_iff]
  constructor
  · rintro ⟨object, ⟨hname, hdescription, hinterfaces, hfields⟩, rfl⟩
    exact ⟨rfl, hname, hdescription, hinterfaces, hfields, rfl, rfl, rfl, nofun⟩
  · intro h
    cases type with
    | object type => exact ⟨type, ⟨h.name, h.description, h.interfaces, h.fields⟩, rfl⟩
    | enum | inputObject | interface | scalar | union => cases h.kind

theorem byHand_scalar_eq_ok_iff :
    byHand ⟨name, description, .scalar⟩ = .ok type ↔ Describes ⟨name, description, .scalar⟩ type := by
  rw [byHand_scalar]
  constructor
  · intro h
    cases h
    refine ⟨rfl, rfl, rfl, rfl, rfl, rfl, rfl, rfl, ?_⟩
    intro scalar hscalar
    cases hscalar
    rfl
  · intro h
    cases type with
    | scalar type =>
      have hcoercion := h.coercion type rfl
      obtain ⟨_, rfl, rfl, _⟩ := h
      obtain ⟨name, description, coercion⟩ := type
      cases hcoercion
      rfl
    | enum | inputObject | interface | object | union => cases h.kind

theorem byHand_union_eq_ok_iff {members : List String} :
    byHand ⟨name, description, .union members⟩ = .ok type ↔
      Describes ⟨name, description, .union members⟩ type := by
  have hfold := UnionType.memberSlot.foldlM_eq_ok_iff_of_pure (fun name => name)
    UnionType.addMember_eq members { name, description }
  rw [byHand_union, map_eq_ok_iff]
  constructor
  · rintro ⟨union, hunion, rfl⟩
    obtain ⟨ds, hds, rfl⟩ := (hfold union).1 hunion
    exact ⟨rfl, rfl, rfl, rfl, rfl, rfl, rfl, hds.trans (List.map_id _), nofun⟩
  · intro h
    cases type with
    | union type =>
      refine ⟨type, (hfold type).2 ⟨type.members, h.members.trans (List.map_id _).symm, ?_⟩, rfl⟩
      obtain ⟨_, rfl, rfl, _⟩ := h
      rfl
    | enum | inputObject | interface | object | scalar => cases h.kind

end Kinds

/-- **The calls that a definition says succeed exactly if there is a type with the parts that it writes, and
come to that type.** -/
theorem byHand_eq_ok_iff (definition : TypeDefinition) (type : TypeDef) :
    definition.byHand = .ok type ↔ definition.Describes type := by
  obtain ⟨name, description, body⟩ := definition
  cases body with
  | enum values => exact byHand_enum_eq_ok_iff
  | inputObject fields => exact byHand_inputObject_eq_ok_iff
  | interface interfaces fields => exact byHand_interface_eq_ok_iff
  | object interfaces fields => exact byHand_object_eq_ok_iff
  | scalar => exact byHand_scalar_eq_ok_iff
  | union members => exact byHand_union_eq_ok_iff

end TypeDefinition

/-! ## §3. Names that are written twice. -/

/-- No name is written twice among the parts of one kind. -/
structure TypeBody.IsDistinct (body : TypeBody) : Prop where
  interfaces : body.interfaces.Nodup
  fields : (body.fields.map FieldDefinition.name).Nodup
  parameters : ∀ field ∈ body.fields, (field.parameters.map InputDefinition.name).Nodup
  inputFields : (body.inputFields.map InputDefinition.name).Nodup
  values : (body.values.map EnumValueDefinition.name).Nodup
  members : body.members.Nodup

/-- Fields with distinct parameters can be put together. -/
theorem exists_fields {fields : List FieldDefinition}
    (h : ∀ field ∈ fields, (field.parameters.map InputDefinition.name).Nodup) :
    ∃ declared : List FieldDef, declared.map FieldDef.parts = fields.map FieldDefinition.parts := by
  induction fields with
  | nil => exact ⟨[], rfl⟩
  | cons field fields ih =>
    obtain ⟨declared, hdeclared⟩ := ih fun other hother => h other (List.mem_cons_of_mem _ hother)
    have hparameters : ((field.parameters.map InputDefinition.written).map InputDef.name).Nodup := by
      rw [List.map_map]
      exact h field (List.mem_cons_self ..)
    exact ⟨⟨field.name, .ofExpr field.type, field.description, ⟨_, hparameters⟩⟩ :: declared, by
      rw [List.map_cons, List.map_cons, hdeclared]
      rfl⟩

/-- Fields with the same parts have the same names. -/
theorem names_of_parts {declared : List FieldDef} {fields : List FieldDefinition}
    (h : declared.map FieldDef.parts = fields.map FieldDefinition.parts) :
    declared.map FieldDef.name = fields.map FieldDefinition.name := by
  have hnames := congrArg (List.map Prod.fst) h
  rw [List.map_map, List.map_map] at hnames
  exact hnames

namespace TypeDefinition

theorem Describes.isDistinct {definition : TypeDefinition} {type : TypeDef} (h : definition.Describes type) :
    definition.body.IsDistinct := by
  have hdistinct : ∀ ds : Declarations String, ds.toList.Nodup := by
    intro ds
    have hnames := ds.distinct
    rwa [show ds.toList.map Named.nameOf = ds.toList from List.map_id _] at hnames
  refine ⟨?_, ?_, ?_, ?_, ?_, ?_⟩
  · rw [← h.interfaces]
    cases type with
    | interface type => exact hdistinct type.interfaces
    | object type => exact hdistinct type.interfaces
    | enum | inputObject | scalar | union => exact .nil
  · rw [← names_of_parts h.fields]
    cases type with
    | interface type => exact type.fields.distinct
    | object type => exact type.fields.distinct
    | enum | inputObject | scalar | union => exact .nil
  · intro field hfield
    have hparts : field.parts ∈ type.fields.map FieldDef.parts := by
      rw [h.fields]
      exact List.mem_map_of_mem hfield
    obtain ⟨declared, _, hsame⟩ := List.mem_map.1 hparts
    have hparameters : declared.parameters.toList = field.parameters.map InputDefinition.written :=
      congrArg (·.2.2.2) hsame
    have hnames := declared.parameters.distinct
    rw [hparameters, List.map_map] at hnames
    exact hnames
  · have hnames : (type.inputFields.map InputDef.name).Nodup := by
      cases type with
      | inputObject type => exact type.fields.distinct
      | enum | interface | object | scalar | union => exact .nil
    rw [h.inputFields, List.map_map] at hnames
    exact hnames
  · have hnames : (type.values.map Prod.fst).Nodup := by
      cases type with
      | enum type => exact type.values.distinct
      | inputObject | interface | object | scalar | union => exact .nil
    rw [h.values, List.map_map] at hnames
    exact hnames
  · rw [← h.members]
    cases type with
    | union type => exact hdistinct type.members
    | enum | inputObject | interface | object | scalar => exact .nil

theorem exists_describes {definition : TypeDefinition} (h : definition.body.IsDistinct) :
    ∃ type, definition.Describes type := by
  obtain ⟨name, description, body⟩ := definition
  have hdeclarations : ∀ names : List String, names.Nodup →
      ∃ ds : Declarations String, ds.toList = names := by
    intro names hnames
    rw [← show names.map Named.nameOf = names from List.map_id _] at hnames
    exact ⟨⟨names, hnames⟩, rfl⟩
  have hfielded : ∃ (interfaces : Declarations String) (fields : Declarations FieldDef),
      interfaces.toList = body.interfaces ∧
        fields.toList.map FieldDef.parts = body.fields.map FieldDefinition.parts := by
    obtain ⟨interfaces, hinterfaces⟩ := hdeclarations _ h.interfaces
    obtain ⟨declared, hdeclared⟩ := exists_fields h.parameters
    have hfields := h.fields
    rw [← names_of_parts hdeclared] at hfields
    exact ⟨interfaces, ⟨declared, hfields⟩, hinterfaces, hdeclared⟩
  obtain ⟨interfaces, fields, hinterfaces, hfields⟩ := hfielded
  cases body with
  | enum values =>
    have hvalues := h.values
    refine ⟨.enum ⟨name, description, ⟨values.map fun value => (value.name, value.written), ?_⟩⟩,
      rfl, rfl, rfl, rfl, rfl, rfl, rfl, rfl, nofun⟩
    rw [List.map_map]
    exact hvalues
  | inputObject written =>
    have hwritten := h.inputFields
    refine ⟨.inputObject ⟨name, description, ⟨written.map InputDefinition.written, ?_⟩⟩,
      rfl, rfl, rfl, rfl, rfl, rfl, rfl, rfl, nofun⟩
    rw [List.map_map]
    exact hwritten
  | interface names written =>
    exact ⟨.interface ⟨name, description, interfaces, fields⟩,
      rfl, rfl, rfl, hinterfaces, hfields, rfl, rfl, rfl, nofun⟩
  | object names written =>
    exact ⟨.object ⟨name, description, interfaces, fields⟩,
      rfl, rfl, rfl, hinterfaces, hfields, rfl, rfl, rfl, nofun⟩
  | scalar =>
    refine ⟨.scalar ⟨name, description, anyScalar⟩, rfl, rfl, rfl, rfl, rfl, rfl, rfl, rfl, ?_⟩
    intro scalar hscalar
    cases hscalar
    rfl
  | union names =>
    obtain ⟨members, hmembers⟩ := hdeclarations _ h.members
    exact ⟨.union ⟨name, description, members⟩, rfl, rfl, rfl, rfl, rfl, rfl, rfl, hmembers, nofun⟩

/-- **The calls that a definition says succeed exactly if it writes no name twice.** -/
theorem exists_byHand_iff (definition : TypeDefinition) :
    (∃ type, definition.byHand = .ok type) ↔ definition.body.IsDistinct := by
  simp only [byHand_eq_ok_iff]
  constructor
  · rintro ⟨type, h⟩
    exact h.isDistinct
  · exact exists_describes

theorem kept_eq_self {definition : TypeDefinition}
    (h : ∀ names fields, definition.body = .interface names fields → names = []) :
    definition.kept = definition := by
  obtain ⟨name, description, body⟩ := definition
  cases body with
  | interface names fields =>
    cases h names fields rfl
    rfl
  | enum | inputObject | object | scalar | union => rfl

end TypeDefinition

end Sdl

end GraphQLCheck
