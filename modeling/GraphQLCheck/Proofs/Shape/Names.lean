/-
  GraphQLCheck.Proofs.Shape.Names
  ───────────────────────────────
  The members that names stand for when a value is converted.

  Declared names are told apart by the case of their letters, but a conversion does not look at case: a
  text stands for the first value of an enum that it is in any letter case, and a member of an object takes
  the value under the first key that is its name in any letter case.  A name stands for what is declared
  with it exactly if no earlier name differs from it in case only.

  Main results:
    * `FirstIgnoringCase.eq`              — only one name is the first
    * `Schema.materialize_enum_text`      — the value of an enum that a text stands for
    * `Schema.materialize_object_members` — what each member of an object is worth
    * `names_stand_for_first_in_any_case` — both, and when a name stands for what is declared with it
-/
import GraphQLCheck.Proofs.Schema.Built
import GraphQLCheck.Proofs.Shape.Conversion
import GraphQLCheck.Proofs.Shape.Registry

namespace GraphQLCheck

/-! ## §1. The first name in any letter case. -/

/-- At a place of some names stands the first one that is a text in any letter case. -/
structure Text.FirstIgnoringCase (names : List String) (text : String) (place : Nat) (name : String) :
    Prop where
  stands : names[place]? = some name
  same : Text.sameIgnoringCase name text = true
  first : ∀ earlier < place, ∀ other, names[earlier]? = some other →
    Text.sameIgnoringCase other text = false

namespace Text.FirstIgnoringCase

variable {names : List String} {text name name' : String} {place place' : Nat}

/-- Only one name is the first. -/
theorem eq (h : FirstIgnoringCase names text place name) (h' : FirstIgnoringCase names text place' name') :
    place = place' ∧ name = name' := by
  have hplace : place = place' := by
    rcases Nat.lt_trichotomy place place' with hlt | heq | hlt
    · have hother := h'.first place hlt name h.stands
      rw [h.same] at hother
      cases hother
    · exact heq
    · have hother := h.first place' hlt name' h'.stands
      rw [h'.same] at hother
      cases hother
  subst hplace
  exact ⟨rfl, Option.some.inj (h.stands.symm.trans h'.stands)⟩

end Text.FirstIgnoringCase

/-- What is found by a name in any letter case stands at the place of the first such name. -/
theorem find?_sameIgnoringCase_eq_some_iff {α : Type} (nameOf : α → String) {l : List α} {text : String}
    {a : α} :
    (l.find? fun a => Text.sameIgnoringCase (nameOf a) text) = some a ↔
      ∃ place, l[place]? = some a ∧
        Text.FirstIgnoringCase (l.map nameOf) text place (nameOf a) := by
  rw [List.find?_eq_some_iff_getElem]
  constructor
  · rintro ⟨hsame, place, hlt, rfl, hfirst⟩
    refine ⟨place, List.getElem?_eq_getElem hlt, ?_, hsame, ?_⟩
    · rw [List.getElem?_map, List.getElem?_eq_getElem hlt]
      rfl
    · intro earlier hearlier other hother
      rw [List.getElem?_map, List.getElem?_eq_getElem (Nat.lt_trans hearlier hlt)] at hother
      cases hother
      simpa using hfirst earlier hearlier
  · rintro ⟨place, hplace, _, hsame, hfirst⟩
    obtain ⟨hlt, rfl⟩ := List.getElem?_eq_some_iff.1 hplace
    refine ⟨hsame, place, hlt, rfl, ?_⟩
    intro earlier hearlier
    have hother := hfirst earlier hearlier (nameOf (l.get ⟨earlier, Nat.lt_trans hearlier hlt⟩))
    rw [List.getElem?_map, List.getElem?_eq_getElem (Nat.lt_trans hearlier hlt)] at hother
    simpa using hother rfl

/-- A name among others is, in any letter case, the name at some place up to its own. -/
theorem Text.FirstIgnoringCase.exists_of_getElem? {names : List String} {text : String} {place : Nat}
    (h : names[place]? = some text) :
    ∃ first found, first ≤ place ∧ FirstIgnoringCase names text first found := by
  have hfound : (names.find? fun name => sameIgnoringCase (id name) text).isSome = true := by
    rw [List.find?_isSome]
    exact ⟨text, List.mem_of_getElem? h, sameIgnoringCase_self text⟩
  obtain ⟨found, hfind⟩ := Option.isSome_iff_exists.1 hfound
  obtain ⟨first, _, hfirst⟩ := (find?_sameIgnoringCase_eq_some_iff id).1 hfind
  rw [List.map_id] at hfirst
  refine ⟨first, found, Nat.not_lt.1 fun hlater => ?_, hfirst⟩
  have hother := hfirst.first place hlater text h
  rw [sameIgnoringCase_self] at hother
  cases hother

/-! ## §2. Values of enums. -/

/-- A text that is the name of a value in any letter case finds the first such value, under its place. -/
theorem EnumShape.findName?_eq_some_of_first {name text found : String} {names : List String} {place : Nat}
    (h : Text.FirstIgnoringCase names text place found) :
    (EnumShape.ofNames name names).findName? text = some (found, (place : Int)) := by
  have hkeys := map_fst_ofNames name names
  refine (find?_sameIgnoringCase_eq_some_iff Prod.fst).2 ⟨place, ?_, ?_⟩
  · show (names.zipIdx.map _)[place]? = _
    rw [List.getElem?_map, List.getElem?_zipIdx, h.stands]
    simp
  · rw [hkeys]
    exact h

/-- A text stands for the first value of an enum that it is in any letter case. -/
theorem Schema.materialize_enum_text {schema : Schema} {name text found : String} {type : EnumType}
    {place : Nat} (hfind : schema.find? name = some (.enum type))
    (h : Text.FirstIgnoringCase type.values.names text place found) :
    schema.inputShapes.materialize (.enum name) (.string text) = .value (.enum found (place : Int)) :=
  ShapeRegistry.materializeEnum_text (enum?_inputShapes hfind) (EnumShape.findName?_eq_some_of_first h)

/-- The name of a value stands for that value exactly if no earlier value has the name in another letter
case. -/
theorem Schema.materialize_enum_name_iff {schema : Schema} {name value : String} {type : EnumType}
    {place : Nat} (hfind : schema.find? name = some (.enum type))
    (hvalue : type.values.names[place]? = some value) :
    schema.inputShapes.materialize (.enum name) (.string value) = .value (.enum value (place : Int)) ↔
      Text.FirstIgnoringCase type.values.names value place value := by
  refine ⟨fun h => ?_, materialize_enum_text hfind⟩
  obtain ⟨first, found, _, hfirst⟩ := Text.FirstIgnoringCase.exists_of_getElem? hvalue
  rw [materialize_enum_text hfind hfirst] at h
  simp only [Outcome.value.injEq, Materialized.enum.injEq, Int.natCast_inj] at h
  obtain ⟨rfl, rfl⟩ := h
  exact hfirst

/-! ## §3. Members of objects. -/

/-- Where no other key is a name in another letter case, the value under that name is found. -/
theorem Json.entryIgnoringCase?_eq_lookup {entries : List (String × Json)} {name : String}
    (h : ∀ key ∈ entries.map Prod.fst, Text.sameIgnoringCase key name = true → key = name) :
    entryIgnoringCase? entries name = entries.lookup name := by
  unfold entryIgnoringCase?
  rw [find?_sameIgnoringCase h, Option.map_map]
  exact Option.map_id'

/-- What a source is worth in a shape; without a source it is null. -/
def ShapeRegistry.IsWorth (registry : ShapeRegistry) (shape : Shape) (source : Option Json)
    (worth : Materialized) : Prop :=
  match source with
  | some value => registry.materialize shape value = .value worth
  | none => worth = .null

/-- What a member is worth inside of an object, its source is worth on its own. -/
theorem MemberShape.isWorth_of_materialize {registry : ShapeRegistry} {member : MemberShape}
    {entries : List (String × Json)} {worth : Materialized}
    (h : member.materialize (registry.materializeWithin registry.defaultCount)
      (Json.materializeEntries registry (registry.materializeWithin registry.defaultCount) entries) =
        .value worth) :
    registry.IsWorth member.shape (member.source? entries) worth := by
  rw [materialize_eq_value_iff] at h
  unfold source?
  cases hentry : Json.entryIgnoringCase? entries member.name with
  | some value =>
    rw [hentry] at h
    exact h
  | none =>
    rw [hentry] at h
    cases hdefault : member.defaultValue with
    | some value =>
      rw [hdefault] at h
      exact ShapeRegistry.materialize_of_within h
    | none =>
      rw [hdefault] at h
      exact h

/-- Every member of an object is worth what its source is: the value under the first key that is its name
in any letter case, or else its default. -/
theorem Schema.materialize_object_members {schema : Schema} {name : String} {type : InputObjectType}
    (hfind : schema.find? name = some (.inputObject type)) {entries : List (String × Json)}
    {result : Materialized}
    (h : schema.inputShapes.materialize (.object name) (.object entries) = .value result) :
    ∃ members, result = .object members ∧ members.map Prod.fst = type.fields.names ∧
      ∀ field ∈ type.fields.toList, ∃ worth, members.lookup field.name = some worth ∧
        schema.inputShapes.IsWorth (field.memberShape schema).shape
          ((field.memberShape schema).source? entries) worth := by
  have hobject := object?_inputShapes hfind
  unfold ShapeRegistry.materialize at h
  rw [Json.materializeWith_object rfl hobject] at h
  obtain ⟨members, hmembers, rfl⟩ := Outcome.map_eq_value_iff.1 h
  have hnames : (type.fields.toList.map fun field => field.memberShape schema).map MemberShape.name =
      type.fields.names := by
    rw [List.map_map]
    rfl
  have hdistinct := type.fields.distinct
  rw [materializeMembers_eq_mapM (by rw [hnames]; exact hdistinct)] at hmembers
  obtain ⟨worths, hworths, heq⟩ := Outcome.map_eq_value_iff.1 hmembers
  rw [List.nil_append] at heq
  subst heq
  have hkeys : worths.map Prod.fst = type.fields.names := by
    rw [← hnames]
    refine Outcome.map_eq_of_mapM (fun member entry hentry => ?_) hworths
    obtain ⟨worth, _, rfl⟩ := Outcome.map_eq_value_iff.1 hentry
    rfl
  refine ⟨worths, rfl, hkeys, fun field hfield => ?_⟩
  obtain ⟨entry, hmem, hentry⟩ :=
    Outcome.exists_mem_of_mapM hworths (field.memberShape schema) (List.mem_map_of_mem hfield)
  obtain ⟨worth, hworth, rfl⟩ := Outcome.map_eq_value_iff.1 hentry
  refine ⟨worth, lookup_of_mem (by rw [hkeys]; exact hdistinct) hmem, ?_⟩
  exact MemberShape.isWorth_of_materialize hworth

/-- **A name stands for the first of the declared names, or of the keys of a source, that it is in any
letter case.**  The name of a value of an enum converts to the first value with that name in any letter case,
and so to its own value exactly if no earlier one differs in case only.  An object converts, if it does, to
one member for each field, worth what is under the first key that is the field's name in any letter case, or
else what its default is, or else null; so it is worth what is under the field's own name if no other key
differs from that in case only. -/
theorem names_stand_for_first_in_any_case (schema : Schema) :
    (∀ (name : String) (type : EnumType), schema.find? name = some (.enum type) →
      ∀ (place : Nat) (value : String), type.values.names[place]? = some value →
        (∃ first found, first ≤ place ∧
          Text.FirstIgnoringCase type.values.names value first found ∧
          schema.inputShapes.materialize (.enum name) (.string value) =
            .value (.enum found (first : Int))) ∧
        (schema.inputShapes.materialize (.enum name) (.string value) =
            .value (.enum value (place : Int)) ↔
          ∀ earlier < place, ∀ other, type.values.names[earlier]? = some other →
            Text.sameIgnoringCase other value = false)) ∧
    (∀ (name : String) (type : InputObjectType), schema.find? name = some (.inputObject type) →
      ∀ (entries : List (String × Json)) (result : Materialized),
        schema.inputShapes.materialize (.object name) (.object entries) = .value result →
        ∃ members, result = .object members ∧ members.map Prod.fst = type.fields.names ∧
          ∀ field ∈ type.fields.toList, ∃ worth, members.lookup field.name = some worth ∧
            schema.inputShapes.IsWorth (field.memberShape schema).shape
              ((field.memberShape schema).source? entries) worth ∧
            ((∀ key ∈ entries.map Prod.fst,
                Text.sameIgnoringCase key field.name = true → key = field.name) →
              schema.inputShapes.IsWorth (field.memberShape schema).shape
                ((entries.lookup field.name).or (field.memberShape schema).defaultValue) worth)) := by
  refine ⟨?_, ?_⟩
  · intro name type hfind place value hvalue
    obtain ⟨first, found, hle, hfirst⟩ := Text.FirstIgnoringCase.exists_of_getElem? hvalue
    refine ⟨⟨first, found, hle, hfirst, Schema.materialize_enum_text hfind hfirst⟩, ?_⟩
    rw [Schema.materialize_enum_name_iff hfind hvalue]
    exact ⟨fun h => h.first, fun h => ⟨hvalue, Text.sameIgnoringCase_self value, h⟩⟩
  · intro name type hfind entries result h
    obtain ⟨members, rfl, hnames, hmembers⟩ := Schema.materialize_object_members hfind h
    refine ⟨members, rfl, hnames, fun field hfield => ?_⟩
    obtain ⟨worth, hlookup, hworth⟩ := hmembers field hfield
    refine ⟨worth, hlookup, hworth, fun hkeys => ?_⟩
    unfold MemberShape.source? at hworth
    rw [show (field.memberShape schema).name = field.name from rfl,
      Json.entryIgnoringCase?_eq_lookup hkeys] at hworth
    exact hworth

/-- The second order stands for itself; a range up to seven starts from its default. -/
theorem Search.names_stand_for_themselves :
    schema.inputShapes.materialize (.enum "Order") (.string "DESC") = .value (.enum "DESC" 1) ∧
    ∃ members, schema.inputShapes.materialize (.object "Range") (.object [("to", .ofInt 7)]) =
        .value (.object members) ∧
      (∃ worth, members.lookup "from" = some worth ∧
        schema.inputShapes.IsWorth (.primitive .int) (some (.ofInt 1)) worth) ∧
      ∃ worth, members.lookup "to" = some worth ∧
        schema.inputShapes.IsWorth (.nullable (.primitive .int)) (some (.ofInt 7)) worth := by
  obtain ⟨hvalues, hmembers⟩ := names_stand_for_first_in_any_case schema
  refine ⟨((hvalues "Order" order rfl 1 "DESC" rfl).2).2 ?_, ?_⟩
  · intro earlier hearlier other hother
    obtain rfl : earlier = 0 := by omega
    cases hother
    decide
  · obtain ⟨members, heq, _, hfields⟩ :=
      hmembers "Range" range rfl [("to", .ofInt 7)] (.object [("from", .int 1), ("to", .int 7)]) rfl
    refine ⟨members, by rw [← heq]; rfl, ?_, ?_⟩
    · obtain ⟨worth, hlookup, _, hworth⟩ := hfields _ (List.mem_cons_self ..)
      exact ⟨worth, hlookup, hworth (by decide)⟩
    · obtain ⟨worth, hlookup, _, hworth⟩ := hfields _ (List.mem_cons_of_mem _ (List.mem_cons_self ..))
      exact ⟨worth, hlookup, hworth (by decide)⟩

/-! ## §4. Names that differ in case only.

Power in milliwatts and in megawatts:

    enum Unit { mW MW }
    input Power { mW: Int, MW: Int }
    type Query { draw(power: Power, unit: Unit): Int }
-/

namespace Grid

def unit : EnumType where
  name := "Unit"
  values := ⟨[("mW", { name := "mW" }), ("MW", { name := "MW" })], by decide⟩

def power : InputObjectType where
  name := "Power"
  fields := ⟨[{ name := "mW", type := .named "Int" }, { name := "MW", type := .named "Int" }], by decide⟩

def draw : FieldDef where
  name := "draw"
  type := .named "Int"
  parameters := ⟨[{ name := "power", type := .named "Power" }, { name := "unit", type := .named "Unit" }],
    by decide⟩

def query : FieldedType where
  name := "Query"
  fields := ⟨[draw], by decide⟩

def types : List TypeDef := [.enum unit, .inputObject power, .object query]

def schema : Schema where
  types := ⟨SchemaBuilder.builtinTypes.toList ++ types, by decide⟩
  queryType := "Query"
  mutationType := none
  subscriptionType := none

theorem built : schema.Built :=
  ⟨{ types := schema.types, roots := {}, coercions := [] },
    SchemaBuilder.Reachable.addTypes types .empty rfl, rfl⟩

/-- **Megawatts are taken for milliwatts**: the unit `MW` converts to `mW`, which has another number, and five
megawatts alone are five milliwatts too, though nothing is given for these. -/
theorem megawatts_taken_for_milliwatts :
    schema.Built ∧
    (schema.find? "Unit" = some (.enum unit) ∧ unit.values.names[1]? = some "MW" ∧
      schema.inputShapes.materialize (.enum "Unit") (.string "MW") = .value (.enum "mW" 0) ∧
      schema.inputShapes.materialize (.enum "Unit") (.string "MW") ≠ .value (.enum "MW" 1)) ∧
    schema.find? "Power" = some (.inputObject power) ∧ "mW" ∈ power.fields.names ∧
      ([("MW", Json.ofInt 5)].lookup "mW" = none ∧
        ∀ field ∈ power.fields.toList, (field.memberShape schema).defaultValue = none) ∧
      schema.inputShapes.materialize (.object "Power") (.object [("MW", .ofInt 5)]) =
        .value (.object [("mW", .int 5), ("MW", .int 5)]) := by
  refine ⟨built, ⟨rfl, rfl, rfl, ?_⟩, rfl, by decide, ⟨rfl, ?_⟩, rfl⟩
  · show (.value (.enum "mW" 0) : Outcome MaterializeError Materialized) ≠ .value (.enum "MW" 1)
    simp
  · intro field hfield
    simp only [power, List.mem_cons, List.not_mem_nil, or_false] at hfield
    rcases hfield with rfl | rfl
    all_goals rfl

end Grid

end GraphQLCheck
