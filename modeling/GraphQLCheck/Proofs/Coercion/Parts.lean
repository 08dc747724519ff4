/-
  GraphQLCheck.Proofs.Coercion.Parts
  ──────────────────────────────────
  What the parts of an evaluation come to: layers of types, leaves, lists, and the members of objects.

  Literals and runtime values are evaluated by the same parts, so what is said here serves both.  The
  members of an object are described by a relation, `Members`: which entries a list of declared fields
  has, if it is known what each field is worth.

  Main facts:
    * `Schema.leafValue_eq_value_iff` — a leaf has a value exactly if its type reads it
    * `membersOf_eq_value_iff`        — the members of an object are entries of its declared fields
    * `Members.keys_sublist`, `Members.worth_of_mem`, `Members.worth_of_not_mem` — what that says
    * `Literal.valueWith_list`, `Json.coerceWith_array` and so on — an equation for each kind of value
-/
import GraphQLCheck.Coercion.Value
import GraphQLCheck.Proofs.Value.Entries
import GraphQLCheck.Proofs.Value.Induction

namespace GraphQLCheck

/-! ## §1. Outcomes. -/

namespace Outcome

variable {ε ε' α β γ : Type}

theorem map_map {f : α → β} {g : β → γ} (outcome : Outcome ε α) :
    (outcome.map f).map g = outcome.map fun a => g (f a) := by
  cases outcome <;> rfl

theorem map_id (outcome : Outcome ε α) : (outcome.map fun a => a) = outcome := by
  cases outcome <;> rfl

theorem map_eq_value_iff {f : α → β} {outcome : Outcome ε α} {b : β} :
    outcome.map f = .value b ↔ ∃ a, outcome = .value a ∧ f a = b := by
  cases outcome <;> simp [map, bind]

theorem map_eq_failure_iff {f : α → β} {outcome : Outcome ε α} {e : ε} :
    outcome.map f = .failure e ↔ outcome = .failure e := by
  cases outcome <;> simp [map, bind]

theorem map_eq_endless_iff {f : α → β} {outcome : Outcome ε α} :
    outcome.map f = .endless ↔ outcome = .endless := by
  cases outcome <;> simp [map, bind]

theorem mapFailure_eq_endless_iff {f : ε → ε'} {outcome : Outcome ε α} :
    outcome.mapFailure f = .endless ↔ outcome = .endless := by
  cases outcome <;> simp [mapFailure]

theorem mapFailure_eq_failure_iff {f : ε → ε'} {outcome : Outcome ε α} {e : ε'} :
    outcome.mapFailure f = .failure e ↔ ∃ reason, outcome = .failure reason ∧ f reason = e := by
  cases outcome <;> simp [mapFailure]

theorem mapFailure_eq_value_iff {f : ε → ε'} {outcome : Outcome ε α} {a : α} :
    outcome.mapFailure f = .value a ↔ outcome = .value a := by
  cases outcome <;> simp [mapFailure]

/-- What goes on after a computation fails exactly if the computation does, or what follows. -/
theorem bind_eq_failure_iff {outcome : Outcome ε α} {next : α → Outcome ε β} {e : ε} :
    (outcome >>= next) = .failure e ↔
      outcome = .failure e ∨ ∃ a, outcome = .value a ∧ next a = .failure e := by
  cases outcome <;> simp

theorem attempt_eq_some_iff {outcome : Outcome ε α} {a : α} :
    (outcome.attempt : Outcome ε' (Option α)) = .value (some a) ↔ outcome = .value a := by
  cases outcome <;> simp [attempt]

theorem attempt_eq_value_iff {outcome : Outcome ε α} {value? : Option α} :
    (outcome.attempt : Outcome ε' (Option α)) = .value value? ↔
      (∃ value, outcome = .value value ∧ value? = some value) ∨
        ∃ error, outcome = .failure error ∧ value? = none := by
  cases outcome <;> simp [attempt, @eq_comm _ value?]

theorem attempt_ne_failure {outcome : Outcome ε α} {e : ε'} :
    (outcome.attempt : Outcome ε' (Option α)) ≠ .failure e := by
  cases outcome <;> simp [attempt]

theorem ofOption_eq_value_iff {e : ε} {option : Option α} {a : α} :
    ofOption e option = .value a ↔ option = some a := by
  cases option <;> simp [ofOption]

theorem forM_eq_value_iff {f : α → Outcome ε Unit} {l : List α} :
    l.forM f = .value () ↔ ∀ a ∈ l, f a = .value () := by
  induction l with
  | nil => exact ⟨fun _ => nofun, fun _ => rfl⟩
  | cons a l ih =>
    show (f a >>= fun _ => l.forM f) = _ ↔ _
    rw [bind_eq_value_iff, List.forall_mem_cons, ih]
    exact ⟨fun ⟨_, ha, hl⟩ => ⟨ha, hl⟩, fun ⟨ha, hl⟩ => ⟨(), ha, hl⟩⟩

theorem forM_ne_failure {f : α → Outcome ε Unit} {l : List α} {e : ε}
    (h : ∀ a ∈ l, f a ≠ .failure e) : l.forM f ≠ .failure e := by
  induction l with
  | nil => exact nofun
  | cons a l ih =>
    show (f a >>= fun _ => l.forM f) ≠ _
    rw [Ne, bind_eq_failure_iff]
    rintro (ha | ⟨_, _, hl⟩)
    · exact h a (List.mem_cons_self ..) ha
    · exact ih (fun b hb => h b (List.mem_cons_of_mem _ hb)) hl

theorem mapM_cons_eq_value_iff {f : α → Outcome ε β} {a : α} {l : List α} {bs : List β} :
    (a :: l).mapM f = .value bs ↔
      ∃ b rest, f a = .value b ∧ l.mapM f = .value rest ∧ bs = b :: rest := by
  rw [List.mapM_cons, bind_eq_value_iff]
  constructor
  · rintro ⟨b, hb, h⟩
    obtain ⟨rest, hrest, h⟩ := bind_eq_value_iff.1 h
    cases h
    exact ⟨b, rest, hb, hrest, rfl⟩
  · rintro ⟨b, rest, hb, hrest, rfl⟩
    exact ⟨b, hb, bind_eq_value_iff.2 ⟨rest, hrest, rfl⟩⟩

/-- The value of every item is among the values of a list. -/
theorem exists_mem_of_mapM {f : α → Outcome ε β} {l : List α} {bs : List β}
    (hvalues : l.mapM f = .value bs) : ∀ a ∈ l, ∃ b ∈ bs, f a = .value b := by
  induction l generalizing bs with
  | nil =>
    intro a hmem
    cases hmem
  | cons head l ih =>
    obtain ⟨first, rest, hfirst, hrest, rfl⟩ := mapM_cons_eq_value_iff.1 hvalues
    intro a hmem
    rcases List.mem_cons.1 hmem with rfl | hmem
    · exact ⟨first, List.mem_cons_self .., hfirst⟩
    · obtain ⟨b, hb, hvalue⟩ := ih hrest a hmem
      exact ⟨b, List.mem_cons_of_mem _ hb, hvalue⟩

/-- A list has values only if every item has one. -/
theorem exists_of_mapM {f : α → Outcome ε β} {l : List α} {bs : List β}
    (hvalues : l.mapM f = .value bs) : ∀ a ∈ l, ∃ b, f a = .value b := by
  intro a hmem
  obtain ⟨b, _, hvalue⟩ := exists_mem_of_mapM hvalues a hmem
  exact ⟨b, hvalue⟩

/-- What every value keeps of its item, the values keep of the list. -/
theorem map_eq_of_mapM {f : α → Outcome ε β} {g : α → γ} {g' : β → γ}
    (h : ∀ a b, f a = .value b → g' b = g a) {l : List α} {bs : List β}
    (hvalues : l.mapM f = .value bs) : bs.map g' = l.map g := by
  induction l generalizing bs with
  | nil =>
    rw [List.mapM_nil] at hvalues
    cases hvalues
    rfl
  | cons a l ih =>
    obtain ⟨first, rest, hfirst, hrest, rfl⟩ := mapM_cons_eq_value_iff.1 hvalues
    rw [List.map_cons, List.map_cons, h a first hfirst, ih hrest]

/-- What holds of the value of every item holds of the values of a list. -/
theorem forall_mem_of_mapM {f : α → Outcome ε β} {P : β → Prop} {l : List α}
    (h : ∀ a ∈ l, ∀ b, f a = .value b → P b) {bs : List β} (hvalues : l.mapM f = .value bs) :
    ∀ b ∈ bs, P b := by
  induction l generalizing bs with
  | nil =>
    rw [List.mapM_nil] at hvalues
    cases hvalues
    intro b hmem
    cases hmem
  | cons a l ih =>
    obtain ⟨first, rest, hfirst, hrest, rfl⟩ := mapM_cons_eq_value_iff.1 hvalues
    intro b hmem
    rcases List.mem_cons.1 hmem with rfl | hmem
    · exact h a (List.mem_cons_self ..) b hfirst
    · exact ih (fun other hother => h other (List.mem_cons_of_mem _ hother)) hrest b hmem

/-- A list has the same values if every item has the same. -/
theorem mapM_eq_value_of_forall {f g : α → Outcome ε β} {l : List α}
    (h : ∀ a ∈ l, ∀ b, f a = .value b → g a = .value b) {bs : List β}
    (hvalues : l.mapM f = .value bs) : l.mapM g = .value bs := by
  induction l generalizing bs with
  | nil => exact hvalues
  | cons a l ih =>
    obtain ⟨first, rest, hfirst, hrest, rfl⟩ := mapM_cons_eq_value_iff.1 hvalues
    have hfirst' := h a (List.mem_cons_self ..) first hfirst
    have hrest' := ih (fun other hother => h other (List.mem_cons_of_mem _ hother)) hrest
    exact mapM_cons_eq_value_iff.2 ⟨first, rest, hfirst', hrest', rfl⟩

/-- A list is its own values if every item is its own value. -/
theorem mapM_eq_self {f : α → Outcome ε α} {l : List α} (h : ∀ a ∈ l, f a = .value a) :
    l.mapM f = .value l := by
  induction l with
  | nil => exact List.mapM_nil
  | cons a l ih =>
    have hrest := ih fun other hother => h other (List.mem_cons_of_mem _ hother)
    exact mapM_cons_eq_value_iff.2 ⟨a, l, h a (List.mem_cons_self ..), hrest, rfl⟩

/-- A list has values if every item has one. -/
theorem exists_mapM {f : α → Outcome ε β} {l : List α} (h : ∀ a ∈ l, ∃ b, f a = .value b) :
    ∃ bs, l.mapM f = .value bs := by
  induction l with
  | nil => exact ⟨[], List.mapM_nil⟩
  | cons a l ih =>
    obtain ⟨b, hb⟩ := h a (List.mem_cons_self ..)
    obtain ⟨bs, hbs⟩ := ih fun other hother => h other (List.mem_cons_of_mem _ hother)
    exact ⟨b :: bs, mapM_cons_eq_value_iff.2 ⟨b, bs, hb, hbs, rfl⟩⟩

end Outcome

/-! ## §2. The layers of a type. -/

namespace TypeRef

variable {type : TypeRef} {name : String}

theorem typeName_of_view_named (h : type.view = .named name) : type.typeName = name := by
  induction type with
  | list inner ih => cases h
  | named other =>
    cases h
    rfl
  | nonNull inner ih => exact ih h

/-- The elements of a list have the name inside all layers that the list has. -/
theorem typeName_of_view_list {element : TypeRef} (h : type.view = .list element) :
    type.typeName = element.typeName := by
  induction type with
  | list inner ih =>
    cases h
    rfl
  | named name => cases h
  | nonNull inner ih => exact ih h

theorem nullValue_eq_value_iff {value : Json} :
    type.nullValue = .value value ↔ type.isNonNull = false ∧ value = .null := by
  unfold nullValue
  cases type.isNonNull with
  | false => simp [eq_comm]
  | true => simp [Coerced.none]

end TypeRef

/-- A value within lists is null only if it is null and there are no lists. -/
theorem Json.nest_eq_null_iff {depth : Nat} {value : Json} :
    value.nest depth = .null ↔ depth = 0 ∧ value = .null := by
  cases depth <;> simp [nest]

/-! ## §3. Leaves. -/

namespace Schema

variable {schema : Schema} {type : TypeRef}

theorem namedType?_of_view_list (schema : Schema) {element : TypeRef} (h : type.view = .list element) :
    schema.namedType? type = schema.namedType? element :=
  congrArg schema.find? (TypeRef.typeName_of_view_list h)

theorem namedType?_of_view_named (schema : Schema) {name : String} (h : type.view = .named name) :
    schema.namedType? type = schema.find? name :=
  congrArg schema.find? (TypeRef.typeName_of_view_named h)

/-- A leaf has a value exactly if its type reads it. -/
theorem leafValue_eq_value_iff {read : TypeDef → Option Json} {value : Json} :
    schema.leafValue read type = .value value ↔
      ∃ definition inner, schema.namedType? type = some definition ∧ read definition = some inner ∧
        value = inner.nest type.listDepth := by
  unfold leafValue
  rw [Outcome.map_eq_value_iff]
  constructor
  · rintro ⟨inner, hread, rfl⟩
    have hsome := Outcome.ofOption_eq_value_iff.1 hread
    obtain ⟨definition, hfind, hread⟩ := Option.bind_eq_some_iff.1 hsome
    exact ⟨definition, inner, hfind, hread, rfl⟩
  · rintro ⟨definition, inner, hfind, hread, rfl⟩
    exact ⟨inner, Outcome.ofOption_eq_value_iff.2 (by rw [hfind]; exact hread), rfl⟩

/-- A leaf ends in any case. -/
theorem leafValue_ne_endless {read : TypeDef → Option Json} :
    schema.leafValue read type ≠ .endless := by
  unfold leafValue
  cases (schema.namedType? type).bind read <;> simp [Outcome.ofOption, Outcome.map, Outcome.bind]

end Schema

/-! ## §4. Members of objects. -/

/-- Entries that fields have, in the order of the fields: `worth` says what a field may be worth, which
is none for a field that is left out. -/
inductive Members (worth : InputDef → Option Json → Prop) :
    List InputDef → List (String × Json) → Prop where
  | nil : Members worth [] []
  | present {field : InputDef} {value : Json} {fields : List InputDef}
      {entries : List (String × Json)} : worth field (some value) → Members worth fields entries →
      Members worth (field :: fields) ((field.name, value) :: entries)
  | absent {field : InputDef} {fields : List InputDef} {entries : List (String × Json)} :
      worth field none → Members worth fields entries → Members worth (field :: fields) entries

namespace Members

variable {worth worth' : InputDef → Option Json → Prop} {fields : List InputDef}
  {entries : List (String × Json)}

/-- The keys are names of fields, in the order of the fields. -/
theorem keys_sublist (h : Members worth fields entries) :
    (entries.map Prod.fst).Sublist (fields.map InputDef.name) := by
  induction h with
  | nil => exact List.Sublist.slnil
  | present _ _ ih => exact ih.cons_cons _
  | absent _ _ ih => exact ih.cons _

/-- An entry is what its field is worth. -/
theorem worth_of_mem (h : Members worth fields entries) (hdistinct : (fields.map InputDef.name).Nodup)
    {field : InputDef} (hfield : field ∈ fields) {value : Json}
    (hentry : (field.name, value) ∈ entries) : worth field (some value) := by
  induction h with
  | nil => cases hfield
  | @present head headValue fields entries hworth hrest ih =>
    -- the first entry is that of the first field, as no later one has the same name
    rw [List.map_cons, List.nodup_cons] at hdistinct
    rcases List.mem_cons.1 hfield with rfl | hfield
    · rcases List.mem_cons.1 hentry with heq | hentry
      · cases heq
        exact hworth
      · have hkey := hrest.keys_sublist.subset (List.mem_map_of_mem hentry)
        exact absurd hkey hdistinct.1
    · rcases List.mem_cons.1 hentry with heq | hentry
      · have hname : head.name ∈ fields.map InputDef.name := by
          rw [← (Prod.mk.inj heq).1]
          exact List.mem_map_of_mem hfield
        exact absurd hname hdistinct.1
      · exact ih hdistinct.2 hfield hentry
  | @absent head fields entries hworth hrest ih =>
    rw [List.map_cons, List.nodup_cons] at hdistinct
    rcases List.mem_cons.1 hfield with rfl | hfield
    · have hkey := hrest.keys_sublist.subset (List.mem_map_of_mem hentry)
      exact absurd hkey hdistinct.1
    · exact ih hdistinct.2 hfield hentry

/-- A field without an entry is worth nothing. -/
theorem worth_of_not_mem (h : Members worth fields entries) {field : InputDef}
    (hfield : field ∈ fields) (habsent : field.name ∉ entries.map Prod.fst) : worth field none := by
  induction h with
  | nil => cases hfield
  | present hworth _ ih =>
    rw [List.map_cons, List.mem_cons, not_or] at habsent
    rcases List.mem_cons.1 hfield with rfl | hfield
    · exact absurd rfl habsent.1
    · exact ih hfield habsent.2
  | absent hworth _ ih =>
    rcases List.mem_cons.1 hfield with rfl | hfield
    · exact hworth
    · exact ih hfield habsent

/-- The entry of a field is the one thing that it can be worth. -/
theorem lookup_eq (h : Members worth fields entries) (hdistinct : (fields.map InputDef.name).Nodup)
    {field : InputDef} (hfield : field ∈ fields) {value? : Option Json}
    (honly : ∀ other?, worth field other? → other? = value?) :
    entries.lookup field.name = value? := by
  cases hlookup : entries.lookup field.name with
  | none => exact honly none (h.worth_of_not_mem hfield (lookup_eq_none_iff_not_mem.1 hlookup))
  | some value => exact honly (some value) (h.worth_of_mem hdistinct hfield (mem_of_lookup hlookup))

/-- Every field is worth something, or is left out. -/
theorem exists_worth (h : Members worth fields entries) {field : InputDef} (hfield : field ∈ fields) :
    ∃ value?, worth field value? := by
  induction h with
  | nil => cases hfield
  | present hworth _ ih =>
    rcases List.mem_cons.1 hfield with rfl | hfield
    · exact ⟨_, hworth⟩
    · exact ih hfield
  | absent hworth _ ih =>
    rcases List.mem_cons.1 hfield with rfl | hfield
    · exact ⟨_, hworth⟩
    · exact ih hfield

theorem mono (h : Members worth fields entries)
    (himp : ∀ field ∈ fields, ∀ value?, worth field value? → worth' field value?) :
    Members worth' fields entries := by
  induction h with
  | nil => exact .nil
  | present hworth _ ih =>
    exact .present (himp _ (List.mem_cons_self ..) _ hworth)
      (ih fun field hfield => himp field (List.mem_cons_of_mem _ hfield))
  | absent hworth _ ih =>
    exact .absent (himp _ (List.mem_cons_self ..) _ hworth)
      (ih fun field hfield => himp field (List.mem_cons_of_mem _ hfield))

theorem exists_of_forall (h : ∀ field ∈ fields, ∃ value?, worth field value?) :
    ∃ entries, Members worth fields entries := by
  induction fields with
  | nil => exact ⟨[], .nil⟩
  | cons field fields ih =>
    obtain ⟨entries, hentries⟩ := ih fun field hfield => h field (List.mem_cons_of_mem _ hfield)
    obtain ⟨value?, hworth⟩ := h field (List.mem_cons_self ..)
    cases value? with
    | none => exact ⟨entries, .absent hworth hentries⟩
    | some value => exact ⟨(field.name, value) :: entries, .present hworth hentries⟩

/-- Entries are members if their keys are names of fields, in the order of the fields, and each field is
worth what is found under its name. -/
theorem of_lookup (hdistinct : (fields.map InputDef.name).Nodup)
    (hkeys : (entries.map Prod.fst).Sublist (fields.map InputDef.name))
    (hworth : ∀ field ∈ fields, worth field (entries.lookup field.name)) :
    Members worth fields entries := by
  induction fields generalizing entries with
  | nil =>
    rw [List.map_nil, List.sublist_nil, List.map_eq_nil_iff] at hkeys
    rw [hkeys]
    exact .nil
  | cons field fields ih =>
    rw [List.map_cons, List.nodup_cons] at hdistinct
    have hhead := hworth field (List.mem_cons_self ..)
    rcases List.sublist_cons_iff.1 hkeys with hkeys | ⟨keys, hentries, hkeys⟩
    · -- all entries are those of later fields, which have other names
      rw [lookup_eq_none_iff_not_mem.2 fun hkey => hdistinct.1 (hkeys.subset hkey)] at hhead
      exact .absent hhead (ih hdistinct.2 hkeys fun other hother =>
        hworth other (List.mem_cons_of_mem _ hother))
    · -- the first entry is that of the field
      obtain ⟨⟨key, value⟩, rest, rfl, rfl, rfl⟩ := List.map_eq_cons_iff.1 hentries
      rw [List.lookup_cons, beq_self_eq_true] at hhead
      refine .present hhead (ih hdistinct.2 hkeys fun other hother => ?_)
      have hne : other.name ≠ field.name := by
        intro hname
        exact hdistinct.1 (hname ▸ List.mem_map_of_mem hother)
      have hlookup := hworth other (List.mem_cons_of_mem _ hother)
      rw [List.lookup_cons, beq_eq_false_iff_ne.2 hne] at hlookup
      exact hlookup

end Members

/-- How a field comes to what it is worth: by what is given for it, else by its default, else by being
left out. -/
theorem InputDef.memberValue_eq_value_iff {default : DefaultValue} {field : InputDef}
    {given : Option (TypeRef → Coerced)} {value? : Option Json} :
    field.memberValue default given = .value value? ↔
      (∃ worth value, given = some worth ∧ worth field.type = .value value ∧ value? = some value) ∨
      (∃ literal value, given = none ∧ field.defaultValue = some literal ∧
        default field.type literal = .value value ∧ value? = some value) ∨
      (given = none ∧ field.defaultValue = none ∧ field.type.isNonNull = false ∧ value? = none) := by
  unfold memberValue
  cases given with
  | some worth =>
    show (worth field.type).map some = _ ↔ _
    rw [Outcome.map_eq_value_iff]
    constructor
    · rintro ⟨value, hvalue, rfl⟩
      exact .inl ⟨worth, value, rfl, hvalue, rfl⟩
    · rintro (⟨_, value, hgiven, hvalue, rfl⟩ | ⟨_, _, hgiven, _⟩ | ⟨hgiven, _⟩)
      · cases hgiven
        exact ⟨value, hvalue, rfl⟩
      · cases hgiven
      · cases hgiven
  | none =>
    cases field.defaultValue with
    | some literal =>
      show (default field.type literal).map some = _ ↔ _
      rw [Outcome.map_eq_value_iff]
      constructor
      · rintro ⟨value, hvalue, rfl⟩
        exact .inr (.inl ⟨literal, value, rfl, rfl, hvalue, rfl⟩)
      · rintro (⟨_, _, hgiven, _⟩ | ⟨_, value, _, hliteral, hvalue, rfl⟩ | ⟨_, hliteral, _⟩)
        · cases hgiven
        · cases hliteral
          exact ⟨value, hvalue, rfl⟩
        · cases hliteral
    | none =>
      cases field.type.isNonNull with
      | true => simp
      | false => simp [eq_comm]

/-- A field is worth the same if what is given for it is worth the same at its type. -/
theorem InputDef.memberValue_congr {default : DefaultValue} {field : InputDef}
    {given given' : Option (TypeRef → Coerced)}
    (h : given.map (· field.type) = given'.map (· field.type)) :
    field.memberValue default given = field.memberValue default given' := by
  cases given with
  | none =>
    cases given' with
    | none => rfl
    | some worth' => cases h
  | some worth =>
    cases given' with
    | none => cases h
    | some worth' =>
      have hworth : worth field.type = worth' field.type := Option.some.inj h
      show (worth field.type).map some = (worth' field.type).map some
      rw [hworth]

/-- An object is worth the same if what is given for each declared field is worth the same. -/
theorem InputObjectType.objectValue_congr {default : DefaultValue} {type : InputObjectType}
    {members members' : List (String × (TypeRef → Coerced))}
    (h : ∀ field ∈ type.fields.toList, (members.lookup field.name).map (· field.type) =
      (members'.lookup field.name).map (· field.type)) :
    type.objectValue default members = type.objectValue default members' := by
  have hmembers : ∀ fields : List InputDef, (∀ field ∈ fields, field ∈ type.fields.toList) →
      membersOf default members fields = membersOf default members' fields := by
    intro fields hfields
    induction fields with
    | nil => rfl
    | cons field fields ih =>
      unfold membersOf
      rw [InputDef.memberValue_congr (h field (hfields field (List.mem_cons_self ..))),
        ih fun other hother => hfields other (List.mem_cons_of_mem _ hother)]
  unfold objectValue
  rw [hmembers _ fun _ hfield => hfield]

/-- The members of an object are entries of the declared fields. -/
theorem membersOf_eq_value_iff {default : DefaultValue} {members : List (String × (TypeRef → Coerced))}
    {fields : List InputDef} {entries : List (String × Json)} :
    membersOf default members fields = .value entries ↔
      Members (fun field value? =>
        field.memberValue default (members.lookup field.name) = .value value?) fields entries := by
  induction fields generalizing entries with
  | nil =>
    constructor
    · intro h
      cases h
      exact .nil
    · intro h
      cases h
      rfl
  | cons field fields ih =>
    constructor
    · intro h
      unfold membersOf at h
      obtain ⟨value?, hvalue, h⟩ := Outcome.bind_eq_value_iff.1 h
      obtain ⟨rest, hrest, h⟩ := Outcome.bind_eq_value_iff.1 h
      cases value? with
      | none =>
        cases h
        exact .absent hvalue (ih.1 hrest)
      | some value =>
        cases h
        exact .present hvalue (ih.1 hrest)
    · intro h
      unfold membersOf
      cases h with
      | present hvalue hrest =>
        rw [hvalue, Outcome.bind_value, ih.2 hrest]
        rfl
      | absent hvalue hrest =>
        rw [hvalue, Outcome.bind_value, ih.2 hrest]
        rfl

theorem InputObjectType.objectValue_eq_value_iff {default : DefaultValue} {type : InputObjectType}
    {members : List (String × (TypeRef → Coerced))} {value : Json} :
    type.objectValue default members = .value value ↔
      ∃ entries, value = .object entries ∧
        Members (fun field value? =>
          field.memberValue default (members.lookup field.name) = .value value?)
          type.fields.toList entries := by
  unfold objectValue
  rw [Outcome.map_eq_value_iff]
  constructor
  · rintro ⟨entries, hentries, rfl⟩
    exact ⟨entries, rfl, membersOf_eq_value_iff.1 hentries⟩
  · rintro ⟨entries, rfl, hentries⟩
    exact ⟨entries, membersOf_eq_value_iff.2 hentries, rfl⟩

/-! ## §5. Literals.

What each kind of literal is worth: a list is read item by item where the type has a list layer, an
object field by field where the type is an input object, and everything else as a leaf. -/

namespace Literal

variable {schema : Schema} {default : DefaultValue} {env : Variables} {type : TypeRef}

theorem valueWith_variable_eq_value_iff {name : String} {value : Json} :
    (Literal.variable name).valueWith schema default env type = .value value ↔
      env.lookup name = some value ∧ (value.isNull && type.isNonNull) = false := by
  unfold valueWith Variables.valueAt
  cases env.lookup name with
  | none => simp [Coerced.none]
  | some bound =>
    simp only [Option.some.injEq]
    cases hnull : bound.isNull && type.isNonNull with
    | true =>
      rw [if_pos rfl]
      constructor
      · intro h
        cases h
      · rintro ⟨rfl, h⟩
        rw [hnull] at h
        cases h
    | false =>
      rw [if_neg Bool.false_ne_true, Outcome.value.injEq]
      constructor
      · rintro rfl
        exact ⟨rfl, hnull⟩
      · rintro ⟨rfl, _⟩
        rfl

theorem valueWith_plain {literal : Literal} (h : literal.isPlain = true) (type : TypeRef) :
    literal.valueWith schema default env type =
      schema.leafValue (·.parseLiteral literal) type := by
  cases literal <;> first | rfl | cases h

/-- The value of an item of a list: a variable without a value is null there. -/
def itemValue (schema : Schema) (default : DefaultValue) (env : Variables) (item : Literal)
    (element : TypeRef) : Coerced :=
  if item.isUnbound env then element.nullValue else item.valueWith schema default env element

/-- The items of a list are evaluated one after the other. -/
theorem itemValues_eq_mapM (items : List Literal) (element : TypeRef) :
    itemValues schema default env items element =
      items.mapM fun item => item.itemValue schema default env element := by
  induction items with
  | nil => rfl
  | cons item items ih =>
    rw [itemValues, List.mapM_cons, ih, itemValue]
    cases item.isUnbound env <;> rfl

theorem valueWith_list {items : List Literal} {element : TypeRef} (h : type.view = .list element) :
    (Literal.list items).valueWith schema default env type =
      Outcome.map .array (items.mapM fun item => item.itemValue schema default env element) := by
  rw [← itemValues_eq_mapM]
  unfold valueWith
  simp only [h]

theorem valueWith_list_leaf {items : List Literal} {name : String} (h : type.view = .named name) :
    (Literal.list items).valueWith schema default env type =
      schema.leafValue (·.parseLiteral (.list items)) type := by
  unfold valueWith
  simp only [h]

theorem valueWith_object {fields : List (String × Literal)} {inputType : InputObjectType}
    (h : schema.namedType? type = some (.inputObject inputType)) :
    (Literal.object fields).valueWith schema default env type =
      (inputType.objectValue default (fieldValues schema default env fields)).map
        (·.nest type.listDepth) := by
  unfold valueWith
  simp only [h]

theorem valueWith_object_leaf {fields : List (String × Literal)}
    (h : ¬ ∃ inputType, schema.namedType? type = some (.inputObject inputType)) :
    (Literal.object fields).valueWith schema default env type =
      schema.leafValue (·.parseLiteral (.object fields)) type := by
  unfold valueWith
  split
  next inputType hfind => exact absurd ⟨inputType, hfind⟩ h
  next => rfl

/-- The fields of an object, but for those that are given as variables without a value. -/
theorem fieldValues_eq_map (fields : List (String × Literal)) :
    fieldValues schema default env fields = (fields.filter fun field => !field.2.isUnbound env).map
      fun field => (field.1, fun type => field.2.valueWith schema default env type) := by
  induction fields with
  | nil => rfl
  | cons field fields ih =>
    obtain ⟨name, literal⟩ := field
    unfold fieldValues
    cases hunbound : literal.isUnbound env with
    | true => simpa [hunbound] using ih
    | false => simpa [hunbound] using ih

/-- A field is worth what its first literal is that is no variable without a value. -/
theorem lookup_fieldValues (fields : List (String × Literal)) (name : String) :
    (fieldValues schema default env fields).lookup name =
      ((fields.filter fun field => !field.2.isUnbound env).lookup name).map fun literal type =>
        literal.valueWith schema default env type := by
  rw [fieldValues_eq_map]
  exact lookup_map_entries _
    (fun (literal : Literal) type => literal.valueWith schema default env type) name

end Literal

/-! ## §6. Runtime values. -/

namespace Json

variable {schema : Schema} {default : DefaultValue} {type : TypeRef}

theorem coerceWith_plain {value : Json} (h : value.isPlain = true) (type : TypeRef) :
    value.coerceWith schema default type = schema.leafValue (·.parseValue value) type := by
  cases value <;> first | rfl | cases h

/-- The items of an array are evaluated one after the other. -/
theorem coerceItems_eq_mapM (items : List Json) (element : TypeRef) :
    coerceItems schema default items element =
      items.mapM fun item => item.coerceWith schema default element := by
  induction items with
  | nil => rfl
  | cons item items ih => rw [coerceItems, List.mapM_cons, ih]

theorem coerceWith_array {items : List Json} {element : TypeRef} (h : type.view = .list element) :
    (Json.array items).coerceWith schema default type =
      Outcome.map .array (items.mapM fun item => item.coerceWith schema default element) := by
  rw [← coerceItems_eq_mapM]
  unfold coerceWith
  simp only [h]

theorem coerceWith_array_leaf {items : List Json} {name : String} (h : type.view = .named name) :
    (Json.array items).coerceWith schema default type =
      schema.leafValue (·.parseValue (.array items)) type := by
  unfold coerceWith
  simp only [h]

theorem coerceWith_object {entries : List (String × Json)} {inputType : InputObjectType}
    (h : schema.namedType? type = some (.inputObject inputType)) :
    (Json.object entries).coerceWith schema default type =
      (inputType.objectValue default (coerceEntries schema default entries)).map
        (·.nest type.listDepth) := by
  unfold coerceWith
  simp only [h]

theorem coerceWith_object_leaf {entries : List (String × Json)}
    (h : ¬ ∃ inputType, schema.namedType? type = some (.inputObject inputType)) :
    (Json.object entries).coerceWith schema default type =
      schema.leafValue (·.parseValue (.object entries)) type := by
  unfold coerceWith
  split
  next inputType hfind => exact absurd ⟨inputType, hfind⟩ h
  next => rfl

theorem coerceEntries_eq_map (entries : List (String × Json)) :
    coerceEntries schema default entries =
      entries.map fun entry => (entry.1, fun type => entry.2.coerceWith schema default type) := by
  induction entries with
  | nil => rfl
  | cons entry entries ih =>
    obtain ⟨key, value⟩ := entry
    unfold coerceEntries
    rw [List.map_cons, ih]

theorem lookup_coerceEntries (entries : List (String × Json)) (name : String) :
    (coerceEntries schema default entries).lookup name =
      (entries.lookup name).map fun value type => value.coerceWith schema default type := by
  rw [coerceEntries_eq_map]
  exact lookup_map_entries entries (fun value type => value.coerceWith schema default type) name

end Json

end GraphQLCheck
