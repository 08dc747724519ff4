/-
  GraphQLCheck.Proofs.Coercion.Filled
  ───────────────────────────────────
  The objects within a value that coercion yields.

  Coercion makes every object that is read as an input object anew: it goes through the declared fields in
  order, and leaves out those only that are not given and have no default.  This holds of whatever a value is
  coerced from, as long as it is coerced at all, and within defaults as well.

      InputObjectType.InOrder, InputObjectType.IsFilled — what such objects are like

  Main facts:
    * `Json.EveryObject.of_items`, `Json.EveryObject.of_members`, `Json.EveryObject.of_nest` — objects within
                                         a value, part by part
    * `Literal.everyObject_of_valueWith`, `Json.everyObject_of_coerceWith` — one evaluation, given defaults
    * `Schema.everyObject_of_evaluateWithin` — all defaults
-/
import GraphQLCheck.Proofs.Coercion.Agreement

namespace GraphQLCheck

/-! ## §1. Properties of all objects within a value. -/

/-- Only at types with an input object inside are objects read as input objects. -/
theorem Json.ObjectAt.exists_inputObject {schema : Schema} {inputType : InputObjectType}
    {entries : List (String × Json)} {value : Json} {type : TypeRef}
    (h : value.ObjectAt schema inputType entries type) :
    ∃ outerType, schema.namedType? type = some (.inputObject outerType) := by
  induction h with
  | here hfind => exact ⟨_, hfind⟩
  | element hview _ _ ih =>
    rw [schema.namedType?_of_view_list hview]
    exact ih
  | member hfind => exact ⟨_, hfind⟩

namespace Json.EveryObject

variable {schema : Schema} {P Q : InputObjectType → List (String × Json) → Prop} {type : TypeRef}
  {value : Json}

theorem mono (h : value.EveryObject schema P type) (himp : ∀ inputType entries, P inputType entries →
    Q inputType entries) : value.EveryObject schema Q type :=
  fun inputType entries hat => himp inputType entries (h inputType entries hat)

theorem of_not_inputObject (h : ¬ ∃ inputType, schema.namedType? type = some (.inputObject inputType)) :
    value.EveryObject schema P type :=
  fun _ _ hat => absurd hat.exists_inputObject h

theorem of_null : Json.null.EveryObject schema P type := fun _ _ hat => nomatch hat

theorem of_items {items : List Json} {element : TypeRef} (hview : type.view = .list element)
    (h : ∀ item ∈ items, item.EveryObject schema P element) :
    (Json.array items).EveryObject schema P type := by
  intro inputType entries hat
  cases hat with
  | element hview' hitem hat =>
    rw [hview] at hview'
    cases hview'
    exact h _ hitem _ _ hat

theorem of_members {entries : List (String × Json)} {inputType : InputObjectType}
    (hfind : schema.namedType? type = some (.inputObject inputType)) (hobject : P inputType entries)
    (h : ∀ field ∈ inputType.fields.toList, ∀ value, entries.lookup field.name = some value →
      value.EveryObject schema P field.type) :
    (Json.object entries).EveryObject schema P type := by
  intro _ _ hat
  cases hat with
  | here hfind' =>
    rw [hfind] at hfind'
    cases hfind'
    exact hobject
  | member hfind' hfield hlookup hat =>
    rw [hfind] at hfind'
    cases hfind'
    exact h _ hfield _ hlookup _ _ hat

/-- It does not matter whether null is excluded. -/
theorem of_inner {inner : TypeRef} (h : value.EveryObject schema P inner) :
    value.EveryObject schema P (.nonNull inner) := by
  intro _ _ hat
  apply h
  cases hat with
  | here hfind => exact .here hfind
  | element hview hitem hat => exact .element hview hitem hat
  | member hfind hfield hlookup hat => exact .member hfind hfield hlookup hat

/-- A value within as many lists as its type has layers has the objects of the value itself. -/
theorem of_nest (h : value.EveryObject schema P (.named type.typeName)) :
    (value.nest type.listDepth).EveryObject schema P type := by
  induction type with
  | list element ih => exact of_items rfl (List.forall_mem_singleton.2 (ih h))
  | named name => exact h
  | nonNull inner ih => exact of_inner (ih h)

end Json.EveryObject

/-! ## §2. Objects within coerced values. -/

namespace InputObjectType

/-- The keys are names of fields, in the order of the fields. -/
def InOrder (type : InputObjectType) (entries : List (String × Json)) : Prop :=
  (entries.map Prod.fst).Sublist type.fields.names

/-- The object has declared fields only, in order, and all that have a default. -/
structure IsFilled (type : InputObjectType) (entries : List (String × Json)) : Prop where
  inOrder : type.InOrder entries
  hasDefaulted : ∀ field ∈ type.fields.toList, field.defaultValue.isSome = true →
    field.name ∈ entries.map Prod.fst

namespace InOrder

variable {type : InputObjectType} {entries before after : List (String × Json)} {entry : String × Json}

theorem nodup (h : type.InOrder entries) : (entries.map Prod.fst).Nodup :=
  List.Nodup.sublist h type.fields.distinct

theorem mem_names (h : type.InOrder entries) {key : String} (hkey : key ∈ entries.map Prod.fst) :
    key ∈ type.fields.names :=
  List.Sublist.subset h hkey

/-- With another value for one of its entries, an object is in order still. -/
theorem replace {name : String} {value value' : Json} (h : type.InOrder (before ++ (name, value) :: after)) :
    type.InOrder (before ++ (name, value') :: after) := by
  unfold InOrder at h ⊢
  rw [List.map_append, List.map_cons] at h ⊢
  exact h

/-- Without one of its entries, an object is in order still. -/
theorem drop (h : type.InOrder (before ++ entry :: after)) : type.InOrder (before ++ after) :=
  List.Sublist.trans (((List.sublist_cons_self entry after).append_left before).map Prod.fst) h

end InOrder

end InputObjectType

section Evaluations

variable {schema : Schema} {default : DefaultValue} {type : TypeRef} {value : Json}

/-- What is read as a leaf has no objects that are read as input objects. -/
theorem Schema.everyObject_of_leafValue {P : InputObjectType → List (String × Json) → Prop}
    {read : TypeDef → Option Json} (hread : ∀ inputType, read (.inputObject inputType) = none)
    (h : schema.leafValue read type = .value value) : value.EveryObject schema P type := by
  apply Json.EveryObject.of_not_inputObject
  rintro ⟨inputType, hinput⟩
  obtain ⟨definition, inner, hfind, hinner, _⟩ := leafValue_eq_value_iff.1 h
  rw [hinput] at hfind
  cases hfind
  rw [hread] at hinner
  cases hinner

/-- The objects within an object are filled if those within its defaults are and those within what it is
given. -/
theorem InputObjectType.everyObject_of_objectValue {name : String} {inputType : InputObjectType}
    (hfind : schema.find? name = some (.inputObject inputType))
    (hdefaults : ∀ field ∈ inputType.fields.toList, ∀ literal, field.defaultValue = some literal →
      ∀ value, default field.type literal = .value value → value.EveryObject schema IsFilled field.type)
    {members : List (String × (TypeRef → Coerced))}
    (hgiven : ∀ field ∈ inputType.fields.toList, ∀ worth, members.lookup field.name = some worth →
      ∀ value, worth field.type = .value value → value.EveryObject schema IsFilled field.type)
    (h : inputType.objectValue default members = .value value) :
    value.EveryObject schema IsFilled (.named name) := by
  obtain ⟨entries, rfl, hmembers⟩ := objectValue_eq_value_iff.1 h
  refine .of_members hfind ⟨hmembers.keys_sublist, ?_⟩ ?_
  · -- a field that is left out is worth nothing, which one with a default is not
    intro field hfield hdefault
    apply Classical.byContradiction
    intro hmissing
    rcases InputDef.memberValue_eq_value_iff.1 (hmembers.worth_of_not_mem hfield hmissing) with
      ⟨_, _, _, _, heq⟩ | ⟨_, _, _, _, _, heq⟩ | ⟨_, hnone, _, _⟩
    · cases heq
    · cases heq
    · rw [hnone] at hdefault
      cases hdefault
  · intro field hfield value hlookup
    have hworth := hmembers.worth_of_mem inputType.fields.distinct hfield (mem_of_lookup hlookup)
    rcases InputDef.memberValue_eq_value_iff.1 hworth with
      ⟨worth, _, hmember, hvalue, heq⟩ | ⟨literal, _, _, hliteral, hvalue, heq⟩ | ⟨_, _, _, heq⟩
    · cases heq
      exact hgiven field hfield worth hmember value hvalue
    · cases heq
      exact hdefaults field hfield literal hliteral value hvalue
    · cases heq

variable (hdefaults : ∀ declared ∈ schema.defaults, ∀ value,
    default declared.1 declared.2 = .value value →
      value.EveryObject schema InputObjectType.IsFilled declared.1)

include hdefaults

/-- The objects within the value of a literal without variables are filled. -/
theorem Literal.everyObject_of_valueWith {literal : Literal}
    (h : literal.valueWith schema default [] type = .value value) :
    value.EveryObject schema InputObjectType.IsFilled type := by
  induction literal generalizing type value with
  | null =>
    obtain ⟨_, rfl⟩ := TypeRef.nullValue_eq_value_iff.1 h
    exact .of_null
  | var name =>
    -- no variable has a value
    cases (valueWith_variable_eq_value_iff.1 h).1
  | plain literal hplain =>
    rw [valueWith_plain hplain] at h
    exact Schema.everyObject_of_leafValue (fun _ => rfl) h
  | list items ih =>
    cases hview : type.view with
    | list element =>
      rw [valueWith_list hview] at h
      obtain ⟨values, hvalues, rfl⟩ := Outcome.map_eq_value_iff.1 h
      refine .of_items hview (Outcome.forall_mem_of_mapM (fun item hitem value hvalue => ?_) hvalues)
      unfold itemValue at hvalue
      split at hvalue
      next =>
        obtain ⟨_, rfl⟩ := TypeRef.nullValue_eq_value_iff.1 hvalue
        exact .of_null
      next => exact ih item hitem hvalue
    | named name =>
      rw [valueWith_list_leaf hview] at h
      exact Schema.everyObject_of_leafValue (fun _ => rfl) h
  | object fields ih =>
    by_cases hinput : ∃ inputType, schema.namedType? type = some (.inputObject inputType)
    · obtain ⟨inputType, hfind⟩ := hinput
      rw [valueWith_object hfind] at h
      obtain ⟨object, hobject, rfl⟩ := Outcome.map_eq_value_iff.1 h
      refine .of_nest (InputObjectType.everyObject_of_objectValue hfind
        (fun field hfield literal hliteral => hdefaults _ (Schema.mem_defaults hfind hfield hliteral))
        (fun field hfield worth hlookup value hvalue => ?_) hobject)
      rw [lookup_fieldValues] at hlookup
      obtain ⟨given, hgiven, rfl⟩ := Option.map_eq_some_iff.1 hlookup
      exact ih _ (List.mem_filter.1 (mem_of_lookup hgiven)).1 hvalue
    · rw [valueWith_object_leaf hinput] at h
      exact Schema.everyObject_of_leafValue (fun _ => rfl) h

/-- **The objects within a coerced value are filled.** -/
theorem Json.everyObject_of_coerceWith {sent : Json}
    (h : sent.coerceWith schema default type = .value value) :
    value.EveryObject schema InputObjectType.IsFilled type := by
  induction sent generalizing type value with
  | null =>
    obtain ⟨_, rfl⟩ := TypeRef.nullValue_eq_value_iff.1 h
    exact .of_null
  | plain sent hplain =>
    rw [coerceWith_plain hplain] at h
    exact Schema.everyObject_of_leafValue (fun _ => rfl) h
  | array items ih =>
    cases hview : type.view with
    | list element =>
      rw [coerceWith_array hview] at h
      obtain ⟨values, hvalues, rfl⟩ := Outcome.map_eq_value_iff.1 h
      exact .of_items hview
        (Outcome.forall_mem_of_mapM (fun item hitem _ hvalue => ih item hitem hvalue) hvalues)
    | named name =>
      rw [coerceWith_array_leaf hview] at h
      exact Schema.everyObject_of_leafValue (fun _ => rfl) h
  | object entries ih =>
    by_cases hinput : ∃ inputType, schema.namedType? type = some (.inputObject inputType)
    · obtain ⟨inputType, hfind⟩ := hinput
      rw [coerceWith_object hfind] at h
      obtain ⟨object, hobject, rfl⟩ := Outcome.map_eq_value_iff.1 h
      refine .of_nest (InputObjectType.everyObject_of_objectValue hfind
        (fun field hfield literal hliteral => hdefaults _ (Schema.mem_defaults hfind hfield hliteral))
        (fun field hfield worth hlookup value hvalue => ?_) hobject)
      rw [lookup_coerceEntries] at hlookup
      obtain ⟨given, hgiven, rfl⟩ := Option.map_eq_some_iff.1 hlookup
      exact ih _ (mem_of_lookup hgiven) hvalue
    · rw [coerceWith_object_leaf hinput] at h
      exact Schema.everyObject_of_leafValue (fun _ => rfl) h

end Evaluations

/-- The objects within defaults are filled, however deep others are nested in them. -/
theorem Schema.everyObject_of_evaluateWithin {schema : Schema} (depth : Nat) :
    ∀ declared ∈ schema.defaults, ∀ value,
      schema.evaluateWithin depth declared.1 declared.2 = .value value →
        value.EveryObject schema InputObjectType.IsFilled declared.1 := by
  induction depth with
  | zero =>
    intro _ _ value h
    cases h
  | succ depth ih => exact fun declared _ value h => Literal.everyObject_of_valueWith ih h

end GraphQLCheck
