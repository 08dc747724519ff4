/-
  GraphQLCheck.Proofs.Value.Variables
  ───────────────────────────────────
  The variables that occur in a literal, and the runtime value of one without any.

  A literal without variables is closed: it has a runtime value of its own, made of those of its parts.
  `Literal.sent` is that value for every literal, so that lists and objects are sent item by item.
-/
import GraphQLCheck.Proofs.Value.Finite

namespace GraphQLCheck

/-! ## §1. Variables. -/

mutual
/-- The variables that occur in a literal, in order. -/
def Literal.variables : Literal → List String
  | .variable name => [name]
  | .list items => itemsVariables items
  | .object fields => fieldsVariables fields
  | .null | .int _ | .float _ | .string _ | .boolean _ | .enum _ => []
/-- The variables that occur in the items of a list. -/
def Literal.itemsVariables : List Literal → List String
  | [] => []
  | item :: items => item.variables ++ itemsVariables items
/-- The variables that occur in the fields of an object. -/
def Literal.fieldsVariables : List (String × Literal) → List String
  | [] => []
  | (_, value) :: fields => value.variables ++ fieldsVariables fields
end

namespace Literal

theorem mem_variables_list {items : List Literal} {name : String} :
    name ∈ (Literal.list items).variables ↔ ∃ item ∈ items, name ∈ item.variables := by
  show name ∈ itemsVariables items ↔ _
  induction items with
  | nil => simp [itemsVariables]
  | cons item items ih => simp [itemsVariables, ih]

theorem mem_variables_object {fields : List (String × Literal)} {name : String} :
    name ∈ (Literal.object fields).variables ↔ ∃ field ∈ fields, name ∈ field.2.variables := by
  show name ∈ fieldsVariables fields ↔ _
  induction fields with
  | nil => simp [fieldsVariables]
  | cons field fields ih => simp [fieldsVariables, ih]

theorem variables_item {items : List Literal} (h : (Literal.list items).variables = []) {item : Literal}
    (hitem : item ∈ items) : item.variables = [] := by
  rw [List.eq_nil_iff_forall_not_mem] at h ⊢
  intro name hname
  exact h name (mem_variables_list.2 ⟨item, hitem, hname⟩)

theorem variables_field {fields : List (String × Literal)} (h : (Literal.object fields).variables = [])
    {field : String × Literal} (hfield : field ∈ fields) : field.2.variables = [] := by
  rw [List.eq_nil_iff_forall_not_mem] at h ⊢
  intro name hname
  exact h name (mem_variables_object.2 ⟨field, hfield, hname⟩)

/-! ## §2. Closed literals as runtime values. -/

/-- What a closed literal is sent as, where a variable stands for it. -/
def sent (literal : Literal) : Json := literal.toJson?.getD .null

theorem toJson?_list {items : List Literal} (h : ∀ item ∈ items, item.toJson? = some item.sent) :
    (Literal.list items).toJson? = some (.array (items.map sent)) := by
  have hitems : itemsToJson? items = some (items.map sent) := by
    induction items with
    | nil => rfl
    | cons item items ih =>
      unfold itemsToJson?
      rw [h item (List.mem_cons_self ..),
        ih fun other hother => h other (List.mem_cons_of_mem _ hother)]
      rfl
  unfold toJson?
  rw [hitems]
  rfl

theorem toJson?_object {fields : List (String × Literal)}
    (h : ∀ field ∈ fields, field.2.toJson? = some field.2.sent) :
    (Literal.object fields).toJson? =
      some (.object (fields.map fun field => (field.1, field.2.sent))) := by
  have hfields : fieldsToJson? fields = some (fields.map fun field => (field.1, field.2.sent)) := by
    induction fields with
    | nil => rfl
    | cons field fields ih =>
      obtain ⟨name, value⟩ := field
      unfold fieldsToJson?
      rw [h (name, value) (List.mem_cons_self ..),
        ih fun other hother => h other (List.mem_cons_of_mem _ hother)]
      rfl
  unfold toJson?
  rw [hfields]
  rfl

theorem sent_eq_of_toJson? {literal : Literal} {value : Json} (h : literal.toJson? = some value) :
    literal.sent = value := by
  unfold sent
  rw [h]
  rfl

/-- A closed literal has a runtime value. -/
theorem toJson?_eq_sent {literal : Literal} (h : literal.variables = []) :
    literal.toJson? = some literal.sent := by
  induction literal with
  | null => rfl
  | var name => cases h
  | plain literal hplain => cases literal <;> first | rfl | cases hplain
  | list items ih =>
    have hlist := toJson?_list fun item hitem => ih item hitem (variables_item h hitem)
    rw [sent_eq_of_toJson? hlist]
    exact hlist
  | object fields ih =>
    have hobject := toJson?_object fun field hfield => ih field hfield (variables_field h hfield)
    rw [sent_eq_of_toJson? hobject]
    exact hobject

theorem sent_list {items : List Literal} (h : (Literal.list items).variables = []) :
    (Literal.list items).sent = .array (items.map sent) :=
  sent_eq_of_toJson? (toJson?_list fun _ hitem => toJson?_eq_sent (variables_item h hitem))

theorem sent_object {fields : List (String × Literal)} (h : (Literal.object fields).variables = []) :
    (Literal.object fields).sent = .object (fields.map fun field => (field.1, field.2.sent)) :=
  sent_eq_of_toJson? (toJson?_object fun _ hfield => toJson?_eq_sent (variables_field h hfield))

end Literal

end GraphQLCheck
