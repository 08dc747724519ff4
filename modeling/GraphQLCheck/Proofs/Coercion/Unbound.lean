/-
  GraphQLCheck.Proofs.Coercion.Unbound
  ────────────────────────────────────
  Variables without a value.

  A variable without a value counts as nothing written: as a field of an input object it is left out, so
  that the default of the field is taken, and as an item of a list, which cannot be left out, it is null.
  The evaluation looks for such variables in both places before it goes on to the parts of a literal.  Here
  they are taken out of the whole literal first, and the literal that is left is worth the same.

      Literal.dropUnbound — the literal without its variables that have no value

  Main facts:
    * `Literal.valueWith_dropUnbound`    — it is worth the same
    * `Literal.VariableAt.of_dropUnbound` — every variable has a value that is read in it at its own type
-/
import GraphQLCheck.Proofs.Coercion.Acceptance

namespace GraphQLCheck

/-! ## §1. Literals without such variables. -/

mutual
/-- The literal without its variables that have no value, as far down as the type reads lists and input
objects: an item of a list is null in their place, and a field of an object is left out.  What an enum or a
scalar reads stays as it is. -/
def Literal.dropUnbound (schema : Schema) (env : Variables) : Literal → TypeRef → Literal
  | .list items, type =>
    match type.view with
    | .list element => .list (itemsWithoutUnbound schema env items element)
    | .named _ => .list items
  | .object fields, type =>
    match schema.namedType? type with
    | some (.inputObject inputType) => .object (fieldsWithoutUnbound schema env fields inputType)
    | _ => .object fields
  | literal, _ => literal
/-- The items of a list without variables that have no value. -/
def Literal.itemsWithoutUnbound (schema : Schema) (env : Variables) :
    List Literal → TypeRef → List Literal
  | [], _ => []
  | item :: items, element =>
    (if item.isUnbound env then .null else item.dropUnbound schema env element) ::
      itemsWithoutUnbound schema env items element
/-- The fields of an object without variables that have no value.  The value of a field that is not declared
is not read, and stays as it is. -/
def Literal.fieldsWithoutUnbound (schema : Schema) (env : Variables) :
    List (String × Literal) → InputObjectType → List (String × Literal)
  | [], _ => []
  | (name, value) :: fields, inputType =>
    let rest := fieldsWithoutUnbound schema env fields inputType
    if value.isUnbound env then rest
    else
      match inputType.fields.find? name with
      | some field => (name, value.dropUnbound schema env field.type) :: rest
      | none => (name, value) :: rest
end

namespace Literal

variable {schema : Schema} {env : Variables} {type : TypeRef}

/-- The value of a field without variables that have no value. -/
def fieldWithoutUnbound (schema : Schema) (env : Variables) (inputType : InputObjectType) (name : String)
    (value : Literal) : Literal :=
  match inputType.fields.find? name with
  | some field => value.dropUnbound schema env field.type
  | none => value

theorem dropUnbound_plain {literal : Literal} (h : literal.isPlain = true) (type : TypeRef) :
    literal.dropUnbound schema env type = literal := by
  cases literal <;> first | rfl | cases h

theorem itemsWithoutUnbound_eq_map (items : List Literal) (element : TypeRef) :
    itemsWithoutUnbound schema env items element = items.map fun item =>
      if item.isUnbound env then .null else item.dropUnbound schema env element := by
  induction items with
  | nil => rfl
  | cons item items ih => rw [itemsWithoutUnbound, ih, List.map_cons]

theorem dropUnbound_list {items : List Literal} {element : TypeRef} (h : type.view = .list element) :
    (Literal.list items).dropUnbound schema env type = .list (items.map fun item =>
      if item.isUnbound env then .null else item.dropUnbound schema env element) := by
  rw [← itemsWithoutUnbound_eq_map]
  unfold dropUnbound
  simp only [h]

theorem dropUnbound_list_leaf {items : List Literal} {name : String} (h : type.view = .named name) :
    (Literal.list items).dropUnbound schema env type = .list items := by
  unfold dropUnbound
  simp only [h]

theorem fieldsWithoutUnbound_eq_map (fields : List (String × Literal)) (inputType : InputObjectType) :
    fieldsWithoutUnbound schema env fields inputType =
      (fields.filter fun field => !field.2.isUnbound env).map fun field =>
        (field.1, fieldWithoutUnbound schema env inputType field.1 field.2) := by
  induction fields with
  | nil => rfl
  | cons field fields ih =>
    obtain ⟨name, value⟩ := field
    rw [fieldsWithoutUnbound, ih]
    cases hunbound : value.isUnbound env with
    | true => simp [hunbound]
    | false =>
      rw [List.filter_cons_of_pos (by rw [hunbound]; rfl), List.map_cons, fieldWithoutUnbound]
      cases inputType.fields.find? name <;> rfl

theorem dropUnbound_object {fields : List (String × Literal)} {inputType : InputObjectType}
    (h : schema.namedType? type = some (.inputObject inputType)) :
    (Literal.object fields).dropUnbound schema env type =
      .object ((fields.filter fun field => !field.2.isUnbound env).map fun field =>
        (field.1, fieldWithoutUnbound schema env inputType field.1 field.2)) := by
  rw [← fieldsWithoutUnbound_eq_map]
  unfold dropUnbound
  simp only [h]

theorem dropUnbound_object_leaf {fields : List (String × Literal)}
    (h : ¬ ∃ inputType, schema.namedType? type = some (.inputObject inputType)) :
    (Literal.object fields).dropUnbound schema env type = .object fields := by
  unfold dropUnbound
  split
  next inputType hfind => exact absurd ⟨inputType, hfind⟩ h
  next => rfl

/-- What is left of a literal is a variable without a value only if the literal is one. -/
theorem isUnbound_dropUnbound (literal : Literal) (type : TypeRef) :
    (literal.dropUnbound schema env type).isUnbound env = literal.isUnbound env := by
  cases literal with
  | list items =>
    unfold dropUnbound
    split <;> rfl
  | object fields =>
    unfold dropUnbound
    split <;> rfl
  | _ => rfl

/-- No field is left that is given as a variable without a value. -/
theorem filter_isUnbound_dropUnbound (fields : List (String × Literal)) (inputType : InputObjectType) :
    (((fields.filter fun field => !field.2.isUnbound env).map fun field =>
        (field.1, fieldWithoutUnbound schema env inputType field.1 field.2)).filter
      fun field => !field.2.isUnbound env) =
      (fields.filter fun field => !field.2.isUnbound env).map fun field =>
        (field.1, fieldWithoutUnbound schema env inputType field.1 field.2) := by
  rw [List.filter_eq_self, List.forall_mem_map]
  intro field hfield
  have hbound := (List.mem_filter.1 hfield).2
  unfold fieldWithoutUnbound
  cases inputType.fields.find? field.1 with
  | some declared =>
    show (!(field.2.dropUnbound schema env declared.type).isUnbound env) = true
    rw [isUnbound_dropUnbound]
    exact hbound
  | none => exact hbound

end Literal

/-! ## §2. What is left is worth the same. -/

section Values

variable {schema : Schema} {default : DefaultValue} {env : Variables}

/-- **A literal is worth what is left of it without its variables that have no value.** -/
theorem Literal.valueWith_dropUnbound (literal : Literal) (type : TypeRef) :
    (literal.dropUnbound schema env type).valueWith schema default env type =
      literal.valueWith schema default env type := by
  induction literal generalizing type with
  | null => rfl
  | var name => rfl
  | plain literal hplain => rw [dropUnbound_plain hplain]
  | list items ih =>
    cases hview : type.view with
    | list element =>
      rw [dropUnbound_list hview, valueWith_list hview, valueWith_list hview, List.mapM_map]
      congr 1
      apply Outcome.kept_eq.mapM
      intro item hitem
      show itemValue schema default env (if item.isUnbound env then .null else _) element = _
      cases hunbound : item.isUnbound env with
      | true =>
        unfold itemValue
        rw [hunbound]
        rfl
      | false =>
        have hleft := @isUnbound_dropUnbound schema env item element
        unfold itemValue
        rw [if_neg Bool.false_ne_true, hleft, hunbound]
        exact ih item hitem element
    | named name => rw [dropUnbound_list_leaf hview]
  | object fields ih =>
    by_cases hinput : ∃ inputType, schema.namedType? type = some (.inputObject inputType)
    · obtain ⟨inputType, hfind⟩ := hinput
      rw [dropUnbound_object hfind, valueWith_object hfind, valueWith_object hfind]
      congr 1
      apply InputObjectType.objectValue_congr
      intro declared hdeclared
      rw [lookup_fieldValues, lookup_fieldValues, filter_isUnbound_dropUnbound, lookup_map_keyed]
      cases hlookup : (fields.filter fun field => !field.2.isUnbound env).lookup declared.name with
      | none => rfl
      | some value =>
        -- what is given for a declared field is read at the type of the field
        have hfield := Declarations.find?_eq_some_iff.2 ⟨hdeclared, rfl⟩
        have hmem := (List.mem_filter.1 (mem_of_lookup hlookup)).1
        unfold fieldWithoutUnbound
        show some ((match inputType.fields.find? (Named.nameOf declared) with
          | some field => value.dropUnbound schema env field.type
          | none => value).valueWith schema default env declared.type) = _
        rw [hfield]
        exact congrArg some (ih _ hmem declared.type)
    · rw [dropUnbound_object_leaf hinput]

/-- **In what is left, every variable that is read at a type of its own has a value.** -/
theorem Literal.VariableAt.of_dropUnbound {literal : Literal} {type position : TypeRef} {name : String}
    (hbound : literal.isUnbound env = false)
    (hat : (literal.dropUnbound schema env type).VariableAt schema name position type) :
    ∃ value, env.lookup name = some value := by
  induction literal generalizing type with
  | null => cases hat
  | var other =>
    cases hat
    unfold isUnbound at hbound
    exact Option.isSome_iff_exists.1 (Option.isNone_eq_false_iff.1 hbound)
  | plain literal hplain =>
    rw [dropUnbound_plain hplain] at hat
    cases hat <;> cases hplain
  | list items ih =>
    cases hview : type.view with
    | list element =>
      rw [dropUnbound_list hview] at hat
      cases hat with
      | element hview' hleft hat =>
        rw [hview] at hview'
        cases hview'
        obtain ⟨item, hitem, rfl⟩ := List.mem_map.1 hleft
        cases hunbound : item.isUnbound env with
        | true =>
          rw [if_pos hunbound] at hat
          cases hat
        | false =>
          rw [hunbound, if_neg Bool.false_ne_true] at hat
          exact ih item hitem hunbound hat
    | named name =>
      rw [dropUnbound_list_leaf hview] at hat
      cases hat with
      | element hview' _ _ =>
        rw [hview] at hview'
        cases hview'
  | object fields ih =>
    by_cases hinput : ∃ inputType, schema.namedType? type = some (.inputObject inputType)
    · obtain ⟨inputType, hfind⟩ := hinput
      rw [dropUnbound_object hfind] at hat
      cases hat with
      | @member _ value _ _ declared hfind' hdeclared hentry hat =>
        rw [hfind] at hfind'
        cases hfind'
        obtain ⟨field, hfield, heq⟩ := List.mem_map.1 hentry
        obtain ⟨hmem, hfieldBound⟩ := List.mem_filter.1 hfield
        obtain ⟨hname, rfl⟩ := Prod.mk.inj heq
        have hfound := Declarations.find?_eq_some_iff.2 ⟨hdeclared, rfl⟩
        unfold fieldWithoutUnbound at hat
        rw [hname, show inputType.fields.find? declared.name = some declared from hfound] at hat
        exact ih field hmem (by simpa using hfieldBound) hat
    · rw [dropUnbound_object_leaf hinput] at hat
      cases hat with
      | member hfind' _ _ _ => exact absurd ⟨_, hfind'⟩ hinput

end Values

/-- **A variable without a value acts as if it were not written.**  Let a literal not be such a variable
itself.  Without the variables that have no value — an item of a list is null in their place, a field of an
input object is left out — it is worth the same, and every variable that is read in it at a type of its own
has a value. -/
theorem unbound_variables_act_as_unwritten (schema : Schema) (env : Variables) (type : TypeRef)
    (literal : Literal) (hbound : literal.isUnbound env = false) :
    schema.literalValue env type literal =
      schema.literalValue env type (literal.dropUnbound schema env type) ∧
    ∀ (name : String) (position : TypeRef),
      (literal.dropUnbound schema env type).VariableAt schema name position type →
        ∃ value, env.lookup name = some value :=
  ⟨(literal.valueWith_dropUnbound type).symm, fun _ _ hat => hat.of_dropUnbound hbound⟩

namespace Search

/-- Of a filter with a range from `$from`, tags `$tags` and `$or`, two variables have no value: the range takes
its lower end from the default, and there is no other filter.  In a list of texts `$tag` is null. -/
theorem filter_without_unbound :
    (filterPattern.dropUnbound schema [("tags", .array [.string "lean"])] (.named "Filter") =
        .object [("range", .object []), ("tags", .variable "tags")] ∧
      schema.literalValue [("tags", .array [.string "lean"])] (.named "Filter") filterPattern =
        .value (.object [("tags", .array [.string "lean"]), ("order", .string "ASC"),
          ("range", .object [("from", .ofInt 1)])])) ∧
    ((Literal.list [.variable "tag", .string "lean"]).dropUnbound schema [] (.list (.named "String")) =
        .list [.null, .string "lean"] ∧
      schema.literalValue [] (.list (.named "String")) (.list [.variable "tag", .string "lean"]) =
        .value (.array [.null, .string "lean"])) := by
  have hfilter := unbound_variables_act_as_unwritten schema [("tags", .array [.string "lean"])]
    (.named "Filter") filterPattern rfl
  have hlist := unbound_variables_act_as_unwritten schema [] (.list (.named "String"))
    (.list [.variable "tag", .string "lean"]) rfl
  exact ⟨⟨rfl, hfilter.1.trans rfl⟩, ⟨rfl, hlist.1.trans rfl⟩⟩

end Search

end GraphQLCheck
