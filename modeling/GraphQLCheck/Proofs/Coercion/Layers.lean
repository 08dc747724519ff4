/-
  GraphQLCheck.Proofs.Coercion.Layers
  ───────────────────────────────────
  What the layers of a type do to a value that is neither null nor a list.

  Around a type there may be layers that make lists and layers that exclude null, in any order.  A value that
  is neither null nor a list meets nothing that excludes it on its way in, and every list layer takes it for
  the one item of a list.  So of all layers only the number of lists is left, and it does not matter how many
  of these lists are written out.

  Main results:
    * `Json.problems_within`, `Literal.problems_within`       — the layers bring no problem and take none away
    * `Schema.coerceValue_within`, `Schema.literalValue_within` — the value is put into as many lists as there
                                                                are list layers
    * `Schema.coerceValue_nest`, `Schema.literalValue_nest`   — some of which may be written out
    * `layers_act_through_their_lists`                        — all of this
-/
import GraphQLCheck.Proofs.Coercion.Idempotence
import GraphQLCheck.Proofs.Recursion.Evaluation

namespace GraphQLCheck

/-! ## §1. Layers. -/

namespace TypeRef

/-- What may be put around a type. -/
inductive Layer where
  /-- A list of values of the type. -/
  | list
  /-- The type without null. -/
  | nonNull
  deriving DecidableEq, Repr

/-- A type with one more layer. -/
def Layer.around : Layer → TypeRef → TypeRef
  | .list, type => .list type
  | .nonNull, type => .nonNull type

/-- A type within layers, of which the first is the outermost. -/
def within (layers : List Layer) (type : TypeRef) : TypeRef := layers.foldr Layer.around type

end TypeRef

/-- Whether a runtime value is neither null nor a list. -/
def Json.isSingle : Json → Bool
  | .null | .array _ => false
  | .bool _ | .number _ | .string _ | .object _ => true

/-- Whether a literal is neither null nor a list. -/
def Literal.isSingle : Literal → Bool
  | .null | .list _ => false
  | .int _ | .float _ | .string _ | .boolean _ | .enum _ | .object _ | .variable _ => true

/-- A literal within lists that are written out. -/
def Literal.nest : Nat → Literal → Literal
  | 0, literal => literal
  | depth + 1, literal => .list [literal.nest depth]

theorem Json.ne_null_of_isSingle {value : Json} (h : value.isSingle = true) : value ≠ .null := by
  rintro rfl
  cases h

theorem Json.nest_ne_null {value : Json} (h : value.isSingle = true) (depth : Nat) :
    value.nest depth ≠ .null := by
  intro hnull
  exact ne_null_of_isSingle h (nest_eq_null_iff.1 hnull).2

theorem Literal.ne_null_of_isSingle {literal : Literal} (h : literal.isSingle = true) : literal ≠ .null := by
  rintro rfl
  cases h

theorem Literal.nest_ne_null {literal : Literal} (h : literal.isSingle = true) (depth : Nat) :
    literal.nest depth ≠ .null := by
  cases depth with
  | zero => exact ne_null_of_isSingle h
  | succ depth => exact nofun

/-! ## §2. Problems. -/

namespace Json

variable {schema : Schema} {value : Json} {type : TypeRef}

/-- A single value is checked as the one item of a list. -/
theorem problems_list_single (h : value.isSingle = true) (element : TypeRef) :
    value.problems schema (.list element) = value.problems schema element := by
  cases value <;> first | rfl | cases h

/-- **The layers of a type bring no problem of a single value and take none away.** -/
theorem problems_within (h : value.isSingle = true) (layers : List TypeRef.Layer) :
    value.problems schema (type.within layers) = value.problems schema type := by
  induction layers with
  | nil => rfl
  | cons layer layers ih =>
    cases layer with
    | list => exact (problems_list_single h _).trans ih
    | nonNull => exact (problems_nonNull (ne_null_of_isSingle h) _).trans ih

end Json

namespace Literal

variable {schema : Schema} {literal : Literal} {type : TypeRef}

theorem problems_list_single (h : literal.isSingle = true) (element : TypeRef) :
    literal.problems schema (.list element) = literal.problems schema element := by
  cases literal <;> first | rfl | cases h

theorem problems_nonNull (h : literal.isSingle = true) (inner : TypeRef) :
    literal.problems schema (.nonNull inner) = literal.problems schema inner := by
  cases literal <;> first | rfl | cases h

/-- **The layers of a type bring no problem of a single literal and take none away.** -/
theorem problems_within (h : literal.isSingle = true) (layers : List TypeRef.Layer) :
    literal.problems schema (type.within layers) = literal.problems schema type := by
  induction layers with
  | nil => rfl
  | cons layer layers ih =>
    cases layer with
    | list => exact (problems_list_single h _).trans ih
    | nonNull => exact (problems_nonNull h _).trans ih

end Literal

/-! ## §3. Values. -/

namespace Schema

variable {schema : Schema} {type : TypeRef}

section Values

variable {value : Json}

theorem coerceValue_nonNull (h : value ≠ .null) (inner : TypeRef) :
    schema.coerceValue (.nonNull inner) value = schema.coerceValue inner value :=
  Json.coerceWith_nonNull h inner

/-- A single value is worth a list of what it is worth as an item. -/
theorem coerceValue_list_single (h : value.isSingle = true) (element : TypeRef) :
    schema.coerceValue (.list element) value =
      (schema.coerceValue element value).map (Json.nest 1) := by
  rw [Json.coerceValue_eq_body]
  cases value <;> first | rfl | cases h

/-- So is a list of one item. -/
theorem coerceValue_list_one (value : Json) (element : TypeRef) :
    schema.coerceValue (.list element) (.array [value]) =
      (schema.coerceValue element value).map (Json.nest 1) := by
  rw [Json.coerceValue_eq_body]
  show Outcome.map Json.array ([value].mapM fun item => schema.coerceValue element item) = _
  rw [List.mapM_cons, List.mapM_nil]
  cases schema.coerceValue element value <;> rfl

/-- **A single value is put into as many lists as there are list layers.** -/
theorem coerceValue_within (h : value.isSingle = true) (layers : List TypeRef.Layer) :
    schema.coerceValue (type.within layers) value =
      (schema.coerceValue type value).map (Json.nest (layers.count .list)) := by
  induction layers with
  | nil => exact (Outcome.map_id _).symm
  | cons layer layers ih =>
    cases layer with
    | list =>
      show schema.coerceValue (.list (type.within layers)) value = _
      rw [coerceValue_list_single h, ih, Outcome.map_map, List.count_cons_self]
      rfl
    | nonNull =>
      show schema.coerceValue (.nonNull (type.within layers)) value = _
      rw [coerceValue_nonNull (Json.ne_null_of_isSingle h), ih, List.count_cons_of_ne (by decide)]

/-- **It does not matter how many of these lists are written out.** -/
theorem coerceValue_nest (h : value.isSingle = true) {layers : List TypeRef.Layer} {depth : Nat}
    (hdepth : depth ≤ layers.count .list) :
    schema.coerceValue (type.within layers) (value.nest depth) =
      schema.coerceValue (type.within layers) value := by
  induction layers generalizing depth with
  | nil =>
    rw [Nat.le_zero.1 hdepth]
    rfl
  | cons layer layers ih =>
    cases layer with
    | list =>
      -- the outermost list is written out or made by the layer, and all others are inside of it
      cases depth with
      | zero => rfl
      | succ depth =>
        rw [List.count_cons_self] at hdepth
        show schema.coerceValue (.list (type.within layers)) (.array [value.nest depth]) =
          schema.coerceValue (.list (type.within layers)) value
        rw [coerceValue_list_one, coerceValue_list_single h, ih (Nat.le_of_succ_le_succ hdepth)]
    | nonNull =>
      rw [List.count_cons_of_ne (by decide)] at hdepth
      show schema.coerceValue (.nonNull (type.within layers)) (value.nest depth) =
        schema.coerceValue (.nonNull (type.within layers)) value
      rw [coerceValue_nonNull (Json.nest_ne_null h depth), coerceValue_nonNull (Json.ne_null_of_isSingle h),
        ih hdepth]

end Values

section Literals

variable {env : Variables} {literal : Literal}

theorem literalValue_nonNull (hnull : literal ≠ .null) (hvariable : ∀ name, literal ≠ .variable name)
    (inner : TypeRef) :
    schema.literalValue env (.nonNull inner) literal = schema.literalValue env inner literal := by
  rw [Literal.literalValue_eq_body]
  cases literal <;> first | rfl | exact absurd rfl hnull | exact absurd rfl (hvariable _)

/-- A single literal is worth a list of what it is worth as an item, unless it is a variable. -/
theorem literalValue_list_single (h : literal.isSingle = true) (hvariable : ∀ name, literal ≠ .variable name)
    (element : TypeRef) :
    schema.literalValue env (.list element) literal =
      (schema.literalValue env element literal).map (Json.nest 1) := by
  rw [Literal.literalValue_eq_body]
  cases literal <;> first | rfl | exact absurd rfl (hvariable _) | cases h

/-- So is a list of one item. -/
theorem literalValue_list_one (hvariable : ∀ name, literal ≠ .variable name) (element : TypeRef) :
    schema.literalValue env (.list element) (.list [literal]) =
      (schema.literalValue env element literal).map (Json.nest 1) := by
  have hbound : literal.isUnbound env = false := by
    cases literal <;> first | rfl | exact absurd rfl (hvariable _)
  rw [Literal.literalValue_eq_body]
  show Outcome.map Json.array ([literal].mapM fun item =>
    if item.isUnbound env then element.nullValue else schema.literalValue env element item) = _
  rw [List.mapM_cons, List.mapM_nil, hbound, if_neg Bool.false_ne_true]
  cases schema.literalValue env element literal <;> rfl

/-- **A single literal is put into as many lists as there are list layers**, unless it is a variable. -/
theorem literalValue_within (h : literal.isSingle = true) (hvariable : ∀ name, literal ≠ .variable name)
    (layers : List TypeRef.Layer) :
    schema.literalValue env (type.within layers) literal =
      (schema.literalValue env type literal).map (Json.nest (layers.count .list)) := by
  induction layers with
  | nil => exact (Outcome.map_id _).symm
  | cons layer layers ih =>
    cases layer with
    | list =>
      show schema.literalValue env (.list (type.within layers)) literal = _
      rw [literalValue_list_single h hvariable, ih, Outcome.map_map, List.count_cons_self]
      rfl
    | nonNull =>
      show schema.literalValue env (.nonNull (type.within layers)) literal = _
      rw [literalValue_nonNull (Literal.ne_null_of_isSingle h) hvariable, ih, List.count_cons_of_ne (by decide)]

/-- **It does not matter how many of these lists are written out.** -/
theorem literalValue_nest (h : literal.isSingle = true) (hvariable : ∀ name, literal ≠ .variable name)
    {layers : List TypeRef.Layer} {depth : Nat} (hdepth : depth ≤ layers.count .list) :
    schema.literalValue env (type.within layers) (literal.nest depth) =
      schema.literalValue env (type.within layers) literal := by
  have hnested : ∀ depth name, literal.nest depth ≠ .variable name := by
    intro depth name
    cases depth with
    | zero => exact hvariable name
    | succ depth => exact nofun
  induction layers generalizing depth with
  | nil =>
    rw [Nat.le_zero.1 hdepth]
    rfl
  | cons layer layers ih =>
    cases layer with
    | list =>
      cases depth with
      | zero => rfl
      | succ depth =>
        rw [List.count_cons_self] at hdepth
        show schema.literalValue env (.list (type.within layers)) (.list [literal.nest depth]) =
          schema.literalValue env (.list (type.within layers)) literal
        rw [literalValue_list_one (hnested depth), literalValue_list_single h hvariable,
          ih (Nat.le_of_succ_le_succ hdepth)]
    | nonNull =>
      rw [List.count_cons_of_ne (by decide)] at hdepth
      show schema.literalValue env (.nonNull (type.within layers)) (literal.nest depth) =
        schema.literalValue env (.nonNull (type.within layers)) literal
      rw [literalValue_nonNull (Literal.nest_ne_null h depth) (hnested depth),
        literalValue_nonNull (Literal.ne_null_of_isSingle h) hvariable, ih hdepth]

end Literals

end Schema

/-- **The layers of a type act on a single value through the number of their lists.**  A runtime value that
is neither null nor a list has the same problems at a type within layers as at the type itself, is worth what
it is worth there, within one list for each list layer, and is worth the same if one or more of these lists,
up to all of them, are written out.  The same holds of a literal that is neither null nor a list; a variable
is checked in the same way, and only what it is worth depends on the value that it has. -/
theorem layers_act_through_their_lists (schema : Schema) (layers : List TypeRef.Layer) (type : TypeRef) :
    (∀ value : Json, value.isSingle = true →
      value.problems schema (type.within layers) = value.problems schema type ∧
      schema.coerceValue (type.within layers) value =
        (schema.coerceValue type value).map (Json.nest (layers.count .list)) ∧
      ∀ depth, 1 ≤ depth → depth ≤ layers.count .list →
        schema.coerceValue (type.within layers) (value.nest depth) =
          schema.coerceValue (type.within layers) value) ∧
    (∀ literal : Literal, literal.isSingle = true →
      literal.problems schema (type.within layers) = literal.problems schema type ∧
      ((∀ name, literal ≠ .variable name) → ∀ env : Variables,
        schema.literalValue env (type.within layers) literal =
          (schema.literalValue env type literal).map (Json.nest (layers.count .list)) ∧
        ∀ depth, 1 ≤ depth → depth ≤ layers.count .list →
          schema.literalValue env (type.within layers) (literal.nest depth) =
            schema.literalValue env (type.within layers) literal)) := by
  refine ⟨fun value h => ⟨Json.problems_within h layers, Schema.coerceValue_within h layers, ?_⟩,
    fun literal h => ⟨Literal.problems_within h layers, fun hvariable env =>
      ⟨Schema.literalValue_within h hvariable layers, ?_⟩⟩⟩
  · exact fun depth _ hdepth => Schema.coerceValue_nest h hdepth
  · exact fun depth _ hdepth => Schema.literalValue_nest h hvariable hdepth

namespace Search

/-- A range without limits at `[[Range!]]!`: within two lists it starts from the default, and so it does if
one of the lists is written out, be it sent or written with a variable for its end. -/
theorem range_within_lists :
    schema.coerceValue (.nonNull (.list (.list (.nonNull (.named "Range"))))) (.object []) =
      .value (.array [.array [.object [("from", .ofInt 1)]]]) ∧
    schema.coerceValue (.nonNull (.list (.list (.nonNull (.named "Range"))))) (.array [.object []]) =
      .value (.array [.array [.object [("from", .ofInt 1)]]]) ∧
    schema.literalValue [("end", .ofInt 7)] (.nonNull (.list (.list (.nonNull (.named "Range")))))
        (.list [.object [("to", .variable "end")]]) =
      .value (.array [.array [.object [("from", .ofInt 1), ("to", .ofInt 7)]]]) := by
  obtain ⟨hvalues, hliterals⟩ :=
    layers_act_through_their_lists schema [.nonNull, .list, .list, .nonNull] (.named "Range")
  obtain ⟨_, hwithin, hnest⟩ := hvalues (.object []) rfl
  obtain ⟨hwithin', hnest'⟩ :=
    (hliterals (.object [("to", .variable "end")]) rfl).2 (fun _ => nofun) [("end", .ofInt 7)]
  exact ⟨hwithin, (hnest 1 (by decide) (by decide)).trans hwithin,
    (hnest' 1 (by decide) (by decide)).trans hwithin'⟩

end Search

end GraphQLCheck
