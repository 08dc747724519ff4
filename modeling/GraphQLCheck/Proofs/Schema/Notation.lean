/-
  GraphQLCheck.Proofs.Schema.Notation
  ───────────────────────────────────
  How types are written, and which types a text is of.

  A written type may have several marks `!` in a row.  The reference that it makes has one of them, and keeps
  everything else: the name, the lists, and which of these layers exclude null.  So references are the written
  types up to marks that are repeated.

  A mark stands behind what it belongs to, and a list ends with a bracket.  So the last character of a text
  tells the outermost layer of the type, and the rest of the text is that of what is inside.

      TypeRef.isReduced   — no layer that excludes null stands right within another one
      TypeRef.written     — a reference as a written type
      TypeExpr.DropsMark  — a mark is left out that stands right behind another one

  Main results:
    * `TypeRef.ofExpr_eq_iff`        — two written types make one reference exactly if they differ in repeated
                                     marks only
    * `TypeRef.render_ofExpr_eq_iff` — a reference has the text of the written type exactly if that repeats none
    * `TypeRef.eq_of_render`         — two references with proper names have one text only if they are the same
    * `type_notation_is_canonical`   — all of this
-/
import GraphQLCheck.Proofs.Value.Printed
import GraphQLCheck.Schema.TypeRef
import Mathlib.Logic.Relation

namespace GraphQLCheck

/-! ## §1. What a written type says, mark by mark. -/

namespace TypeExpr

/-- Whether the outermost layer excludes `null`. -/
def isNonNull : TypeExpr → Bool
  | .nonNull _ => true
  | _ => false

/-- Whether no mark stands right behind another one. -/
def isReduced : TypeExpr → Bool
  | .named _ => true
  | .list element => element.isReduced
  | .nonNull inner => !inner.isNonNull && inner.isReduced

/-- The name inside all layers. -/
def typeName : TypeExpr → String
  | .named name => name
  | .list element => element.typeName
  | .nonNull inner => inner.typeName

/-- The number of list layers. -/
def listDepth : TypeExpr → Nat
  | .named _ => 0
  | .list element => element.listDepth + 1
  | .nonNull inner => inner.listDepth

/-- Somewhere in a written type, a mark is left out that stands right behind another one. -/
inductive DropsMark : TypeExpr → TypeExpr → Prop where
  | repeated (inner : TypeExpr) : DropsMark (.nonNull (.nonNull inner)) (.nonNull inner)
  | element {before after : TypeExpr} : DropsMark before after → DropsMark (.list before) (.list after)
  | inner {before after : TypeExpr} : DropsMark before after → DropsMark (.nonNull before) (.nonNull after)

namespace DropsMark

variable {before after : TypeExpr}

/-- Only a mark that is repeated can be left out. -/
theorem isReduced_eq_false (h : DropsMark before after) : before.isReduced = false := by
  induction h with
  | repeated inner => rfl
  | element _ ih => exact ih
  | inner _ ih =>
    unfold isReduced
    rw [ih, Bool.and_false]

/-- The text gets shorter by the mark. -/
theorem length_render (h : DropsMark before after) : before.render.length = after.render.length + 1 := by
  induction h with
  | repeated inner => exact String.length_append ..
  | element _ ih =>
    simp only [render, String.length_append, ih]
    omega
  | inner _ ih =>
    simp only [render, String.length_append, ih]
    omega

theorem length_render_lt (h : Relation.TransGen DropsMark before after) :
    after.render.length < before.render.length := by
  induction h with
  | single hstep =>
    have hlength := hstep.length_render
    omega
  | tail _ hstep ih =>
    have hlength := hstep.length_render
    omega

end DropsMark

end TypeExpr

/-! ## §2. References as written types. -/

namespace TypeRef

/-- Whether no layer that excludes null stands right within another one. -/
def isReduced : TypeRef → Bool
  | .list element => element.isReduced
  | .named _ => true
  | .nonNull inner => !inner.isNonNull && inner.isReduced

/-- How the type is written. -/
def written : TypeRef → TypeExpr
  | .list element => .list element.written
  | .named name => .named name
  | .nonNull inner => .nonNull inner.written

/-- A reduced reference is the one that it makes when it is written. -/
theorem ofExpr_written {type : TypeRef} (h : type.isReduced = true) : .ofExpr type.written = type := by
  induction type with
  | list element ih =>
    show TypeRef.list (.ofExpr element.written) = _
    rw [ih h]
  | named name => rfl
  | nonNull inner ih =>
    unfold isReduced at h
    rw [Bool.and_eq_true, Bool.not_eq_true'] at h
    show (TypeRef.ofExpr inner.written).required = _
    rw [ih h.2]
    unfold required
    rw [h.1]
    rfl

theorem isNonNull_written (type : TypeRef) : type.written.isNonNull = type.isNonNull := by
  cases type <;> rfl

theorem isReduced_written (type : TypeRef) : type.written.isReduced = type.isReduced := by
  induction type with
  | list element ih => exact ih
  | named name => rfl
  | nonNull inner ih =>
    show (!inner.written.isNonNull && inner.written.isReduced) = (!inner.isNonNull && inner.isReduced)
    rw [isNonNull_written, ih]

theorem render_written (type : TypeRef) : type.written.render = type.render := by
  induction type with
  | list element ih =>
    show "[" ++ element.written.render ++ "]" = "[" ++ element.render ++ "]"
    rw [ih]
  | named name => rfl
  | nonNull inner ih =>
    show inner.written.render ++ "!" = inner.render ++ "!"
    rw [ih]

/-! ## §3. The reference that a written type makes. -/

/-- A mark behind another one adds nothing. -/
theorem required_required (type : TypeRef) : type.required.required = type.required :=
  if_pos (isNonNull_required type)

theorem isReduced_required {type : TypeRef} (h : type.isReduced = true) : type.required.isReduced = true := by
  cases type with
  | list element => exact h
  | named name => rfl
  | nonNull inner => exact h

theorem typeName_required (type : TypeRef) : type.required.typeName = type.typeName := by
  cases type <;> rfl

theorem listDepth_required (type : TypeRef) : type.required.listDepth = type.listDepth := by
  cases type <;> rfl

/-- **No layer of such a reference excludes null right within another one that does.** -/
theorem isReduced_ofExpr (expr : TypeExpr) : (ofExpr expr).isReduced = true := by
  induction expr with
  | named name => rfl
  | list element ih => exact ih
  | nonNull inner ih => exact isReduced_required ih

theorem typeName_ofExpr (expr : TypeExpr) : (ofExpr expr).typeName = expr.typeName := by
  induction expr with
  | named name => rfl
  | list element ih => exact ih
  | nonNull inner ih => exact (typeName_required _).trans ih

theorem listDepth_ofExpr (expr : TypeExpr) : (ofExpr expr).listDepth = expr.listDepth := by
  induction expr with
  | named name => rfl
  | list element ih => exact congrArg (· + 1) ih
  | nonNull inner ih => exact (listDepth_required _).trans ih

/-! ## §4. Written types that differ in repeated marks only. -/

section Marks

variable {expr other before after : TypeExpr}

theorem ofExpr_eq_of_dropsMark (h : before.DropsMark after) : ofExpr before = ofExpr after := by
  induction h with
  | repeated inner => exact required_required (ofExpr inner)
  | element _ ih => exact congrArg list ih
  | inner _ ih => exact congrArg required ih

/-- **The reference is what is left of a written type once all repeated marks are left out.** -/
theorem reflTransGen_written (expr : TypeExpr) :
    Relation.ReflTransGen TypeExpr.DropsMark expr (ofExpr expr).written := by
  induction expr with
  | named name => exact .refl
  | list element ih => exact ih.lift TypeExpr.list fun _ _ => TypeExpr.DropsMark.element
  | nonNull inner ih =>
    have hinner := ih.lift TypeExpr.nonNull fun _ _ => TypeExpr.DropsMark.inner
    show Relation.ReflTransGen TypeExpr.DropsMark (.nonNull inner) (ofExpr inner).required.written
    -- the mark itself is repeated exactly if what is inside already has one
    cases hreference : ofExpr inner with
    | list element => rwa [hreference] at hinner
    | named name => rwa [hreference] at hinner
    | nonNull element =>
      rw [hreference] at hinner
      exact hinner.tail (.repeated element.written)

/-- **Two written types make one reference exactly if they differ in repeated marks only.** -/
theorem ofExpr_eq_iff : ofExpr other = ofExpr expr ↔ Relation.EqvGen TypeExpr.DropsMark other expr := by
  constructor
  · intro h
    -- both are reduced to one written type
    have hother := Relation.EqvGen.reflTransGen_le_eqvGen _ _ _ (reflTransGen_written other)
    have hexpr := Relation.EqvGen.reflTransGen_le_eqvGen _ _ _ (reflTransGen_written expr)
    rw [h] at hother
    exact hother.trans _ _ _ (hexpr.symm _ _)
  · intro h
    induction h with
    | rel before after hstep => exact ofExpr_eq_of_dropsMark hstep
    | refl expr => rfl
    | symm _ _ _ ih => exact ih.symm
    | trans _ _ _ _ _ ih ih' => exact ih.trans ih'

/-- **A reference has the text of the written type exactly if that repeats no mark.** -/
theorem render_ofExpr_eq_iff : (ofExpr expr).render = expr.render ↔ expr.isReduced = true := by
  rw [← render_written]
  rcases (Relation.reflTransGen_iff_eq_or_transGen).1 (reflTransGen_written expr) with hsame | hdropped
  · have hreduced : expr.isReduced = true := by
      rw [← hsame, isReduced_written, isReduced_ofExpr]
    exact iff_of_true (congrArg TypeExpr.render hsame) hreduced
  · have hlength := TypeExpr.DropsMark.length_render_lt hdropped
    obtain ⟨_, hfirst, _⟩ := Relation.TransGen.head'_iff.1 hdropped
    refine iff_of_false (fun htext => ?_) (Bool.eq_false_iff.1 hfirst.isReduced_eq_false)
    rw [htext] at hlength
    exact absurd hlength (Nat.lt_irrefl _)

end Marks

/-! ## §5. Texts tell references. -/

/-- The character that the text of a type ends with, if the type has a layer around its name. -/
def closing? : TypeRef → Option Char
  | .list _ => some ']'
  | .named _ => none
  | .nonNull _ => some '!'

section Texts

variable {type other : TypeRef}

/-- **The last character of the text of a type tells the outermost layer.** -/
theorem exists_concat_render (h : Text.isName type.typeName = true) : ∃ text c,
    type.render.toList = text ++ [c] ∧ type.closing? = if Text.isBareChar c then none else some c := by
  cases type with
  | list element =>
    refine ⟨'[' :: element.render.toList, ']', ?_, rfl⟩
    simp only [render, String.toList_append]
    rfl
  | named name =>
    obtain ⟨first, rest, htext, _, _⟩ := Text.exists_of_isName h
    have hne : name.toList ≠ [] := by
      intro hempty
      rw [typeName, hempty] at htext
      cases htext
    -- a name has no brackets and no marks
    have hlast := Text.isBareChar_of_isName h _ (List.getLast_mem hne)
    refine ⟨name.toList.dropLast, name.toList.getLast hne, (List.dropLast_append_getLast hne).symm, ?_⟩
    rw [if_pos hlast]
    rfl
  | nonNull inner =>
    refine ⟨inner.render.toList, '!', ?_, rfl⟩
    simp only [render, String.toList_append]
    rfl

theorem closing?_eq_of_render (hname : Text.isName type.typeName = true)
    (hother : Text.isName other.typeName = true) (h : type.render = other.render) :
    type.closing? = other.closing? := by
  obtain ⟨text, c, htext, hclosing⟩ := exists_concat_render hname
  obtain ⟨text', c', htext', hclosing'⟩ := exists_concat_render hother
  rw [h, htext'] at htext
  obtain ⟨_, hlast⟩ := List.append_inj' htext rfl
  injection hlast with hlast _
  rw [hclosing, hclosing', hlast]

/-- **Two references with proper names have one text only if they are the same.** -/
theorem eq_of_render (hname : Text.isName type.typeName = true) (hother : Text.isName other.typeName = true)
    (h : type.render = other.render) : type = other := by
  -- on the first type: the second one ends with the same character, and so has the same outermost layer
  induction type generalizing other with
  | list element ih =>
    have hclosing := closing?_eq_of_render hname hother h
    cases other with
    | list element' =>
      have htext : element.render = element'.render := by
        simpa only [render, String.append_left_inj, String.append_right_inj] using h
      exact congrArg list (ih hname hother htext)
    | _ => simp [closing?] at hclosing
  | named name =>
    have hclosing := closing?_eq_of_render hname hother h
    cases other with
    | named name' => exact congrArg named h
    | _ => simp [closing?] at hclosing
  | nonNull inner ih =>
    have hclosing := closing?_eq_of_render hname hother h
    cases other with
    | nonNull inner' =>
      have htext : inner.render = inner'.render := by
        simpa only [render, String.append_left_inj] using h
      exact congrArg nonNull (ih hname hother htext)
    | _ => simp [closing?] at hclosing

end Texts

end TypeRef

/-- **The notation of types is canonical and can be read in one way only.**  The reference that a written type
makes repeats no exclusion of null, has the same name within as many lists, and makes itself again when it is
written.  Exactly those written types make the same reference that differ in repeated marks only, and exactly
those have the text of their reference that repeat no mark.  References whose names are names have the same text
only if they are the same. -/
theorem type_notation_is_canonical :
    (∀ expr : TypeExpr,
      (TypeRef.ofExpr expr).isReduced = true ∧
      (TypeRef.ofExpr expr).typeName = expr.typeName ∧
      (TypeRef.ofExpr expr).listDepth = expr.listDepth ∧
      TypeRef.ofExpr (TypeRef.ofExpr expr).written = TypeRef.ofExpr expr ∧
      (∀ other, TypeRef.ofExpr other = TypeRef.ofExpr expr ↔
        Relation.EqvGen TypeExpr.DropsMark other expr) ∧
      ((TypeRef.ofExpr expr).render = expr.render ↔ expr.isReduced = true)) ∧
    ∀ type other : TypeRef, Text.isName type.typeName = true → Text.isName other.typeName = true →
      (type.render = other.render ↔ type = other) := by
  constructor
  · intro expr
    exact ⟨TypeRef.isReduced_ofExpr expr, TypeRef.typeName_ofExpr expr, TypeRef.listDepth_ofExpr expr,
      TypeRef.ofExpr_written (TypeRef.isReduced_ofExpr expr), fun other => TypeRef.ofExpr_eq_iff,
      TypeRef.render_ofExpr_eq_iff⟩
  · intro type other hname hother
    exact ⟨TypeRef.eq_of_render hname hother, congrArg TypeRef.render⟩

/-- A mark within brackets is not one behind them, though both texts have the same characters. -/
theorem mark_within_brackets_stays_within :
    Text.isName (TypeRef.list (.nonNull (.named "Int"))).typeName = true ∧
      Text.isName (TypeRef.nonNull (.list (.named "Int"))).typeName = true ∧
      (TypeRef.list (.nonNull (.named "Int"))).render ≠ (TypeRef.nonNull (.list (.named "Int"))).render := by
  have hwithin : Text.isName (TypeRef.list (.nonNull (.named "Int"))).typeName = true := by decide
  have hbehind : Text.isName (TypeRef.nonNull (.list (.named "Int"))).typeName = true := by decide
  refine ⟨hwithin, hbehind, fun htext => ?_⟩
  have hsame := (type_notation_is_canonical.2 _ _ hwithin hbehind).1 htext
  cases hsame

end GraphQLCheck
